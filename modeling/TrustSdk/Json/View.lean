import Mathlib.Algebra.Group.Int.Defs
import Mathlib.Algebra.Group.Nat.Defs
import TrustSdk.Common.Errno

/-!
# Reading JSON

`json.c`, as far as the handlers of downlink messages read with it. Validation and the search for
a field are coreJSON's, which is not part of the repository: they are the two functions of a
`CoreJson`, and nothing is assumed about them. What the component does with a value that coreJSON
has found is modelled here:

* `actrustJsonGetString` — a string, its escapes resolved, into a buffer;
* `actrustJsonGetInt` — a number, through `strtoll`.

Memory for the intermediate copy of a string may not be there; whether it is, is an argument.
-/

namespace TrustSdk.Json

/-- An error of this component. -/
def jsonErr (code : ErrCode) : Err := ⟨.json, code⟩

/-- The bytes of a literal. -/
def text (s : String) : List UInt8 := s.toUTF8.toList

/-- `JSONTypes_t`. -/
inductive CoreJsonType where
  | invalid
  | string
  | number
  | true
  | false
  | null
  | object
  | array
  deriving DecidableEq, Repr

/-- `actrust_json_type_t` -/
inductive JsonType where
  | string
  | number
  | bool
  | null
  | array
  | object
  deriving DecidableEq, Repr

/-- `JSON_Validate` and `JSON_SearchConst`. A search answers with the text of the value, which
for a string is what stands between its quotes. -/
structure CoreJson where
  validate : List UInt8 → Bool
  search : List UInt8 → String → Option (List UInt8 × CoreJsonType)

/-- `actrust_json_value_t`: a piece of the view with its type. -/
structure JsonValue where
  value : List UInt8
  type : JsonType
  deriving DecidableEq, Repr

/-- `map_corejson_type` -/
def mapCorejsonType : CoreJsonType → JsonType
  | .string => .string
  | .number => .number
  | .true | .false => .bool
  | .null => .null
  | .array => .array
  | .object => .object
  | .invalid => .null

/-- `actrust_json_init`: the view is the text itself. -/
def actrustJsonInit (json : CoreJson) (buf : List UInt8) : Except Err (List UInt8) :=
  if buf.length = 0 then .error (jsonErr .invalidArg)
  else if json.validate buf = false then .error (jsonErr .invalidArg)
  else .ok buf

/-- `actrust_json_query` -/
def actrustJsonQuery (json : CoreJson) (view : List UInt8) (path : String) :
    Except Err JsonValue :=
  match json.search view path with
  | none => .error (jsonErr .invalidArg)
  | some (value, type) => .ok ⟨value, mapCorejsonType type⟩

/-! ### Strings -/

/-- `json_hex_digit_to_int` -/
def jsonHexDigitToInt (c : UInt8) : Option ℕ :=
  if 48 ≤ c ∧ c ≤ 57 then some (c.toNat - 48)
  else if 97 ≤ c ∧ c ≤ 102 then some (c.toNat - 97 + 10)
  else if 65 ≤ c ∧ c ≤ 70 then some (c.toNat - 65 + 10)
  else none

/-- Four hexadecimal digits. -/
def jsonHex4 (h1 h2 h3 h4 : UInt8) : Option ℕ := do
  let h1 ← jsonHexDigitToInt h1
  let h2 ← jsonHexDigitToInt h2
  let h3 ← jsonHexDigitToInt h3
  let h4 ← jsonHexDigitToInt h4
  return h1 * 4096 + h2 * 256 + h3 * 16 + h4

/-- The character that an escape of one letter stands for. -/
def jsonEscapedChar (esc : UInt8) : Option UInt8 :=
  if esc = 34 ∨ esc = 92 ∨ esc = 47 then some esc
  else if esc = 98 then some 8
  else if esc = 102 then some 12
  else if esc = 110 then some 10
  else if esc = 114 then some 13
  else if esc = 116 then some 9
  else none

/-- A code point in UTF-8. -/
def jsonUtf8 (cp : ℕ) : List UInt8 :=
  let tail (n : ℕ) : UInt8 := .ofNat (0x80 + n % 64)
  if cp ≤ 0x7F then [.ofNat cp]
  else if cp ≤ 0x7FF then [.ofNat (0xC0 + cp / 64), tail cp]
  else if cp ≤ 0xFFFF then [.ofNat (0xE0 + cp / 4096), tail (cp / 64), tail cp]
  else [.ofNat (0xF0 + cp / 262144), tail (cp / 4096), tail (cp / 64), tail cp]

/-- `actrust_json_unescape_string`, with what is in the buffer so far. The buffer holds a
terminator behind the text. -/
def actrustJsonUnescapeString (outCap : ℕ) : List UInt8 → List UInt8 → Except Err (List UInt8)
  | [], out => .ok out
  | ch :: input, out =>
    if ch ≠ 92 then
      if out.length + 2 > outCap then .error (jsonErr .bufTooSmall)
      else actrustJsonUnescapeString outCap input (out ++ [ch])
    else
      match input with
      | [] => .error (jsonErr .invalidArg)
      | esc :: input =>
        if esc = 117 then
          match input with
          | h1 :: h2 :: h3 :: h4 :: input =>
            match jsonHex4 h1 h2 h3 h4 with
            | none => .error (jsonErr .invalidArg)
            | some cp =>
              if 0xD800 ≤ cp ∧ cp ≤ 0xDBFF then
                -- a high surrogate needs a low one behind it
                match input with
                | b :: u :: l1 :: l2 :: l3 :: l4 :: input =>
                  if b ≠ 92 ∨ u ≠ 117 then .error (jsonErr .invalidArg)
                  else
                    match jsonHex4 l1 l2 l3 l4 with
                    | none => .error (jsonErr .invalidArg)
                    | some low =>
                      if low < 0xDC00 ∨ low > 0xDFFF then .error (jsonErr .invalidArg)
                      else
                        let enc := jsonUtf8 (0x10000 + (cp - 0xD800) * 1024 + (low - 0xDC00))
                        if out.length + enc.length + 1 > outCap then
                          .error (jsonErr .bufTooSmall)
                        else actrustJsonUnescapeString outCap input (out ++ enc)
                | _ => .error (jsonErr .invalidArg)
              else if 0xDC00 ≤ cp ∧ cp ≤ 0xDFFF then .error (jsonErr .invalidArg)
              else
                let enc := jsonUtf8 cp
                if out.length + enc.length + 1 > outCap then .error (jsonErr .bufTooSmall)
                else actrustJsonUnescapeString outCap input (out ++ enc)
          | _ => .error (jsonErr .invalidArg)
        else
          match jsonEscapedChar esc with
          | none => .error (jsonErr .invalidArg)
          | some c =>
            if out.length + 2 > outCap then .error (jsonErr .bufTooSmall)
            else actrustJsonUnescapeString outCap input (out ++ [c])

/-- The outcome of `actrust_json_get_string`. A text that does not fit is not stored, but its
length is. -/
inductive JsonString where
  | stored (text : List UInt8)
  | tooLong (actualLen : ℕ)
  | failed (e : Err)
  deriving DecidableEq, Repr

/-- `actrust_json_get_string` into a buffer of `outLen` bytes. -/
def actrustJsonGetString (memory : Bool) (value : JsonValue) (outLen : ℕ) : JsonString :=
  if value.type ≠ .string then .failed (jsonErr .invalidArg)
  else if memory = false then .failed (jsonErr .noMem)
  else
    match actrustJsonUnescapeString (value.value.length + 1) value.value [] with
    | .error e => .failed e
    | .ok decoded => if decoded.length ≥ outLen then .tooLong decoded.length else .stored decoded

/-- A stored text leaves room for its terminator, -/
theorem length_of_stored {memory : Bool} {value : JsonValue} {outLen : ℕ} {text : List UInt8}
    (h : actrustJsonGetString memory value outLen = .stored text) : text.length < outLen := by
  unfold actrustJsonGetString at h
  split_ifs at h
  cases hdec : actrustJsonUnescapeString (value.value.length + 1) value.value [] with
  | error e => simp [hdec] at h
  | ok decoded =>
    simp only [hdec] at h
    split_ifs at h with hlen
    cases h
    exact Nat.lt_of_not_le hlen

/-- and one that is not has at least the length of the buffer. -/
theorem length_of_tooLong {memory : Bool} {value : JsonValue} {outLen n : ℕ}
    (h : actrustJsonGetString memory value outLen = .tooLong n) : outLen ≤ n := by
  unfold actrustJsonGetString at h
  split_ifs at h
  cases hdec : actrustJsonUnescapeString (value.value.length + 1) value.value [] with
  | error e => simp [hdec] at h
  | ok decoded =>
    simp only [hdec] at h
    split_ifs at h with hlen
    cases h
    exact hlen

/-! ### Numbers -/

/-- The white space of `strtoll`. -/
def isSpace (c : UInt8) : Bool := c = 32 ∨ 9 ≤ c ∧ c ≤ 13

/-- A decimal digit. -/
def isDigit (c : UInt8) : Bool := 48 ≤ c ∧ c ≤ 57

/-- `strtoll` in base ten on a whole text: a sign and digits behind white space, and nothing
behind the digits; none too when the number does not fit. -/
def strtoll (text : List UInt8) : Option ℤ :=
  let text := text.dropWhile isSpace
  let (negative, digits) :=
    match text with
    | 45 :: digits => (true, digits)
    | 43 :: digits => (false, digits)
    | digits => (false, digits)
  if digits = [] ∨ digits.all isDigit = false then none
  else
    let magnitude : ℕ := digits.foldl (fun n c => n * 10 + (c.toNat - 48)) 0
    let value : ℤ := if negative then -(magnitude : ℤ) else magnitude
    if value < -2 ^ 63 ∨ 2 ^ 63 ≤ value then none else some value

/-- `actrust_json_get_int` -/
def actrustJsonGetInt (value : JsonValue) : Except Err ℤ :=
  if value.type ≠ .number then .error (jsonErr .invalidArg)
  else if value.value.length ≥ 32 then .error (jsonErr .bufTooSmall)
  else
    -- the copy ends at its first zero byte
    match strtoll (value.value.takeWhile (· ≠ 0)) with
    | none => .error (jsonErr .invalidArg)
    | some n => .ok n

end TrustSdk.Json
