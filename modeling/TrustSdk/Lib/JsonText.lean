import Mathlib.Algebra.Field.Rat
import Mathlib.Data.ENat.Basic
import Mathlib.Data.Nat.Digits.Lemmas
import Mathlib.Tactic.NormNum

/-!
# JSON texts

What a text of bytes denotes. A reading takes a value, or what is left of an object or an array, off
the front of the text (`Reads`); a text denotes a value when nothing but blanks is left behind it.
The members of an object are a list: neither their order nor a key that comes twice is forgotten.
Strings are bytes, with their escapes resolved into UTF-8; numbers are rationals.

* `Reads.unique` — a text denotes one value at most;
* `Reads.extend` — what stands behind an object does not matter to its reading;
* `readString_escape`, `numberValue_decimal` — what a printer writes is read back.
-/

namespace JsonText

/-- A JSON value. Objects keep their members in order, keys as bytes. -/
inductive Value where
  | null
  | bool (b : Bool)
  | num (q : ℚ)
  | str (bytes : List UInt8)
  | arr (values : List Value)
  | obj (members : List (List UInt8 × Value))

/-- The members of an object. -/
abbrev Members := List (List UInt8 × Value)

mutual

/-- How deep arrays and objects are nested. -/
def Value.depth : Value → ℕ
  | .arr values => depthValues values + 1
  | .obj members => depthMembers members + 1
  | _ => 0

/-- The depth of the deepest value of a list. -/
def depthValues : List Value → ℕ
  | [] => 0
  | value :: values => max value.depth (depthValues values)

/-- The depth of the deepest member. -/
def depthMembers : List (List UInt8 × Value) → ℕ
  | [] => 0
  | (_, value) :: members => max value.depth (depthMembers members)

end

/-! ### Blanks and strings -/

/-- The white space of the grammar. -/
def isBlank (c : UInt8) : Bool := c = 32 ∨ c = 9 ∨ c = 10 ∨ c = 13

/-- The text behind its white space. -/
def skipBlanks (s : List UInt8) : List UInt8 := s.dropWhile isBlank

/-- The value of a hexadecimal digit. -/
def hexDigit (c : UInt8) : Option ℕ :=
  if 48 ≤ c ∧ c ≤ 57 then some (c.toNat - 48)
  else if 97 ≤ c ∧ c ≤ 102 then some (c.toNat - 87)
  else if 65 ≤ c ∧ c ≤ 70 then some (c.toNat - 55)
  else none

/-- The value of four of them. -/
def hexDigits (h1 h2 h3 h4 : UInt8) : Option ℕ := do
  let h1 ← hexDigit h1
  let h2 ← hexDigit h2
  let h3 ← hexDigit h3
  let h4 ← hexDigit h4
  return h1 * 4096 + h2 * 256 + h3 * 16 + h4

/-- A code point in UTF-8. -/
def utf8 (cp : ℕ) : List UInt8 :=
  let tail (n : ℕ) : UInt8 := .ofNat (0x80 + n % 64)
  if cp ≤ 0x7F then [.ofNat cp]
  else if cp ≤ 0x7FF then [.ofNat (0xC0 + cp / 64), tail cp]
  else if cp ≤ 0xFFFF then [.ofNat (0xE0 + cp / 4096), tail (cp / 64), tail cp]
  else [.ofNat (0xF0 + cp / 262144), tail (cp / 4096), tail (cp / 64), tail cp]

/-- What an escape of one letter stands for. -/
def escapedChar (c : UInt8) : Option UInt8 :=
  if c = 34 ∨ c = 92 ∨ c = 47 then some c
  else if c = 98 then some 8
  else if c = 102 then some 12
  else if c = 110 then some 10
  else if c = 114 then some 13
  else if c = 116 then some 9
  else none

/-- What was read before goes in front. -/
def prepend (bytes : List UInt8) : List UInt8 × List UInt8 → List UInt8 × List UInt8
  | (more, rest) => (bytes ++ more, rest)

/-- The rest of a string behind its opening quote, and what is left behind the closing one. A
surrogate comes in a pair. -/
def readString : List UInt8 → Option (List UInt8 × List UInt8)
  | [] => none
  | c :: s =>
    if c = 34 then some ([], s)
    else if c = 92 then
      match s with
      | [] => none
      | e :: s =>
        if e = 117 then
          match s with
          | h1 :: h2 :: h3 :: h4 :: s =>
            match hexDigits h1 h2 h3 h4 with
            | none => none
            | some high =>
              if 0xD800 ≤ high ∧ high ≤ 0xDBFF then
                match s with
                | b :: u :: l1 :: l2 :: l3 :: l4 :: s =>
                  match hexDigits l1 l2 l3 l4 with
                  | none => none
                  | some low =>
                    if b = 92 ∧ u = 117 ∧ 0xDC00 ≤ low ∧ low ≤ 0xDFFF then
                      (readString s).map
                        (prepend (utf8 (0x10000 + (high - 0xD800) * 1024 + (low - 0xDC00))))
                    else none
                | _ => none
              else if 0xDC00 ≤ high ∧ high ≤ 0xDFFF then none
              else (readString s).map (prepend (utf8 high))
          | _ => none
        else
          match escapedChar e with
          | none => none
          | some d => (readString s).map (prepend [d])
    else if c < 32 then none
    else (readString s).map (prepend [c])

/-! ### Numbers -/

/-- A decimal digit. -/
def isDigit (c : UInt8) : Bool := 48 ≤ c ∧ c ≤ 57

/-- The characters of numbers: digits, the signs, the point, `e` and `E`. -/
def isNumberChar (c : UInt8) : Bool := isDigit c ∨ c = 43 ∨ c = 45 ∨ c = 46 ∨ c = 69 ∨ c = 101

/-- The number that decimal digits spell. -/
def digitsValue (digits : List UInt8) : ℕ := digits.foldl (fun n c => n * 10 + (c.toNat - 48)) 0

/-- The exponent. -/
def exponentValue : List UInt8 → Option ℤ
  | [] => some 0
  | e :: s =>
    let (negative, digits) :=
      match s with
      | 43 :: digits => (false, digits)
      | 45 :: digits => (true, digits)
      | digits => (false, digits)
    if (e = 69 ∨ e = 101) ∧ digits ≠ [] ∧ digits.all isDigit then
      some (if negative then -(digitsValue digits : ℤ) else digitsValue digits)
    else none

/-- The digits behind the point, and what is left. -/
def readFraction : List UInt8 → Option (List UInt8 × List UInt8)
  | 46 :: s => if s.takeWhile isDigit = [] then none else some (s.span isDigit)
  | s => some ([], s)

/-- A number without its sign. -/
def magnitudeValue (s : List UInt8) : Option ℚ :=
  let digits := s.takeWhile isDigit
  if digits = [] ∨ digits.head? = some 48 ∧ digits.length > 1 then none
  else
    match readFraction (s.dropWhile isDigit) with
    | none => none
    | some (fraction, s) =>
      match exponentValue s with
      | none => none
      | some exponent =>
        some ((digitsValue digits + digitsValue fraction / 10 ^ fraction.length) * 10 ^ exponent)

/-- A number with its sign. -/
def numberValue : List UInt8 → Option ℚ
  | 45 :: s => (magnitudeValue s).map fun q => -q
  | s => magnitudeValue s

/-! ### Readings -/

/-- A value that is neither an array nor an object. -/
def readScalar : List UInt8 → Option (Value × List UInt8)
  | 34 :: s => (readString s).map fun (bytes, rest) => (.str bytes, rest)
  | 110 :: 117 :: 108 :: 108 :: rest => some (.null, rest)
  | 116 :: 114 :: 117 :: 101 :: rest => some (.bool true, rest)
  | 102 :: 97 :: 108 :: 115 :: 101 :: rest => some (.bool false, rest)
  | s => (numberValue (s.takeWhile isNumberChar)).map fun q => (.num q, s.dropWhile isNumberChar)

/-- What is read: a value, or what is left of an object or an array behind its bracket or a comma,
up to its end. -/
inductive Part where
  | value
  | members
  | elements

/-- What reading a part gives. -/
abbrev Part.Result : Part → Type
  | .value => Value
  | .members => Members
  | .elements => List Value

/-- The grammar: the text `s` begins with the part, which has the given value, and `rest` follows.
-/
inductive Reads : (part : Part) → List UInt8 → part.Result → List UInt8 → Prop
  | scalar {s rest : List UInt8} {value : Value} :
      readScalar (skipBlanks s) = some (value, rest) → Reads .value s value rest
  | emptyObject {s t rest : List UInt8} :
      skipBlanks s = 123 :: t → skipBlanks t = 125 :: rest → Reads .value s (.obj []) rest
  | object {s t rest : List UInt8} {members : Members} :
      skipBlanks s = 123 :: t → Reads .members t members rest → Reads .value s (.obj members) rest
  | emptyArray {s t rest : List UInt8} :
      skipBlanks s = 91 :: t → skipBlanks t = 93 :: rest → Reads .value s (.arr []) rest
  | array {s t rest : List UInt8} {values : List Value} :
      skipBlanks s = 91 :: t → Reads .elements t values rest → Reads .value s (.arr values) rest
  | lastMember {s t u v w rest : List UInt8} {key : List UInt8} {value : Value} :
      skipBlanks s = 34 :: t → readString t = some (key, u) → skipBlanks u = 58 :: v →
      Reads .value v value w → skipBlanks w = 125 :: rest → Reads .members s [(key, value)] rest
  | member {s t u v w x rest : List UInt8} {key : List UInt8} {value : Value} {members : Members} :
      skipBlanks s = 34 :: t → readString t = some (key, u) → skipBlanks u = 58 :: v →
      Reads .value v value w → skipBlanks w = 44 :: x → Reads .members x members rest →
      Reads .members s ((key, value) :: members) rest
  | lastElement {s w rest : List UInt8} {value : Value} :
      Reads .value s value w → skipBlanks w = 93 :: rest → Reads .elements s [value] rest
  | element {s w x rest : List UInt8} {value : Value} {values : List Value} :
      Reads .value s value w → skipBlanks w = 44 :: x → Reads .elements x values rest →
      Reads .elements s (value :: values) rest

/-- The text denotes the value. -/
def Denotes (s : List UInt8) (value : Value) : Prop :=
  ∃ rest, Reads .value s value rest ∧ skipBlanks rest = []

/-- The bytes of code points. -/
def IsUtf8 (s : List UInt8) : Prop := ∃ chars : List Char, chars.flatMap String.utf8EncodeChar = s

/-- A text of RFC 8259: in UTF-8, of a value that is nested no deeper than the limit, if there is
one. -/
def IsText (limit : ℕ∞) (s : List UInt8) : Prop :=
  IsUtf8 s ∧ ∃ value, Denotes s value ∧ value.depth ≤ limit

/-! ### One value at most -/

/-- Members begin with a quote. -/
theorem Reads.members_start {s rest : List UInt8} {members : Members}
    (h : Reads .members s members rest) : ∃ t, skipBlanks s = 34 :: t := by
  cases h with
  | lastMember hs => exact ⟨_, hs⟩
  | member hs => exact ⟨_, hs⟩

/-- A value does not begin with a closing bracket. -/
theorem Reads.value_start {s rest t : List UInt8} {value : Value}
    (h : Reads .value s value rest) : skipBlanks s ≠ 93 :: t := by
  intro hs
  cases h with
  | scalar hscalar =>
    rw [hs] at hscalar
    cases hscalar
  | emptyObject hs' _ => exact nomatch hs.symm.trans hs'
  | object hs' _ => exact nomatch hs.symm.trans hs'
  | emptyArray hs' _ => exact nomatch hs.symm.trans hs'
  | array hs' _ => exact nomatch hs.symm.trans hs'

/-- Nor does a list of elements. -/
theorem Reads.elements_start {s rest t : List UInt8} {values : List Value}
    (h : Reads .elements s values rest) : skipBlanks s ≠ 93 :: t := by
  cases h with
  | lastElement hvalue _ => exact hvalue.value_start
  | element hvalue _ _ => exact hvalue.value_start

/-- What comes first decides the rule, and what is left behind a part decides the next one. -/
theorem Reads.unique {part : Part} {s rest rest' : List UInt8} {result result' : part.Result}
    (h : Reads part s result rest) (h' : Reads part s result' rest') :
    result = result' ∧ rest = rest' := by
  -- the first character behind the blanks tells the rules apart, and each rule leaves one rest
  induction h generalizing rest' with
  | scalar hscalar =>
    cases h' with
    | scalar hscalar' =>
      rw [hscalar] at hscalar'
      cases hscalar'
      exact ⟨rfl, rfl⟩
    | emptyObject hs _ => rw [hs] at hscalar; cases hscalar
    | object hs _ => rw [hs] at hscalar; cases hscalar
    | emptyArray hs _ => rw [hs] at hscalar; cases hscalar
    | array hs _ => rw [hs] at hscalar; cases hscalar
  | emptyObject hs ht =>
    cases h' with
    | scalar hscalar => rw [hs] at hscalar; cases hscalar
    | emptyObject hs' ht' =>
      cases hs.symm.trans hs'
      cases ht.symm.trans ht'
      exact ⟨rfl, rfl⟩
    | object hs' hmembers =>
      cases hs.symm.trans hs'
      obtain ⟨_, hstart⟩ := hmembers.members_start
      cases ht.symm.trans hstart
    | emptyArray hs' _ => cases hs.symm.trans hs'
    | array hs' _ => cases hs.symm.trans hs'
  | object hs hmembers ih =>
    cases h' with
    | scalar hscalar => rw [hs] at hscalar; cases hscalar
    | emptyObject hs' ht =>
      cases hs.symm.trans hs'
      obtain ⟨_, hstart⟩ := hmembers.members_start
      cases ht.symm.trans hstart
    | object hs' hmembers' =>
      cases hs.symm.trans hs'
      obtain ⟨rfl, rfl⟩ := ih hmembers'
      exact ⟨rfl, rfl⟩
    | emptyArray hs' _ => cases hs.symm.trans hs'
    | array hs' _ => cases hs.symm.trans hs'
  | emptyArray hs ht =>
    cases h' with
    | scalar hscalar => rw [hs] at hscalar; cases hscalar
    | emptyObject hs' _ => cases hs.symm.trans hs'
    | object hs' _ => cases hs.symm.trans hs'
    | emptyArray hs' ht' =>
      cases hs.symm.trans hs'
      cases ht.symm.trans ht'
      exact ⟨rfl, rfl⟩
    | array hs' helements =>
      cases hs.symm.trans hs'
      exact absurd ht helements.elements_start
  | array hs helements ih =>
    cases h' with
    | scalar hscalar => rw [hs] at hscalar; cases hscalar
    | emptyObject hs' _ => cases hs.symm.trans hs'
    | object hs' _ => cases hs.symm.trans hs'
    | emptyArray hs' ht =>
      cases hs.symm.trans hs'
      exact absurd ht helements.elements_start
    | array hs' helements' =>
      cases hs.symm.trans hs'
      obtain ⟨rfl, rfl⟩ := ih helements'
      exact ⟨rfl, rfl⟩
  | lastMember hs ht hu hvalue hw ih =>
    cases h' with
    | lastMember hs' ht' hu' hvalue' hw' =>
      cases hs.symm.trans hs'
      cases ht.symm.trans ht'
      cases hu.symm.trans hu'
      obtain ⟨rfl, rfl⟩ := ih hvalue'
      cases hw.symm.trans hw'
      exact ⟨rfl, rfl⟩
    | member hs' ht' hu' hvalue' hw' _ =>
      cases hs.symm.trans hs'
      cases ht.symm.trans ht'
      cases hu.symm.trans hu'
      obtain ⟨rfl, rfl⟩ := ih hvalue'
      cases hw.symm.trans hw'
  | member hs ht hu hvalue hw hmembers ih ihmembers =>
    cases h' with
    | lastMember hs' ht' hu' hvalue' hw' =>
      cases hs.symm.trans hs'
      cases ht.symm.trans ht'
      cases hu.symm.trans hu'
      obtain ⟨rfl, rfl⟩ := ih hvalue'
      cases hw.symm.trans hw'
    | member hs' ht' hu' hvalue' hw' hmembers' =>
      cases hs.symm.trans hs'
      cases ht.symm.trans ht'
      cases hu.symm.trans hu'
      obtain ⟨rfl, rfl⟩ := ih hvalue'
      cases hw.symm.trans hw'
      obtain ⟨rfl, rfl⟩ := ihmembers hmembers'
      exact ⟨rfl, rfl⟩
  | lastElement hvalue hw ih =>
    cases h' with
    | lastElement hvalue' hw' =>
      obtain ⟨rfl, rfl⟩ := ih hvalue'
      cases hw.symm.trans hw'
      exact ⟨rfl, rfl⟩
    | element hvalue' hw' _ =>
      obtain ⟨rfl, rfl⟩ := ih hvalue'
      cases hw.symm.trans hw'
  | element hvalue hw helements ih ihelements =>
    cases h' with
    | lastElement hvalue' hw' =>
      obtain ⟨rfl, rfl⟩ := ih hvalue'
      cases hw.symm.trans hw'
    | element hvalue' hw' helements' =>
      obtain ⟨rfl, rfl⟩ := ih hvalue'
      cases hw.symm.trans hw'
      obtain ⟨rfl, rfl⟩ := ihelements helements'
      exact ⟨rfl, rfl⟩

/-- A text has one value. -/
theorem Denotes.unique {s : List UInt8} {value value' : Value} (h : Denotes s value)
    (h' : Denotes s value') : value = value' := by
  obtain ⟨rest, hreads, -⟩ := h
  obtain ⟨rest', hreads', -⟩ := h'
  exact (hreads.unique hreads').1

/-! ### Strings, one character or escape at a time -/

section Strings

variable {s : List UInt8} {c d e h1 h2 h3 h4 l1 l2 l3 l4 : UInt8} {high low : ℕ}

alias readString_unfold := readString.eq_def

/-- A plain character is read as itself. -/
theorem readString_plain (hquote : c ≠ 34) (hslash : c ≠ 92) (hplain : ¬c < 32) :
    readString (c :: s) = (readString s).map (prepend [c]) := by
  rw [readString_unfold]
  dsimp only
  rw [if_neg hquote, if_neg hslash, if_neg hplain]

/-- A short escape. -/
theorem readString_letter (he : e ≠ 117) (hd : escapedChar e = some d) :
    readString (92 :: e :: s) = (readString s).map (prepend [d]) := by
  rw [readString_unfold]
  dsimp only
  rw [if_neg (by decide), if_pos rfl, if_neg he, hd]

/-- An escaped code unit that is no surrogate. -/
theorem readString_unit (hhigh : hexDigits h1 h2 h3 h4 = some high)
    (hfirst : ¬(0xD800 ≤ high ∧ high ≤ 0xDBFF)) (hsecond : ¬(0xDC00 ≤ high ∧ high ≤ 0xDFFF)) :
    readString (92 :: 117 :: h1 :: h2 :: h3 :: h4 :: s)
      = (readString s).map (prepend (utf8 high)) := by
  rw [readString_unfold]
  dsimp only
  rw [if_neg (by decide), if_pos rfl, if_pos rfl, hhigh]
  dsimp only
  rw [if_neg hfirst, if_neg hsecond]

/-- A surrogate pair. -/
theorem readString_pair (hhigh : hexDigits h1 h2 h3 h4 = some high)
    (hfirst : 0xD800 ≤ high ∧ high ≤ 0xDBFF) (hlow : hexDigits l1 l2 l3 l4 = some low)
    (hsecond : 0xDC00 ≤ low ∧ low ≤ 0xDFFF) :
    readString (92 :: 117 :: h1 :: h2 :: h3 :: h4 :: 92 :: 117 :: l1 :: l2 :: l3 :: l4 :: s)
      = (readString s).map
          (prepend (utf8 (0x10000 + (high - 0xD800) * 1024 + (low - 0xDC00)))) := by
  rw [readString_unfold]
  dsimp only
  rw [if_neg (by decide), if_pos rfl, if_pos rfl, hhigh]
  dsimp only
  rw [if_pos hfirst, hlow]
  dsimp only
  rw [if_pos ⟨rfl, rfl, hsecond⟩]

/-- The closing quote. -/
theorem readString_quote : readString (34 :: s) = some ([], s) := by
  rw [readString_unfold]
  dsimp only
  rw [if_pos rfl]

end Strings

/-! ### What stands behind -/

section Behind

variable {s t rest : List UInt8} {c : UInt8} {value : Value}

/-- More text behind what is not blank does not change the blanks. -/
theorem skipBlanks_append (h : skipBlanks s = c :: t) (x : List UInt8) :
    skipBlanks (s ++ x) = c :: (t ++ x) := by
  induction s with
  | nil => cases h
  | cons d s ih =>
    simp only [skipBlanks, List.dropWhile_cons, List.cons_append] at h ih ⊢
    split_ifs at h ⊢
    · exact ih h
    · cases h
      rfl

/-- What is in front of a string that was read. -/
theorem map_prepend {r : Option (List UInt8 × List UInt8)} {bytes out rest : List UInt8}
    (h : r.map (prepend bytes) = some (out, rest)) :
    ∃ more, r = some (more, rest) ∧ out = bytes ++ more := by
  obtain ⟨⟨more, left⟩, rfl, hout⟩ := Option.map_eq_some_iff.mp h
  obtain ⟨rfl, rfl⟩ := Prod.mk.inj hout
  exact ⟨more, rfl, rfl⟩

/-- A string that is read takes its closing quote at least, and looks at nothing behind it. -/
theorem readString_reads {bytes : List UInt8} (h : readString s = some (bytes, rest)) :
    rest.length < s.length ∧ ∀ x, readString (s ++ x) = some (bytes, rest ++ x) := by
  -- only the cases that go on read anything; the closing quote is one of them
  fun_induction readString s generalizing bytes with
  | case1 | case3 | case4 | case5 | case7 | case8 | case9 | case11 | case12 | case14 => cases h
  | case2 =>
    cases h
    exact ⟨Nat.lt_succ_self _, fun x => readString_quote⟩
  | case6 h1 h2 h3 h4 high hhigh hfirst b u l1 l2 l3 l4 s low hlow hpair _ ih =>
    obtain ⟨more, hmore, hbytes⟩ := map_prepend h
    obtain ⟨hlt, hbehind⟩ := ih hmore
    obtain ⟨rfl, rfl, hsecond⟩ := hpair
    constructor
    · simp only [List.length_cons]
      omega
    · intro x
      simp only [List.cons_append]
      rw [readString_pair hhigh hfirst hlow hsecond, hbehind, hbytes]
      rfl
  | case10 h1 h2 h3 h4 s high hhigh hfirst hsecond _ ih =>
    obtain ⟨more, hmore, hbytes⟩ := map_prepend h
    obtain ⟨hlt, hbehind⟩ := ih hmore
    constructor
    · simp only [List.length_cons]
      omega
    · intro x
      simp only [List.cons_append]
      rw [readString_unit hhigh hfirst hsecond, hbehind, hbytes]
      rfl
  | case13 e s he d hd _ ih =>
    obtain ⟨more, hmore, hbytes⟩ := map_prepend h
    obtain ⟨hlt, hbehind⟩ := ih hmore
    constructor
    · exact hlt.trans (Nat.lt_add_of_pos_right two_pos)
    · intro x
      simp only [List.cons_append]
      rw [readString_letter he hd, hbehind, hbytes]
      rfl
  | case15 c s hquote hslash hplain ih =>
    obtain ⟨more, hmore, hbytes⟩ := map_prepend h
    obtain ⟨hlt, hbehind⟩ := ih hmore
    constructor
    · exact hlt.trans (Nat.lt_succ_self _)
    · intro x
      simp only [List.cons_append]
      rw [readString_plain hquote hslash hplain, hbehind, hbytes]
      rfl

/-- More text behind a string is left over. -/
theorem readString_append {bytes : List UInt8} (h : readString s = some (bytes, rest))
    (x : List UInt8) : readString (s ++ x) = some (bytes, rest ++ x) :=
  (readString_reads h).2 x

/-- A text with a number character in front is read as a number. -/
theorem readScalar_number (hc : isNumberChar c = true) :
    readScalar (c :: s) = (numberValue ((c :: s).takeWhile isNumberChar)).map
      fun q => (.num q, (c :: s).dropWhile isNumberChar) := by
  unfold readScalar
  split
  · rename_i heq
    cases heq
    cases hc
  · rename_i heq
    cases heq
    cases hc
  · rename_i heq
    cases heq
    cases hc
  · rename_i heq
    cases heq
    cases hc
  · rfl

/-- A number that ended is not changed by more text. -/
theorem number_append (hrest : s.dropWhile isNumberChar ≠ []) (x : List UInt8) :
    (s ++ x).takeWhile isNumberChar = s.takeWhile isNumberChar
      ∧ (s ++ x).dropWhile isNumberChar = s.dropWhile isNumberChar ++ x := by
  induction s with
  | nil => exact absurd rfl hrest
  | cons d s ih =>
    simp only [List.cons_append, List.takeWhile_cons, List.dropWhile_cons] at hrest ⊢
    split_ifs at hrest ⊢
    · obtain ⟨htake, hdrop⟩ := ih hrest
      exact ⟨congrArg _ htake, hdrop⟩
    · exact ⟨rfl, rfl⟩

/-- More text behind a scalar that ended is left over. -/
theorem readScalar_append (h : readScalar s = some (value, rest))
    (hrest : rest ≠ []) (x : List UInt8) : readScalar (s ++ x) = some (value, rest ++ x) := by
  unfold readScalar at h
  split at h
  · obtain ⟨⟨bytes, left⟩, hstring, hvalue⟩ := Option.map_eq_some_iff.mp h
    cases hvalue
    simp only [readScalar, List.cons_append, readString_append hstring x, Option.map_some]
  · cases h
    rfl
  · cases h
    rfl
  · cases h
    rfl
  · obtain ⟨q, hnumber, hvalue⟩ := Option.map_eq_some_iff.mp h
    cases hvalue
    cases s with
    | nil => cases hrest rfl
    | cons d s =>
      by_cases hd : isNumberChar d = true
      · obtain ⟨htake, hdrop⟩ := number_append hrest x
        rw [List.cons_append, readScalar_number hd, ← List.cons_append, htake, hdrop, hnumber]
        rfl
      · rw [List.takeWhile_cons_of_neg hd] at hnumber
        cases hnumber

/-- A value may need what stops it, a number being one. -/
theorem Reads.append {part : Part} {result : part.Result} (h : Reads part s result rest)
    (x : List UInt8) (hrest : part = .value → rest ≠ []) :
    Reads part (s ++ x) result (rest ++ x) := by
  -- a scalar at the very end might go on in the added text, hence the condition; the other parts
  -- end with a mark of their own
  induction h with
  | @scalar s rest value hscalar =>
    have hrest := hrest rfl
    refine .scalar ?_
    cases hs : skipBlanks s with
    | nil =>
      rw [hs] at hscalar
      cases hscalar
    | cons c t =>
      rw [hs] at hscalar
      rw [skipBlanks_append hs, ← List.cons_append]
      exact readScalar_append hscalar hrest x
  | emptyObject hs ht => exact .emptyObject (skipBlanks_append hs x) (skipBlanks_append ht x)
  | object hs _ ih => exact .object (skipBlanks_append hs x) (ih nofun)
  | emptyArray hs ht => exact .emptyArray (skipBlanks_append hs x) (skipBlanks_append ht x)
  | array hs _ ih => exact .array (skipBlanks_append hs x) (ih nofun)
  | lastMember hs ht hu _ hw ih =>
    refine .lastMember (skipBlanks_append hs x) (readString_append ht x) (skipBlanks_append hu x)
      (ih fun _ hnil => ?_) (skipBlanks_append hw x)
    rw [hnil] at hw
    cases hw
  | member hs ht hu _ hw _ ih ihmembers =>
    refine .member (skipBlanks_append hs x) (readString_append ht x) (skipBlanks_append hu x)
      (ih fun _ hnil => ?_) (skipBlanks_append hw x) (ihmembers nofun)
    rw [hnil] at hw
    cases hw
  | lastElement _ hw ih =>
    refine .lastElement (ih fun _ hnil => ?_) (skipBlanks_append hw x)
    rw [hnil] at hw
    cases hw
  | element _ hw _ ih ihelements =>
    refine .element (ih fun _ hnil => ?_) (skipBlanks_append hw x) (ihelements nofun)
    rw [hnil] at hw
    cases hw

/-- No scalar is an object. -/
theorem readScalar_ne_obj {members : Members} : readScalar s ≠ some (.obj members, rest) := by
  intro h
  unfold readScalar at h
  split at h
  · obtain ⟨⟨bytes, left⟩, -, hvalue⟩ := Option.map_eq_some_iff.mp h
    cases hvalue
  · cases h
  · cases h
  · cases h
  · obtain ⟨q, -, hvalue⟩ := Option.map_eq_some_iff.mp h
    cases hvalue

/-- The bracket of an object stops it. -/
theorem Reads.object_append {members : Members} (h : Reads .value s (.obj members) rest)
    (x : List UInt8) : Reads .value (s ++ x) (.obj members) (rest ++ x) := by
  generalize hvalue : Value.obj members = value at h
  cases h with
  | scalar hscalar =>
    rw [← hvalue] at hscalar
    exact absurd hscalar readScalar_ne_obj
  | emptyObject hs ht =>
    exact .emptyObject (skipBlanks_append hs x) (skipBlanks_append ht x)
  | object hs hmembers => exact .object (skipBlanks_append hs x) (hmembers.append x nofun)
  | emptyArray | array => cases hvalue

/-- What begins with a brace is an object. -/
theorem Reads.of_brace (h : Reads .value s value rest) (hs : skipBlanks s = 123 :: t) :
    ∃ members, value = .obj members := by
  cases h with
  | scalar hscalar =>
    rw [hs] at hscalar
    cases hscalar
  | emptyObject => exact ⟨_, rfl⟩
  | object => exact ⟨_, rfl⟩
  | emptyArray hs' _ => cases hs.symm.trans hs'
  | array hs' _ => cases hs.symm.trans hs'

/-- A brace and a quote begin an object with a member. -/
theorem Reads.brace_quote (h : Reads .value s value rest) (hs : skipBlanks s = 123 :: 34 :: t) :
    ∃ members, Reads .members (34 :: t) members rest := by
  cases h with
  | scalar hscalar =>
    rw [hs] at hscalar
    cases hscalar
  | emptyObject hs' ht =>
    cases hs.symm.trans hs'
    cases ht
  | object hs' hmembers =>
    cases hs.symm.trans hs'
    exact ⟨_, hmembers⟩
  | emptyArray hs' _ => cases hs.symm.trans hs'
  | array hs' _ => cases hs.symm.trans hs'

/-- A quote begins a string. -/
theorem Reads.quote (h : Reads .value (34 :: t) value rest) :
    ∃ bytes, readString t = some (bytes, rest) := by
  have hskip : skipBlanks (34 :: t) = 34 :: t := rfl
  cases h with
  | scalar hscalar =>
    obtain ⟨⟨bytes, left⟩, hstring, hvalue⟩ := Option.map_eq_some_iff.mp hscalar
    cases hvalue
    exact ⟨bytes, hstring⟩
  | emptyObject hs _ => cases hskip.symm.trans hs
  | object hs _ => cases hskip.symm.trans hs
  | emptyArray hs _ => cases hskip.symm.trans hs
  | array hs _ => cases hskip.symm.trans hs

/-- No value begins with a comma or a closing brace. -/
theorem Reads.value_ne_stop (h : Reads .value (c :: t) value rest) : c ≠ 44 ∧ c ≠ 125 := by
  have hstop (hblank : isBlank c = false) (hscalar : readScalar (c :: t) = none)
      (hbrace : c ≠ 123) (hbracket : c ≠ 91) : False := by
    have hskip : skipBlanks (c :: t) = c :: t :=
      List.dropWhile_cons_of_neg (by rw [hblank]; exact Bool.noConfusion)
    cases h with
    | scalar hs =>
      rw [hskip, hscalar] at hs
      cases hs
    | emptyObject hs _ => exact hbrace (List.cons.inj (hskip.symm.trans hs)).1
    | object hs _ => exact hbrace (List.cons.inj (hskip.symm.trans hs)).1
    | emptyArray hs _ => exact hbracket (List.cons.inj (hskip.symm.trans hs)).1
    | array hs _ => exact hbracket (List.cons.inj (hskip.symm.trans hs)).1
  constructor
  · rintro rfl
    exact hstop rfl rfl nofun nofun
  · rintro rfl
    exact hstop rfl rfl nofun nofun

/-- What stands behind the value of a member: the end of the object, or a comma and more members. -/
def Follows (w rest : List UInt8) : Prop :=
  skipBlanks w = 125 :: rest ∨ ∃ x more, skipBlanks w = 44 :: x ∧ Reads .members x more rest

/-- A key, a colon and what stands behind them. -/
theorem Reads.first_member {members : Members} (h : Reads .members (34 :: t) members rest) :
    ∃ key u v value w, readString t = some (key, u) ∧ skipBlanks u = 58 :: v ∧
      Reads .value v value w ∧ Follows w rest := by
  have hquote {t' : List UInt8} (hs : skipBlanks (34 :: t) = 34 :: t') : t = t' :=
    (List.cons.inj hs).2
  cases h with
  | lastMember hs hkey hu hvalue hw =>
    cases hquote hs
    exact ⟨_, _, _, _, _, hkey, hu, hvalue, .inl hw⟩
  | member hs hkey hu hvalue hw hmore =>
    cases hquote hs
    exact ⟨_, _, _, _, _, hkey, hu, hvalue, .inr ⟨_, _, hw, hmore⟩⟩

/-! ### How much is read -/

/-- Skipping blanks makes a text no longer. -/
theorem skipBlanks_length_le (s : List UInt8) : (skipBlanks s).length ≤ s.length :=
  (List.dropWhile_suffix isBlank).length_le

/-- A character behind the blanks is consumed. -/
theorem skipBlanks_length {d : UInt8} {u : List UInt8} (h : skipBlanks s = d :: u) :
    u.length < s.length := by
  have hle := skipBlanks_length_le s
  rw [h] at hle
  exact hle

/-- Reading a string consumes its quote. -/
theorem readString_length {bytes : List UInt8} (h : readString s = some (bytes, rest)) :
    rest.length < s.length :=
  (readString_reads h).1

/-- A scalar is a character at least. -/
theorem readScalar_length (h : readScalar s = some (value, rest)) : rest.length < s.length := by
  unfold readScalar at h
  split at h
  · obtain ⟨⟨bytes, left⟩, hstring, hvalue⟩ := Option.map_eq_some_iff.mp h
    cases hvalue
    exact (readString_length hstring).trans (Nat.lt_succ_self _)
  · cases h
    exact Nat.lt_add_of_pos_right (show 0 < 4 by decide)
  · cases h
    exact Nat.lt_add_of_pos_right (show 0 < 4 by decide)
  · cases h
    exact Nat.lt_add_of_pos_right (show 0 < 5 by decide)
  · obtain ⟨q, hnumber, hvalue⟩ := Option.map_eq_some_iff.mp h
    cases hvalue
    -- a number has one character at least, or it would have no value
    have hsplit := congrArg List.length (List.takeWhile_append_dropWhile (p := isNumberChar) (l := s))
    rw [List.length_append] at hsplit
    have hsome : 0 < (s.takeWhile isNumberChar).length := by
      refine List.length_pos_iff.mpr fun hnil => ?_
      rw [hnil] at hnumber
      cases hnumber
    omega

/-- Whatever is read, it is a character at least. -/
theorem Reads.length_lt {part : Part} {result : part.Result} (h : Reads part s result rest) :
    rest.length < s.length := by
  induction h with
  | scalar hscalar => exact (readScalar_length hscalar).trans_le (skipBlanks_length_le _)
  | emptyObject hs ht => exact (skipBlanks_length ht).trans (skipBlanks_length hs)
  | object hs _ ih => exact ih.trans (skipBlanks_length hs)
  | emptyArray hs ht => exact (skipBlanks_length ht).trans (skipBlanks_length hs)
  | array hs _ ih => exact ih.trans (skipBlanks_length hs)
  | lastMember hs ht hu _ hw ih =>
    have hvalue := (skipBlanks_length hw).trans ih
    exact ((hvalue.trans (skipBlanks_length hu)).trans (readString_length ht)).trans
      (skipBlanks_length hs)
  | member hs ht hu _ hw _ ih ihmembers =>
    have hvalue := (ihmembers.trans (skipBlanks_length hw)).trans ih
    exact ((hvalue.trans (skipBlanks_length hu)).trans (readString_length ht)).trans
      (skipBlanks_length hs)
  | lastElement _ hw ih => exact (skipBlanks_length hw).trans ih
  | element _ hw _ ih ihelements => exact (ihelements.trans (skipBlanks_length hw)).trans ih

/-- What follows is shorter. -/
theorem Follows.length_lt {w : List UInt8} (h : Follows w rest) : rest.length < w.length := by
  rcases h with hend | ⟨x, more, hcomma, hmore⟩
  · exact skipBlanks_length hend
  · exact hmore.length_lt.trans (skipBlanks_length hcomma)

end Behind

/-! ### UTF-8 -/

section Utf8

variable {s t : List UInt8}

/-- UTF-8 texts can be joined. -/
theorem IsUtf8.append (hs : IsUtf8 s) (ht : IsUtf8 t) : IsUtf8 (s ++ t) := by
  obtain ⟨chars, rfl⟩ := hs
  obtain ⟨chars', rfl⟩ := ht
  exact ⟨chars ++ chars', List.flatMap_append⟩

/-- A character below 128 is its own encoding. -/
theorem utf8EncodeChar_ascii {c : UInt8} (hc : c < 128) :
    String.utf8EncodeChar (Char.ofNat c.toNat) = [c] := by
  have hlt : c.toNat < 128 := UInt8.lt_iff_toNat_lt.mp hc
  have hval : (Char.ofNat c.toNat).val.toNat = c.toNat := by
    have hvalid : c.toNat.isValidChar := .inl (by omega)
    rw [Char.ofNat, dif_pos hvalid]
    rfl
  unfold String.utf8EncodeChar
  dsimp only
  rw [hval, if_pos (by omega), UInt8.ofNat_toNat]

/-- A text of such characters is UTF-8. -/
theorem isUtf8_ascii (hs : ∀ c ∈ s, c < 128) : IsUtf8 s := by
  induction s with
  | nil => exact ⟨[], rfl⟩
  | cons c s ih =>
    have hc : IsUtf8 [c] := by
      refine ⟨[Char.ofNat c.toNat], ?_⟩
      rw [List.flatMap_singleton]
      exact utf8EncodeChar_ascii (hs c (List.mem_cons_self ..))
    exact hc.append (ih fun d hd => hs d (List.mem_cons_of_mem c hd))

/-- A character is one byte of seven bits, or bytes of eight. -/
theorem utf8EncodeChar_bytes (c : Char) :
    (∃ b, b < 128 ∧ String.utf8EncodeChar c = [b])
      ∨ ∀ b ∈ String.utf8EncodeChar c, 128 ≤ b := by
  -- the marks of longer encodings all have their highest bit set
  have hbyte {n : ℕ} (hlow : 128 ≤ n) (hhigh : n < 256) : 128 ≤ UInt8.ofNat n := by
    rw [UInt8.le_iff_toNat_le, UInt8.toNat_ofNat', Nat.mod_eq_of_lt hhigh]
    exact hlow
  unfold String.utf8EncodeChar
  dsimp only
  split_ifs with h1 h2 h3
  · refine .inl ⟨_, ?_, rfl⟩
    rw [UInt8.lt_iff_toNat_lt, UInt8.toNat_ofNat', Nat.mod_eq_of_lt (by omega)]
    exact Nat.lt_succ_of_le h1
  · refine .inr ?_
    simp only [List.forall_mem_cons]
    exact ⟨hbyte (by omega) (by omega), hbyte (by omega) (by omega), nofun⟩
  · refine .inr ?_
    simp only [List.forall_mem_cons]
    exact ⟨hbyte (by omega) (by omega), hbyte (by omega) (by omega), hbyte (by omega) (by omega),
      nofun⟩
  · refine .inr ?_
    simp only [List.forall_mem_cons]
    exact ⟨hbyte (by omega) (by omega), hbyte (by omega) (by omega), hbyte (by omega) (by omega),
      hbyte (by omega) (by omega), nofun⟩

/-- What leaves the bytes of eight bits alone, and makes no new ones. -/
theorem IsUtf8.flatMap (hs : IsUtf8 s) {f : UInt8 → List UInt8}
    (hascii : ∀ c, c < 128 → ∀ d ∈ f c, d < 128) (hrest : ∀ c, 128 ≤ c → f c = [c]) :
    IsUtf8 (s.flatMap f) := by
  obtain ⟨chars, rfl⟩ := hs
  induction chars with
  | nil => exact ⟨[], rfl⟩
  | cons char chars ih =>
    rw [List.flatMap_cons, List.flatMap_append]
    refine IsUtf8.append ?_ ih
    rcases utf8EncodeChar_bytes char with ⟨b, hb, hchar⟩ | hbytes
    · rw [hchar, List.flatMap_singleton]
      exact isUtf8_ascii (hascii b hb)
    · have hsame : (String.utf8EncodeChar char).flatMap f = String.utf8EncodeChar char := by
        rw [List.flatMap_congr fun b hb => hrest b (hbytes b hb), List.flatMap_singleton']
      rw [hsame]
      exact ⟨[char], List.flatMap_singleton ..⟩

end Utf8

/-! ### Printed numbers -/

/-- The decimal digits, as they are printed. -/
def digitsText (n : ℕ) : List UInt8 :=
  if n = 0 then [48] else (Nat.digits 10 n).reverse.map fun d => .ofNat (48 + d)

/-- The decimal text of an integer. -/
def decimal (n : ℤ) : List UInt8 :=
  if n < 0 then 45 :: digitsText n.natAbs else digitsText n.natAbs

example : decimal (-120) = [45, 49, 50, 48] := by decide

/-- The value of a digit's character. -/
theorem digit_val {d : ℕ} (h : d < 10) : (UInt8.ofNat (48 + d)).toNat = 48 + d := by
  rw [UInt8.toNat_ofNat']
  exact Nat.mod_eq_of_lt (by omega)

/-- The character of a digit is a digit. -/
theorem isDigit_digit {d : ℕ} (h : d < 10) : isDigit (.ofNat (48 + d)) = true := by
  have hval := digit_val h
  simp only [isDigit, UInt8.le_iff_toNat_le, hval, decide_eq_true_eq]
  constructor
  · exact Nat.le_add_right 48 d
  · show 48 + d ≤ 57
    omega

/-- One more digit. -/
theorem digitsValue_append (digits : List UInt8) (c : UInt8) :
    digitsValue (digits ++ [c]) = digitsValue digits * 10 + (c.toNat - 48) := by
  simp only [digitsValue, List.foldl_append, List.foldl_cons, List.foldl_nil]

/-- Digits in the order of `Nat.digits` are reversed in the text. -/
theorem digitsValue_reverse (l : List ℕ) (h : ∀ d ∈ l, d < 10) :
    digitsValue (l.reverse.map fun d => .ofNat (48 + d)) = Nat.ofDigits 10 l := by
  induction l with
  | nil => rfl
  | cons d l ih =>
    have hd : d < 10 := h d (List.mem_cons_self ..)
    have ih := ih fun e he => h e (List.mem_cons_of_mem _ he)
    rw [List.reverse_cons, List.map_append, List.map_singleton, digitsValue_append, ih,
      digit_val hd, Nat.ofDigits_cons]
    omega

/-- The text of a number spells it. -/
theorem digitsValue_text (n : ℕ) : digitsValue (digitsText n) = n := by
  unfold digitsText
  split_ifs with hn
  · rw [hn]
    rfl
  · rw [digitsValue_reverse _ fun d hd => Nat.digits_lt_base (by decide) hd, Nat.ofDigits_digits]

/-- It consists of digits. -/
theorem digitsText_all (n : ℕ) : ∀ c ∈ digitsText n, isDigit c = true := by
  intro c hc
  unfold digitsText at hc
  split_ifs at hc with hn
  · rw [List.mem_singleton.mp hc]
    rfl
  · obtain ⟨d, hd, rfl⟩ := List.mem_map.mp hc
    exact isDigit_digit (Nat.digits_lt_base (by decide) (List.mem_reverse.mp hd))

/-- A leading zero is the only digit. -/
theorem digitsText_head (n : ℕ) :
    ∃ c digits, digitsText n = c :: digits ∧ (c = 48 → digits = []) := by
  unfold digitsText
  split_ifs with hn
  · exact ⟨48, [], rfl, fun _ => rfl⟩
  · have hne := Nat.digits_ne_nil_iff_ne_zero (b := 10).mpr hn
    obtain ⟨l, hl⟩ : ∃ l, Nat.digits 10 n = l ++ [(Nat.digits 10 n).getLast hne] :=
      ⟨_, (List.dropLast_append_getLast hne).symm⟩
    have hzero := Nat.getLast_digit_ne_zero 10 hn
    have hlt : (Nat.digits 10 n).getLast hne < 10 :=
      Nat.digits_lt_base (by decide) (List.getLast_mem hne)
    rw [hl, List.reverse_append, List.reverse_singleton, List.singleton_append, List.map_cons]
    refine ⟨_, _, rfl, fun h => ?_⟩
    have hval := digit_val hlt
    rw [h] at hval
    have hval : 48 = 48 + (Nat.digits 10 n).getLast hne := hval
    omega

/-- Where the characters of a class end. -/
theorem span_of_all {p : UInt8 → Bool} {s x : List UInt8} (hs : ∀ c ∈ s, p c = true)
    (hx : ∀ c ∈ x.head?, p c = false) :
    (s ++ x).takeWhile p = s ∧ (s ++ x).dropWhile p = x := by
  -- on the characters of the class; the first one behind them ends both
  induction s with
  | nil =>
    cases x with
    | nil => exact ⟨rfl, rfl⟩
    | cons c x =>
      have hc : ¬p c = true := by
        rw [hx c rfl]
        decide
      exact ⟨List.takeWhile_cons_of_neg hc, List.dropWhile_cons_of_neg hc⟩
  | cons d s ih =>
    obtain ⟨htake, hdrop⟩ := ih fun c hc => hs c (List.mem_cons_of_mem d hc)
    have hd : p d = true := hs d (List.mem_cons_self ..)
    rw [List.cons_append, List.takeWhile_cons_of_pos hd, List.dropWhile_cons_of_pos hd, htake]
    exact ⟨rfl, hdrop⟩

/-- The text of a natural number is read as it. -/
theorem magnitudeValue_digits (n : ℕ) : magnitudeValue (digitsText n) = some (n : ℚ) := by
  have hspan : (digitsText n).takeWhile isDigit = digitsText n
      ∧ (digitsText n).dropWhile isDigit = [] := by
    have h := span_of_all (digitsText_all n) (x := []) nofun
    rwa [List.append_nil] at h
  -- the text has a first digit, and it is zero only for zero itself
  have hhead : ¬(digitsText n = []
      ∨ (digitsText n).head? = some 48 ∧ (digitsText n).length > 1) := by
    obtain ⟨c, digits, htext, hzero⟩ := digitsText_head n
    rw [htext]
    rintro (h | ⟨h, hlong⟩)
    · cases h
    · rw [hzero (Option.some.inj h)] at hlong
      exact absurd hlong (Nat.lt_irrefl 1)
  have hvalue : ((n : ℚ) + (0 : ℕ) / 10 ^ 0) * 10 ^ (0 : ℤ) = n := by
    norm_num
  unfold magnitudeValue
  dsimp only
  rw [hspan.1, hspan.2, if_neg hhead]
  simp only [readFraction, exponentValue, digitsValue_text]
  exact congrArg some hvalue

/-- The text of an integer is read as it. -/
theorem numberValue_decimal (n : ℤ) : numberValue (decimal n) = some (n : ℚ) := by
  unfold decimal
  split_ifs with hn
  · rw [numberValue, magnitudeValue_digits]
    have habs : -((n.natAbs : ℤ) : ℚ) = n := by
      rw [Int.ofNat_natAbs_of_nonpos hn.le, Int.cast_neg, neg_neg]
    exact congrArg some habs
  · -- without a sign the first character is a digit
    obtain ⟨c, digits, htext, -⟩ := digitsText_head n.natAbs
    have hc : isDigit c = true := digitsText_all _ c (by rw [htext]; exact List.mem_cons_self ..)
    have hvalue : numberValue (digitsText n.natAbs) = magnitudeValue (digitsText n.natAbs) := by
      rw [htext]
      unfold numberValue
      split
      · rename_i heq
        cases heq
        cases hc
      · rfl
    have habs : ((n.natAbs : ℤ) : ℚ) = n := by
      rw [Int.natAbs_of_nonneg (not_lt.mp hn)]
    rw [hvalue, magnitudeValue_digits]
    exact congrArg some habs

/-- A digit may stand in a number. -/
theorem isNumberChar_of_isDigit {c : UInt8} (h : isDigit c = true) : isNumberChar c = true := by
  unfold isNumberChar
  exact decide_eq_true (Or.inl h)

/-- The text of an integer consists of number characters. -/
theorem decimal_all (n : ℤ) : ∀ c ∈ decimal n, isNumberChar c = true := by
  have hdigits : ∀ c ∈ digitsText n.natAbs, isNumberChar c = true := fun c hc =>
    isNumberChar_of_isDigit (digitsText_all _ c hc)
  unfold decimal
  split_ifs with hn
  · intro c hc
    rcases List.mem_cons.mp hc with rfl | hc
    · rfl
    · exact hdigits c hc
  · exact hdigits

/-- It is not empty. -/
theorem decimal_head (n : ℤ) : ∃ c s, decimal n = c :: s := by
  obtain ⟨c, digits, htext, -⟩ := digitsText_head n.natAbs
  unfold decimal
  split_ifs
  · exact ⟨45, _, rfl⟩
  · exact ⟨c, digits, htext⟩

/-- It is read back before anything that cannot stand in a number. -/
theorem readScalar_decimal (n : ℤ) {x : List UInt8} (hx : ∀ c ∈ x.head?, isNumberChar c = false) :
    readScalar (decimal n ++ x) = some (.num n, x) := by
  obtain ⟨htake, hdrop⟩ := span_of_all (decimal_all n) hx
  obtain ⟨c, s, htext⟩ := decimal_head n
  have hc : isNumberChar c = true := decimal_all n c (by rw [htext]; exact List.mem_cons_self ..)
  have hread := readScalar_number (s := s ++ x) hc
  rw [← List.cons_append, ← htext, htake, hdrop, numberValue_decimal] at hread
  exact hread

end JsonText
