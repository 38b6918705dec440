import Mathlib.Data.List.DropRight
import Mathlib.Data.List.GetD
import TrustSdk.Json.View
import TrustSdk.Lib.JsonText

/-!
# Writing JSON

The builder of `json.c`: a text grows in a buffer of the caller, one call after another, and is
closed and validated in the end. A C string is the list of its bytes, without the terminator. What
a call that fails has left in the buffer is not modelled: the builders below are those of calls that
succeed.

Every call comes down to a single write of its text (`BuilderCall.run_eq`), which
`jsonBuilderWrite_append` shows of a sequence of writes.
-/

namespace TrustSdk.Json

open JsonText

/-! ### The buffer -/

/-- `actrust_json_builder_t`. -/
structure Builder where
  buf : ℕ → UInt8
  cap : ℕ
  len : ℕ

/-- `REMAINING_CAP`. -/
def Builder.remainingCap (b : Builder) : ℕ := b.cap - b.len

/-- What has been written so far. -/
def Builder.text (b : Builder) : List UInt8 := (List.range b.len).map b.buf

/-- The `memcpy` of `json_builder_write`, and the terminator. -/
def Builder.append (b : Builder) (data : List UInt8) : Builder where
  buf i :=
    if b.len ≤ i ∧ i < b.len + data.length then data.getD (i - b.len) 0
    else if i = b.len + data.length then 0
    else b.buf i
  cap := b.cap
  len := b.len + data.length

/-- `json_builder_write`: all of the data with a NUL behind it, or nothing. -/
def jsonBuilderWrite (b : Builder) (data : List UInt8) : Except Err Builder :=
  if b.cap = 0 then .error (jsonErr .invalidArg)
  else if data.length = 0 then .ok b
  else if data.length + 1 > b.remainingCap then .error (jsonErr .bufTooSmall)
  else .ok (b.append data)

/-- `json_builder_write_char` -/
def jsonBuilderWriteChar (b : Builder) (c : UInt8) : Except Err Builder := jsonBuilderWrite b [c]

/-! ### Strings and keys -/

/-- A digit of `%04x`. -/
def hexChar (n : UInt8) : UInt8 := if n < 10 then 48 + n else 87 + n

/-- What is written for one character of a string. -/
def escapeSeq (p : UInt8) : List UInt8 :=
  if p = 34 then [92, 34]
  else if p = 92 then [92, 92]
  else if p = 8 then [92, 98]
  else if p = 12 then [92, 102]
  else if p = 10 then [92, 110]
  else if p = 13 then [92, 114]
  else if p = 9 then [92, 116]
  else if p < 32 then [92, 117, 48, 48, hexChar (p / 16), hexChar (p % 16)]
  else [p]

/-- `json_builder_append_escaped_len`; with the whole string, `json_builder_append_escaped`. -/
def jsonBuilderAppendEscapedLen (b : Builder) : List UInt8 → Except Err Builder
  | [] => .ok b
  | p :: s => do
    let b ← jsonBuilderWrite b (escapeSeq p)
    jsonBuilderAppendEscapedLen b s

/-- The comma of `json_builder_append_key`. -/
def jsonBuilderAppendComma (b : Builder) : Except Err Builder :=
  if b.len > 0 ∧ b.buf (b.len - 1) ≠ 123 ∧ b.buf (b.len - 1) ≠ 91 then jsonBuilderWriteChar b 44
  else .ok b

/-- `json_builder_append_key` -/
def jsonBuilderAppendKey (b : Builder) (key : List UInt8) : Except Err Builder := do
  let b ← jsonBuilderAppendComma b
  let b ← jsonBuilderWriteChar b 34
  let b ← jsonBuilderAppendEscapedLen b key
  jsonBuilderWrite b [34, 58]

/-- `json_is_space_char` -/
def jsonIsSpaceChar (c : UInt8) : Bool := c = 32 ∨ c = 9 ∨ c = 13 ∨ c = 10

/-- `json_is_object_text`: what stands first and last, blanks aside. -/
def jsonIsObjectText (json : List UInt8) : Bool :=
  let trimmed := (json.dropWhile jsonIsSpaceChar).rdropWhile jsonIsSpaceChar
  trimmed.head? = some 123 ∧ trimmed.getLast? = some 125

/-! ### The calls -/

/-- `actrust_json_builder_init` -/
def actrustJsonBuilderInit (buf : ℕ → UInt8) (cap : ℕ) : Except Err Builder :=
  if cap < 2 then .error (jsonErr .invalidArg) else jsonBuilderWriteChar ⟨buf, cap, 0⟩ 123

/-- `actrust_json_builder_add_string`. The length is checked, since a key or a value is a C string.
-/
def actrustJsonBuilderAddString (b : Builder) (key val : List UInt8) (valLen : ℕ) :
    Except Err Builder :=
  if val.length ≠ valLen then .error (jsonErr .invalidArg)
  else do
    let b ← jsonBuilderAppendKey b key
    let b ← jsonBuilderWriteChar b 34
    let b ← jsonBuilderAppendEscapedLen b val
    jsonBuilderWriteChar b 34

/-- `actrust_json_builder_add_object` -/
def actrustJsonBuilderAddObject (json : CoreJson) (b : Builder) (key objJson : List UInt8) :
    Except Err Builder :=
  if objJson.length = 0 then .error (jsonErr .invalidArg)
  else if json.validate objJson = false then .error (jsonErr .invalidArg)
  else if jsonIsObjectText objJson = false then .error (jsonErr .invalidArg)
  else do
    let b ← jsonBuilderAppendKey b key
    jsonBuilderWrite b objJson

/-- `actrust_json_builder_open_object` -/
def actrustJsonBuilderOpenObject (b : Builder) (key : List UInt8) : Except Err Builder := do
  let b ← jsonBuilderAppendKey b key
  jsonBuilderWriteChar b 123

/-- `actrust_json_builder_close_object` -/
def actrustJsonBuilderCloseObject (b : Builder) : Except Err Builder := jsonBuilderWriteChar b 125

/-- `actrust_json_builder_add_int` -/
def actrustJsonBuilderAddInt (b : Builder) (key : List UInt8) (val : Int64) :
    Except Err Builder := do
  let b ← jsonBuilderAppendKey b key
  -- the characters that `snprintf` would have written, against the size of its buffer
  let digits := decimal val.toInt
  if digits.length ≥ 32 then .error (jsonErr .hwFailure) else jsonBuilderWrite b digits

/-- `actrust_json_builder_add_bool` -/
def actrustJsonBuilderAddBool (b : Builder) (key : List UInt8) (val : Bool) :
    Except Err Builder := do
  let b ← jsonBuilderAppendKey b key
  if val then jsonBuilderWrite b [116, 114, 117, 101]
  else jsonBuilderWrite b [102, 97, 108, 115, 101]

/-- `actrust_json_builder_finish`: what it hands out is the text of the builder it returns. -/
def actrustJsonBuilderFinish (json : CoreJson) (b : Builder) : Except Err Builder :=
  if json.validate b.text then .ok b
  else
    match jsonBuilderWriteChar b 125 with
    | .error _ => .error (jsonErr .bufTooSmall)
    | .ok b => if json.validate b.text then .ok b else .error (jsonErr .invalidArg)

/-- The calls between init and finish. -/
inductive BuilderCall where
  | addString (key val : List UInt8) (valLen : ℕ)
  | addInt (key : List UInt8) (val : Int64)
  | addBool (key : List UInt8) (val : Bool)
  | addObject (key objJson : List UInt8)
  | openObject (key : List UInt8)
  | closeObject

/-- The call as the source makes it. -/
def BuilderCall.run (json : CoreJson) (b : Builder) : BuilderCall → Except Err Builder
  | .addString key val valLen => actrustJsonBuilderAddString b key val valLen
  | .addInt key val => actrustJsonBuilderAddInt b key val
  | .addBool key val => actrustJsonBuilderAddBool b key val
  | .addObject key objJson => actrustJsonBuilderAddObject json b key objJson
  | .openObject key => actrustJsonBuilderOpenObject b key
  | .closeObject => actrustJsonBuilderCloseObject b

/-- Calls one after another, as long as they succeed. -/
def runCalls (json : CoreJson) : Builder → List BuilderCall → Except Err Builder
  | b, [] => .ok b
  | b, call :: calls => do
    let b ← call.run json b
    runCalls json b calls

/-- Initialisation, the calls and the end. -/
def buildText (json : CoreJson) (buf : ℕ → UInt8) (cap : ℕ) (calls : List BuilderCall) :
    Except Err (List UInt8) := do
  let b ← actrustJsonBuilderInit buf cap
  let b ← runCalls json b calls
  let b ← actrustJsonBuilderFinish json b
  return b.text

/-! ### A call is one write -/

variable {json : CoreJson} {b b' : Builder} {s t : List UInt8}

/-- The text is as long as the counter says. -/
theorem text_length (b : Builder) : b.text.length = b.len := by
  rw [Builder.text, List.length_map, List.length_range]

theorem append_len (b : Builder) (s : List UInt8) : (b.append s).len = b.len + s.length := rfl

section Append

variable {i : ℕ}

/-- What lies outside the appended part and its NUL is left. -/
theorem append_outside (h : i < b.len ∨ b.len + s.length < i) :
    (b.append s).buf i = b.buf i := by
  show (if _ then _ else if _ then _ else _) = _
  rw [if_neg (by omega), if_neg (by omega)]

/-- The appended part. -/
theorem append_inside (h : b.len ≤ i) (h' : i < b.len + s.length) :
    (b.append s).buf i = s.getD (i - b.len) 0 :=
  if_pos ⟨h, h'⟩

/-- The NUL behind it. -/
theorem append_end (h : i = b.len + s.length) : (b.append s).buf i = 0 := by
  show (if _ then _ else if _ then _ else _) = _
  rw [if_neg (by omega), if_pos h]

/-- The text grows by what is appended. -/
theorem append_text (b : Builder) (s : List UInt8) : (b.append s).text = b.text ++ s := by
  refine List.ext_getElem ?_ fun i hi hi' => ?_
  · rw [List.length_append, text_length, text_length, append_len]
  · have hlen : i < b.len + s.length := by rwa [text_length] at hi
    have hget : (b.append s).text[i] = (b.append s).buf i := by
      simp only [Builder.text, List.getElem_map, List.getElem_range]
    rw [hget]
    by_cases hold : i < b.len
    · rw [List.getElem_append_left (by rw [text_length]; exact hold), append_outside (.inl hold)]
      simp only [Builder.text, List.getElem_map, List.getElem_range]
    · rw [List.getElem_append_right (by rw [text_length]; omega), append_inside (by omega) hlen,
        List.getD_eq_getElem _ _ (by omega)]
      simp only [text_length]

/-- The second write covers the terminator of the first. -/
theorem append_append (b : Builder) (s t : List UInt8) :
    (b.append s).append t = b.append (s ++ t) := by
  have hlen : (s ++ t).length = s.length + t.length := List.length_append
  have hbuf (i : ℕ) : ((b.append s).append t).buf i = (b.append (s ++ t)).buf i := by
    have hlen' := append_len b s
    -- the NUL behind the first part is overwritten by the second
    rcases lt_trichotomy i (b.len + s.length + t.length) with hi | hi | hi
    · by_cases ht : b.len + s.length ≤ i
      · rw [append_inside (by omega) (by omega), append_inside (by omega) (by omega),
          List.getD_append_right _ _ _ _ (by omega), hlen', Nat.sub_sub]
      · rw [append_outside (by omega)]
        by_cases hs : b.len ≤ i
        · rw [append_inside hs (by omega), append_inside hs (by omega),
            List.getD_append _ _ _ _ (by omega)]
        · rw [append_outside (by omega), append_outside (by omega)]
    · rw [append_end (by omega), append_end (by omega)]
    · rw [append_outside (by omega), append_outside (by omega), append_outside (by omega)]
  have hend : ((b.append s).append t).len = (b.append (s ++ t)).len := by
    rw [append_len, append_len, append_len, hlen, Nat.add_assoc]
  exact congrArg₂ (fun buf len => Builder.mk buf b.cap len) (funext hbuf) hend

end Append

/-- The text of a builder is what a write appends to; the terminator stands behind it. -/
structure Wrote (b : Builder) (s : List UInt8) (b' : Builder) : Prop where
  text : b'.text = b.text ++ s
  cap : b'.cap = b.cap
  terminated : s ≠ [] → b'.len < b'.cap ∧ b'.buf b'.len = 0

/-- Writing nothing. -/
theorem jsonBuilderWrite_nil (hcap : b.cap ≠ 0) : jsonBuilderWrite b [] = .ok b := by
  rw [jsonBuilderWrite, if_neg hcap, if_pos List.length_nil]

/-- A write with room for it. -/
theorem jsonBuilderWrite_eq (hs : s ≠ []) (hfits : b.len + s.length < b.cap) :
    jsonBuilderWrite b s = .ok (b.append s) := by
  have hlen := List.length_pos_iff.mpr hs
  unfold jsonBuilderWrite Builder.remainingCap
  rw [if_neg (by omega), if_neg (by omega), if_neg (by omega)]

/-- A write without room. -/
theorem jsonBuilderWrite_full (hcap : b.cap ≠ 0) (hs : s ≠ [])
    (hfull : b.cap ≤ b.len + s.length) :
    jsonBuilderWrite b s = .error (jsonErr .bufTooSmall) := by
  have hlen := List.length_pos_iff.mpr hs
  unfold jsonBuilderWrite Builder.remainingCap
  rw [if_neg hcap, if_neg (by omega), if_pos (by omega)]

/-- What a write that went well has done. -/
theorem jsonBuilderWrite_ok (h : jsonBuilderWrite b s = .ok b') : Wrote b s b' := by
  have hcap : b.cap ≠ 0 := by
    intro hcap
    rw [jsonBuilderWrite, if_pos hcap] at h
    cases h
  by_cases hs : s = []
  · rw [hs, jsonBuilderWrite_nil hcap] at h
    cases h
    rw [hs]
    exact ⟨(List.append_nil _).symm, rfl, fun hne => absurd rfl hne⟩
  · by_cases hfits : b.len + s.length < b.cap
    · rw [jsonBuilderWrite_eq hs hfits] at h
      cases h
      exact ⟨append_text b s, rfl, fun _ => ⟨hfits, append_end rfl⟩⟩
    · rw [jsonBuilderWrite_full hcap hs (not_lt.mp hfits)] at h
      cases h

/-- A write that fits goes well. -/
theorem jsonBuilderWrite_fits (hcap : b.cap ≠ 0) (hfits : b.len + s.length < b.cap) :
    ∃ b', jsonBuilderWrite b s = .ok b' := by
  by_cases hs : s = []
  · exact ⟨b, by rw [hs, jsonBuilderWrite_nil hcap]⟩
  · exact ⟨_, jsonBuilderWrite_eq hs hfits⟩

/-- Two writes are one, also where they fail. -/
theorem jsonBuilderWrite_append (b : Builder) (s t : List UInt8) :
    (jsonBuilderWrite b s >>= fun b => jsonBuilderWrite b t) = jsonBuilderWrite b (s ++ t) := by
  by_cases hcap : b.cap = 0
  · rw [jsonBuilderWrite, if_pos hcap, jsonBuilderWrite, if_pos hcap]
    rfl
  by_cases hs : s = []
  · rw [hs, jsonBuilderWrite_nil hcap]
    rfl
  have hst : s ++ t ≠ [] := List.append_ne_nil_of_left_ne_nil hs t
  by_cases hfits : b.len + s.length < b.cap
  · rw [jsonBuilderWrite_eq hs hfits]
    -- the second part fits behind the first if and only if both fit together
    show jsonBuilderWrite (b.append s) t = _
    have hlen : (b.append s).len = b.len + s.length := rfl
    by_cases ht : t = []
    · have hnil : jsonBuilderWrite (b.append s) [] = .ok (b.append s) := jsonBuilderWrite_nil hcap
      rw [ht, List.append_nil, hnil, jsonBuilderWrite_eq hs hfits]
    · by_cases hfits' : b.len + (s ++ t).length < b.cap
      · rw [jsonBuilderWrite_eq hst hfits', ← append_append]
        refine jsonBuilderWrite_eq ht ?_
        rw [hlen, Nat.add_assoc, ← List.length_append]
        exact hfits'
      · rw [jsonBuilderWrite_full hcap hst (not_lt.mp hfits')]
        refine jsonBuilderWrite_full hcap ht ?_
        rw [hlen, Nat.add_assoc, ← List.length_append]
        exact not_lt.mp hfits'
  · rw [jsonBuilderWrite_full hcap hs (not_lt.mp hfits), jsonBuilderWrite_full hcap hst ?_]
    · rfl
    · rw [List.length_append]
      omega

/-- The same when the second part is a step of its own. -/
theorem jsonBuilderWrite_bind (hcap : b.cap ≠ 0) {f : Builder → Except Err Builder}
    (hf : ∀ b, b.cap ≠ 0 → f b = jsonBuilderWrite b t) :
    (jsonBuilderWrite b s >>= f) = jsonBuilderWrite b (s ++ t) := by
  rw [← jsonBuilderWrite_append]
  cases hwrite : jsonBuilderWrite b s with
  | error err => rfl
  | ok b' => exact hf b' ((jsonBuilderWrite_ok hwrite).cap.symm ▸ hcap)

/-- The text of a string between its quotes. -/
def escaped (s : List UInt8) : List UInt8 := s.flatMap escapeSeq

/-- The comma before a key. -/
def separator (before : List UInt8) : List UInt8 :=
  if before.getLast?.all fun c => c = 123 ∨ c = 91 then [] else [44]

/-- The key with its separator, its quotes and the colon. -/
def keyText (before key : List UInt8) : List UInt8 :=
  separator before ++ (34 :: (escaped key ++ [34, 58]))

/-- What a call writes behind what is there. -/
def BuilderCall.text (before : List UInt8) : BuilderCall → List UInt8
  | .addString key val _ => keyText before key ++ (34 :: (escaped val ++ [34]))
  | .addInt key val => keyText before key ++ decimal val.toInt
  | .addBool key true => keyText before key ++ [116, 114, 117, 101]
  | .addBool key false => keyText before key ++ [102, 97, 108, 115, 101]
  | .addObject key objJson => keyText before key ++ objJson
  | .openObject key => keyText before key ++ [123]
  | .closeObject => [125]

/-- The text after some calls. -/
def callsText : List UInt8 → List BuilderCall → List UInt8
  | before, [] => before
  | before, call :: calls => callsText (before ++ call.text before) calls

/-- What a call checks of its arguments. -/
def BuilderCall.Admitted (json : CoreJson) : BuilderCall → Prop
  | .addString _ val valLen => val.length = valLen
  | .addObject _ objJson =>
    objJson ≠ [] ∧ json.validate objJson = true ∧ jsonIsObjectText objJson = true
  | _ => True

/-- Escaping character by character is writing the escaped text. -/
theorem jsonBuilderAppendEscapedLen_eq (hcap : b.cap ≠ 0) :
    jsonBuilderAppendEscapedLen b s = jsonBuilderWrite b (escaped s) := by
  induction s generalizing b with
  | nil => exact (jsonBuilderWrite_nil hcap).symm
  | cons p s ih =>
    rw [escaped, List.flatMap_cons]
    exact jsonBuilderWrite_bind hcap fun b hcap => ih hcap

/-- The test of `json_builder_append_comma`, on the text. -/
theorem separator_text (b : Builder) :
    separator b.text
      = if b.len > 0 ∧ b.buf (b.len - 1) ≠ 123 ∧ b.buf (b.len - 1) ≠ 91 then [44] else [] := by
  unfold separator
  cases hlen : b.len with
  | zero => rw [Builder.text, hlen]; rfl
  | succ n =>
    have hlast : b.text.getLast? = some (b.buf n) := by
      rw [Builder.text, hlen, List.range_succ, List.map_append, List.map_singleton,
        List.getLast?_concat]
    rw [hlast]
    -- no comma behind an opening brace or bracket
    by_cases hc : b.buf n = 123 ∨ b.buf n = 91
    · rw [if_pos, if_neg]
      · rintro ⟨-, h, h'⟩
        exact hc.elim h h'
      · exact decide_eq_true hc
    · rw [if_neg, if_pos]
      · exact ⟨Nat.succ_pos n, fun h => hc (.inl h), fun h => hc (.inr h)⟩
      · exact fun h => hc (of_decide_eq_true h)

/-- The comma is written where the separator has one. -/
theorem jsonBuilderAppendComma_eq (hcap : b.cap ≠ 0) :
    jsonBuilderAppendComma b = jsonBuilderWrite b (separator b.text) := by
  unfold jsonBuilderAppendComma
  rw [separator_text]
  split_ifs
  · rfl
  · exact (jsonBuilderWrite_nil hcap).symm

/-- The key is one write. -/
theorem jsonBuilderAppendKey_eq (hcap : b.cap ≠ 0) (key : List UInt8) :
    jsonBuilderAppendKey b key = jsonBuilderWrite b (keyText b.text key) := by
  unfold jsonBuilderAppendKey keyText
  rw [jsonBuilderAppendComma_eq hcap]
  refine jsonBuilderWrite_bind hcap fun b hcap => ?_
  refine jsonBuilderWrite_bind (s := [34]) hcap fun b hcap => ?_
  rw [jsonBuilderAppendEscapedLen_eq hcap]
  exact jsonBuilderWrite_append b _ _

/-- A number has no more digits than its bound. -/
theorem digitsText_length {n k : ℕ} (hk : 0 < k) (h : n < 10 ^ k) :
    (digitsText n).length ≤ k := by
  unfold digitsText
  split_ifs
  · exact hk
  · rw [List.length_map, List.length_reverse]
    exact (Nat.digits_length_le_iff (by decide) n).mpr h

/-- The decimal text of an `int64_t` fits the buffer of `snprintf`. -/
theorem decimal_length (n : Int64) : (decimal n.toInt).length ≤ 20 := by
  have hlow := n.le_toInt
  have hhigh := n.toInt_lt
  have hdigits : (digitsText n.toInt.natAbs).length ≤ 19 :=
    digitsText_length (by decide) (by omega)
  unfold decimal
  split_ifs
  · exact Nat.succ_le_succ hdigits
  · omega

/-- A call is a write of its text. -/
theorem BuilderCall.run_eq {call : BuilderCall} (hadmitted : call.Admitted json)
    (hcap : b.cap ≠ 0) : call.run json b = jsonBuilderWrite b (call.text b.text) := by
  -- the pieces of each call are the pieces of its text, written one behind the other
  cases call with
  | addString key val valLen =>
    have hlen : ¬val.length ≠ valLen := not_not.mpr hadmitted
    simp only [run, text, actrustJsonBuilderAddString, if_neg hlen]
    rw [jsonBuilderAppendKey_eq hcap]
    refine jsonBuilderWrite_bind hcap fun b hcap => ?_
    refine jsonBuilderWrite_bind (s := [34]) hcap fun b hcap => ?_
    rw [jsonBuilderAppendEscapedLen_eq hcap]
    exact jsonBuilderWrite_append b _ _
  | addInt key val =>
    have hlen : ¬(decimal val.toInt).length ≥ 32 := fun h => by
      exact absurd ((decimal_length val).trans' h) (by decide)
    simp only [run, text, actrustJsonBuilderAddInt, if_neg hlen]
    rw [jsonBuilderAppendKey_eq hcap]
    exact jsonBuilderWrite_append b _ _
  | addBool key val =>
    cases val with
    | true =>
      simp only [run, actrustJsonBuilderAddBool]
      rw [jsonBuilderAppendKey_eq hcap]
      exact jsonBuilderWrite_append b _ _
    | false =>
      simp only [run, actrustJsonBuilderAddBool]
      rw [jsonBuilderAppendKey_eq hcap]
      exact jsonBuilderWrite_append b _ _
  | addObject key objJson =>
    obtain ⟨hne, hvalid, hobject⟩ := hadmitted
    have hlen : ¬objJson.length = 0 := fun h => hne (List.length_eq_zero_iff.mp h)
    have hvalid : ¬json.validate objJson = false := by rw [hvalid]; exact Bool.noConfusion
    have hobject : ¬jsonIsObjectText objJson = false := by rw [hobject]; exact Bool.noConfusion
    simp only [run, text, actrustJsonBuilderAddObject, if_neg hlen, if_neg hvalid, if_neg hobject]
    rw [jsonBuilderAppendKey_eq hcap]
    exact jsonBuilderWrite_append b _ _
  | openObject key =>
    simp only [run, text, actrustJsonBuilderOpenObject]
    rw [jsonBuilderAppendKey_eq hcap]
    exact jsonBuilderWrite_append b _ _
  | closeObject => rfl

/-- A call that went well was admitted and has written its text. -/
theorem BuilderCall.run_ok {call : BuilderCall} (hcap : b.cap ≠ 0)
    (h : call.run json b = .ok b') :
    call.Admitted json ∧ Wrote b (call.text b.text) b' := by
  -- each check of the call stands before its first write
  have hadmitted : call.Admitted json := by
    cases call with
    | addString key val valLen =>
      rw [run, actrustJsonBuilderAddString] at h
      split_ifs at h with hlen
      exact not_not.mp hlen
    | addObject key objJson =>
      rw [run, actrustJsonBuilderAddObject] at h
      split_ifs at h with hlen hvalid hobject
      exact ⟨fun hnil => hlen (by rw [hnil]; rfl), Bool.eq_true_of_not_eq_false hvalid,
        Bool.eq_true_of_not_eq_false hobject⟩
    | _ => trivial
  rw [run_eq hadmitted hcap] at h
  exact ⟨hadmitted, jsonBuilderWrite_ok h⟩

end TrustSdk.Json
