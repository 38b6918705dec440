import TrustSdk.Json.View
import TrustSdk.Lib.JsonEscapes

/-!
# Resolving escapes

`actrust_json_unescape_string` against the escapes of JSON (`JsonText.Unescapes`). First over lists
of bytes: it succeeds on the escaped strings whose text fits (`unescape_complete`,
`unescape_sound`). Then over its two buffers, with the positions that it reads and writes: an access
outside of a buffer has no result, and there is none.
-/

namespace TrustSdk.Json

open JsonText

/-! ### The parts of an escape -/

/-- The source and the grammar agree on hexadecimal digits. -/
theorem jsonHexDigitToInt_eq (c : UInt8) : jsonHexDigitToInt c = hexDigit c := by
  unfold jsonHexDigitToInt hexDigit
  simp only [UInt8.le_iff_toNat_le]
  split_ifs with h1 h2 h3
  · rfl
  · have : 97 ≤ c.toNat := h2.1
    congr 1
    omega
  · have : 65 ≤ c.toNat := h3.1
    congr 1
    omega
  · rfl

/-- And on four of them. -/
theorem jsonHex4_eq (h1 h2 h3 h4 : UInt8) : jsonHex4 h1 h2 h3 h4 = hexDigits h1 h2 h3 h4 := by
  unfold jsonHex4 hexDigits
  simp only [jsonHexDigitToInt_eq]

/-- The source's encoder is UTF-8. -/
theorem jsonUtf8_char (c : Char) : jsonUtf8 c.toNat = String.utf8EncodeChar c := by
  have hval : c.val.toNat = c.toNat := rfl
  have hmax : c.toNat < 0x110000 := by
    rcases c.valid with h | h
    · exact Nat.lt_trans h (by decide)
    · exact h.2
  unfold jsonUtf8 String.utf8EncodeChar
  simp only [hval]
  split_ifs with h1 h2 h3
  · rfl
  · rw [Nat.mod_eq_of_lt (by omega : c.toNat / 64 < 0x20), Nat.add_comm, Nat.add_comm 0x80]
  · rw [Nat.mod_eq_of_lt (by omega : c.toNat / 4096 < 0x10), Nat.add_comm, Nat.add_comm 0x80,
      Nat.add_comm 0x80]
  · rw [Nat.mod_eq_of_lt (by omega : c.toNat / 262144 < 0x08), Nat.add_comm, Nat.add_comm 0x80,
      Nat.add_comm 0x80, Nat.add_comm 0x80]

/-! ### One pass -/

section Steps

variable {cap : ℕ} {e d s t out r : List UInt8} {c : UInt8}

/-- A character that is no backslash is copied. -/
theorem unescape_plain (hc : c ≠ 92) : actrustJsonUnescapeString cap (c :: s) out =
    if out.length + 2 > cap then .error (jsonErr .bufTooSmall)
    else actrustJsonUnescapeString cap s (out ++ [c]) := by
  rw [actrustJsonUnescapeString.eq_def]
  exact if_pos hc

/-- A character is no surrogate. -/
theorem char_not_surrogate (c : Char) : ¬(0xD800 ≤ c.toNat ∧ c.toNat ≤ 0xDFFF) := by
  rintro ⟨hlow, hhigh⟩
  rcases c.valid with h | h
  · exact absurd h (not_lt.mpr hlow)
  · exact absurd h.1 (not_lt.mpr hhigh)

/-- An escape is replaced by what it stands for. -/
theorem unescape_escape (he : Escape e d) : actrustJsonUnescapeString cap (e ++ s) out =
    if out.length + d.length + 1 > cap then .error (jsonErr .bufTooSmall)
    else actrustJsonUnescapeString cap s (out ++ d) := by
  -- a letter, a code unit, or a pair of surrogates
  cases he with
  | @letter e d hd =>
    have he : e ≠ 117 := by
      rintro rfl
      cases hd
    have hd : jsonEscapedChar e = some d := hd
    rw [List.cons_append, actrustJsonUnescapeString.eq_def]
    simp only [ne_eq, not_true_eq_false, if_false, List.cons_append, List.nil_append, he, hd]
    rfl
  | @unit h1 h2 h3 h4 c hc =>
    rw [← jsonHex4_eq] at hc
    have hns := char_not_surrogate c
    rw [List.cons_append, actrustJsonUnescapeString.eq_def]
    simp only [ne_eq, not_true_eq_false, if_false, List.cons_append, List.nil_append, if_true, hc]
    rw [if_neg (by omega), if_neg (by omega), jsonUtf8_char]
  | @pair h1 h2 h3 h4 l1 l2 l3 l4 high low c hhigh hge hle hlow hge' hle' hc =>
    rw [← jsonHex4_eq] at hhigh hlow
    rw [List.cons_append, actrustJsonUnescapeString.eq_def]
    simp only [ne_eq, not_true_eq_false, if_false, List.cons_append, List.nil_append, if_true,
      hhigh, hlow, or_self]
    rw [if_pos ⟨hge, hle⟩, if_neg (by omega), ← hc, jsonUtf8_char]

/-- What stands behind a backslash is not the rest of an escape: there is nothing, or an unknown
letter, or digits are missing, or half a surrogate pair is. -/
inductive Malformed : List UInt8 → Prop
  | nil : Malformed []
  | letter {esc : UInt8} {s : List UInt8} : esc ≠ 117 → jsonEscapedChar esc = none →
      Malformed (esc :: s)
  | digits {s : List UInt8} : (∀ h1 h2 h3 h4 t, s = h1 :: h2 :: h3 :: h4 :: t →
      jsonHex4 h1 h2 h3 h4 = none) → Malformed (117 :: s)
  | high {h1 h2 h3 h4 : UInt8} {high : ℕ} {s : List UInt8} : jsonHex4 h1 h2 h3 h4 = some high →
      0xD800 ≤ high → high ≤ 0xDBFF →
      (∀ l1 l2 l3 l4 low t, s = 92 :: 117 :: l1 :: l2 :: l3 :: l4 :: t →
        jsonHex4 l1 l2 l3 l4 = some low → low < 0xDC00 ∨ low > 0xDFFF) →
      Malformed (117 :: h1 :: h2 :: h3 :: h4 :: s)
  | low {h1 h2 h3 h4 : UInt8} {low : ℕ} {s : List UInt8} : jsonHex4 h1 h2 h3 h4 = some low →
      0xDC00 ≤ low → low ≤ 0xDFFF → Malformed (117 :: h1 :: h2 :: h3 :: h4 :: s)

/-- What no escape begins with is refused. -/
theorem unescape_malformed (h : Malformed s) :
    actrustJsonUnescapeString cap (92 :: s) out = .error (jsonErr .invalidArg) := by
  rw [actrustJsonUnescapeString.eq_def]
  -- nothing follows; an unknown letter; missing digits; a high surrogate alone; a low one alone
  cases h with
  | nil => rfl
  | letter hunit hletter =>
    simp only [ne_eq, not_true_eq_false, if_false, hunit, hletter]
  | digits hdigits =>
    simp only [ne_eq, not_true_eq_false, if_false, if_true]
    split
    · next h1 h2 h3 h4 t => rw [hdigits h1 h2 h3 h4 t rfl]
    · rfl
  | high hhigh hge hle hlow =>
    simp only [ne_eq, not_true_eq_false, if_false, if_true, hhigh]
    rw [if_pos ⟨hge, hle⟩]
    split
    · next b u l1 l2 l3 l4 t =>
      split_ifs with hbu
      · rfl
      · obtain ⟨rfl, rfl⟩ : b = 92 ∧ u = 117 := by simpa using hbu
        split
        · rfl
        · next low hl => rw [if_pos (hlow l1 l2 l3 l4 low t rfl hl)]
    · rfl
  | low hlow hge hle =>
    simp only [ne_eq, not_true_eq_false, if_false, if_true, hlow]
    rw [if_neg (by omega), if_pos ⟨hge, hle⟩]

/-- Behind a backslash there is the rest of an escape, or the input is not well formed. -/
theorem escape_or_malformed (s : List UInt8) :
    (∃ e d t, Escape e d ∧ 92 :: s = e ++ t) ∨ Malformed s := by
  cases s with
  | nil => exact .inr .nil
  | cons esc s =>
    by_cases hunit : esc = 117
    · subst hunit
      by_cases hdigits : ∃ h1 h2 h3 h4 t high,
          s = h1 :: h2 :: h3 :: h4 :: t ∧ jsonHex4 h1 h2 h3 h4 = some high
      · -- four digits follow, so the code unit decides
        obtain ⟨h1, h2, h3, h4, t, high, rfl, hhigh⟩ := hdigits
        have hhex := hhigh
        rw [jsonHex4_eq] at hhex
        -- A high surrogate needs a low one behind it.
        by_cases hsur : 0xD800 ≤ high ∧ high ≤ 0xDBFF
        · by_cases hlow : ∃ l1 l2 l3 l4 low u, t = 92 :: 117 :: l1 :: l2 :: l3 :: l4 :: u ∧
              jsonHex4 l1 l2 l3 l4 = some low ∧ ¬(low < 0xDC00 ∨ low > 0xDFFF)
          · obtain ⟨l1, l2, l3, l4, low, u, rfl, hlow, hrange⟩ := hlow
            rw [jsonHex4_eq] at hlow
            have hvalid : (0x10000 + (high - 0xD800) * 1024 + (low - 0xDC00)).isValidChar :=
              .inr ⟨by omega, by omega⟩
            obtain ⟨c, hc⟩ := exists_char hvalid
            exact .inl ⟨_, _, u, .pair hhex hsur.1 hsur.2 hlow (by omega) (by omega) hc, rfl⟩
          · -- There is none, or it is out of range.
            refine .inr (.high hhigh hsur.1 hsur.2 fun l1 l2 l3 l4 low u hu hl => ?_)
            by_contra hrange
            exact hlow ⟨l1, l2, l3, l4, low, u, hu, hl, hrange⟩
        · -- A low one alone is malformed, and every other code unit is a character.
          by_cases hlone : 0xDC00 ≤ high ∧ high ≤ 0xDFFF
          · exact .inr (.low hhigh hlone.1 hlone.2)
          · have hlt := hexDigits_lt hhex
            obtain ⟨c, rfl⟩ := exists_char (n := high) (by
              rcases Nat.lt_or_ge high 0xD800 with hlt' | hge
              · exact .inl hlt'
              · exact .inr ⟨by omega, by omega⟩)
            exact .inl ⟨_, _, t, .unit hhex, rfl⟩
      · refine .inr (.digits fun h1 h2 h3 h4 t hs => ?_)
        by_contra hsome
        obtain ⟨high, hhigh⟩ := Option.ne_none_iff_exists'.mp hsome
        exact hdigits ⟨h1, h2, h3, h4, t, high, hs, hhigh⟩
    · -- A letter stands for one character, or for none.
      cases hd : jsonEscapedChar esc with
      | some d => exact .inl ⟨[92, esc], [d], s, .letter hd, rfl⟩
      | none => exact .inr (.letter hunit hd)

/-- Induction along the passes: a plain byte, an escape, or the end. -/
theorem unescape_induction {P : List UInt8 → Prop} (hnil : P [])
    (hplain : ∀ {c s}, c ≠ 92 → P s → P (c :: s))
    (hescape : ∀ {e d s}, Escape e d → P s → P (e ++ s))
    (hbad : ∀ {s}, Malformed s → P (92 :: s)) (s : List UInt8) : P s := by
  -- on the length: an escape takes several bytes at once
  induction hn : s.length using Nat.strong_induction_on generalizing s with
  | _ n ih =>
    cases s with
    | nil => exact hnil
    | cons c s =>
      rw [List.length_cons] at hn
      by_cases hc : c = 92
      · subst hc
        rcases escape_or_malformed s with ⟨e, d, t, he, hs⟩ | hs
        · have hlen := congrArg List.length hs
          rw [List.length_cons, List.length_append] at hlen
          have hpos := he.length_pos
          rw [hs]
          exact hescape he (ih t.length (by omega) t rfl)
        · exact hbad hs
      · exact hplain hc (ih s.length (by omega) s rfl)

/-! ### Whole strings -/

/-- What stands for a text is decoded to it, if it fits. -/
theorem unescape_complete (h : Unescapes s t) (hout : out.length < cap) :
    actrustJsonUnescapeString cap s out =
      if out.length + t.length < cap then .ok (out ++ t) else .error (jsonErr .bufTooSmall) := by
  induction h generalizing out with
  | nil =>
    rw [List.append_nil, List.length_nil, Nat.add_zero, if_pos hout]
    rfl
  | @plain c s t hc _ ih =>
    rw [unescape_plain hc, List.length_cons]
    by_cases hfull : out.length + 2 > cap
    · rw [if_pos hfull, if_neg (by omega)]
    · have hlen : (out ++ [c]).length = out.length + 1 := List.length_append
      rw [if_neg hfull, ih (by omega), hlen, List.append_assoc]
      exact if_congr (by omega) rfl rfl
  | @escape e d s t he _ ih =>
    have hlen : (out ++ d).length = out.length + d.length := List.length_append
    rw [unescape_escape he, List.length_append]
    by_cases hfull : out.length + d.length + 1 > cap
    · rw [if_pos hfull, if_neg (by omega)]
    · rw [if_neg hfull, ih (by omega), hlen, List.append_assoc]
      exact if_congr (by omega) rfl rfl

/-- What is decoded stands for the answer. -/
theorem unescape_sound (h : actrustJsonUnescapeString cap s out = .ok r)
    (hout : out.length < cap) :
    ∃ t, Unescapes s t ∧ r = out ++ t ∧ r.length < cap := by
  induction s using unescape_induction generalizing out with
  | hnil =>
    cases h
    exact ⟨[], .nil, (List.append_nil _).symm, hout⟩
  | @hplain c s hc ih =>
    rw [unescape_plain hc] at h
    split_ifs at h with hfull
    obtain ⟨t, ht, rfl, hr⟩ := ih h (by rw [List.length_append, List.length_singleton]; omega)
    exact ⟨c :: t, .plain hc ht, List.append_assoc .., hr⟩
  | @hescape e d s he ih =>
    rw [unescape_escape he] at h
    split_ifs at h with hfull
    obtain ⟨t, ht, rfl, hr⟩ := ih h (by rw [List.length_append]; omega)
    exact ⟨d ++ t, .escape he ht, List.append_assoc .., hr⟩
  | hbad hs =>
    rw [unescape_malformed hs] at h
    cases h

/-- The input's length is room enough. -/
theorem unescape_fits (hroom : out.length + s.length < cap) :
    actrustJsonUnescapeString cap s out ≠ .error (jsonErr .bufTooSmall) := by
  induction s using unescape_induction generalizing out with
  | hnil => exact nofun
  | @hplain c s hc ih =>
    rw [List.length_cons] at hroom
    rw [unescape_plain hc, if_neg (by omega)]
    exact ih (by rw [List.length_append, List.length_singleton]; omega)
  | @hescape e d s he ih =>
    have hle := he.length_le
    rw [List.length_append] at hroom
    rw [unescape_escape he, if_neg (by omega)]
    exact ih (by rw [List.length_append]; omega)
  | hbad hs =>
    rw [unescape_malformed hs]
    exact nofun

end Steps

/-- A string has one text. -/
theorem unescapes_unique {s t t' : List UInt8} (h : Unescapes s t) (h' : Unescapes s t') :
    t = t' := by
  have hrun {t : List UInt8} (h : Unescapes s t) :
      actrustJsonUnescapeString (s.length + 1) s [] = .ok t := by
    have hle := h.length_le
    rw [unescape_complete h (Nat.succ_pos _), if_pos (by rw [List.length_nil]; omega)]
    rfl
  exact Except.ok.inj ((hrun h).symm.trans (hrun h'))

/-- `actrust_json_get_string` always has room for the decoded text. -/
theorem actrustJsonGetString_decodes (memory : Bool) (value : JsonValue) (outLen : ℕ) :
    actrustJsonGetString memory value outLen ≠ .failed (jsonErr .bufTooSmall) := by
  unfold actrustJsonGetString
  split_ifs
  · exact nofun
  · exact nofun
  · have hfits : actrustJsonUnescapeString (value.value.length + 1) value.value [] ≠
        .error (jsonErr .bufTooSmall) :=
      unescape_fits (by rw [List.length_nil]; omega)
    cases hdec : actrustJsonUnescapeString (value.value.length + 1) value.value [] with
    | error e =>
      rintro h
      cases h
      exact hfits hdec
    | ok decoded =>
      dsimp only
      split_ifs <;> exact nofun

/-! ### The two buffers -/

/-- The variables of the loop, and the output buffer. -/
structure Unescaping where
  srcIdx : ℕ
  dstIdx : ℕ
  out : List UInt8

/-- Stores bytes, if the buffer has room for them. -/
def storeBytes (out : List UInt8) (i : ℕ) (data : List UInt8) : Option (List UInt8) :=
  if i + data.length ≤ out.length then
    some (out.take i ++ data ++ out.drop (i + data.length))
  else none

/-- The check of the capacity and the write. -/
def unescapePut (s : Unescaping) (srcIdx : ℕ) (enc : List UInt8) :
    Option (Except Err Unescaping) :=
  if s.dstIdx + enc.length + 1 > s.out.length then some (.error (jsonErr .bufTooSmall))
  else (storeBytes s.out s.dstIdx enc).map fun out => .ok ⟨srcIdx, s.dstIdx + enc.length, out⟩

/-- Behind the digits of a high surrogate. -/
def unescapeLow (input : List UInt8) (s : Unescaping) (srcIdx cp : ℕ) :
    Option (Except Err Unescaping) := do
  if srcIdx + 6 > input.length then return .error (jsonErr .invalidArg)
  else
    let b ← input[srcIdx]?
    if b ≠ 92 then return .error (jsonErr .invalidArg)
    else
      let u ← input[srcIdx + 1]?
      if u ≠ 117 then return .error (jsonErr .invalidArg)
      else
        let srcIdx := srcIdx + 2
        let l1 ← input[srcIdx]?
        let l2 ← input[srcIdx + 1]?
        let l3 ← input[srcIdx + 2]?
        let l4 ← input[srcIdx + 3]?
        match jsonHex4 l1 l2 l3 l4 with
        | none => return .error (jsonErr .invalidArg)
        | some low =>
          if low < 0xDC00 ∨ low > 0xDFFF then return .error (jsonErr .invalidArg)
          else
            unescapePut s (srcIdx + 4)
              (jsonUtf8 (0x10000 + (cp - 0xD800) * 1024 + (low - 0xDC00)))

/-- Behind `\u`. -/
def unescapeUnit (input : List UInt8) (s : Unescaping) (srcIdx : ℕ) :
    Option (Except Err Unescaping) := do
  if srcIdx + 4 > input.length then return .error (jsonErr .invalidArg)
  else
    let h1 ← input[srcIdx]?
    let h2 ← input[srcIdx + 1]?
    let h3 ← input[srcIdx + 2]?
    let h4 ← input[srcIdx + 3]?
    match jsonHex4 h1 h2 h3 h4 with
    | none => return .error (jsonErr .invalidArg)
    | some cp =>
      let srcIdx := srcIdx + 4
      if 0xD800 ≤ cp ∧ cp ≤ 0xDBFF then unescapeLow input s srcIdx cp
      else if 0xDC00 ≤ cp ∧ cp ≤ 0xDFFF then return .error (jsonErr .invalidArg)
      else unescapePut s srcIdx (jsonUtf8 cp)

/-- The body of the loop. An access outside of the buffers has no result. -/
def unescapeStep (input : List UInt8) (s : Unescaping) : Option (Except Err Unescaping) := do
  let ch ← input[s.srcIdx]?
  let srcIdx := s.srcIdx + 1
  if ch ≠ 92 then unescapePut s srcIdx [ch]
  else if srcIdx ≥ input.length then return .error (jsonErr .invalidArg)
  else
    let esc ← input[srcIdx]?
    let srcIdx := srcIdx + 1
    if esc = 117 then unescapeUnit input s srcIdx
    else
      match jsonEscapedChar esc with
      | none => return .error (jsonErr .invalidArg)
      | some c => unescapePut s srcIdx [c]

/-- The loop, in a number of passes at most: `out_len` and the buffer. -/
def unescapeLoop (input : List UInt8) : ℕ → Unescaping → Option (Except Err (ℕ × List UInt8))
  | 0, _ => none
  | passes + 1, s =>
    if s.srcIdx < input.length then
      match unescapeStep input s with
      | none => none
      | some (.error e) => some (.error e)
      | some (.ok s) => unescapeLoop input passes s
    else (storeBytes s.out s.dstIdx [0]).map fun out => .ok (s.dstIdx, out)

/-- `actrust_json_unescape_string` on a buffer of `out_cap` bytes. -/
def jsonUnescapeBuffers (input out : List UInt8) : Option (Except Err (ℕ × List UInt8)) :=
  if out.length = 0 then some (.error (jsonErr .invalidArg))
  else unescapeLoop input (input.length + 1) ⟨0, 0, out⟩

section Buffers

variable {input e d t : List UInt8} {s : Unescaping} {c : UInt8}

/-- The bytes that are left. -/
theorem read_drop {i : ℕ} {r : List UInt8} (h : input.drop i = r) (k : ℕ) :
    input[i + k]? = r[k]? := by
  rw [← h, List.getElem?_drop]

/-- A write that fits goes on with the bytes behind what was written. -/
structure Unescaping.Put (s : Unescaping) (srcIdx : ℕ) (enc : List UInt8) (s' : Unescaping) :
    Prop where
  srcIdx : s'.srcIdx = srcIdx
  dstIdx : s'.dstIdx = s.dstIdx + enc.length
  length : s'.out.length = s.out.length
  text : s'.out.take s'.dstIdx = s.out.take s.dstIdx ++ enc

/-- Storing inside the buffer. -/
theorem storeBytes_eq (out data : List UInt8) (i : ℕ) (h : i + data.length ≤ out.length) :
    ∃ out', storeBytes out i data = some out' ∧ out'.length = out.length ∧
      out'.take (i + data.length) = out.take i ++ data := by
  refine ⟨_, if_pos h, ?_, ?_⟩
  · simp only [List.length_append, List.length_take, List.length_drop]
    omega
  · have hlen : (out.take i ++ data).length = i + data.length := by
      rw [List.length_append, List.length_take]
      omega
    rw [← hlen, List.take_left]

/-- Room for the bytes and a NUL. -/
theorem unescapePut_eq (srcIdx : ℕ) (h : s.dstIdx + d.length + 1 ≤ s.out.length) :
    ∃ s', unescapePut s srcIdx d = some (.ok s') ∧ s.Put srcIdx d s' := by
  obtain ⟨out', hstore, hlen, htext⟩ :=
    storeBytes_eq s.out d s.dstIdx (by omega)
  refine ⟨⟨srcIdx, s.dstIdx + d.length, out'⟩, ?_, rfl, rfl, hlen, htext⟩
  rw [unescapePut, if_neg (by omega), hstore]
  rfl

/-- One round at a plain character. -/
theorem step_plain (h : input.drop s.srcIdx = c :: t) (hc : c ≠ 92) :
    unescapeStep input s = unescapePut s (s.srcIdx + 1) [c] := by
  have hread := read_drop h
  have h0 : input[s.srcIdx]? = some c := hread 0
  simp only [unescapeStep, h0, Option.bind_eq_bind, Option.bind_some]
  rw [if_pos hc]

/-- The digits behind `\u`, four of them. -/
theorem unit_digits {srcIdx : ℕ} {h1 h2 h3 h4 : UInt8} {cp : ℕ}
    (h : input.drop srcIdx = h1 :: h2 :: h3 :: h4 :: t) (hcp : jsonHex4 h1 h2 h3 h4 = some cp) :
    unescapeUnit input s srcIdx =
      if 0xD800 ≤ cp ∧ cp ≤ 0xDBFF then unescapeLow input s (srcIdx + 4) cp
      else if 0xDC00 ≤ cp ∧ cp ≤ 0xDFFF then some (.error (jsonErr .invalidArg))
      else unescapePut s (srcIdx + 4) (jsonUtf8 cp) := by
  have hread := read_drop h
  have hlen := congrArg List.length h
  simp only [List.length_drop, List.length_cons] at hlen
  have h0 : input[srcIdx]? = some h1 := hread 0
  simp only [unescapeUnit, if_neg (by omega : ¬srcIdx + 4 > input.length), h0, hread 1, hread 2,
    hread 3, List.getElem?_cons_succ, List.getElem?_cons_zero, Option.bind_eq_bind,
    Option.bind_some, hcp]
  rfl

/-- The low surrogate is there. -/
theorem low_digits {srcIdx cp : ℕ} {l1 l2 l3 l4 : UInt8}
    (h : input.drop srcIdx = 92 :: 117 :: l1 :: l2 :: l3 :: l4 :: t) :
    unescapeLow input s srcIdx cp =
      match jsonHex4 l1 l2 l3 l4 with
      | none => some (.error (jsonErr .invalidArg))
      | some low =>
        if low < 0xDC00 ∨ low > 0xDFFF then some (.error (jsonErr .invalidArg))
        else
          unescapePut s (srcIdx + 6)
            (jsonUtf8 (0x10000 + (cp - 0xD800) * 1024 + (low - 0xDC00))) := by
  have hread := read_drop h
  have hlen := congrArg List.length h
  simp only [List.length_drop, List.length_cons] at hlen
  have h0 : input[srcIdx]? = some 92 := hread 0
  simp only [unescapeLow, if_neg (by omega : ¬srcIdx + 6 > input.length), h0, Nat.add_assoc,
    Nat.reduceAdd, hread 1, hread 2, hread 3, hread 4, hread 5, List.getElem?_cons_succ,
    List.getElem?_cons_zero, Option.bind_eq_bind, Option.bind_some, ne_eq, not_true_eq_false,
    if_false]
  rfl

/-- A list that is long enough has one byte after the other. -/
theorem exists_cons_of_length {l : List UInt8} {n : ℕ} (h : n < l.length) :
    ∃ c t, l = c :: t ∧ n ≤ t.length := by
  cases l with
  | nil => exact absurd h (Nat.not_lt_zero n)
  | cons c t => exact ⟨c, t, rfl, Nat.le_of_lt_succ h⟩

/-- Anything else behind a high surrogate. -/
theorem low_missing {srcIdx cp : ℕ}
    (h : ∀ l1 l2 l3 l4 t, input.drop srcIdx ≠ 92 :: 117 :: l1 :: l2 :: l3 :: l4 :: t) :
    unescapeLow input s srcIdx cp = some (.error (jsonErr .invalidArg)) := by
  by_cases hshort : srcIdx + 6 > input.length
  · simp only [unescapeLow, if_pos hshort]
    rfl
  · -- six bytes follow, and they are not a backslash, a `u` and four digits
    obtain ⟨b, u, l1, l2, l3, l4, t, hdrop⟩ : ∃ b u l1 l2 l3 l4 t,
        input.drop srcIdx = b :: u :: l1 :: l2 :: l3 :: l4 :: t := by
      have hlen : (input.drop srcIdx).length = input.length - srcIdx := List.length_drop
      obtain ⟨b, r, hb, hr⟩ := exists_cons_of_length (n := 5) (l := input.drop srcIdx) (by omega)
      obtain ⟨u, p, hu, hp⟩ := exists_cons_of_length hr
      obtain ⟨l1, q, h1, hq⟩ := exists_cons_of_length hp
      obtain ⟨l2, r', h2, hr'⟩ := exists_cons_of_length hq
      obtain ⟨l3, q', h3, hq'⟩ := exists_cons_of_length hr'
      obtain ⟨l4, t, h4, -⟩ := exists_cons_of_length hq'
      exact ⟨b, u, l1, l2, l3, l4, t, by rw [hb, hu, h1, h2, h3, h4]⟩
    have hread := read_drop hdrop
    have h0 : input[srcIdx]? = some b := hread 0
    have h1 : input[srcIdx + 1]? = some u := hread 1
    simp only [unescapeLow, if_neg hshort, h0, h1, Option.bind_eq_bind, Option.bind_some]
    by_cases hb : b = 92
    · by_cases hu : u = 117
      · subst hb hu
        exact absurd hdrop (h l1 l2 l3 l4 t)
      · rw [if_neg (not_not.mpr hb), if_pos hu]
        rfl
    · rw [if_pos hb]
      rfl

/-- One round at a code unit. -/
theorem step_unit (h : input.drop s.srcIdx = 92 :: 117 :: t) :
    unescapeStep input s = unescapeUnit input s (s.srcIdx + 2) := by
  have hread := read_drop h
  have hlen := congrArg List.length h
  simp only [List.length_drop, List.length_cons] at hlen
  have h0 : input[s.srcIdx]? = some 92 := hread 0
  have h1 : input[s.srcIdx + 1]? = some 117 := hread 1
  simp only [unescapeStep, h0, h1, Option.bind_eq_bind, Option.bind_some, ne_eq,
    not_true_eq_false, if_false, if_neg (by omega : ¬s.srcIdx + 1 ≥ input.length), if_true]

/-- One round at a letter. -/
theorem step_letter {esc : UInt8} (h : input.drop s.srcIdx = 92 :: esc :: t) (hesc : esc ≠ 117) :
    unescapeStep input s =
      match jsonEscapedChar esc with
      | none => some (.error (jsonErr .invalidArg))
      | some c => unescapePut s (s.srcIdx + 2) [c] := by
  have hread := read_drop h
  have hlen := congrArg List.length h
  simp only [List.length_drop, List.length_cons] at hlen
  have h0 : input[s.srcIdx]? = some 92 := hread 0
  have h1 : input[s.srcIdx + 1]? = some esc := hread 1
  simp only [unescapeStep, h0, h1, Option.bind_eq_bind, Option.bind_some, ne_eq,
    not_true_eq_false, if_false, if_neg (by omega : ¬s.srcIdx + 1 ≥ input.length), hesc]
  rfl

/-- The input further on. -/
theorem drop_of_drop {i k : ℕ} {r : List UInt8} (h : input.drop i = r) :
    input.drop (i + k) = r.drop k := by
  rw [← h, List.drop_drop]

/-- One round at an escape. -/
theorem step_escape (h : input.drop s.srcIdx = e ++ t) (he : Escape e d) :
    unescapeStep input s = unescapePut s (s.srcIdx + e.length) d := by
  cases he with
  | @letter esc d hd =>
    have hesc : esc ≠ 117 := by
      rintro rfl
      cases hd
    have hd : jsonEscapedChar esc = some d := hd
    rw [step_letter h hesc, hd]
    rfl
  | @unit h1 h2 h3 h4 c hc =>
    rw [← jsonHex4_eq] at hc
    have hns := char_not_surrogate c
    rw [step_unit h, unit_digits (drop_of_drop h) hc, if_neg (by omega), if_neg (by omega),
      jsonUtf8_char]
    rfl
  | @pair h1 h2 h3 h4 l1 l2 l3 l4 high low c hhigh hge hle hlow hge' hle' hc =>
    rw [← jsonHex4_eq] at hhigh hlow
    rw [step_unit h, unit_digits (drop_of_drop h) hhigh, if_pos ⟨hge, hle⟩,
      low_digits (drop_of_drop (drop_of_drop h)), hlow]
    dsimp only
    rw [if_neg (by omega), ← hc, jsonUtf8_char]
    rfl

/-- One round at something that is none. -/
theorem step_malformed (h : input.drop s.srcIdx = 92 :: t) (ht : Malformed t) :
    unescapeStep input s = some (.error (jsonErr .invalidArg)) := by
  cases ht with
  | nil =>
    -- The backslash is the last byte of the input.
    have h0 : input[s.srcIdx]? = some 92 := read_drop h 0
    have hlen := congrArg List.length h
    simp only [List.length_drop, List.length_cons, List.length_nil] at hlen
    simp only [unescapeStep, h0, Option.bind_eq_bind, Option.bind_some, ne_eq, not_true_eq_false,
      if_false, if_pos (by omega : s.srcIdx + 1 ≥ input.length)]
    rfl
  | letter hunit hletter => rw [step_letter h hunit, hletter]
  | @digits r hdigits =>
    rw [step_unit h]
    have hdrop : input.drop (s.srcIdx + 2) = r := drop_of_drop h
    -- Fewer than four bytes are left, or one of them is no digit.
    by_cases hshort : s.srcIdx + 2 + 4 > input.length
    · simp only [unescapeUnit, if_pos hshort]
      rfl
    · obtain ⟨h1, h2, h3, h4, r', rfl⟩ : ∃ h1 h2 h3 h4 r', r = h1 :: h2 :: h3 :: h4 :: r' := by
        have hlen : (input.drop (s.srcIdx + 2)).length = input.length - (s.srcIdx + 2) :=
          List.length_drop
        rw [hdrop] at hlen
        obtain ⟨h1, p, e1, hp⟩ := exists_cons_of_length (n := 3) (l := r) (by omega)
        obtain ⟨h2, q, e2, hq⟩ := exists_cons_of_length hp
        obtain ⟨h3, q', e3, hq'⟩ := exists_cons_of_length hq
        obtain ⟨h4, r', e4, -⟩ := exists_cons_of_length hq'
        exact ⟨h1, h2, h3, h4, r', by rw [e1, e2, e3, e4]⟩
      have hread := read_drop hdrop
      have h0 : input[s.srcIdx + 2]? = some h1 := hread 0
      simp only [unescapeUnit, if_neg hshort, h0, hread 1, hread 2, hread 3,
        List.getElem?_cons_succ, List.getElem?_cons_zero, Option.bind_eq_bind, Option.bind_some,
        hdigits h1 h2 h3 h4 r' rfl]
      rfl
  -- A high surrogate: the step looks for the six bytes behind it.
  | @high _ _ _ _ high r hhigh hge hle hlow =>
    have hdrop : input.drop (s.srcIdx + 2 + 4) = r := drop_of_drop (drop_of_drop h)
    rw [step_unit h, unit_digits (drop_of_drop h) hhigh, if_pos ⟨hge, hle⟩]
    by_cases hshape : ∃ l1 l2 l3 l4 t, r = 92 :: 117 :: l1 :: l2 :: l3 :: l4 :: t
    · obtain ⟨l1, l2, l3, l4, t, rfl⟩ := hshape
      rw [low_digits hdrop]
      cases hl : jsonHex4 l1 l2 l3 l4 with
      | none => rfl
      | some low => exact if_pos (hlow l1 l2 l3 l4 low t rfl hl)
    · refine low_missing fun l1 l2 l3 l4 t hr => hshape ⟨l1, l2, l3, l4, t, ?_⟩
      rw [← hdrop, hr]
  -- A low one alone: the step refuses it outright.
  | low hlow hge hle =>
    rw [step_unit h, unit_digits (drop_of_drop h) hlow, if_neg (by omega), if_pos ⟨hge, hle⟩]

/-- What the loop comes to: an error, or the text and its terminator in the buffer. -/
def Unescaped (out : List UInt8) (answer : Except Err (List UInt8))
    (result : Option (Except Err (ℕ × List UInt8))) : Prop :=
  match answer with
  | .error e => result = some (.error e)
  | .ok text => ∃ out', result = some (.ok (text.length, out')) ∧ out'.length = out.length ∧
      text ++ [0] <+: out'

/-- A pass that takes `k` bytes and stores `d`. -/
theorem loop_pass {passes k : ℕ} (hk : 0 < k) (hle : s.srcIdx + k ≤ input.length)
    (hdst : s.dstIdx < s.out.length)
    (hstep : unescapeStep input s = unescapePut s (s.srcIdx + k) d)
    (hnext : ∀ s', s.Put (s.srcIdx + k) d s' → s'.dstIdx < s'.out.length → Unescaped s'.out
      (actrustJsonUnescapeString s'.out.length (input.drop s'.srcIdx) (s'.out.take s'.dstIdx))
      (unescapeLoop input passes s')) :
    Unescaped s.out
      (if (s.out.take s.dstIdx).length + d.length + 1 > s.out.length then
        .error (jsonErr .bufTooSmall)
      else actrustJsonUnescapeString s.out.length (input.drop (s.srcIdx + k))
        (s.out.take s.dstIdx ++ d))
      (unescapeLoop input (passes + 1) s) := by
  -- the bytes decoded so far
  have htext : (s.out.take s.dstIdx).length = s.dstIdx := by
    rw [List.length_take]
    omega
  have hlt : s.srcIdx < input.length := by omega
  rw [unescapeLoop, if_pos hlt, hstep, htext]
  by_cases hfull : s.dstIdx + d.length + 1 > s.out.length
  · rw [if_pos hfull, unescapePut, if_pos hfull]
    rfl
  · -- there is room, so the round ends with the bytes behind the others
    obtain ⟨s', hok, hput⟩ := unescapePut_eq (s.srcIdx + k) (not_lt.mp hfull)
    have hd := hput.dstIdx
    have hl := hput.length
    have hrest := hnext s' hput (by omega)
    rw [hput.text, hput.srcIdx] at hrest
    rw [if_neg hfull, hok]
    unfold Unescaped at hrest ⊢
    rwa [hl] at hrest

/-- The loop does on its buffers what the function does on lists. -/
theorem unescapeLoop_eq (passes : ℕ) (hpasses : input.length - s.srcIdx < passes)
    (hsrc : s.srcIdx ≤ input.length) (hdst : s.dstIdx < s.out.length) :
    Unescaped s.out
      (actrustJsonUnescapeString s.out.length (input.drop s.srcIdx) (s.out.take s.dstIdx))
      (unescapeLoop input passes s) := by
  induction passes generalizing s with
  | zero => exact absurd hpasses (Nat.not_lt_zero _)
  | succ passes ih =>
    have hlen : (input.drop s.srcIdx).length = input.length - s.srcIdx := List.length_drop
    -- on the rounds; each consumes a byte at least, so there are enough of them
    have hnext {k : ℕ} {d : List UInt8} (hk : 0 < k) (hle : s.srcIdx + k ≤ input.length)
        (s' : Unescaping) (hput : s.Put (s.srcIdx + k) d s') (hroom : s'.dstIdx < s'.out.length) :
        Unescaped s'.out
          (actrustJsonUnescapeString s'.out.length (input.drop s'.srcIdx) (s'.out.take s'.dstIdx))
          (unescapeLoop input passes s') := by
      have := hput.srcIdx
      exact ih (by omega) (by omega) hroom
    match hdrop : input.drop s.srcIdx with
    -- The input is at its end: the loop stores the terminator.
    | [] =>
      rw [hdrop, List.length_nil] at hlen
      obtain ⟨out', hstore, hlen', htake⟩ :=
        storeBytes_eq s.out [0] s.dstIdx hdst
      have htext : (s.out.take s.dstIdx).length = s.dstIdx := by
        rw [List.length_take]
        omega
      rw [unescapeLoop, if_neg (by omega), hstore]
      refine ⟨out', by rw [htext]; rfl, hlen', ?_⟩
      rw [← htake]
      exact List.take_prefix _ _
    | c :: t =>
      rw [hdrop, List.length_cons] at hlen
      -- A backslash takes a whole escape, or is refused.
      by_cases hc : c = 92
      · subst hc
        rcases escape_or_malformed t with ⟨e, d, t', he, ht⟩ | ht
        · rw [ht] at hdrop ⊢
          have hsplit := congrArg List.length ht
          rw [List.length_cons, List.length_append] at hsplit
          have hle : s.srcIdx + e.length ≤ input.length := by omega
          have hrest : input.drop (s.srcIdx + e.length) = t' := by
            rw [drop_of_drop hdrop, List.drop_left]
          rw [unescape_escape he, ← hrest]
          exact loop_pass he.length_pos hle hdst (step_escape hdrop he) (hnext he.length_pos hle)
        · rw [unescape_malformed ht, unescapeLoop, if_pos (by omega), step_malformed hdrop ht]
          rfl
      · -- Any other byte is copied.
        have hle : s.srcIdx + 1 ≤ input.length := by omega
        have hrest : input.drop (s.srcIdx + 1) = t := drop_of_drop hdrop
        rw [unescape_plain hc, ← hrest]
        exact loop_pass Nat.one_pos hle hdst (step_plain hdrop hc) (hnext Nat.one_pos hle)

/-- The loop on the whole input. -/
theorem unescapeBuffers_eq (input : List UInt8) {out : List UInt8} (hcap : 1 ≤ out.length) :
    Unescaped out (actrustJsonUnescapeString out.length input [])
      (jsonUnescapeBuffers input out) := by
  have h0 : 0 < out.length := hcap
  rw [jsonUnescapeBuffers, if_neg (by omega)]
  exact unescapeLoop_eq (s := ⟨0, 0, out⟩) _ (Nat.lt_succ_self _) (Nat.zero_le _) h0

/-- A text that fits is decoded. -/
theorem unescapeBuffers_complete {out : List UInt8} (ht : Unescapes input t)
    (hroom : t.length < out.length) :
    ∃ out', jsonUnescapeBuffers input out = some (.ok (t.length, out')) ∧
      out'.length = out.length ∧ t ++ [0] <+: out' := by
  have hcap : 0 < out.length := by omega
  have hlist : actrustJsonUnescapeString out.length input [] = .ok t := by
    rw [unescape_complete ht hcap, if_pos (by rw [List.length_nil]; omega)]
    rfl
  have hloop := unescapeBuffers_eq input hcap
  rw [hlist] at hloop
  exact hloop

end Buffers

/-- The call stays within its buffers, and decodes exactly the escaped strings whose text fits with
its terminator. -/
theorem actrustJsonUnescapeString_exact (input out : List UInt8) (hcap : 1 ≤ out.length) :
    (∃ result, jsonUnescapeBuffers input out = some result) ∧
      ((∃ len out', jsonUnescapeBuffers input out = some (.ok (len, out'))) ↔
        ∃ t, Unescapes input t ∧ t.length + 1 ≤ out.length) ∧
      (∀ len out', jsonUnescapeBuffers input out = some (.ok (len, out')) →
        ∃ t, Unescapes input t ∧ (∀ t', Unescapes input t' → t' = t) ∧ len = t.length ∧
          out'.length = out.length ∧ t ++ [0] <+: out') ∧
      (∀ t, Unescapes input t → t.length ≤ input.length) ∧
      ∀ memory type outLen,
        actrustJsonGetString memory ⟨input, type⟩ outLen ≠ .failed (jsonErr .bufTooSmall) := by
  -- the loop and the recursive decoder agree; what is left is about the decoder
  have hloop := unescapeBuffers_eq input hcap
  have hdecode {len : ℕ} {out' : List UInt8}
      (h : jsonUnescapeBuffers input out = some (.ok (len, out'))) :
      ∃ t, Unescapes input t ∧ t.length + 1 ≤ out.length ∧ len = t.length ∧
        out'.length = out.length ∧ t ++ [0] <+: out' := by
    cases hlist : actrustJsonUnescapeString out.length input [] with
    | error e =>
      rw [hlist] at hloop
      cases h.symm.trans hloop
    | ok text =>
      rw [hlist] at hloop
      obtain ⟨out'', hresult, hlen, hprefix⟩ := hloop
      cases h.symm.trans hresult
      obtain ⟨t, ht, htext, hroom⟩ := unescape_sound hlist hcap
      have htext : text = t := htext
      exact ⟨t, ht, htext ▸ hroom, congrArg List.length htext, hlen, htext ▸ hprefix⟩
  refine ⟨?_, ⟨?_, ?_⟩, ?_, fun t ht => ht.length_le, fun memory type outLen =>
    actrustJsonGetString_decodes memory ⟨input, type⟩ outLen⟩
  · -- Totality: the loop answers whatever the decoder does.
    cases hlist : actrustJsonUnescapeString out.length input [] with
    | error e =>
      rw [hlist] at hloop
      exact ⟨_, hloop⟩
    | ok text =>
      rw [hlist] at hloop
      obtain ⟨out', hresult, -⟩ := hloop
      exact ⟨_, hresult⟩
  · rintro ⟨len, out', h⟩
    obtain ⟨t, ht, hroom, -⟩ := hdecode h
    exact ⟨t, ht, hroom⟩
  · rintro ⟨t, ht, hroom⟩
    obtain ⟨out', hresult, -⟩ := unescapeBuffers_complete ht hroom
    exact ⟨_, out', hresult⟩
  · intro len out' h
    obtain ⟨t, ht, -, hlen, hlen', hprefix⟩ := hdecode h
    exact ⟨t, ht, fun t' ht' => unescapes_unique ht' ht, hlen, hlen', hprefix⟩

/-- A surrogate pair in as many bytes as it needs. -/
theorem actrustJsonUnescapeString_exact_pair :
    jsonUnescapeBuffers (text "\\uD83D\\uDE00") [7, 7, 7, 7, 7] =
        some (.ok (4, [240, 159, 152, 128, 0])) ∧
      ∃ t, Unescapes (text "\\uD83D\\uDE00") t ∧ t.length + 1 ≤ [7, 7, 7, 7, 7].length := by
  have hrun : jsonUnescapeBuffers (text "\\uD83D\\uDE00") [7, 7, 7, 7, 7] =
      some (.ok (4, [240, 159, 152, 128, 0])) := by decide +kernel
  exact ⟨hrun, (actrustJsonUnescapeString_exact (text "\\uD83D\\uDE00") [7, 7, 7, 7, 7]
    (by decide)).2.1.mp ⟨_, _, hrun⟩⟩

end TrustSdk.Json
