import TrustSdk.Lib.JsonText

/-!
# Escaped strings

What stands between the quotes of a JSON string, and the bytes that it stands for: any byte but the
backslash stands for itself, and an escape for a character in UTF-8. Quotes and control characters
are not looked at here; they are a matter of where a string ends.
-/

namespace JsonText

/-- An escape. A code point is a `Char`, so that surrogates come in pairs only. -/
inductive Escape : List UInt8 → List UInt8 → Prop
  | letter {e d : UInt8} : escapedChar e = some d → Escape [92, e] [d]
  | unit {h1 h2 h3 h4 : UInt8} {c : Char} : hexDigits h1 h2 h3 h4 = some c.toNat →
      Escape [92, 117, h1, h2, h3, h4] (String.utf8EncodeChar c)
  | pair {h1 h2 h3 h4 l1 l2 l3 l4 : UInt8} {high low : ℕ} {c : Char} :
      hexDigits h1 h2 h3 h4 = some high → 0xD800 ≤ high → high ≤ 0xDBFF →
      hexDigits l1 l2 l3 l4 = some low → 0xDC00 ≤ low → low ≤ 0xDFFF →
      c.toNat = 0x10000 + (high - 0xD800) * 1024 + (low - 0xDC00) →
      Escape [92, 117, h1, h2, h3, h4, 92, 117, l1, l2, l3, l4] (String.utf8EncodeChar c)

/-- What a string with escapes stands for. -/
inductive Unescapes : List UInt8 → List UInt8 → Prop
  | nil : Unescapes [] []
  | plain {c : UInt8} {s t : List UInt8} : c ≠ 92 → Unescapes s t → Unescapes (c :: s) (c :: t)
  | escape {e d s t : List UInt8} : Escape e d → Unescapes s t → Unescapes (e ++ s) (d ++ t)

/-- As it stands in a JSON text: no quote, backslash or control character but in an escape. -/
inductive Quotable : List UInt8 → List UInt8 → Prop
  | nil : Quotable [] []
  | plain {c : UInt8} {s t : List UInt8} : c ≠ 34 → c ≠ 92 → 32 ≤ c → Quotable s t →
      Quotable (c :: s) (c :: t)
  | escape {e d s t : List UInt8} : Escape e d → Quotable s t → Quotable (e ++ s) (d ++ t)

variable {e d s t : List UInt8}

/-! ### Digits -/

/-- A hexadecimal digit is below sixteen. -/
theorem hexDigit_lt {c : UInt8} {n : ℕ} (h : hexDigit c = some n) : n < 16 := by
  unfold hexDigit at h
  simp only [UInt8.le_iff_toNat_le] at h
  split_ifs at h with h1 h2 h3
  · have : c.toNat ≤ 57 := h1.2
    cases h
    omega
  · have : c.toNat ≤ 102 := h2.2
    cases h
    omega
  · have : c.toNat ≤ 70 := h3.2
    cases h
    omega

/-- Four of them are below 65536. -/
theorem hexDigits_lt {h1 h2 h3 h4 : UInt8} {n : ℕ} (h : hexDigits h1 h2 h3 h4 = some n) :
    n < 65536 := by
  simp only [hexDigits, Option.bind_eq_bind, Option.bind_eq_some_iff] at h
  obtain ⟨n1, hn1, n2, hn2, n3, hn3, n4, hn4, hn⟩ := h
  cases hn
  have := hexDigit_lt hn1
  have := hexDigit_lt hn2
  have := hexDigit_lt hn3
  have := hexDigit_lt hn4
  omega

/-- A valid code point is a character. -/
theorem exists_char {n : ℕ} (h : n.isValidChar) : ∃ c : Char, c.toNat = n :=
  ⟨Char.ofNatAux n h, rfl⟩

/-! ### Lengths -/

/-- An escape is not shorter than what it stands for. -/
theorem Escape.length_le (h : Escape e d) : d.length ≤ e.length := by
  cases h with
  | letter hd => exact Nat.le_succ 1
  | unit hc =>
    rw [String.length_utf8EncodeChar]
    exact (Char.utf8Size_le_four _).trans (show 4 ≤ 6 by decide)
  | pair =>
    rw [String.length_utf8EncodeChar]
    exact (Char.utf8Size_le_four _).trans (show 4 ≤ 12 by decide)

/-- And not empty. -/
theorem Escape.length_pos (h : Escape e d) : 0 < e.length := by
  cases h <;> exact Nat.succ_pos _

/-- A string does not grow when its escapes are resolved. -/
theorem Unescapes.length_le (h : Unescapes s t) : t.length ≤ s.length := by
  induction h with
  | nil => exact le_rfl
  | plain hc _ ih => exact Nat.succ_le_succ ih
  | escape he _ ih =>
    rw [List.length_append, List.length_append]
    exact Nat.add_le_add he.length_le ih

/-- A text quoted by the rules stands for what was quoted. -/
theorem Quotable.unescapes (h : Quotable s t) : Unescapes s t := by
  induction h with
  | nil => exact .nil
  | plain _ hslash _ _ ih => exact .plain hslash ih
  | escape he _ ih => exact .escape he ih

end JsonText
