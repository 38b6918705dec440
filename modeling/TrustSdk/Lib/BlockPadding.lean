import Mathlib.Data.List.DropRight
import Mathlib.Order.Basic

/-!
# Padding to whole blocks

Two ways to extend a list of bytes to whole blocks of `n` bytes. With counted padding the last
block is filled up with bytes that each hold their number (`fill`), a whole block of them where
nothing is missing, so that the padding can be told from what it follows (`LegalPad`,
`legalPad_iff`). With zero padding nothing tells the two apart, and what can be taken off again
are all the zeros at the end (`rdropWhile_append_zeros`).
-/

namespace BlockPadding

variable {n k : ℕ} {s p : List UInt8}

/-- The number of bytes that fill the last block: at least one. -/
def fill (n len : ℕ) : ℕ := n - len % n

/-- At least one byte is added. -/
theorem fill_pos (hn : 0 < n) (len : ℕ) : 0 < fill n len :=
  Nat.sub_pos_of_lt (Nat.mod_lt len hn)

/-- At most a block is added. -/
theorem fill_le (n len : ℕ) : fill n len ≤ n := Nat.sub_le _ _

/-- The padded text is a whole number of blocks. -/
theorem add_fill_mod (hn : 0 < n) (len : ℕ) : (len + fill n len) % n = 0 := by
  have hlt := Nat.mod_lt len hn
  have hsplit : len + fill n len = n * (len / n) + n := by
    calc len + fill n len
        = n * (len / n) + len % n + (n - len % n) := by rw [Nat.div_add_mod, fill]
      _ = n * (len / n) + n := by rw [Nat.add_assoc, Nat.add_sub_cancel' hlt.le]
  rw [hsplit, Nat.add_mod_right, Nat.mul_mod_right]

/-- The bytes end in a padding: between one and `n` bytes that each hold their number. -/
def LegalPad (n : ℕ) (p : List UInt8) : Prop :=
  ∃ s k, 0 < k ∧ k ≤ n ∧ p = s ++ List.replicate k (.ofNat k)

/-- The last byte of a padded text tells how much was added. -/
theorem getLast_padded (hk : 0 < k) (b : UInt8) (h : s ++ List.replicate k b ≠ []) :
    (s ++ List.replicate k b).getLast h = b := by
  obtain ⟨m, rfl⟩ := Nat.exists_eq_succ_of_ne_zero hk.ne'
  simp only [List.replicate_succ', ← List.append_assoc, List.getLast_append_singleton]

/-- The padding is what stands at the end. -/
theorem drop_padded (s : List UInt8) (k : ℕ) (b : UInt8) :
    (s ++ List.replicate k b).drop ((s ++ List.replicate k b).length - k) = List.replicate k b := by
  rw [List.length_append, List.length_replicate, Nat.add_sub_cancel, List.drop_left]

/-- The last byte tells how long the padding is. -/
theorem legalPad_iff (hn : n < 256) (hp : p ≠ []) : LegalPad n p ↔
    p.getLast hp ≠ 0 ∧ (p.getLast hp).toNat ≤ n ∧
      p.drop (p.length - (p.getLast hp).toNat) =
        List.replicate (p.getLast hp).toNat (p.getLast hp) := by
  constructor
  · rintro ⟨s, k, hpos, hle, rfl⟩
    have hk : (UInt8.ofNat k).toNat = k := UInt8.toNat_ofNat_of_lt' (hle.trans_lt hn)
    rw [getLast_padded hpos, hk, drop_padded]
    refine ⟨fun hzero => ?_, hle, rfl⟩
    rw [hzero] at hk
    exact hpos.ne hk
  · rintro ⟨hne, hle, hdrop⟩
    refine ⟨p.take (p.length - (p.getLast hp).toNat), (p.getLast hp).toNat, ?_, hle, ?_⟩
    · exact Nat.pos_of_ne_zero fun hzero => hne (UInt8.toNat_inj.mp hzero)
    · rw [UInt8.ofNat_toNat, ← hdrop, List.take_append_drop]

/-- Taking zeros off the end does not see how many were put there. -/
theorem rdropWhile_append_zeros (s : List UInt8) (k : ℕ) :
    (s ++ List.replicate k 0).rdropWhile (· = 0) = s.rdropWhile (· = 0) := by
  induction k with
  | zero => rw [List.replicate_zero, List.append_nil]
  | succ k ih =>
    rw [List.replicate_succ', ← List.append_assoc, List.rdropWhile_concat_pos _ _ _ (by simp), ih]

end BlockPadding
