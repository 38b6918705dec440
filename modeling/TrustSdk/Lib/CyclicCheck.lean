import Mathlib.Data.BitVec
import Mathlib.Data.List.Basic
import Mathlib.Logic.Function.Iterate

/-!
# Cyclic redundancy checks

The bit-serial form of a cyclic redundancy check of width `w`, least significant bit first:
each bit of the message is added to the lowest bit of the register, and the register moves
down one place and has the polynomial added to it if a one fell out (`step`).

The register is linear in what it is fed (`step_xor`), and when the polynomial has its highest
bit it forgets nothing (`step_injective`). As long as no more than `w` bits are fed the message
may as well be added to the register as one word first (`feed_eq`), so two messages that differ
inside `w` consecutive bits have different checks (`feed_burst`).
-/

namespace CyclicCheck

variable {w : ℕ}

/-- The register after one bit has fallen out. -/
def step (poly c : BitVec w) : BitVec w :=
  (c >>> 1) ^^^ (if c.getLsbD 0 then poly else 0#w)

/-- A bit as a word. -/
def bit (b : Bool) : BitVec w := if b then 1#w else 0#w

/-- The register after the bits of a message were fed to it. -/
def feed (poly c : BitVec w) (bits : List Bool) : BitVec w :=
  bits.foldl (fun c b => step poly (c ^^^ bit b)) c

/-- The word with these bits, the lowest first. -/
def word : List Bool → BitVec w
  | [] => 0#w
  | b :: bits => (word bits <<< 1) ^^^ bit b

/-! ### One step -/

variable {poly : BitVec w}

/-- A bit of a step: the bits move down, and the polynomial comes in with the lowest one. -/
theorem getLsbD_step (poly c : BitVec w) (i : ℕ) :
    (step poly c).getLsbD i = (c.getLsbD (i + 1) ^^ (c.getLsbD 0 && poly.getLsbD i)) := by
  rw [step, BitVec.getLsbD_xor, BitVec.getLsbD_ushiftRight, Nat.add_comm 1 i]
  cases c.getLsbD 0 <;> simp

/-- A step is linear. -/
theorem step_xor (a b : BitVec w) : step poly (a ^^^ b) = step poly a ^^^ step poly b := by
  apply BitVec.eq_of_getLsbD_eq
  intro i _
  simp only [getLsbD_step, BitVec.getLsbD_xor]
  cases a.getLsbD 0 <;> cases b.getLsbD 0 <;> cases poly.getLsbD i <;>
    cases a.getLsbD (i + 1) <;> cases b.getLsbD (i + 1) <;> rfl

/-- With the highest bit in the polynomial, the highest bit of the register tells whether a
one fell out. -/
theorem step_eq_zero (hpoly : poly.msb = true) {c : BitVec w} (h : step poly c = 0#w) :
    c = 0#w := by
  have hbit : ∀ i, (c.getLsbD (i + 1) ^^ (c.getLsbD 0 && poly.getLsbD i)) = false := by
    intro i
    rw [← getLsbD_step, h]
    exact BitVec.getLsbD_zero
  -- the highest bit of the polynomial is set, so a result without it tells that the lowest bit was
  -- clear
  have htop : poly.getLsbD (w - 1) = true := by
    rwa [BitVec.msb_eq_getLsbD_last] at hpoly
  have hlow : c.getLsbD 0 = false := by
    have hlast := hbit (w - 1)
    rwa [htop, Bool.and_true, BitVec.getLsbD_of_ge c (w - 1 + 1) (by omega),
      Bool.false_xor] at hlast
  apply BitVec.eq_of_getLsbD_eq
  intro i _
  rw [BitVec.getLsbD_zero]
  cases i with
  | zero => exact hlow
  | succ i =>
    have hi := hbit i
    rwa [hlow, Bool.false_and, Bool.xor_false] at hi

/-- Different registers stay different. -/
theorem step_injective (hpoly : poly.msb = true) : Function.Injective (step poly) := by
  intro a b hab
  have h : step poly (a ^^^ b) = 0#w := by
    rw [step_xor, hab]
    exact BitVec.xor_self
  exact BitVec.xor_eq_zero_iff.mp (step_eq_zero hpoly h)

/-- Also over many steps. -/
theorem iterate_step_injective (hpoly : poly.msb = true) (n : ℕ) :
    Function.Injective (step poly)^[n] :=
  (step_injective hpoly).iterate n

/-! ### Feeding a short message -/

/-- A register of one bit. -/
theorem getLsbD_bit (b : Bool) (i : ℕ) (hw : 0 < w) :
    (bit b : BitVec w).getLsbD i = (decide (i = 0) && b) := by
  cases b with
  | false => simp [bit]
  | true =>
    rw [bit, if_pos rfl, Bool.and_true, BitVec.getLsbD_one]
    simp [hw]

/-- The bits of a word. -/
theorem getLsbD_word (bits : List Bool) (i : ℕ) :
    (word bits : BitVec w).getLsbD i = (decide (i < w) && bits[i]?.getD false) := by
  induction bits generalizing i with
  | nil => simp [word]
  | cons b bits ih =>
    by_cases hi : i < w
    · have hw : 0 < w := Nat.zero_lt_of_lt hi
      rw [word, BitVec.getLsbD_xor, BitVec.getLsbD_shiftLeft, ih, getLsbD_bit b i hw]
      cases i with
      | zero => simp [hi]
      | succ i =>
        have hi' : i < w := by omega
        simp [hi, hi']
    · rw [BitVec.getLsbD_of_ge _ _ (by omega)]
      simp [hi]

/-- A word that leaves its highest place free moves back down. -/
theorem step_word_shift {bits : List Bool} (h : bits.length < w) :
    step poly (word bits <<< 1) = word bits := by
  apply BitVec.eq_of_getLsbD_eq
  intro i hi
  have hbit : (word bits <<< 1 : BitVec w).getLsbD (i + 1) = (word bits : BitVec w).getLsbD i := by
    by_cases hi' : i + 1 < w
    · rw [BitVec.getLsbD_shiftLeft, Nat.add_sub_cancel, decide_eq_true hi',
        decide_eq_false (Nat.not_lt.mpr (Nat.le_add_left 1 i))]
      rfl
    · have hnone : bits[i]? = none := List.getElem?_eq_none (by omega)
      rw [BitVec.getLsbD_of_ge _ _ (by omega), getLsbD_word, hnone]
      simp
  have hlow : (word bits <<< 1 : BitVec w).getLsbD 0 = false := by
    simp [BitVec.getLsbD_shiftLeft]
  rw [getLsbD_step, hbit, hlow, Bool.false_and, Bool.xor_false]

/-- A message of at most `w` bits may be added to the register as one word before the steps. -/
theorem feed_eq {bits : List Bool} (h : bits.length ≤ w) (c : BitVec w) :
    feed poly c bits = (step poly)^[bits.length] (c ^^^ word bits) := by
  induction bits generalizing c with
  | nil => simp [feed, word]
  | cons b bits ih =>
    have hlen : bits.length < w := h
    calc
      feed poly c (b :: bits) = feed poly (step poly (c ^^^ bit b)) bits := rfl
      _ = (step poly)^[bits.length] (step poly (c ^^^ bit b) ^^^ word bits) := ih hlen.le _
      _ = (step poly)^[bits.length] (step poly (c ^^^ bit b) ^^^ step poly (word bits <<< 1)) := by
        rw [step_word_shift hlen]
      _ = (step poly)^[bits.length] (step poly (c ^^^ word (b :: bits))) := by
        rw [← step_xor, BitVec.xor_assoc, BitVec.xor_comm (bit b), word]
      _ = (step poly)^[(b :: bits).length] (c ^^^ word (b :: bits)) := rfl

/-- As long as they fit, bits are determined by their word. -/
theorem word_injective {a b : List Bool} (hlen : a.length = b.length) (ha : a.length ≤ w)
    (h : (word a : BitVec w) = word b) : a = b := by
  refine List.ext_getElem hlen fun i hia hib => ?_
  have hi := congrArg (BitVec.getLsbD · i) h
  simp only [getLsbD_word] at hi
  have hiw : i < w := by omega
  simpa [hiw, hia, hib] using hi

/-! ### Bursts -/

/-- Feeding two pieces one after the other. -/
theorem feed_append (c : BitVec w) (a b : List Bool) :
    feed poly c (a ++ b) = feed poly (feed poly c a) b := List.foldl_append

/-- What follows a difference does not undo it. -/
theorem feed_injective (hpoly : poly.msb = true) (bits : List Bool) :
    Function.Injective (feed poly · bits) := by
  induction bits with
  | nil => exact fun _ _ h => h
  | cons b bits ih =>
    intro c c' h
    have hstep := step_injective hpoly (ih h)
    exact (BitVec.xor_left_inj (bit b)).mp hstep

/-- Two messages that differ inside `w` consecutive bits have different checks. -/
theorem feed_burst (hpoly : poly.msb = true) (c : BitVec w) (pre suf : List Bool)
    {a b : List Bool} (hlen : a.length = b.length) (ha : a.length ≤ w) (hne : a ≠ b) :
    feed poly c (pre ++ a ++ suf) ≠ feed poly c (pre ++ b ++ suf) := by
  intro h
  have hwindow := feed_injective hpoly suf ((feed_append c _ suf).symm.trans
    (h.trans (feed_append c _ suf)))
  have hb : b.length ≤ w := hlen.symm.trans_le ha
  simp only [feed_append, feed_eq ha, feed_eq hb, hlen] at hwindow
  have hword := iterate_step_injective hpoly _ hwindow
  exact hne (word_injective hlen ha ((BitVec.xor_right_inj _).mp hword))

/-- Two lists of the same length differ, and only in `width` consecutive places. -/
structure Burst {α : Type} (start width : ℕ) (xs ys : List α) : Prop where
  length : xs.length = ys.length
  ne : xs ≠ ys
  outside : ∀ i, ¬ (start ≤ i ∧ i < start + width) → xs[i]? = ys[i]?

/-- A burst of a larger width. -/
theorem Burst.mono {α : Type} {start width width' : ℕ} {xs ys : List α}
    (h : Burst start width xs ys) (hw : width ≤ width') : Burst start width' xs ys :=
  ⟨h.length, h.ne, fun i hi => h.outside i (by omega)⟩

/-- Replacing one element is a burst. -/
theorem Burst.set {α : Type} {i : ℕ} {xs : List α} {x y : α} (hx : xs[i]? = some x)
    (hne : x ≠ y) : Burst i 1 xs (xs.set i y) where
  length := List.length_set.symm
  ne h := by
    obtain ⟨hi, -⟩ := List.getElem?_eq_some_iff.mp hx
    have hy := congrArg (·[i]?) h
    simp only [hx, List.getElem?_set_self hi, Option.some.injEq] at hy
    exact hne hy
  outside j hj := (List.getElem?_set_ne (by omega)).symm

/-- What a burst leaves as it is, around what it changes. -/
theorem Burst.split {α : Type} {start width : ℕ} {xs ys : List α} (h : Burst start width xs ys) :
    ∃ pre a b suf, xs = pre ++ a ++ suf ∧ ys = pre ++ b ++ suf ∧ a.length = b.length ∧
      a.length ≤ width ∧ a ≠ b := by
  -- before and behind the window the two agree
  have hpre : ys.take start = xs.take start := by
    refine List.ext_getElem? fun i => ?_
    by_cases hi : i < start
    · rw [List.getElem?_take_of_lt hi, List.getElem?_take_of_lt hi, h.outside i (by omega)]
    · rw [List.getElem?_take_eq_none (by omega), List.getElem?_take_eq_none (by omega)]
  have hsuf : ys.drop (start + width) = xs.drop (start + width) := by
    refine List.ext_getElem? fun i => ?_
    rw [List.getElem?_drop, List.getElem?_drop, h.outside _ (by omega)]
  have hxs : xs = xs.take start ++ (xs.drop start).take width ++ xs.drop (start + width) := by
    rw [← List.take_add, List.take_append_drop]
  have hys : ys = xs.take start ++ (ys.drop start).take width ++ xs.drop (start + width) := by
    rw [← hpre, ← hsuf, ← List.take_add, List.take_append_drop]
  refine ⟨_, _, _, _, hxs, hys, ?_, List.length_take_le _ _, fun hab => h.ne ?_⟩
  · simp [h.length]
  · rw [hxs, hab, ← hys]

end CyclicCheck
