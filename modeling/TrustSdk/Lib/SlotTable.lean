import Mathlib.Data.Finmap
import Mathlib.Data.Finset.Card
import Mathlib.Order.Interval.Finset.Nat

/-!
# Slot tables and the finite maps they represent

A table of `n` slots, each of them free or holding one key with its value, represents a
finite map when no two of the first `n` slots hold one key (`distinct`) and the map looks
up exactly what the slots hold (`lookup`).

* `Represents.put`, `Represents.replace`, `Represents.remove` — writing a free slot,
  overwriting the slot of a key and freeing it are the map's own `insert` and `erase`;
* `Represents.card` — the map has one key for each used slot, so that a table without a free
  slot represents a map of `n` keys (`Represents.full_iff`);
* `usedFrom`, `lastWith` and `firstFree` — the three ways of walking through a table slot by
  slot, with what each of them finds.
-/

namespace SlotTable

variable {κ ν : Type} [DecidableEq κ] {n : ℕ} {t t' : ℕ → Option (κ × ν)}

/-- A finite map from keys to values of one type. -/
abbrev Map (κ ν : Type) := Finmap fun _ : κ => ν

/-- The slots in use. -/
def used (n : ℕ) (t : ℕ → Option (κ × ν)) : Finset ℕ :=
  (Finset.range n).filter fun i => (t i).isSome

omit [DecidableEq κ] in
@[simp] theorem mem_used {i : ℕ} : i ∈ used n t ↔ i < n ∧ (t i).isSome := by
  simp [used]

/-- The first `n` slots of `t` hold the entries of `m`, each of them once. -/
structure Represents (n : ℕ) (t : ℕ → Option (κ × ν)) (m : Map κ ν) : Prop where
  /-- No key is held twice. -/
  distinct : ∀ i < n, ∀ j < n, ∀ k v w, t i = some (k, v) → t j = some (k, w) → i = j
  /-- The map looks up what the slots hold. -/
  lookup : ∀ k v, m.lookup k = some v ↔ ∃ i < n, t i = some (k, v)

variable {m m' : Map κ ν} {i : ℕ} {k : κ} {v w : ν}

namespace Represents

/-- Only the first `n` slots count. -/
theorem congr (h : Represents n t m) (heq : ∀ i < n, t' i = t i) : Represents n t' m where
  distinct := by
    intro i hi j hj k v w hti htj
    rw [heq i hi] at hti
    rw [heq j hj] at htj
    exact h.distinct i hi j hj k v w hti htj
  lookup := by
    intro k v
    rw [h.lookup]
    refine exists_congr fun i => and_congr_right fun hi => ?_
    rw [heq i hi]

/-- A table represents one map only. -/
theorem unique (h : Represents n t m) (h' : Represents n t m') : m = m' := by
  refine Finmap.ext_lookup fun k => ?_
  refine Option.ext fun v => ?_
  rw [h.lookup, h'.lookup]

/-- An empty table. -/
theorem empty (h : ∀ i < n, t i = none) : Represents n t (∅ : Map κ ν) where
  distinct := by
    intro i hi j hj k v w hti _
    rw [h i hi] at hti
    exact absurd hti (by simp)
  lookup := by
    intro k v
    rw [Finmap.lookup_empty]
    constructor
    · intro hv
      exact absurd hv (by simp)
    · rintro ⟨i, hi, hti⟩
      rw [h i hi] at hti
      exact absurd hti (by simp)

/-- A slot with an entry gives the value of its key. -/
theorem lookup_slot (h : Represents n t m) (hi : i < n) (ht : t i = some (k, v)) :
    m.lookup k = some v := (h.lookup k v).mpr ⟨i, hi, ht⟩

/-- A key without a slot is not in the map. -/
theorem lookup_none (h : Represents n t m) : m.lookup k = none ↔ ∀ i < n, ∀ v, t i ≠ some (k, v) := by
  constructor
  · intro hk i hi v hti
    rw [h.lookup_slot hi hti] at hk
    exact absurd hk (by simp)
  · intro hno
    cases hk : m.lookup k with
    | none => rfl
    | some v =>
      obtain ⟨i, hi, hti⟩ := (h.lookup k v).mp hk
      exact absurd hti (hno i hi v)

/-- Writing a slot that is free, or that holds the key already, is the map's `insert`,
provided no other slot holds the key. -/
theorem put (h : Represents n t m) (hi : i < n)
    (hother : ∀ j < n, j ≠ i → ∀ w, t j ≠ some (k, w))
    (hslot : ∀ k' w, t i = some (k', w) → k' = k) :
    Represents n (Function.update t i (some (k, v))) (m.insert k v) where
  distinct := by
    intro a ha b hb k' x y hta htb
    rw [Function.update_apply] at hta htb
    by_cases hai : a = i <;> by_cases hbi : b = i
    · rw [hai, hbi]
    · rw [if_pos hai] at hta
      rw [if_neg hbi] at htb
      obtain ⟨rfl, -⟩ := Prod.mk.inj (Option.some.inj hta)
      exact absurd htb (hother b hb hbi y)
    · rw [if_neg hai] at hta
      rw [if_pos hbi] at htb
      obtain ⟨rfl, -⟩ := Prod.mk.inj (Option.some.inj htb)
      exact absurd hta (hother a ha hai x)
    · rw [if_neg hai] at hta
      rw [if_neg hbi] at htb
      exact h.distinct a ha b hb k' x y hta htb
  lookup := by
    intro k' v'
    by_cases hk : k' = k
    · subst hk
      rw [Finmap.lookup_insert]
      constructor
      · intro hv
        obtain rfl := Option.some.inj hv
        exact ⟨i, hi, by rw [Function.update_self]⟩
      · rintro ⟨j, hj, htj⟩
        rw [Function.update_apply] at htj
        by_cases hji : j = i
        · rw [if_pos hji] at htj
          rw [(Prod.mk.inj (Option.some.inj htj)).2]
        · rw [if_neg hji] at htj
          exact absurd htj (hother j hj hji v')
    · rw [Finmap.lookup_insert_of_ne _ hk, h.lookup]
      refine exists_congr fun j => and_congr_right fun _ => ?_
      rw [Function.update_apply]
      by_cases hji : j = i
      · -- neither the old nor the new content of the slot is an entry for `k'`
        rw [if_pos hji]
        constructor
        · intro htj
          subst hji
          exact absurd (hslot k' v' htj) hk
        · intro hv
          exact absurd (Prod.mk.inj (Option.some.inj hv)).1.symm hk
      · rw [if_neg hji]

/-- Overwriting the slot of a key. -/
theorem replace (h : Represents n t m) (hi : i < n) (ht : t i = some (k, w)) :
    Represents n (Function.update t i (some (k, v))) (m.insert k v) := by
  refine h.put hi (fun j hj hji x htj => hji (h.distinct j hj i hi k x w htj ht)) ?_
  intro k' x hx
  rw [ht] at hx
  exact (Prod.mk.inj (Option.some.inj hx)).1.symm

/-- Filling a free slot with a new key. -/
theorem add (h : Represents n t m) (hi : i < n) (ht : t i = none) (hk : m.lookup k = none) :
    Represents n (Function.update t i (some (k, v))) (m.insert k v) := by
  refine h.put hi (fun j hj _ x => h.lookup_none.mp hk j hj x) ?_
  intro k' x hx
  rw [ht] at hx
  exact absurd hx (by simp)

/-- Freeing the slot of a key. -/
theorem remove (h : Represents n t m) (hi : i < n) (ht : t i = some (k, w)) :
    Represents n (Function.update t i none) (m.erase k) where
  distinct := by
    intro a ha b hb k' x y hta htb
    rw [Function.update_apply] at hta htb
    -- the slot is empty now, so an entry that is left stands elsewhere
    by_cases hai : a = i
    · rw [if_pos hai] at hta
      exact absurd hta (by simp)
    · by_cases hbi : b = i
      · rw [if_pos hbi] at htb
        exact absurd htb (by simp)
      · rw [if_neg hai] at hta
        rw [if_neg hbi] at htb
        exact h.distinct a ha b hb k' x y hta htb
  lookup := by
    intro k' v'
    by_cases hk : k' = k
    · subst hk
      rw [Finmap.lookup_erase]
      constructor
      · intro hv
        exact absurd hv (by simp)
      · rintro ⟨j, hj, htj⟩
        rw [Function.update_apply] at htj
        -- another slot with the key would be the removed one
        by_cases hji : j = i
        · rw [if_pos hji] at htj
          exact absurd htj (by simp)
        · rw [if_neg hji] at htj
          exact absurd (h.distinct j hj i hi k' v' w htj ht) hji
    · rw [Finmap.lookup_erase_ne hk, h.lookup]
      refine exists_congr fun j => and_congr_right fun _ => ?_
      rw [Function.update_apply]
      by_cases hji : j = i
      · subst hji
        rw [if_pos rfl, ht]
        constructor
        · intro hv
          exact absurd (Prod.mk.inj (Option.some.inj hv)).1.symm hk
        · intro hv
          exact absurd hv (by simp)
      · rw [if_neg hji]

/-! ### Counting -/

/-- One key for each used slot. -/
theorem card (h : Represents n t m) : m.keys.card = (used n t).card := by
  symm
  -- the slots in use and the keys are in bijection, by the key of the slot
  refine Finset.card_bij (fun i hi => ((t i).get (mem_used.mp hi).2).1) ?_ ?_ ?_
  · intro i hi
    obtain ⟨hin, hsome⟩ := mem_used.mp hi
    rw [Finmap.mem_keys, Finmap.mem_iff]
    exact ⟨_, h.lookup_slot hin (Option.some_get hsome).symm⟩
  · intro i hi j hj heq
    obtain ⟨hin, hsomei⟩ := mem_used.mp hi
    obtain ⟨hjn, hsomej⟩ := mem_used.mp hj
    obtain ⟨⟨a, x⟩, hti⟩ := Option.isSome_iff_exists.mp hsomei
    obtain ⟨⟨b, y⟩, htj⟩ := Option.isSome_iff_exists.mp hsomej
    simp only [hti, htj, Option.get_some] at heq
    subst heq
    exact h.distinct i hin j hjn a x y hti htj
  · intro k hk
    rw [Finmap.mem_keys, Finmap.mem_iff] at hk
    obtain ⟨v, hv⟩ := hk
    obtain ⟨i, hin, hti⟩ := (h.lookup k v).mp hv
    refine ⟨i, mem_used.mpr ⟨hin, by rw [hti]; rfl⟩, ?_⟩
    simp only [hti, Option.get_some]

/-- No more keys than slots. -/
theorem card_le (h : Represents n t m) : m.keys.card ≤ n := by
  rw [h.card]
  calc (used n t).card ≤ (Finset.range n).card := Finset.card_filter_le _ _
    _ = n := Finset.card_range n

/-- No slot is free exactly when the map has `n` keys. -/
theorem full_iff (h : Represents n t m) : m.keys.card = n ↔ ∀ i < n, (t i).isSome := by
  rw [h.card]
  constructor
  · -- as many keys as slots means that every slot is in use
    intro hcard i hi
    have hall : used n t = Finset.range n :=
      Finset.eq_of_subset_of_card_le (Finset.filter_subset _ _) (by
        rw [Finset.card_range]; exact hcard.ge)
    have hmem : i ∈ used n t := by
      rw [hall]
      exact Finset.mem_range.mpr hi
    exact (mem_used.mp hmem).2
  · intro hall
    have heq : used n t = Finset.range n :=
      Finset.filter_true_of_mem fun i hi => hall i (Finset.mem_range.mp hi)
    rw [heq, Finset.card_range]

end Represents

/-- Inserting a key changes the number of keys only when it is new. -/
theorem keys_insert (m : Map κ ν) (k : κ) (v : ν) : (m.insert k v).keys = insert k m.keys := by
  ext a
  rw [Finmap.mem_keys, Finmap.mem_insert, Finset.mem_insert, Finmap.mem_keys]

/-- A new value of an old key. -/
theorem card_insert_of_some (h : m.lookup k = some w) (v : ν) :
    (m.insert k v).keys.card = m.keys.card := by
  rw [keys_insert, Finset.insert_eq_of_mem]
  exact Finmap.mem_keys.mpr (Finmap.mem_of_lookup_eq_some h)

/-- A new key. -/
theorem card_insert_of_none (h : m.lookup k = none) (v : ν) :
    (m.insert k v).keys.card = m.keys.card + 1 := by
  rw [keys_insert, Finset.card_insert_of_notMem]
  rw [Finmap.mem_keys]
  exact Finmap.lookup_eq_none.mp h

/-- A key that goes. -/
theorem card_erase_of_some (h : m.lookup k = some w) :
    (m.erase k).keys.card + 1 = m.keys.card := by
  rw [Finmap.keys_erase]
  exact Finset.card_erase_add_one (Finmap.mem_keys.mpr (Finmap.mem_of_lookup_eq_some h))

/-! ### Walking through a table -/

/-- The number of used slots among the `n` from slot `i` on. -/
def usedFrom (t : ℕ → Option (κ × ν)) : (n i : ℕ) → ℕ
  | 0, _ => 0
  | n + 1, i => (if (t i).isSome then 1 else 0) + usedFrom t n (i + 1)

/-- The last of the `n` slots from slot `i` on that holds a key, and `found` if none does. -/
def lastWith (t : ℕ → Option (κ × ν)) (k : κ) : (n i : ℕ) → (found : Option ℕ) → Option ℕ
  | 0, _, found => found
  | n + 1, i, found => lastWith t k n (i + 1) (if (t i).map Prod.fst = some k then some i else found)

/-- The first free slot of the `n` from slot `i` on. -/
def firstFree (t : ℕ → Option (κ × ν)) : (n i : ℕ) → Option ℕ
  | 0, _ => none
  | n + 1, i => if t i = none then some i else firstFree t n (i + 1)

omit [DecidableEq κ] in

/-- The number of entries from a slot on. -/
theorem usedFrom_eq (t : ℕ → Option (κ × ν)) (n i : ℕ) :
    usedFrom t n i = ((Finset.Ico i (i + n)).filter fun j => (t j).isSome).card := by
  induction n generalizing i with
  | zero => simp [usedFrom]
  | succ n ih =>
    have hIco : Finset.Ico i (i + (n + 1)) = insert i (Finset.Ico (i + 1) (i + 1 + n)) := by
      ext j
      rw [Finset.mem_insert, Finset.mem_Ico, Finset.mem_Ico]
      omega
    rw [usedFrom, ih, hIco, Finset.filter_insert]
    split_ifs with hi
    · rw [Finset.card_insert_of_notMem (by simp), Nat.add_comm]
    · rw [Nat.zero_add]

omit [DecidableEq κ] in
/-- A walk through the whole table counts the used slots. -/
theorem usedFrom_all (t : ℕ → Option (κ × ν)) (n : ℕ) : usedFrom t n 0 = (used n t).card := by
  rw [usedFrom_eq, Nat.zero_add, used, Finset.range_eq_Ico]

/-- The last slot that was found holds the key. -/
theorem lastWith_some {n i j : ℕ} {found : Option ℕ} (h : lastWith t k n i found = some j) :
    found = some j ∨ (j < i + n ∧ ∃ v, t j = some (k, v)) := by
  induction n generalizing i found with
  | zero => exact Or.inl h
  | succ n ih =>
    rcases ih h with hf | ⟨hj, hv⟩
    · by_cases hk : (t i).map Prod.fst = some k
      · rw [if_pos hk] at hf
        obtain rfl := Option.some.inj hf
        obtain ⟨⟨k', v⟩, hti, rfl⟩ := Option.map_eq_some_iff.mp hk
        exact Or.inr ⟨by omega, v, hti⟩
      · rw [if_neg hk] at hf
        exact Or.inl hf
    · exact Or.inr ⟨by omega, hv⟩

/-- Nothing was found where no slot holds it. -/
theorem lastWith_none {n i : ℕ} {found : Option ℕ} (h : lastWith t k n i found = none) :
    found = none ∧ ∀ j, i ≤ j → j < i + n → ∀ v, t j ≠ some (k, v) := by
  induction n generalizing i found with
  | zero => exact ⟨h, fun j h1 h2 => by omega⟩
  | succ n ih =>
    obtain ⟨hf, hno⟩ := ih h
    by_cases hk : (t i).map Prod.fst = some k
    · rw [if_pos hk] at hf
      exact absurd hf (by simp)
    · rw [if_neg hk] at hf
      refine ⟨hf, fun j h1 h2 v hv => ?_⟩
      by_cases hji : j = i
      · subst hji
        exact hk (by rw [hv]; rfl)
      · exact hno j (by omega) (by omega) v hv

/-- A walk for a key of the map ends in its slot. -/
theorem Represents.lastWith_eq (h : Represents n t m) (hv : m.lookup k = some v) :
    ∃ i < n, t i = some (k, v) ∧ lastWith t k n 0 none = some i := by
  obtain ⟨i, hi, hti⟩ := (h.lookup k v).mp hv
  refine ⟨i, hi, hti, ?_⟩
  cases hw : lastWith t k n 0 none with
  | none => exact absurd hti ((lastWith_none hw).2 i (Nat.zero_le i) (by omega) v)
  | some j =>
    obtain hf | ⟨hj, w, htj⟩ := lastWith_some hw
    · exact absurd hf (by simp)
    · rw [h.distinct j (by omega) i hi k w v htj hti]

/-- A walk for another key finds nothing. -/
theorem Represents.lastWith_eq_none (h : Represents n t m) (hv : m.lookup k = none) :
    lastWith t k n 0 none = none := by
  cases hw : lastWith t k n 0 none with
  | none => rfl
  | some j =>
    obtain hf | ⟨hj, w, htj⟩ := lastWith_some hw
    · exact absurd hf (by simp)
    · exact absurd htj (h.lookup_none.mp hv j (by omega) w)

omit [DecidableEq κ] in

/-- The first free slot is free. -/
theorem firstFree_some {n i j : ℕ} (h : firstFree t n i = some j) :
    i ≤ j ∧ j < i + n ∧ t j = none := by
  induction n generalizing i with
  | zero => exact absurd h (by simp [firstFree])
  | succ n ih =>
    rw [firstFree] at h
    by_cases hi : t i = none
    · rw [if_pos hi] at h
      obtain rfl := Option.some.inj h
      exact ⟨Nat.le_refl _, by omega, hi⟩
    · rw [if_neg hi] at h
      obtain ⟨h1, h2, h3⟩ := ih h
      exact ⟨by omega, by omega, h3⟩

omit [DecidableEq κ] in

/-- No slot is free. -/
theorem firstFree_none {n i : ℕ} (h : firstFree t n i = none) :
    ∀ j, i ≤ j → j < i + n → (t j).isSome := by
  induction n generalizing i with
  | zero => intro j h1 h2; omega
  | succ n ih =>
    rw [firstFree] at h
    by_cases hi : t i = none
    · rw [if_pos hi] at h
      exact absurd h (by simp)
    · rw [if_neg hi] at h
      intro j h1 h2
      by_cases hji : j = i
      · subst hji
        exact Option.isSome_iff_ne_none.mpr hi
      · exact ih h j (by omega) (by omega)

end SlotTable
