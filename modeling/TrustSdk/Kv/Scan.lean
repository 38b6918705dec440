import TrustSdk.Kv.Medium

/-!
# The walks through the record table

The three record loops of the store (validation, the search for a key and the search for a
free slot) and the chunk loop of the blank check, each against the walk through a slot
table that it carries out.
-/

namespace TrustSdk.Kv

open ByteStore CrashLogic SlotTable

variable {cfg : KvConfig} {D : Device Err} {m : KvMap}

/-! ### Records and their entries -/

/-- A record holds an entry exactly when it is in use. -/
theorem KvRecord.entry_isSome {r : KvRecord cfg} : r.entry.isSome ↔ r.head.used = kvRecordInUse := by
  unfold KvRecord.entry
  split_ifs with h <;> simp [h]

/-- A valid record is in use or it is not; there is no third mark. -/
theorem kvRecordIsValid_used {r : KvRecord cfg} (h : kvRecordIsValid r) :
    r.head.used = kvRecordNotUsed ∨ r.head.used = kvRecordInUse := by
  simp only [kvRecordIsValid] at h
  split_ifs at h with h1 h2
  · exact Or.inl h1
  · simp only [ne_eq, not_or, not_not] at h2
    exact Or.inr h2.1

/-- A valid record without an entry is marked as not used. -/
theorem KvRecord.entry_eq_none {r : KvRecord cfg} (h : kvRecordIsValid r) :
    r.entry = none ↔ r.head.used = kvRecordNotUsed := by
  have hne : kvRecordNotUsed ≠ kvRecordInUse := by decide
  unfold KvRecord.entry
  rcases kvRecordIsValid_used h with hu | hu <;> simp [hu, hne, hne.symm]

/-- The key of a valid record fits. -/
theorem kvRecordIsValid_keyLen {r : KvRecord cfg} (h : kvRecordIsValid r)
    (hu : r.head.used = kvRecordInUse) : r.head.keyLen.toNat ≤ maxKeyLen := by
  have hne : kvRecordInUse ≠ kvRecordNotUsed := by decide
  simp only [kvRecordIsValid, hu, hne, if_false] at h
  split_ifs at h with h2
  simp only [ne_eq, not_or, not_lt] at h2
  exact h2.2.2.1

/-- The key of a valid record is not empty. -/
theorem kvRecordIsValid_keyLen_ne {r : KvRecord cfg} (h : kvRecordIsValid r)
    (hu : r.head.used = kvRecordInUse) : r.head.keyLen.toNat ≠ 0 := by
  have hne : kvRecordInUse ≠ kvRecordNotUsed := by decide
  simp only [kvRecordIsValid, hu, hne, if_false] at h
  split_ifs at h with h2
  simp only [ne_eq, not_or] at h2
  exact fun h0 => h2.2.1 (UInt8.toNat_inj.mp h0)

/-- The value of a valid record fits. -/
theorem kvRecordIsValid_valueLen {r : KvRecord cfg} (h : kvRecordIsValid r)
    (hu : r.head.used = kvRecordInUse) : r.head.valueLen.toNat ≤ cfg.maxValueLen := by
  have hne : kvRecordInUse ≠ kvRecordNotUsed := by decide
  simp only [kvRecordIsValid, hu, hne, if_false] at h
  split_ifs at h with h2
  simp only [ne_eq, not_or, not_lt] at h2
  exact h2.2.2.2

/-- Comparing the length and then the bytes is comparing the keys. -/
theorem KvRecord.key_matches {r : KvRecord cfg} (h : kvRecordIsValid r)
    (hu : r.head.used = kvRecordInUse) (key : Bytes) :
    (r.head.keyLen.toNat = key.length ∧ r.head.key.1.take key.length = key) ↔
      r.entry.map Prod.fst = some key := by
  have hlen : r.keyBytes.length = r.head.keyLen.toNat := by
    rw [KvRecord.keyBytes, List.length_take, ByteArr.length_val]
    exact Nat.min_eq_left (kvRecordIsValid_keyLen h hu)
  rw [KvRecord.entry, if_pos hu, Option.map_some, Option.some.injEq]
  constructor
  · -- `kv_find_record` compares the lengths first and then that many bytes
    rintro ⟨hkl, hkey⟩
    rw [KvRecord.keyBytes, hkl, hkey]
  · rintro rfl
    rw [hlen]
    exact ⟨rfl, rfl⟩

/-- The entries of a region's records. -/
def entries (cfg : KvConfig) (img : Image) (i : ℕ) : Option (Bytes × Bytes) :=
  (recordAt cfg img i).entry

section Walks

variable (hM : KvReadable cfg D) {s : D.State} {C : Image → Prop}
  (hC : ∀ img, D.crash s img → C img)
  (hvalid : ∀ i < cfg.maxRecords, kvRecordIsValid (recordAt cfg (D.view s) i))
include hM hC hvalid

/-- The count of `kv_validate_records` is the number of slots with an entry. -/
theorem kvCountRecords_reads (n i : ℕ) (hn : i + n = cfg.maxRecords) (count : UInt32) :
    Reads D s C (kvCountRecords cfg n i count)
      (count + .ofNat (usedFrom (entries cfg (D.view s)) n i)) := by
  -- on the slots that are still to be read
  induction n generalizing i count with
  | zero => simpa [usedFrom, kvCountRecords] using Reads.pure (a := count) hC
  | succ n ih =>
    have hi : i < cfg.maxRecords := by omega
    refine (kvReadRecord_reads hM hC hi).attemptThen hC ?_ fun e he => ⟨_, rfl, by decide⟩
    simp only [hvalid i hi, not_true_eq_false, if_false]
    have hih := ih (i + 1) (by omega)
      (if (recordAt cfg (D.view s) i).head.used = kvRecordInUse then count + 1 else count)
    have hsome := @KvRecord.entry_isSome cfg (recordAt cfg (D.view s) i)
    by_cases hu : (recordAt cfg (D.view s) i).head.used = kvRecordInUse
    · rw [if_pos hu] at hih ⊢
      have he : (entries cfg (D.view s) i).isSome := hsome.mpr hu
      rw [usedFrom, if_pos he, UInt32.ofNat_add, ← UInt32.add_assoc]
      exact hih
    · rw [if_neg hu] at hih ⊢
      have he : ¬ (entries cfg (D.view s) i).isSome := fun h => hu (hsome.mp h)
      rw [usedFrom, if_neg he, Nat.zero_add]
      exact hih

/-- The scan of `kv_find_record` ends with the last slot of the key and the number of entries. -/
theorem kvScanRecords_reads (key : Bytes) (n i : ℕ) (hn : i + n = cfg.maxRecords)
    (found : Option ℕ) (count : UInt32) :
    Reads D s C (kvScanRecords cfg key n i found count)
      (lastWith (entries cfg (D.view s)) key n i found,
        count + .ofNat (usedFrom (entries cfg (D.view s)) n i)) := by
  -- as above; the slot found so far is overwritten by a later one
  induction n generalizing i found count with
  | zero => simpa [usedFrom, lastWith, kvScanRecords] using Reads.pure (a := (found, count)) hC
  | succ n ih =>
    have hi : i < cfg.maxRecords := by omega
    refine (kvReadRecord_reads hM hC hi).attemptThen hC ?_ fun e he => ⟨_, rfl, by decide⟩
    simp only [hvalid i hi, not_true_eq_false, if_false]
    have hsome := @KvRecord.entry_isSome cfg (recordAt cfg (D.view s) i)
    by_cases hu : (recordAt cfg (D.view s) i).head.used = kvRecordInUse
    · have he : (entries cfg (D.view s) i).isSome := hsome.mpr hu
      have hkey := KvRecord.key_matches (hvalid i hi) hu key
      rw [if_neg (not_not.mpr hu), lastWith, usedFrom, if_pos he,
        UInt32.ofNat_add, ← UInt32.add_assoc]
      simp only [hkey]
      exact ih (i + 1) (by omega) _ (count + 1)
    · have he : ¬ (entries cfg (D.view s) i).isSome := fun h => hu (hsome.mp h)
      have hnone : entries cfg (D.view s) i = none := Option.not_isSome_iff_eq_none.mp he
      rw [if_pos hu, lastWith, usedFrom, if_neg he, Nat.zero_add, hnone, Option.map_none,
        if_neg (by simp)]
      exact ih (i + 1) (by omega) found count

/-- A failing read ends the search without a slot. -/
theorem kvScanFree_spec (n i : ℕ) (hn : i + n = cfg.maxRecords) :
    cwp D (kvScanFree cfg n i) (fun r t => t = s ∧
      (r = .ok (firstFree (entries cfg (D.view s)) n i) ∨ ((∃ e, D.fault e) ∧ r = .ok none))) C s := by
  -- an unreadable slot ends the scan with nothing found, which is also the answer of a full table
  induction n generalizing i with
  | zero => exact cwp_done ⟨rfl, Or.inl rfl⟩ hC
  | succ n ih =>
    have hi : i < cfg.maxRecords := by omega
    refine (kvReadRecord_reads hM hC hi).attempt ?_ fun e he => ?_
    · simp only [hvalid i hi, not_true_eq_false, if_false]
      have hnone := KvRecord.entry_eq_none (hvalid i hi)
      rw [firstFree]
      by_cases hu : (recordAt cfg (D.view s) i).head.used = kvRecordNotUsed
      · have he : entries cfg (D.view s) i = none := hnone.mpr hu
        rw [if_pos hu, if_pos he]
        exact cwp_done ⟨rfl, Or.inl rfl⟩ hC
      · have he : ¬ entries cfg (D.view s) i = none := fun h => hu (hnone.mp h)
        rw [if_neg hu, if_neg he]
        exact ih (i + 1) (by omega)
    · exact cwp_done ⟨rfl, Or.inr ⟨he.fault, rfl⟩⟩ hC

end Walks

section Table

variable (hM : KvReadable cfg D) {s : D.State} {C : Image → Prop}
  (hC : ∀ img, D.crash s img → C img) (ht : Table cfg (recordAt cfg (D.view s)) m)
include hM hC ht

/-- `kv_validate_records` accepts a region that counts as the superblock says. -/
theorem kvValidateRecords_reads {count : UInt32} (hcount : count.toNat = m.keys.card) :
    Reads D s C (kvValidateRecords cfg count) () := by
  refine (kvCountRecords_reads hM hC ht.valid cfg.maxRecords 0 (by omega) 0).andThen ?_
  rw [usedFrom_all, if_pos]
  · exact Reads.pure hC
  · have hcard : m.keys.card = (used cfg.maxRecords (entries cfg (D.view s))).card := ht.entries.card
    rw [← hcard, ← hcount, UInt32.ofNat_toNat, UInt32.zero_add]

/-- The search for a key of the map finds its slot, and the number of keys. -/
theorem kvFindRecord_reads_some {key v : Bytes} (hv : m.lookup key = some v) :
    ∃ index < cfg.maxRecords, (recordAt cfg (D.view s) index).entry = some (key, v) ∧
      Reads D s C (kvFindRecord cfg key) (some index, .ofNat m.keys.card) := by
  obtain ⟨index, hlt, hslot, hlast⟩ := ht.entries.lastWith_eq hv
  refine ⟨index, hlt, hslot, ?_⟩
  have h := kvScanRecords_reads hM hC ht.valid key cfg.maxRecords 0 (by omega) none 0
  rw [show lastWith (entries cfg (D.view s)) key cfg.maxRecords 0 none = some index from hlast,
    usedFrom_all, UInt32.zero_add,
    show (used cfg.maxRecords (entries cfg (D.view s))).card = m.keys.card from
      ht.entries.card.symm] at h
  exact h

/-- A key that the map does not hold is not found. -/
theorem kvFindRecord_reads_none {key : Bytes} (hv : m.lookup key = none) :
    Reads D s C (kvFindRecord cfg key) (none, .ofNat m.keys.card) := by
  have h := kvScanRecords_reads hM hC ht.valid key cfg.maxRecords 0 (by omega) none 0
  rw [show lastWith (entries cfg (D.view s)) key cfg.maxRecords 0 none = none from
      ht.entries.lastWith_eq_none hv,
    usedFrom_all, UInt32.zero_add,
    show (used cfg.maxRecords (entries cfg (D.view s))).card = m.keys.card from
      ht.entries.card.symm] at h
  exact h

end Table

end TrustSdk.Kv
