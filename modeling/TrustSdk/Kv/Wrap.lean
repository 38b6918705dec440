import TrustSdk.Kv.Calls

/-!
# The last generation

The generation is a 64-bit counter, and a transaction that starts at `2 ^ 64 - 1` publishes
the generation zero. Its superblock then loses the selection against the old one, while its
record stays in the table: when the number of keys has changed, the region can no longer be
recovered (`Lost`), although the call has reported success (`actrustKvSet_wraps`).
-/

namespace TrustSdk.Kv

open ByteStore CrashLogic SlotTable

variable {cfg : KvConfig} {capacity g : ℕ} {m : KvMap} {img img' : Image}

/-- The superblock in use miscounts the records, and no journal is left. -/
structure Lost (cfg : KvConfig) (img : Image) : Prop where
  header : HeaderOk img
  quiet : Quiet cfg img
  miscount : ∃ sb index m, Selected cfg img sb index ∧ Table cfg (recordAt cfg img) m ∧
    sb.recordCount.toNat ≠ m.keys.card

/-- Recovery refuses a region whose superblock miscounts. -/
theorem Lost.kvRecover (hcap : cfg.kvRegionSize ≤ capacity) (h : Lost cfg img) :
    cwp (calm cfg capacity) (kvRecover cfg) (fun r _ => r = .error (kvErr .io)) (fun _ => True)
      img := by
  obtain ⟨sb, index, m, hsel, htable, hne⟩ := h.miscount
  have hM := @calm_medium cfg capacity hcap
  have hC : ∀ img', (calm cfg capacity).crash img img' → True := fun _ _ => trivial
  refine kvRecover_scan hM.readable hC hsel ?_ fun e he => absurd he calm_faulted
  -- both journal slots are empty, so there is nothing to replay
  have hscan : kvNewestJournal (validJournal cfg img 0) (validJournal cfg img 1) = none := by
    rw [validJournal_zero (h.quiet 0 (by omega)), validJournal_zero (h.quiet 1 (by omega))]
    rfl
  change cwp _ (kvRecoverFrom sb index (kvNewestJournal (validJournal cfg img 0)
    (validJournal cfg img 1))) _ _ _
  rw [hscan]
  -- the table is read through and counted, and the count is not the one of the superblock
  refine (kvCountRecords_reads hM.readable hC htable.valid cfg.maxRecords 0 (by omega) 0).bind ?_
    fun e he => absurd he calm_faulted
  rw [if_neg]
  · exact cwp_done rfl fun _ _ => trivial
  · intro heq
    have hcard : (used cfg.maxRecords (entries cfg img)).card = m.keys.card := htable.entries.card.symm
    have hcount := congrArg UInt32.toNat heq
    change ((0 : UInt32) + .ofNat (usedFrom (entries cfg img) cfg.maxRecords 0)).toNat = _ at hcount
    rw [UInt32.zero_add, usedFrom_all, hcard, htable.card_toNat] at hcount
    exact hne hcount.symm

/-- Such a region loads no map. -/
theorem Lost.not_loadsMap (h : Lost cfg img) : ¬ LoadsMap cfg capacity img m := by
  rintro ⟨img', hrun, -⟩
  by_cases hcap : cfg.kvRegionSize ≤ capacity
  · -- a store that cannot be recovered is not loaded
    have hspec := kvPrepareStorage_recovers (calm_medium hcap) h.header (h.kvRecover hcap)
      fun e he => absurd he calm_faulted
    have hr := undisturbed_sound hspec
    rw [hrun] at hr
    exact absurd hr (by simp)
  · -- nor is one whose storage is too small
    have hfail : undisturbed capacity (kvPrepareStorage cfg) img =
        (.error (kvErr .unsupported), img) := by
      change Io.run capacity _ (if capacity < cfg.kvRegionSize then _ else _) img = _
      rw [if_pos (not_le.mp hcap)]
      rfl
    rw [hfail, Prod.mk.injEq] at hrun
    exact absurd hrun.1 (by simp)

/-- No get succeeds on such a region. -/
theorem Lost.get (hcap : cfg.kvRegionSize ≤ capacity) (h : Lost cfg img) {key : Bytes}
    (hk : KeyLenOk key) (outCap : ℕ) : (undisturbed capacity (actrustKvGet cfg key outCap) img).1 =
      .ok ⟨.error (kvErr .io), none, none⟩ := by
  have hspec : cwp (calm cfg capacity) (actrustKvGet cfg key outCap)
      (fun r _ => r = .ok ⟨.error (kvErr .io), none, none⟩) (fun _ => True) img := by
    have htrue : ∀ (t img' : Image), (calm cfg capacity).crash t img' → True :=
      fun _ _ _ => trivial
    rw [actrustKvGet, if_neg (not_not.mpr hk)]
    refine cwp_lock_attempt ?_ fun e he => he.elim
    refine cwp_bind (cwp_attempt (cwp_bind (cwp_bind (cwp.mono (h.kvRecover hcap) ?_
      fun _ hi => hi))))
    rintro r t rfl
    exact cwp_unlock (cwp_done rfl (htrue t)) fun e he => he.elim
  exact undisturbed_sound hspec

/-! ### A transaction at any generation -/

/-- What an undisturbed transaction writes, whatever the generation. -/
structure Written (cfg : KvConfig) (img : Image) (sb : KvSuperblock) (index i : ℕ)
    (count : UInt32) (record : KvRecord cfg) (img' : Image) : Prop where
  header : HeaderOk img → HeaderOk img'
  old : superblockAt img' index = superblockAt img index
  new : superblockAt img' ((index + 1) % 2) = kvMakeSuperblock (sb.generation + 1) count
  record : ∀ j < cfg.maxRecords,
    recordAt cfg img' j = Function.update (recordAt cfg img) i record j
  quiet : Quiet cfg img → Quiet cfg img'

/-- What `kv_transaction` has written when no step of it failed, at any generation. -/
theorem kvTransaction_writes {D : Device Err} (hM : KvMedium cfg D) {s : D.State}
    {sb : KvSuperblock} {index i : ℕ} {operation : UInt8} {count : UInt32} {record : KvRecord cfg}
    (hindex : index < 2) (hop : operation ≠ kvOpFormat) (hi : i < cfg.maxRecords) :
    cwp D (kvTransaction sb index operation i count record)
      (fun r t => (r = .ok () ∧ Written cfg (D.view s) sb index i count record (D.view t)) ∨
        ∃ e, D.fault e) (fun _ => True) s := by
  have hC : ∀ (t : D.State) (img' : Image), D.crash t img' → True := fun _ _ _ => trivial
  have hslot : sb.generation.toNat % kvJournalSlots < 2 := Nat.mod_lt _ (by decide)
  have hother : (index + 1) % 2 < 2 := Nat.mod_lt _ (by omega)
  have hgen : (kvPrepareJournal sb operation i count record).generation = sb.generation + 1 := rfl
  simp only [kvTransaction, if_neg hop]
  -- the writes follow one another; each is described on the view the one before left
  generalize sb.generation.toNat % kvJournalSlots = slot at hslot ⊢
  generalize kvPrepareJournal sb operation i count record = journal at hgen ⊢
  refine storageWrite_bind hM (hC s) (kvEncodeJournal_length journal ▸ kvJournalOffset_end_le hslot)
    (fun _ _ => trivial) ?_ fun e _ he _ _ => Or.inr ⟨e, he⟩
  intro t1 h1 _
  obtain ⟨w1, -⟩ := JournalWrite.of_eq hslot h1
  refine storageSync_bind hM (hC t1) ?_ fun e he _ => Or.inr ⟨e, he⟩
  intro t2 h2 _
  rw [← h2] at w1
  refine storageWrite_bind hM (hC t2) (kvEncodeRecord_length record ▸ kvRecord_region hi)
    (fun _ _ => trivial) ?_ fun e _ he _ _ => Or.inr ⟨e, he⟩
  intro t3 h3 _
  obtain ⟨w3, hrec⟩ := RecordWrite.of_eq hi h3
  refine storageWrite_bind hM (hC t3) (kvEncodeSuperblock_length _ ▸ kvSuperblock_region hother)
    (fun _ _ => trivial) ?_ fun e _ he _ _ => Or.inr ⟨e, he⟩
  intro t4 h4 _
  obtain ⟨w4, hsb⟩ := @SbWrite.of_eq cfg _ _ _ _ hother h4
  refine storageSync_bind hM (hC t4) ?_ fun e he _ => Or.inr ⟨e, he⟩
  intro t5 h5 _
  rw [← h5] at w4 hsb
  refine storageWrite_bind hM (hC t5) (kvEncodeJournal_length (kvCommitJournal journal) ▸
    kvJournalOffset_end_le hslot) (fun _ _ => trivial) ?_ fun e _ he _ _ => Or.inr ⟨e, he⟩
  intro t6 h6 _
  obtain ⟨w6, -⟩ := JournalWrite.of_eq hslot h6
  refine storageSync_bind hM (hC t6) ?_ fun e he _ => Or.inr ⟨e, he⟩
  intro t7 h7 _
  rw [← h7] at w6
  rw [← Io.bind_pure (kvClearJournal cfg slot)]
  refine storageWrite_bind hM (hC t7) ?_ (fun _ _ => trivial) ?_ fun e _ he _ _ => Or.inr ⟨e, he⟩
  · rw [List.length_replicate]
    exact kvJournalOffset_end_le hslot
  intro t8 h8 _
  obtain ⟨w8, hclear⟩ := JournalWrite.of_clear hslot h8
  -- the record, the new superblock and the cleared journal are what stays
  refine cwp_done (Or.inl ⟨rfl, ⟨fun h => ?_, ?_, ?_, fun j hj => ?_, fun hq s' hs => ?_⟩⟩) (hC t8)
  · exact w8.header (w6.header (w4.header (w3.header (w1.header h)) rfl rfl))
  · have hne : index ≠ (index + 1) % 2 := by omega
    rw [w8.superblock _ hindex, w6.superblock _ hindex, w4.other _ hindex hne,
      w3.superblock _ hindex, w1.superblock _ hindex]
  · rw [w8.superblock _ hother, w6.superblock _ hother, hsb, hgen]
  · rw [w8.record j hj, w6.record j hj, w4.record j hj, Function.update_apply]
    by_cases hji : j = i
    · rw [if_pos hji, hji, hrec]
    · rw [if_neg hji, w3.record j hj hji, w1.record j hj]
  · by_cases hss : s' = slot
    · rw [hss, hclear]
    · rw [w8.other s' hs hss, w6.other s' hs hss, w4.journal s' hs, w3.journal s' hs,
        w1.other s' hs hss, hq s' hs]

/-! ### The wrap -/

/-- A superblock of generation zero loses the selection. -/
theorem Selected.wrap {sb : KvSuperblock} {index : ℕ} (h : Selected cfg img sb index)
    (hsame : superblockAt img' index = superblockAt img index)
    (hother : (superblockAt img' ((index + 1) % 2)).generation = 0) (hpos : 0 < sb.generation) :
    Selected cfg img' sb index := by
  have hlt := h.index_lt
  have hle : ¬ sb.generation < 0 := by
    rw [UInt64.lt_iff_toNat_lt]
    exact Nat.not_lt_zero _
  obtain rfl | rfl : index = 0 ∨ index = 1 := by omega
  all_goals
    simp only [Nat.zero_add, Nat.reduceMod, Nat.reduceAdd] at hother
    simp only [Selected, kvNewerSuperblock, hsame, hother] at h ⊢
    grind

/-- At the last generation a new key is stored, reported as stored, and lost. -/
theorem actrustKvSet_wraps (hcap : cfg.kvRegionSize ≤ capacity) (h : Stable cfg img g m)
    (hq : Quiet cfg img) (hlast : g + 1 = 2 ^ 64) {key value : Bytes} (hk : KeyLenOk key)
    (hv : value.length ≤ cfg.maxValueLen) (hnew : m.lookup key = none)
    (hroom : m.keys.card < cfg.maxRecords) :
    ∃ img', undisturbed capacity (actrustKvSet cfg key value) img = (.ok (), img') ∧
      Lost cfg img' := by
  have hM := @calm_medium cfg capacity hcap
  have hC : ∀ (t img' : Image), (calm cfg capacity).crash t img' → True := fun _ _ _ => trivial
  have hspec : cwp (calm cfg capacity) (actrustKvSet cfg key value)
      (fun r t => r = .ok () ∧ Lost cfg t) (fun _ => True) img := by
    rw [actrustKvSet, if_neg (by rw [not_or, not_not, not_lt]; exact ⟨hk, hv⟩)]
    refine cwp_lock ?_ fun e he => he.elim
    -- the lock cannot fail here
    suffices hbody : cwp (calm cfg capacity) (kvSetLocked cfg key value)
        (fun r t => r = .ok () ∧ Lost cfg t) (fun _ => True) img by
      refine cwp_bind (cwp_attempt (cwp.mono hbody ?_ fun _ hi => hi))
      rintro r t ⟨rfl, ht⟩
      exact cwp_unlock (cwp_done ⟨rfl, ht⟩ (hC t)) fun e he => he.elim
    -- a quiet region is loaded as it is
    refine kvLoadCurrent_bind hM (Loads.ready h.loads) (fun _ _ => trivial) ?_
      fun e _ he => absurd he calm_faulted
    intro t sb index ht hsel hsame
    obtain rfl := hsame hq
    obtain ⟨hgen, hcount⟩ := h.selected hsel
    refine (kvFindRecord_reads_none hM.readable (hC t) h.table hnew).bind ?_
      fun e he => absurd he calm_faulted
    refine cwp_bind (cwp.mono (kvScanFree_spec hM.readable (hC t) h.table.valid cfg.maxRecords 0
      (by omega)) ?_ fun _ hi => hi)
    rintro r u ⟨rfl, rfl | ⟨⟨e, he⟩, -⟩⟩
    · -- there is room, so a free slot is found
      cases hf : firstFree (entries cfg ((calm cfg capacity).view u)) cfg.maxRecords 0 with
      | none =>
        refine absurd (h.table.entries.full_iff.mpr fun i hi => ?_) (Nat.ne_of_lt hroom)
        exact firstFree_none hf i (Nat.zero_le i) (by omega)
      | some i =>
        obtain ⟨-, hi, hfree⟩ := firstFree_some hf
        have hlt : i < cfg.maxRecords := by omega
        refine cwp.mono (kvTransaction_writes hM hsel.index_lt (by decide) hlt) ?_ fun _ hi => hi
        rintro r v (⟨rfl, hw⟩ | ⟨e, he⟩)
        · refine ⟨rfl, hw.header h.header, hw.quiet hq, sb, index, m.insert key value, ?_, ?_, ?_⟩
          · -- the generation after the last one is zero, so the new superblock is the older one
            have hzero : sb.generation + 1 = 0 := by
              apply UInt64.toNat_inj.mp
              rw [UInt64.toNat_add, hgen]
              change (g + 1) % 2 ^ 64 = 0
              rw [hlast, Nat.mod_self]
            refine hsel.wrap hw.old ?_ ?_
            · change (superblockAt ((calm cfg capacity).view v) _).generation = 0
              rw [hw.new, kvMakeSuperblock_generation, hzero]
            · rw [UInt64.lt_iff_toNat_lt, hgen]
              exact h.pos
          · refine Table.congr (h.table.update (kvMakeRecord_isValid hk hv) ?_) hw.record
            rw [kvMakeRecord_entry hk hv]
            exact h.table.entries.add hlt hfree hnew
          · -- the superblock in force counts the old entries, the table holds one more
            rw [hcount, card_insert_of_none hnew]
            omega
        · exact he.elim
    · exact he.elim
  obtain ⟨hr, hlost⟩ := undisturbed_sound hspec
  exact ⟨_, Prod.ext hr rfl, hlost⟩

end TrustSdk.Kv
