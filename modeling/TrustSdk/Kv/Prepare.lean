import TrustSdk.Kv.Operations

/-!
# Preparing a region

`kvPrepareStorage` on a region that has been formatted is recovery
(`kvPrepareStorage_spec`); on a blank region it formats, and the store starts out empty at
generation 1 (`kvPrepareStorage_blank`).
-/

namespace TrustSdk.Kv

open ByteStore CrashLogic SlotTable

variable {cfg : KvConfig} {D : Device Err} {g : ℕ} {m : KvMap}

/-! ### Storage that is too small -/

/-- A storage that is too small is refused before anything is read. -/
theorem kvPrepareStorage_small {s : D.State} {C : Image → Prop}
    (h : D.capacity < cfg.kvRegionSize) (hfault : ∀ e, ¬ D.fault e)
    (hC : ∀ img, D.crash s img → C img) :
    cwp D (kvPrepareStorage cfg) (fun r t => r = .error (kvErr .unsupported) ∧ t = s) C s := by
  refine cwp_capacity ?_ fun e he => absurd he (hfault e)
  rw [if_pos h]
  exact cwp_done ⟨rfl, rfl⟩ hC

/-! ### A formatted region -/

/-- The prefix that `kvPrepareStorage` inspects carries the current version. -/
theorem HeaderOk.magic_version {img : Image} (h : HeaderOk img) :
    kvGetU32 (slice img 0 12) = kvHeaderMagic ∧
      kvGetU16 ((slice img 0 12).drop 4) = kvHeaderVersionV2 := by
  have hsplit : slice img 0 12 =
      kvPutU32 kvHeaderMagic ++ (kvPutU16 kvHeaderVersionV2 ++ (slice img 0 12).drop 6) := by
    rw [← List.append_assoc, ← h, ← slice_take img 0 (by omega : 6 ≤ 12), List.take_append_drop]
  rw [hsplit, kvGetU32_append, drop_field (kvPutU32_length _) (Nat.le_refl _)]
  exact ⟨rfl, kvGetU16_append _ _⟩

/-- A region that loads carries the header. -/
theorem Loads.header {img : Image} (h : Loads cfg g m img) : HeaderOk img := by
  rcases h with h | ⟨_, _, _, h⟩
  · exact h.header
  · exact h.header

/-- What a ready storage shows loads. -/
theorem Ready.loads {s : D.State} (h : Ready cfg D s g m) : Loads cfg g m (D.view s) := by
  rcases h with h | ⟨-, h⟩
  · exact h.view.loads
  · exact h

section Prepare

variable (hM : KvMedium cfg D) {s : D.State}
include hM

/-- Preparing a region of the current version is recovering it. -/
theorem kvPrepareStorage_recovers {C : Image → Prop} {Q : Except Err Unit → D.State → Prop}
    (hheader : HeaderOk (D.view s)) (hrec : cwp D (kvRecover cfg) Q C s)
    (hfault : ∀ e, Faulted D e → Q (.error e) s) : cwp D (kvPrepareStorage cfg) Q C s := by
  obtain ⟨hmagic, hversion⟩ := hheader.magic_version
  refine cwp_capacity ?_ fun e he => hfault e ⟨⟨e, he⟩, hM.fault_code e he⟩
  rw [if_neg (not_lt.mpr hM.capacity)]
  refine (storageRead_reads hM.readable hrec.crash (kvHeader_region cfg)).bind ?_ hfault
  have hv1 : ¬ (kvHeaderMagic = kvHeaderMagic ∧ kvHeaderVersionV2 = kvHeaderVersionV1) := by decide
  rw [hmagic, hversion, if_neg hv1, if_pos ⟨rfl, rfl⟩]
  exact hrec

/-- `kv_prepare_storage` over a formatted region. -/
theorem kvPrepareStorage_spec (hs : Ready cfg D s g m) {C : Image → Prop}
    (hC : ∀ img, Loads cfg g m img → C img) :
    cwp D (kvPrepareStorage cfg) (Recovered cfg D s g m) C s :=
  kvPrepareStorage_recovers hM hs.loads.header (kvRecover_spec hM hs hC)
    fun e he => Or.inr ⟨e, he, rfl, hs⟩

/-- `actrust_kv_open` over a formatted region. -/
theorem actrustKvOpen_spec (hs : Ready cfg D s g m) :
    cwp D (actrustKvOpen cfg) (Finished cfg D s g m (.ok ()) g m) (Between cfg g m g m) s := by
  refine kvWithLock_spec hs (cwp.mono (kvPrepareStorage_spec hM hs fun _ hi => Or.inl hi) ?_
    fun _ hi => hi)
  rintro r t (⟨rfl, ht, hq⟩ | ⟨e, he, rfl, ht⟩)
  · refine Or.inl ⟨rfl, ht, fun hqs => ?_, fun _ => hq⟩
    rw [hq hqs]
    exact hqs
  · exact .of_failed (Or.inl he.fault) (Or.inl ht)

end Prepare

/-! ### A blank region -/

/-- Every byte is zero. -/
def Blank (img : Image) : Prop := ∀ a, img a = 0

/-- Every window of a blank region is zero. -/
theorem Blank.slice {img : Image} (h : Blank img) (off len : ℕ) :
    ByteStore.slice img off len = List.replicate len 0 := by
  refine List.eq_replicate_iff.mpr ⟨slice_length _ _ _, fun b hb => ?_⟩
  obtain ⟨i, -, rfl⟩ := List.mem_map.mp hb
  exact h _

/-- Zeros written over a blank image change nothing. -/
theorem Blank.patch {img : Image} (h : Blank img) (off n : ℕ) :
    Blank (ByteStore.patch img off (List.replicate n 0)) := by
  intro a
  unfold ByteStore.patch
  split_ifs with ha
  · rw [List.length_replicate] at ha
    rw [List.getD_eq_getElem?_getD, List.getElem?_replicate, if_pos (by omega), Option.getD_some]
  · exact h a

/-- A blank region has no valid superblock. -/
theorem Blank.superblockAt {img : Image} (h : Blank img) (i : ℕ) :
    ¬ kvSuperblockIsValid cfg (superblockAt img i) := by
  have hzero : (Kv.superblockAt img i).magic = 0 := by
    rw [Kv.superblockAt, h.slice]
    simp [kvDecodeSuperblock, kvGetU32, leNat_replicate_zero]
  have hne : (0 : UInt32) ≠ kvHeaderMagic := by decide
  simp [kvSuperblockIsValid, hzero, hne]

/-- Its records are empty. -/
theorem Blank.recordAt {img : Image} (h : Blank img) (i : ℕ) : recordAt cfg img i = .zero cfg := by
  rw [Kv.recordAt, h.slice, kvDecodeRecord_zero]

/-- Its journals are empty. -/
theorem Blank.journalAt {img : Image} (h : Blank img) (i : ℕ) : journalAt cfg img i = .zero cfg := by
  rw [Kv.journalAt, h.slice, kvDecodeJournal_zero]

/-- An erased data area holds no record. -/
theorem recordAt_erased (img : Image) {i : ℕ} (hi : i < cfg.maxRecords) :
    recordAt cfg (patch img 0 (List.replicate cfg.kvJournalOffsetBase 0)) i = .zero cfg := by
  have hend := kvRecordOffset_end_le_journals hi
  have hzero := slice_patch img 0 (List.replicate cfg.kvJournalOffsetBase (0 : UInt8))
  rw [List.length_replicate] at hzero
  have hslice : slice (patch img 0 (List.replicate cfg.kvJournalOffsetBase 0))
      (kvRecordOffset cfg i) cfg.kvRecordWireSize = List.replicate cfg.kvRecordWireSize 0 := by
    have hdrop := congrArg (fun bs : Bytes => (bs.drop (kvRecordOffset cfg i)).take
      cfg.kvRecordWireSize) hzero
    simp only [slice_drop, Nat.zero_add, List.drop_replicate] at hdrop
    rw [slice_take _ _ (by omega), List.take_replicate, Nat.min_eq_left (by omega)] at hdrop
    exact hdrop
  rw [recordAt, hslice, kvDecodeRecord_zero]

/-- Both superblocks of a new store. -/
def freshSuperblock : KvSuperblock := kvMakeSuperblock 1 0

/-- The superblock of the first generation is valid. -/
theorem freshSuperblock_isValid : kvSuperblockIsValid cfg freshSuperblock :=
  kvMakeSuperblock_isValid (Nat.zero_le _)

/-- The region once both superblocks are written over an erased data area. -/
theorem stable_fresh {img0 img1 img2 img3 : Image}
    (h1 : img1 = patch img0 0 (List.replicate cfg.kvJournalOffsetBase 0))
    (h2 : img2 = patch img1 (kvSuperblockOffset 0) (kvEncodeSuperblock freshSuperblock))
    (h3 : img3 = patch img2 (kvSuperblockOffset 1) (kvEncodeSuperblock freshSuperblock))
    (hdone : ∀ slot < 2, (journalAt cfg img0 slot).generation.toNat ≤ 1 ∧
      ((journalAt cfg img0 slot).generation.toNat = 1 →
        (journalAt cfg img0 slot).operation = kvOpFormat)) :
    Stable cfg img3 1 ∅ ∧ ∀ slot < 2, journalAt cfg img3 slot = journalAt cfg img0 slot := by
  -- the records are erased first, then the two superblocks are written over the erased part
  have hw2 := (TornWrite.full cfg img1 (patch img1 (kvSuperblockOffset 0)
    (kvEncodeSuperblock freshSuperblock))).sbWrite (by omega : 0 < 2)
  have hw3 := (TornWrite.full cfg img2 (patch img2 (kvSuperblockOffset 1)
    (kvEncodeSuperblock freshSuperblock))).sbWrite (by omega : 1 < 2)
  rw [← h2] at hw2
  rw [← h3] at hw3
  have hout := SameOutside.patch img0 0 (List.replicate cfg.kvJournalOffsetBase 0)
  rw [List.length_replicate, ← h1] at hout
  -- the journals lie behind what is erased, so they are still there
  have hjournal : ∀ slot < 2, journalAt cfg img3 slot = journalAt cfg img0 slot := by
    intro slot hs
    rw [hw3.journal slot hs, hw2.journal slot hs]
    refine journalAt_frame hout (Or.inr ?_)
    rw [Nat.zero_add]
    exact Nat.le_add_right _ _
  have hrecord : ∀ i < cfg.maxRecords, recordAt cfg img3 i = .zero cfg := by
    intro i hi
    rw [hw3.record i hi, hw2.record i hi, h1, recordAt_erased img0 hi]
  have hsb1 : superblockAt img3 1 = freshSuperblock := by rw [h3, superblockAt_patch]
  have hsb0 : superblockAt img3 0 = freshSuperblock := by
    rw [hw3.other 0 (by omega) (by omega), h2, superblockAt_patch]
  refine ⟨⟨?_, Nat.one_pos, ⟨freshSuperblock, 0, ?_, rfl, rfl⟩, ⟨?_, ?_⟩, ?_⟩, hjournal⟩
  · refine hw3.header ?_ rfl rfl
    rw [HeaderOk, h2, kvSuperblockOffset, Nat.zero_mul,
      slice_patch_take _ _ _ (by simp [kvSuperblockSize])]
    rfl
  · simp [Selected, kvNewerSuperblock, hsb0, hsb1, freshSuperblock_isValid]
  · intro i hi
    rw [hrecord i hi]
    exact KvRecord.zero_isValid
  · refine Represents.empty fun i hi => ?_
    rw [hrecord i hi]
    exact KvRecord.zero_entry
  · -- a journal that is there already belongs to the first generation and asks for nothing
    intro slot hs _
    rw [hjournal slot hs]
    exact ⟨(hdone slot hs).1, fun hg hop => absurd ((hdone slot hs).2 hg) hop⟩

section Blank

variable (hM : KvReadable cfg D) {s : D.State} (hblank : Blank (D.view s))
include hM hblank

omit hblank in
/-- A region without a valid superblock. -/
theorem kvCurrentSuperblock_none {C : Image → Prop} (hC : ∀ img, D.crash s img → C img)
    (hnone : kvNewerSuperblock cfg (superblockAt (D.view s) 0) (superblockAt (D.view s) 1) = none) :
    Reads D s C (kvCurrentSuperblock cfg) none := by
  have hselect : cwp D (kvSelectSuperblock cfg)
      (fun r t => t = s ∧ (r = .error (kvErr .noResource) ∨ ∃ e, Faulted D e ∧ r = .error e)) C s := by
    -- either slot may be unreadable, and none of the two is valid
    refine Reads.bind (kvReadSuperblock_reads hM hC (by omega : 0 < 2)) ?_ fun e he =>
      ⟨rfl, Or.inr ⟨e, he, rfl⟩⟩
    refine Reads.bind (kvReadSuperblock_reads hM hC (by omega : 1 < 2)) ?_ fun e he =>
      ⟨rfl, Or.inr ⟨e, he, rfl⟩⟩
    rw [hnone]
    exact cwp_done ⟨rfl, Or.inl rfl⟩ hC
  refine cwp_bind (cwp_attempt (cwp.mono hselect ?_ fun _ hi => hi))
  rintro r t ⟨rfl, rfl | ⟨e, he, rfl⟩⟩
  · change Reads D t C (pure none) none
    exact Reads.pure hC
  · simp only [afterwards_ok, if_neg he.code]
    exact cwp_done ⟨rfl, Or.inr ⟨e, he, rfl⟩⟩ hC

omit hblank in
/-- A clear journal slot counts as none. -/
theorem kvScanJournal_zero {C : Image → Prop} (hC : ∀ img, D.crash s img → C img) {i : ℕ}
    (hi : i < 2) (hz : journalAt cfg (D.view s) i = .zero cfg) (noSuperblock : Bool) :
    Reads D s C (kvScanJournal cfg noSuperblock i) none := by
  refine (kvReadJournal_reads hM hC hi).andThen ?_
  rw [hz, if_pos (by simp [kvJournalIsZero])]
  exact Reads.pure hC

/-- Recovery of a blank region finds nothing to recover. -/
theorem kvRecover_blank {C : Image → Prop} (hC : ∀ img, D.crash s img → C img) :
    cwp D (kvRecover cfg)
      (fun r t => t = s ∧ (r = .error (kvErr .noResource) ∨ ∃ e, Faulted D e ∧ r = .error e)) C s := by
  refine (kvCurrentSuperblock_none hM hC (if_pos ⟨hblank.superblockAt 0, hblank.superblockAt 1⟩)).bind ?_ fun e he => ⟨rfl, Or.inr ⟨e, he, rfl⟩⟩
  refine (kvScanJournal_zero hM hC (by omega : 0 < 2) (hblank.journalAt 0) true).bind ?_ fun e he =>
    ⟨rfl, Or.inr ⟨e, he, rfl⟩⟩
  refine (kvScanJournal_zero hM hC (by omega : 1 < 2) (hblank.journalAt 1) true).bind ?_ fun e he =>
    ⟨rfl, Or.inr ⟨e, he, rfl⟩⟩
  exact cwp_done ⟨rfl, Or.inl rfl⟩ hC

/-- `kv_chunks_are_zero` answers yes on a blank region. -/
theorem kvChunksAreZero_blank {C : Image → Prop} (hC : ∀ img, D.crash s img → C img) {len : ℕ}
    (hlen : len ≤ cfg.kvRegionSize) (n off : ℕ) (hoff : off ≤ len) :
    cwp D (kvChunksAreZero len n off)
      (fun r t => t = s ∧ (r = .ok true ∨ ((∃ e, D.fault e) ∧ r = .ok false))) C s := by
  induction n generalizing off with
  | zero => exact cwp_done ⟨rfl, Or.inl rfl⟩ hC
  | succ n ih =>
    refine (storageRead_reads hM hC (by omega : off + min 256 (len - off) ≤ cfg.kvRegionSize)).attempt
      ?_ fun e he => cwp_done ⟨rfl, Or.inr ⟨he.fault, rfl⟩⟩ hC
    simp only [hblank.slice, List.length_replicate, if_true]
    exact ih _ (by omega)

/-- A blank region is formatted. -/
theorem kvPrepareStorage_unformatted {C : Image → Prop} {Q : Except Err Unit → D.State → Prop}
    (hformat : cwp D (kvFormat cfg) Q C s) (hfault : (∃ e, D.fault e) → ∀ e, Q (.error e) s) :
    cwp D (kvPrepareStorage cfg) Q C s := by
  have hC := hformat.crash
  refine cwp_capacity ?_ fun e he => hfault ⟨e, he⟩ e
  rw [if_neg (not_lt.mpr hM.capacity)]
  refine (storageRead_reads hM hC (kvHeader_region cfg)).bind ?_ fun e he => hfault he.fault e
  -- the first bytes are zero, which is neither the magic of the new nor of the old format
  have hmagic : kvGetU32 (List.replicate 12 0) ≠ kvHeaderMagic := by decide
  rw [hblank.slice, if_neg fun h => hmagic h.1, if_neg fun h => hmagic h.1,
    if_neg (not_not.mpr rfl)]
  -- the recovery finds no journal, and the format is then made of an empty region
  refine cwp_bind (cwp_attempt (cwp.mono (kvRecover_blank hM hblank hC) ?_ fun _ hi => hi))
  rintro r t ⟨rfl, rfl | ⟨e, he, rfl⟩⟩
  · have hcode : ¬ (kvErr .noResource).code ≠ .noResource := not_not.mpr rfl
    simp only [afterwards_ok, if_neg hcode]
    refine cwp_bind (cwp.mono (kvChunksAreZero_blank hM hblank hC (Nat.le_refl _) _ 0
      (Nat.zero_le _)) ?_ fun _ hi => hi)
    rintro r u ⟨rfl, rfl | ⟨he, rfl⟩⟩
    · exact hformat
    · simp only [afterwards_ok, Bool.false_eq_true, if_false]
      exact cwp_done (hfault he _) hC
  · simp only [afterwards_ok, if_pos he.code]
    exact cwp_done (hfault he.fault e) hC

end Blank

section Format

variable (hM : KvMedium cfg D) {s : D.State}
include hM

/-- The data area is erased and both superblocks are written, over journals that are done. -/
theorem kvCompleteFormat_spec {journal : KvJournal cfg} (hbase : journal.baseGeneration = 0)
    (hgen : journal.generation = 1)
    (hdone : ∀ slot < 2, (journalAt cfg (D.view s) slot).generation.toNat ≤ 1 ∧
      ((journalAt cfg (D.view s) slot).generation.toNat = 1 →
        (journalAt cfg (D.view s) slot).operation = kvOpFormat)) :
    cwp D (kvCompleteFormat journal)
      (fun r t => (r = .ok () ∧ Exact D t ∧ Stable cfg (D.view t) 1 ∅ ∧
          ∀ slot < 2, journalAt cfg (D.view t) slot = journalAt cfg (D.view s) slot) ∨
        ((∃ e, D.fault e) ∧ ∃ e, r = .error e)) (fun _ => True) s := by
  have hC : ∀ (t : D.State) (img : Image), D.crash t img → True := fun _ _ _ => trivial
  have hcond : ¬ (journal.baseGeneration ≠ 0 ∨ journal.generation = 0) := by
    rw [hbase, hgen]
    decide
  -- the journal asks for the first generation over nothing, which is what the check wants
  rw [kvCompleteFormat, if_neg hcond, hgen]
  refine storageWrite_bind hM (hC s) ?_ (fun _ _ => trivial) ?_
    fun e _ he _ _ => Or.inr ⟨⟨e, he⟩, e, rfl⟩
  · rw [List.length_replicate, Nat.zero_add]
    exact Nat.le_add_right _ _
  -- the three writes and the sync, each of which may fail and end the call
  intro t1 h1 _
  refine storageWrite_bind hM (hC t1) ?_ (fun _ _ => trivial) ?_
    fun e _ he _ _ => Or.inr ⟨⟨e, he⟩, e, rfl⟩
  · rw [kvEncodeSuperblock_length]
    exact kvSuperblock_region (by omega)
  intro t2 h2 _
  refine storageWrite_bind hM (hC t2) ?_ (fun _ _ => trivial) ?_
    fun e _ he _ _ => Or.inr ⟨⟨e, he⟩, e, rfl⟩
  · rw [kvEncodeSuperblock_length]
    exact kvSuperblock_region (by omega)
  intro t3 h3 _
  obtain ⟨hstable, hjournal⟩ := stable_fresh h1 h2 h3 hdone
  rw [← Io.bind_pure actrustStorageSync]
  refine storageSync_bind hM (hC t3) ?_ fun e he _ => Or.inr ⟨⟨e, he⟩, e, rfl⟩
  intro t4 h4 hex
  rw [← h4] at hstable hjournal
  exact cwp_done (Or.inl ⟨rfl, hex, hstable, hjournal⟩) (hC t4)

variable (hblank : Blank (D.view s))
include hblank

/-- A blank region is formatted: the store is empty at generation 1. -/
theorem kvFormat_spec : cwp D (kvFormat cfg)
    (fun r t => (r = .ok () ∧ Resting cfg D t 1 ∅ ∧ Quiet cfg (D.view t)) ∨
      ((∃ e, D.fault e) ∧ ∃ e, r = .error e)) (fun _ => True) s := by
  have hC : ∀ (t : D.State) (img : Image), D.crash t img → True := fun _ _ _ => trivial
  refine storageWrite_bind hM (hC s) ?_ (fun _ _ => trivial) ?_
    fun e _ he _ _ => Or.inr ⟨⟨e, he⟩, e, rfl⟩
  · rw [kvEncodeJournal_length]
    exact kvJournalOffset_end_le (by omega)
  -- the journal is written and synced before anything of it is carried out
  intro t1 h1 _
  have hw := (TornWrite.full cfg (D.view s) (patch (D.view s) (kvJournalOffset cfg 0)
    (kvEncodeJournal (kvFormatJournal cfg)))).journalWrite (by omega : 0 < 2)
  rw [← h1] at hw
  refine storageSync_bind hM (hC t1) ?_ fun e he _ => Or.inr ⟨⟨e, he⟩, e, rfl⟩
  intro t2 h2 _
  have hj0 : journalAt cfg (D.view t2) 0 = kvFormatJournal cfg := by
    rw [h2, h1, journalAt_patch]
  have hj1 : journalAt cfg (D.view t2) 1 = .zero cfg := by
    rw [h2, hw.other 1 (by omega) (by omega), hblank.journalAt]
  -- the journal in slot 0 is the format itself, the one in slot 1 is empty
  have hdone : ∀ slot < 2, (journalAt cfg (D.view t2) slot).generation.toNat ≤ 1 ∧
      ((journalAt cfg (D.view t2) slot).generation.toNat = 1 →
        (journalAt cfg (D.view t2) slot).operation = kvOpFormat) := by
    intro slot hs
    obtain rfl | rfl : slot = 0 ∨ slot = 1 := by omega
    · rw [hj0]
      exact ⟨Nat.le_refl 1, fun _ => rfl⟩
    · rw [hj1]
      exact ⟨Nat.zero_le 1, fun h => absurd h (by change ¬ (0 : ℕ) = 1; omega)⟩
  refine cwp_bind (cwp.mono (kvCompleteFormat_spec hM rfl rfl hdone) ?_ fun _ hi => hi)
  rintro r t3 (⟨rfl, hex, hstable, hjournal⟩ | ⟨he, e, rfl⟩)
  · have hfmt : (kvFormatJournal cfg).Done 1 (D.view t3) :=
      ⟨Nat.le_refl 1, fun _ hop => absurd rfl hop⟩
    have hother : Quiet cfg (D.view s) → ∀ slot < 2, slot ≠ 0 →
        journalAt cfg (D.view t3) slot = .zero cfg := by
      intro _ slot hs hne
      obtain rfl : slot = 1 := by omega
      rw [hjournal 1 hs, hj1]
    have hcommit := @commit_spec cfg D 0 ∅ ∅ hM t3 (fun _ => True) 0 _ (.of_exact hex hstable)
      (fun _ _ => trivial) (by omega) hfmt s hother
    refine cwp.mono hcommit ?_ fun _ hi => hi
    rintro r t (⟨rfl, ht, hq⟩ | ⟨e, he, rfl, -⟩)
    · exact Or.inl ⟨rfl, ht, hq fun i _ => hblank.journalAt i⟩
    · exact Or.inr ⟨⟨e, he⟩, e, rfl⟩
  · exact Or.inr ⟨he, e, rfl⟩

/-- Preparing a blank region formats it. -/
theorem kvPrepareStorage_blank : cwp D (kvPrepareStorage cfg)
    (fun r t => (r = .ok () ∧ Resting cfg D t 1 ∅ ∧ Quiet cfg (D.view t)) ∨
      ((∃ e, D.fault e) ∧ ∃ e, r = .error e)) (fun _ => True) s :=
  kvPrepareStorage_unformatted hM.readable hblank (kvFormat_spec hM hblank)
    fun hfault e => Or.inr ⟨hfault, e, rfl⟩

end Format

end TrustSdk.Kv
