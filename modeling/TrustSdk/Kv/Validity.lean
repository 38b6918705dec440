import TrustSdk.Kv.Atomicity

/-!
# What a load vouches for

Before every operation `kvLoadCurrent` recovers the region, whatever is in it. The exits of the
recovery differ in what they look at: without a valid journal every record is validated and
counted, a completed format leaves no record, but an obsolete journal is only cleared and a
pending one only finished, with the records left unread. So a load that returns OK vouches for
the records on the first two exits, and on the other two exactly when the records it did not look
at happen to be in order (`recovery_validates_iff`).

* `Delivers` — the judgement for programs that reach their result unless a storage call fails;
* `kvLoadCurrent_obsolete`, `kvLoadCurrent_replayed` — what the two unchecked exits leave;
* `Vouched` — the condition under which they leave a store in order.
-/

namespace TrustSdk.Kv

open ByteStore CrashLogic SlotTable

variable {cfg : KvConfig} {D : Device Err} {α β : Type}

/-- The slots whose record is in use. -/
def usedRecords (cfg : KvConfig) (records : ℕ → KvRecord cfg) : Finset ℕ :=
  (Finset.range cfg.maxRecords).filter fun i => (records i).head.used = kvRecordInUse

/-- The slots with an entry are the records in use. -/
theorem used_entry (records : ℕ → KvRecord cfg) :
    used cfg.maxRecords (fun i => (records i).entry) = usedRecords cfg records :=
  Finset.filter_congr fun _ _ => KvRecord.entry_isSome

/-- Their number fits 32 bits. -/
theorem usedRecords_card_lt (records : ℕ → KvRecord cfg) :
    (usedRecords cfg records).card < 2 ^ 32 := by
  have hle := Finset.card_filter_le (Finset.range cfg.maxRecords)
    fun i => (records i).head.used = kvRecordInUse
  rw [Finset.card_range] at hle
  exact hle.trans_lt (maxRecords_lt cfg)

/-- Every slot decodes as a valid record, used or empty, and `count` of them are used. -/
structure Consistent (cfg : KvConfig) (records : ℕ → KvRecord cfg) (count : UInt32) : Prop where
  valid : ∀ i < cfg.maxRecords, kvRecordIsValid (records i)
  count : (usedRecords cfg records).card = count.toNat

/-- Consistency is about the slots of the table. -/
theorem Consistent.congr {records records' : ℕ → KvRecord cfg} {count : UInt32}
    (h : Consistent cfg records count) (hsame : ∀ i < cfg.maxRecords, records' i = records i) :
    Consistent cfg records' count where
  valid i hi := hsame i hi ▸ h.valid i hi
  count := by
    have hused : usedRecords cfg records' = usedRecords cfg records := by
      refine Finset.filter_congr fun i hi => ?_
      rw [hsame i (Finset.mem_range.mp hi)]
    rw [hused, h.count]

/-- A table without records. -/
theorem consistent_zero {records : ℕ → KvRecord cfg}
    (h : ∀ i < cfg.maxRecords, records i = .zero cfg) : Consistent cfg records 0 where
  valid i hi := by
    rw [h i hi]
    exact KvRecord.zero_isValid
  count := by
    refine Finset.card_eq_zero.mpr (Finset.filter_eq_empty_iff.mpr fun i hi hused => ?_)
    rw [h i (Finset.mem_range.mp hi)] at hused
    exact absurd hused (by decide : ¬ kvRecordNotUsed = kvRecordInUse)

/-! ### Programs that deliver -/

/-- The program ended with a result that satisfies `Q`, unless a storage call failed. -/
def Delivers (D : Device Err) (Q : α → D.State → Prop) (r : Except Err α) (t : D.State) : Prop :=
  (∃ e, Faulted D e ∧ r = .error e) ∨ ∃ a, r = .ok a ∧ Q a t

section Delivers

variable {s : D.State} {p : Io Err α} {Q : α → D.State → Prop} {R : β → D.State → Prop}

/-- An error of the storage delivers nothing that would have to hold. -/
theorem Delivers.faulted {e : Err} (he : Faulted D e) (t : D.State) : Delivers D Q (.error e) t :=
  .inl ⟨e, he, rfl⟩

/-- A program that delivers `Q`, followed by one that needs it. -/
theorem delivers_bind {f : α → Io Err β} (h : cwp D p (Delivers D Q) (fun _ => True) s)
    (hf : ∀ a t, Q a t → cwp D (f a) (Delivers D R) (fun _ => True) t) :
    cwp D (p >>= f) (Delivers D R) (fun _ => True) s := by
  refine cwp_bind (h.mono ?_ fun _ _ => trivial)
  rintro r t (⟨e, he, rfl⟩ | ⟨a, rfl, hQ⟩)
  · exact Delivers.faulted he t
  · exact hf a t hQ

/-- A read delivers what was read. -/
theorem Reads.delivers {a : α} (h : Reads D s (fun _ => True) p a)
    (hQ : Q a s) : cwp D p (Delivers D Q) (fun _ => True) s := by
  refine cwp.mono h ?_ fun _ _ => trivial
  rintro r t ⟨rfl, rfl | ⟨e, he, rfl⟩⟩
  · exact .inr ⟨a, rfl, hQ⟩
  · exact Delivers.faulted he _

variable (hM : KvMedium cfg D)
include hM

/-- A write inside the region does nothing else. -/
theorem storageWrite_delivers (s : D.State) {off : ℕ} {bs : Bytes}
    (hin : off + bs.length ≤ cfg.kvRegionSize) :
    cwp D (actrustStorageWrite off bs)
      (Delivers D fun _ t => D.view t = patch (D.view s) off bs) (fun _ => True) s := by
  rw [← Io.bind_pure (actrustStorageWrite off bs)]
  refine storageWrite_bind hM (fun _ _ => trivial) hin (fun _ _ => trivial) (fun t ht _ => ?_) ?_
  · exact cwp_done (.inr ⟨(), rfl, ht⟩) fun _ _ => trivial
  · exact fun e t he _ _ => Delivers.faulted ⟨⟨e, he⟩, hM.fault_code e he⟩ t

/-- A sync delivers the same view. -/
theorem storageSync_delivers (s : D.State) : cwp D actrustStorageSync
    (Delivers D fun _ t => D.view t = D.view s) (fun _ => True) s := by
  rw [← Io.bind_pure actrustStorageSync]
  refine storageSync_bind hM (fun _ _ => trivial) (fun t ht _ => ?_) ?_
  · exact cwp_done (.inr ⟨(), rfl, ht⟩) fun _ _ => trivial
  · exact fun e he _ => Delivers.faulted ⟨⟨e, he⟩, hM.fault_code e he⟩ s

end Delivers

/-! ### The validation -/

section Validation

variable (hM : KvReadable cfg D) {s : D.State} {C : Image → Prop}
  (hC : ∀ img, D.crash s img → C img)
include hM hC

/-- A count that is handed out is the count of records that are all valid. -/
theorem kvCountRecords_checks (n i : ℕ) (hn : i + n = cfg.maxRecords) (count : UInt32) :
    cwp D (kvCountRecords cfg n i count) (fun r t => t = s ∧ ∀ total, r = .ok total →
      (∀ k, i ≤ k → k < cfg.maxRecords → kvRecordIsValid (recordAt cfg (D.view s) k)) ∧
        total = count + .ofNat (usedFrom (entries cfg (D.view s)) n i)) C s := by
  -- on the slots still to be read; the first invalid one ends the count with an error
  induction n generalizing i count with
  | zero =>
    refine cwp_done ⟨rfl, fun total h => ⟨fun k hk hlt => by omega, ?_⟩⟩ hC
    cases h
    exact (UInt32.add_zero _).symm
  | succ n ih =>
    have hi : i < cfg.maxRecords := by omega
    refine (kvReadRecord_reads hM hC hi).attempt ?_ fun e _ => cwp_done ⟨rfl, nofun⟩ hC
    by_cases hvalid : kvRecordIsValid (recordAt cfg (D.view s) i)
    · simp only [hvalid, not_true_eq_false, if_false]
      refine (ih (i + 1) (by omega) _).mono ?_ fun _ h => h
      rintro r t ⟨rfl, h⟩
      refine ⟨rfl, fun total hr => ?_⟩
      obtain ⟨hrest, htotal⟩ := h total hr
      refine ⟨fun k hk hlt => ?_, ?_⟩
      · cases hk.eq_or_lt with
        | inl heq => exact heq ▸ hvalid
        | inr hgt => exact hrest k hgt hlt
      · have hsome := @KvRecord.entry_isSome cfg (recordAt cfg (D.view t) i)
        rw [htotal, usedFrom, UInt32.ofNat_add, ← UInt32.add_assoc]
        simp only [entries, hsome]
        split_ifs
        · rfl
        · exact congrArg (· + _) (UInt32.add_zero count).symm
    · simp only [hvalid, Bool.false_eq_true, not_false_eq_true, if_true]
      exact cwp_done ⟨rfl, nofun⟩ hC

/-- The validation accepts a consistent table only. -/
theorem kvValidateRecords_checks (expectedCount : UInt32) :
    cwp D (kvValidateRecords cfg expectedCount) (fun r t => t = s ∧
      (r = .ok () → Consistent cfg (recordAt cfg (D.view s)) expectedCount)) C s := by
  refine cwp_bind ((kvCountRecords_checks hM hC cfg.maxRecords 0 (Nat.zero_add _) 0).mono ?_
    fun _ h => h)
  rintro r t ⟨rfl, h⟩
  cases r with
  | error e => exact ⟨rfl, nofun⟩
  | ok total =>
    obtain ⟨hvalid, htotal⟩ := h total rfl
    rw [usedFrom_all, UInt32.zero_add] at htotal
    -- the count is the number of records in use, and does not wrap
    rw [afterwards_ok]
    split_ifs with heq
    · refine cwp_done ⟨rfl, fun _ => ⟨fun i hi => hvalid i (Nat.zero_le i) hi, ?_⟩⟩ hC
      rw [← heq, htotal, show used cfg.maxRecords (entries cfg (D.view t)) = _ from used_entry _,
        UInt32.toNat_ofNat_of_lt' (usedRecords_card_lt _)]
    · exact cwp_done ⟨rfl, nofun⟩ hC

/-- In a consistent table the search counts what the superblock counts. -/
theorem kvFindRecord_counts {count : UInt32}
    (h : Consistent cfg (recordAt cfg (D.view s)) count) (key : Bytes) :
    Reads D s C (kvFindRecord cfg key)
      (lastWith (entries cfg (D.view s)) key cfg.maxRecords 0 none, count) := by
  have hscan := kvScanRecords_reads hM hC h.valid key cfg.maxRecords 0 (Nat.zero_add _) none 0
  have hcard : (used cfg.maxRecords (entries cfg (D.view s))).card = count.toNat :=
    (congrArg Finset.card (used_entry _)).trans h.count
  rw [usedFrom_all, UInt32.zero_add, hcard, UInt32.ofNat_toNat] at hscan
  exact hscan

end Validation

/-! ### The exits -/

section Exits

variable (hM : KvMedium cfg D) {s : D.State} {sb : KvSuperblock} {index slot : ℕ}
  {journal : KvJournal cfg}
include hM

/-- Clearing a journal slot leaves records and superblocks. -/
theorem kvClearJournal_delivers (s : D.State) (hs : slot < 2) : cwp D (kvClearJournal cfg slot)
    (Delivers D fun _ t => JournalWrite cfg (D.view s) (D.view t) slot (.zero cfg))
    (fun _ => True) s := by
  have hin : kvJournalOffset cfg slot + (List.replicate cfg.kvJournalSize (0 : UInt8)).length ≤
      cfg.kvRegionSize := by
    rw [List.length_replicate]
    exact kvJournalOffset_end_le hs
  refine (storageWrite_delivers hM s hin).mono ?_ fun _ h => h
  rintro r t (hfault | ⟨a, rfl, ht⟩)
  · exact .inl hfault
  · exact .inr ⟨a, rfl, (JournalWrite.of_clear hs ht).1⟩

/-- A completed format leaves two superblocks without records. -/
theorem kvCompleteFormat_delivers (s : D.State)
    (hgen : ¬ (journal.baseGeneration ≠ 0 ∨ journal.generation = 0)) :
    cwp D (kvCompleteFormat journal) (Delivers D fun _ t =>
      (∀ i < 2, superblockAt (D.view t) i = kvMakeSuperblock journal.generation 0) ∧
        ∀ i < cfg.maxRecords, recordAt cfg (D.view t) i = .zero cfg) (fun _ => True) s := by
  rw [kvCompleteFormat, if_neg hgen]
  -- both superblocks lie in the region
  have hsb (i : ℕ) (hi : i < 2) (sb : KvSuperblock) :
      kvSuperblockOffset i + (kvEncodeSuperblock sb).length ≤ cfg.kvRegionSize := by
    rw [kvEncodeSuperblock_length]
    exact kvSuperblock_region hi
  -- after the writes and the sync nothing else is done, so the view is what they leave
  refine delivers_bind (storageWrite_delivers hM s ?_) fun _ t1 h1 => ?_
  · rw [List.length_replicate, Nat.zero_add]
    exact Nat.le_add_right _ _
  refine delivers_bind (storageWrite_delivers hM t1 (hsb 0 (by decide) _)) fun _ t2 h2 => ?_
  refine delivers_bind (storageWrite_delivers hM t2 (hsb 1 (by decide) _)) fun _ t3 h3 => ?_
  refine (storageSync_delivers hM t3).mono ?_ fun _ h => h
  rintro r t (hfault | ⟨a, rfl, ht⟩)
  · exact .inl hfault
  obtain ⟨hw2, hsb0⟩ := @SbWrite.of_eq cfg _ _ 0 _ (by decide) h2
  obtain ⟨hw3, hsb1⟩ := @SbWrite.of_eq cfg _ _ 1 _ (by decide) h3
  refine .inr ⟨a, rfl, fun i hi => ?_, fun i hi => ?_⟩
  · rw [ht]
    obtain rfl | rfl : i = 0 ∨ i = 1 := by omega
    · rw [hw3.other 0 (by decide) (by decide), hsb0]
    · exact hsb1
  · -- the records are the erased ones: no later write reaches them
    rw [ht, hw3.record i hi, hw2.record i hi, h1, recordAt_erased _ hi]

/-- A replay puts one record in its slot and writes the superblock that is not in use. -/
theorem kvReplay_delivers (s : D.State) (hindex : journal.recordIndex.toNat < cfg.maxRecords)
    (hs : slot < 2) (hlt : index < 2) : cwp D (kvReplay index slot journal) (Delivers D fun _ t =>
      (∀ i < cfg.maxRecords, recordAt cfg (D.view t) i = Function.update
        (recordAt cfg (D.view s)) journal.recordIndex.toNat journal.record i) ∧
      superblockAt (D.view t) ((index + 1) % 2) =
        kvMakeSuperblock journal.generation journal.recordCount ∧
      superblockAt (D.view t) index = superblockAt (D.view s) index) (fun _ => True) s := by
  have hother : (index + 1) % 2 < 2 := Nat.mod_lt _ (by decide)
  have hne : index ≠ (index + 1) % 2 := by omega
  -- the record, the superblock, the sync and the clearing, each on the view the one before left
  refine delivers_bind (storageWrite_delivers hM s ?_) fun _ t1 h1 => ?_
  · rw [kvEncodeRecord_length]
    exact kvRecord_region hindex
  refine delivers_bind (storageWrite_delivers hM t1 ?_) fun _ t2 h2 => ?_
  · rw [kvEncodeSuperblock_length]
    exact kvSuperblock_region hother
  refine delivers_bind (storageSync_delivers hM t2) fun _ t3 h3 => ?_
  refine (kvClearJournal_delivers hM t3 hs).mono ?_ fun _ h => h
  rintro r t (hfault | ⟨a, rfl, hw4⟩)
  · exact .inl hfault
  obtain ⟨hw1, hrecord⟩ := RecordWrite.of_eq hindex h1
  obtain ⟨hw2, hsb⟩ := @SbWrite.of_eq cfg _ _ _ _ hother h2
  rw [h3] at hw4
  refine .inr ⟨a, rfl, fun i hi => ?_, ?_, ?_⟩
  · rw [hw4.record i hi, hw2.record i hi]
    -- the record of the journal is in its slot, the others are as before
    by_cases heq : i = journal.recordIndex.toNat
    · rw [heq, Function.update_self, hrecord]
    · rw [Function.update_of_ne heq, hw1.record i hi heq]
  · rw [hw4.superblock _ hother, hsb]
  · rw [hw4.superblock index hlt, hw2.other index hlt hne, hw1.superblock index hlt]

/-- The journal that recovery acts on. -/
def NewestJournal (cfg : KvConfig) (img : Image) (slot : ℕ) (journal : KvJournal cfg) : Prop :=
  kvNewestJournal (validJournal cfg img 0) (validJournal cfg img 1) = some (slot, journal)

/-- What recovery does under a superblock, and then the selection. -/
theorem kvLoadCurrent_under {Q : KvSuperblock × ℕ → D.State → Prop} {R : D.State → Prop}
    (hsel : Selected cfg (D.view s) sb index)
    (hrest : cwp D (kvRecoverFrom sb index (kvNewestJournal (validJournal cfg (D.view s) 0)
      (validJournal cfg (D.view s) 1))) (Delivers D fun _ t => R t) (fun _ => True) s)
    (hR : ∀ t, R t → ∃ sb' index', Selected cfg (D.view t) sb' index' ∧ Q (sb', index') t) :
    cwp D (kvLoadCurrent cfg) (Delivers D Q) (fun _ => True) s := by
  refine delivers_bind (kvRecover_scan hM.readable (fun _ _ => trivial) hsel hrest
    fun e he => Delivers.faulted he s) fun _ t ht => ?_
  obtain ⟨sb', index', hsel', hQ⟩ := hR t ht
  exact (kvSelectSuperblock_reads hM.readable (fun _ _ => trivial) hsel').delivers hQ

/-- An obsolete journal is cleared, and the records are left unread. -/
theorem kvLoadCurrent_obsolete (hsel : Selected cfg (D.view s) sb index)
    (hnewest : NewestJournal cfg (D.view s) slot journal)
    (hgen : journal.generation ≤ sb.generation) :
    cwp D (kvLoadCurrent cfg) (Delivers D fun current t => current = (sb, index) ∧
      ∀ i < cfg.maxRecords, recordAt cfg (D.view t) i = recordAt cfg (D.view s) i)
      (fun _ => True) s := by
  obtain ⟨hslot, -, -⟩ := newest_valid hnewest
  have hclear := kvClearJournal_delivers hM s hslot
  have hrest : kvRecoverFrom sb index (kvNewestJournal (validJournal cfg (D.view s) 0)
      (validJournal cfg (D.view s) 1)) = kvClearJournal cfg slot := by
    rw [show kvNewestJournal _ _ = _ from hnewest, kvRecoverFrom, if_pos hgen]
  rw [← hrest] at hclear
  refine kvLoadCurrent_under hM hsel hclear fun t ht => ?_
  exact ⟨sb, index, hsel.congr ht.superblock, rfl, ht.record⟩

/-- The count of the superblock in use after a replay: a count of more records than there are
slots is not accepted, and leaves the old superblock in use. -/
def replayedCount (cfg : KvConfig) (sb : KvSuperblock) (journal : KvJournal cfg) : UInt32 :=
  if journal.recordCount.toNat ≤ cfg.maxRecords then journal.recordCount else sb.recordCount

omit hM in

/-- A valid journal of a transaction names a slot of the table. -/
theorem kvJournalIsValid_index (h : kvJournalIsValid journal)
    (hop : journal.operation ≠ kvOpFormat) : journal.recordIndex.toNat < cfg.maxRecords := by
  simp only [kvJournalIsValid] at h
  grind

omit hM in

/-- A superblock with too many records is not valid. -/
theorem kvMakeSuperblock_not_valid {generation : UInt64} {count : UInt32}
    (h : ¬ count.toNat ≤ cfg.maxRecords) :
    ¬ kvSuperblockIsValid cfg (kvMakeSuperblock generation count) := by
  rw [kvSuperblockIsValid, decide_eq_true_eq]
  exact fun hvalid => h hvalid.2.2.2.1

/-- A pending journal is finished: its record is put in, the others are left unread. -/
theorem kvLoadCurrent_replayed (hsel : Selected cfg (D.view s) sb index)
    (hnewest : NewestJournal cfg (D.view s) slot journal)
    (hgen : sb.generation < journal.generation)
    (hbase : journal.baseGeneration = sb.generation) (hop : journal.operation ≠ kvOpFormat) :
    cwp D (kvLoadCurrent cfg) (Delivers D fun current t =>
      current.1.recordCount = replayedCount cfg sb journal ∧
        ∀ i < cfg.maxRecords, recordAt cfg (D.view t) i = Function.update
          (recordAt cfg (D.view s)) journal.recordIndex.toNat journal.record i)
      (fun _ => True) s := by
  obtain ⟨hslot, -, hvalid⟩ := newest_valid hnewest
  have hreplay :=
    kvReplay_delivers hM s (kvJournalIsValid_index hvalid hop) hslot hsel.index_lt
  -- the journal is newer and built on the superblock in force, so it is replayed without a look at
  -- the records
  have hrest : kvRecoverFrom sb index (kvNewestJournal (validJournal cfg (D.view s) 0)
      (validJournal cfg (D.view s) 1)) = kvReplay index slot journal := by
    rw [show kvNewestJournal _ _ = _ from hnewest, kvRecoverFrom,
      if_neg (UInt64.not_le.mpr hgen), if_neg (not_or.mpr ⟨not_not.mpr hbase, hop⟩)]
  rw [← hrest] at hreplay
  refine kvLoadCurrent_under hM hsel hreplay ?_
  rintro t ⟨hrecord, hother, hsame⟩
  -- a count beyond the table leaves the replayed superblock invalid and the old one in force
  by_cases hcount : journal.recordCount.toNat ≤ cfg.maxRecords
  · refine ⟨_, _, hsel.next hsame hother (kvMakeSuperblock_isValid hcount) hgen, ?_, hrecord⟩
    rw [replayedCount, if_pos hcount, kvMakeSuperblock_recordCount]
  · refine ⟨sb, index, hsel.keep hsame fun h => ?_, ?_, hrecord⟩
    · rw [hother] at h
      exact absurd h (kvMakeSuperblock_not_valid hcount)
    · rw [replayedCount, if_neg hcount]

/-- Without a superblock a load that returns OK has completed a format. -/
theorem kvLoadCurrent_formats
    (hnone : kvNewerSuperblock cfg (superblockAt (D.view s) 0) (superblockAt (D.view s) 1) = none) :
    cwp D (kvLoadCurrent cfg) (fun r t => ∀ current, r = .ok current →
      Consistent cfg (recordAt cfg (D.view t)) current.1.recordCount) (fun _ => True) s := by
  have hR := hM.readable
  have hC : ∀ (t : D.State) (img : Image), D.crash t img → True := fun _ _ _ => trivial
  -- a journal is handed on or ends the recovery, and nothing is written
  have hscan (i : ℕ) (hi : i < 2) : cwp D (kvScanJournal cfg true i) (fun _ t => t = s)
      (fun _ => True) s := by
    refine (kvReadJournal_reads hR (hC s) hi).bind ?_ fun e _ => rfl
    split_ifs <;> exact cwp_done rfl (hC s)
  have hrecover : cwp D (kvRecover cfg) (fun r t => r = .ok () → ∃ generation,
      (∀ i < 2, superblockAt (D.view t) i = kvMakeSuperblock generation 0) ∧
        ∀ i < cfg.maxRecords, recordAt cfg (D.view t) i = .zero cfg) (fun _ => True) s := by
    refine (kvCurrentSuperblock_none hR (hC s) hnone).bind ?_ (by rintro e _ ⟨⟩)
    refine cwp_bind ((hscan 0 (by decide)).mono ?_ fun _ h => h)
    rintro (e | journal0) t rfl
    · rintro ⟨⟩
    refine cwp_bind ((hscan 1 (by decide)).mono ?_ fun _ h => h)
    rintro (e | journal1) t rfl
    · rintro ⟨⟩
    rw [afterwards_ok]
    cases hnewest : kvNewestJournal journal0 journal1 with
    | none => exact cwp_done (by rintro ⟨⟩) (hC t)
    | some newest =>
      obtain ⟨slot, journal⟩ := newest
      have hslot : slot < 2 := by
        rcases kvNewestJournal_some hnewest with ⟨rfl, -⟩ | ⟨rfl, -⟩ <;> decide
      rw [kvRecoverFormat]
      split_ifs
      · exact cwp_done (by rintro ⟨⟩) (hC t)
      by_cases hgen : journal.baseGeneration ≠ 0 ∨ journal.generation = 0
      · rw [kvCompleteFormat, if_pos hgen]
        exact cwp_done (by rintro ⟨⟩) (hC t)
      have hclears : cwp D (kvCompleteFormat journal >>= fun _ => kvClearJournal cfg slot)
          (Delivers D fun _ t' =>
            (∀ i < 2, superblockAt (D.view t') i = kvMakeSuperblock journal.generation 0) ∧
              ∀ i < cfg.maxRecords, recordAt cfg (D.view t') i = .zero cfg) (fun _ => True) t := by
        refine delivers_bind (kvCompleteFormat_delivers hM t hgen) ?_
        rintro _ t1 ⟨hsb, hrecord⟩
        refine (kvClearJournal_delivers hM t1 hslot).mono ?_ fun _ h => h
        rintro r t2 (hfault | ⟨a, rfl, hw⟩)
        · exact .inl hfault
        · refine .inr ⟨a, rfl, fun i hi => ?_, fun i hi => ?_⟩
          · rw [hw.superblock i hi, hsb i hi]
          · rw [hw.record i hi, hrecord i hi]
      refine hclears.mono ?_ fun _ h => h
      rintro r t' (⟨e, -, rfl⟩ | ⟨a, rfl, h⟩)
      · rintro ⟨⟩
      · exact fun _ => ⟨_, h⟩
  refine cwp_bind (hrecover.mono ?_ fun _ h => h)
  rintro (e | _) t h
  · rintro _ ⟨⟩
  obtain ⟨generation, hsb, hrecord⟩ := h rfl
  have hsel : Selected cfg (D.view t) (kvMakeSuperblock generation 0) 0 := by
    have hvalid : kvSuperblockIsValid cfg (kvMakeSuperblock generation 0) :=
      kvMakeSuperblock_isValid (Nat.zero_le _)
    rw [Selected, hsb 0 (by decide), hsb 1 (by decide), kvNewerSuperblock]
    simp [hvalid]
  refine ((kvSelectSuperblock_reads hR (hC t) hsel).mono ?_ fun _ h => h)
  rintro r t' ⟨rfl, rfl | ⟨e, -, rfl⟩⟩ current hr
  · cases hr
    exact consistent_zero hrecord
  · cases hr

end Exits

/-! ### What a load vouches for -/

/-- What a set and a delete begin with: they load the superblock and then count the records. -/
def kvLoadAndFind (cfg : KvConfig) (key : Bytes) :
    Io Err ((KvSuperblock × ℕ) × Option ℕ × UInt32) := do
  let current ← kvLoadCurrent cfg
  let found ← kvFindRecord cfg key
  pure (current, found)

/-- Whatever loads from the region is in order, and a set or a delete counts its records as the
superblock does. -/
structure LoadsValid (cfg : KvConfig) (capacity : ℕ) (img : Image) : Prop where
  load : ∀ current img', Exec (faulty cfg capacity) (kvLoadCurrent cfg) img
    (.returned (.ok current) img') → Consistent cfg (recordAt cfg img') current.1.recordCount
  counts : ∀ key current found count img', Exec (faulty cfg capacity) (kvLoadAndFind cfg key) img
    (.returned (.ok (current, found, count)) img') → count = current.1.recordCount

/-- The records that recovery does not look at are in order: all of them when the newest valid
journal is obsolete, and all but the one it writes when that journal is still to be finished. -/
structure Vouched (cfg : KvConfig) (img : Image) : Prop where
  obsolete : ∀ sb index slot journal, Selected cfg img sb index →
    NewestJournal cfg img slot journal → journal.generation ≤ sb.generation →
    Consistent cfg (recordAt cfg img) sb.recordCount
  replayed : ∀ sb index slot journal, Selected cfg img sb index →
    NewestJournal cfg img slot journal → sb.generation < journal.generation →
    journal.baseGeneration = sb.generation → journal.operation ≠ kvOpFormat →
    Consistent cfg (Function.update (recordAt cfg img) journal.recordIndex.toNat journal.record)
      (replayedCount cfg sb journal)

section Vouched

variable {capacity : ℕ} {img : Image}

/-- A load of a region that is vouched for. -/
theorem Vouched.load (hM : KvMedium cfg D) {s : D.State} (h : Vouched cfg (D.view s)) :
    cwp D (kvLoadCurrent cfg) (fun r t => ∀ current, r = .ok current →
      Consistent cfg (recordAt cfg (D.view t)) current.1.recordCount) (fun _ => True) s := by
  cases hcurrent :
    kvNewerSuperblock cfg (superblockAt (D.view s) 0) (superblockAt (D.view s) 1) with
  | none => exact kvLoadCurrent_formats hM hcurrent
  | some selected =>
    obtain ⟨sb, index⟩ := selected
    have hsel : Selected cfg (D.view s) sb index := hcurrent
    cases hnewest : kvNewestJournal (validJournal cfg (D.view s) 0)
        (validJournal cfg (D.view s) 1) with
    | none =>
      -- the exit that validates
      have hM' := hM.readable
      have hrecover : cwp D (kvRecover cfg) (fun r t => r = .ok () →
          t = s ∧ Consistent cfg (recordAt cfg (D.view s)) sb.recordCount) (fun _ => True) s := by
        refine kvRecover_scan hM' (fun _ _ => trivial) hsel ?_ (by rintro e _ ⟨⟩)
        rw [hnewest]
        refine (kvValidateRecords_checks hM' (fun _ _ => trivial) _).mono ?_ fun _ h => h
        rintro r t ⟨rfl, hconsistent⟩ hr
        exact ⟨rfl, hconsistent hr⟩
      refine cwp_bind (hrecover.mono ?_ fun _ h => h)
      rintro (e | _) t ht
      · rintro _ ⟨⟩
      obtain ⟨rfl, hconsistent⟩ := ht rfl
      refine (kvSelectSuperblock_reads hM' (fun _ _ => trivial) hsel).mono ?_ fun _ h => h
      rintro r t' ⟨rfl, rfl | ⟨e, -, rfl⟩⟩ current hr
      · cases hr
        exact hconsistent
      · cases hr
    | some newest =>
      obtain ⟨slot, journal⟩ := newest
      by_cases hgen : journal.generation ≤ sb.generation
      · refine (kvLoadCurrent_obsolete hM hsel hnewest hgen).mono ?_ fun _ h => h
        rintro r t (⟨e, -, rfl⟩ | ⟨a, rfl, rfl, hsame⟩) current hr
        · cases hr
        · cases hr
          exact (h.obsolete sb index slot journal hsel hnewest hgen).congr hsame
      by_cases hrefused : journal.baseGeneration ≠ sb.generation ∨ journal.operation = kvOpFormat
      · refine cwp_bind (kvRecover_scan hM.readable (fun _ _ => trivial) hsel ?_ (by rintro e _ _ ⟨⟩))
        rw [hnewest, kvRecoverFrom, if_neg hgen, if_pos hrefused]
        exact cwp_done (by rintro _ ⟨⟩) fun _ _ => trivial
      obtain ⟨hbase, hop⟩ := not_or.mp hrefused
      have hlt := UInt64.not_le.mp hgen
      refine (kvLoadCurrent_replayed hM hsel hnewest hlt (not_not.mp hbase) hop).mono ?_
        fun _ h => h
      rintro r t (⟨e, -, rfl⟩ | ⟨a, rfl, hcount, hsame⟩) current hr
      · cases hr
      · cases hr
        rw [hcount]
        exact (h.replayed sb index slot journal hsel hnewest hlt (not_not.mp hbase) hop).congr hsame

/-- What is delivered when no call fails is the result of a run. -/
theorem Delivers.undisturbed {p : Io Err α} {Q : α → Image → Prop}
    (h : cwp (calm cfg capacity) p (Delivers (calm cfg capacity) Q) (fun _ => True) img) :
    ∃ a img', Exec (faulty cfg capacity) p img (.returned (.ok a) img') ∧ Q a img' := by
  have hrun := @faulty_undisturbed cfg capacity _ p img
  rcases undisturbed_sound h with ⟨e, he, -⟩ | ⟨a, ha, hQ⟩
  · exact absurd he calm_faulted
  · rw [ha] at hrun
    exact ⟨a, _, hrun, hQ⟩

/-- What an image vouches for is what a load of it answers. -/
theorem Vouched.loadsValid (hcap : cfg.kvRegionSize ≤ capacity) (h : Vouched cfg img) :
    LoadsValid cfg capacity img where
  load current img' hexec :=
    (hexec.sound (h.load (D := faulty cfg capacity) (faulty_medium hcap))).1 current rfl
  counts key current found count img' hexec := by
    have hM := @faulty_medium cfg capacity hcap
    have hspec : cwp (faulty cfg capacity) (kvLoadAndFind cfg key) (fun r _ =>
        ∀ current found count, r = .ok (current, found, count) → count = current.1.recordCount)
        (fun _ => True) img := by
      refine cwp_bind ((h.load (D := faulty cfg capacity) hM).mono ?_ fun _ h => h)
      -- the count the scan ends with is compared with the superblock before it is used
      rintro (e | current) t ht
      · exact nofun
      refine (kvFindRecord_counts hM.readable (fun _ _ => trivial) (ht current rfl) key).bind ?_
        fun e _ => nofun
      refine cwp_done (fun current found count hr => ?_) fun _ _ => trivial
      cases hr
      rfl
    exact (hexec.sound hspec).1 current found count rfl

/-- A load vouches for a region exactly when the records it leaves unread are in order. -/
theorem recovery_validates_iff (hcap : cfg.kvRegionSize ≤ capacity) :
    LoadsValid cfg capacity img ↔ Vouched cfg img := by
  refine ⟨fun h => ⟨?_, ?_⟩, fun h => h.loadsValid hcap⟩
  · intro sb index slot journal hsel hnewest hgen
    obtain ⟨current, img', hexec, rfl, hsame⟩ :=
      Delivers.undisturbed (kvLoadCurrent_obsolete (calm_medium hcap) hsel hnewest hgen)
    exact (h.load _ img' hexec).congr fun i hi => (hsame i hi).symm
  · intro sb index slot journal hsel hnewest hgen hbase hop
    obtain ⟨current, img', hexec, hcount, hsame⟩ := Delivers.undisturbed
      (kvLoadCurrent_replayed (calm_medium hcap) hsel hnewest hgen hbase hop)
    rw [← hcount]
    exact (h.load current img' hexec).congr fun i hi => (hsame i hi).symm

end Vouched

/-- The theorem at a formatted region. -/
theorem recovery_validates_tiny : LoadsValid tinyConfig tinyConfig.kvRegionSize tinyFormatted := by
  -- a completed format leaves no journal
  have hquiet := tinyFormatted_formatted.stable.2
  have hnone : kvNewestJournal (validJournal tinyConfig tinyFormatted 0)
      (validJournal tinyConfig tinyFormatted 1) = none := by
    rw [validJournal_zero (hquiet 0 (by decide)), validJournal_zero (hquiet 1 (by decide))]
    rfl
  refine (recovery_validates_iff (Nat.le_refl _)).mpr ⟨?_, ?_⟩
  · intro sb index slot journal _ hnewest
    exact absurd (hnone.symm.trans hnewest) nofun
  · intro sb index slot journal _ hnewest
    exact absurd (hnone.symm.trans hnewest) nofun

/-- The journal of the first set. -/
def firstJournal : KvJournal tinyConfig :=
  kvPrepareJournal freshSuperblock kvOpSet 0 1 (kvMakeRecord tinyConfig [1] [1])

/-- The first set is published, its journal is not cleared, and its record is lost. -/
def lostRecord : Image :=
  patch (patch (fun _ => 0) (kvSuperblockOffset 1) (kvEncodeSuperblock (kvMakeSuperblock 2 1)))
    (kvJournalOffset tinyConfig 1) (kvEncodeJournal firstJournal)

/-- The newest journal of the region with the lost record. -/
theorem lostRecord_newest : NewestJournal tinyConfig lostRecord 1 firstJournal := by
  have hblank : Blank fun _ => 0 := fun _ => rfl
  have hsb : SbWrite tinyConfig (fun _ => 0) _ 1 (kvMakeSuperblock 2 1) :=
    (SbWrite.of_eq (by decide) rfl).1
  have hwrote :
      lostRecord = patch _ (kvJournalOffset tinyConfig 1) (kvEncodeJournal firstJournal) := rfl
  obtain ⟨hjournal, hsecond⟩ := JournalWrite.of_eq (by decide) hwrote
  have hfirst : journalAt tinyConfig lostRecord 0 = .zero tinyConfig := by
    rw [hjournal.other 0 (by decide) (by decide), hsb.journal 0 (by decide), hblank.journalAt]
  have hvalid : kvJournalIsValid firstJournal :=
    (kvPrepareJournal_intent rfl (by decide) (.inl rfl) (by decide)
      (kvMakeRecord_isValid (by decide) (by decide))).valid
  rw [NewestJournal, validJournal_zero hfirst, validJournal, hsecond, if_pos hvalid]
  rfl

/-- The region loads with one record on the superblock and none in the table. -/
theorem not_recovery_validates : ¬ ∀ img, LoadsValid tinyConfig tinyConfig.kvRegionSize img := by
  intro h
  have hsel : Selected tinyConfig lostRecord (kvMakeSuperblock 2 1) 1 := by
    unfold Selected
    decide +kernel
  obtain ⟨current, img', hexec, rfl, hsame⟩ := Delivers.undisturbed
    (kvLoadCurrent_obsolete (calm_medium (Nat.le_refl tinyConfig.kvRegionSize)) hsel
      lostRecord_newest (by decide))
  have hcount := ((h lostRecord).load _ img' hexec).congr fun i hi => (hsame i hi).symm
  have hempty : (usedRecords tinyConfig (recordAt tinyConfig lostRecord)).card = 0 := by
    decide +kernel
  exact absurd (hempty.symm.trans hcount.count) (by decide)

end TrustSdk.Kv
