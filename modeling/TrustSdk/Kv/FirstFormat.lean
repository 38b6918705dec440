import TrustSdk.Kv.Redundancy

/-!
# The first format under power loss

Blank storage is formatted through journal slot 0: the journal is written, the data area is
erased, both superblocks are written, the journal is marked as committed and cleared. A power
loss may stop this between two calls, or inside one write, leaving any byte-wise mixture of
the old and the new bytes (`bytewise`); the next attempt may be cut short in turn
(`FirstBoot`).

Whatever the crashes, the region is on one of three stretches of the way:

* the journal is being written (`Torn` between the blank image and `journaled`);
* the journal is complete and the first superblock is being written, or erased again
  (`Torn` between `journaled` and `headed`);
* the first superblock is complete (`Marked`): from here on the store is there, whatever
  became of the second superblock and of the journal.

On the first stretch a torn journal is neither clear nor valid, and recovery without a
superblock refuses it for good; on the second a torn superblock may fail the probe of the
open path, which refuses it for good. These are the only failures (`first_format_iff`).
-/

namespace TrustSdk.Kv

open ByteStore CrashLogic SlotTable

variable {cfg : KvConfig} {capacity : ℕ} {img img' : Image}

/-! ### Power loss during the first boot -/

/-- Storage on which no call fails, and on which a write that is cut short leaves an arbitrary
byte-wise mixture of the old and the new image. -/
def bytewise (capacity : ℕ) : Device Err :=
  direct capacity ⟨.adapterStorage, .invalidArg⟩ (fun _ => False) (fun _ => False) Torn

/-- Reads of the bytewise storage answer. -/
theorem bytewise_readable (hcap : cfg.kvRegionSize ≤ capacity) : KvReadable cfg (bytewise capacity) :=
  ⟨hcap, fun _ h => h.elim⟩

/-- No call on it ends with an error of the storage. -/
theorem bytewise_faulted {e : Err} : ¬ Faulted (bytewise capacity) e := fun h =>
  h.fault.elim fun _ he => he

/-- The region that an attempt leaves behind, finished or not. -/
def remains {α : Type} : Outcome Err (bytewise capacity) α → Image
  | .returned _ img => img
  | .crashed img => img

/-- The regions that any number of attempts at `kvPrepareStorage` lead to from blank storage. -/
inductive FirstBoot (cfg : KvConfig) (capacity : ℕ) : Image → Prop
  | blank {img : Image} : Blank img → FirstBoot cfg capacity img
  | attempt {img : Image} {o : Outcome Err (bytewise capacity) Unit} :
      FirstBoot cfg capacity img → Exec (bytewise capacity) (kvPrepareStorage cfg) img o →
      FirstBoot cfg capacity (remains o)

section Calls

variable {β : Type} {f : Unit → Io Err β} {Q : Except Err β → Image → Prop} {C : Image → Prop}

/-- A write inside the region: the crash condition has to hold of every mixture. -/
theorem bytewise_write {off : ℕ} {bs : Bytes} (hin : off + bs.length ≤ capacity)
    (htorn : ∀ img', Torn img (patch img off bs) img' → C img')
    (hok : cwp (bytewise capacity) (f ()) Q C (patch img off bs)) :
    cwp (bytewise capacity) (actrustStorageWrite off bs >>= f) Q C img := by
  refine cwp_bind (cwp_write hin (fun img' hi => ?_) ⟨hok, hok.crash⟩ fun img' hi => ⟨?_, ?_⟩)
  · obtain rfl : img' = img := hi
    exact htorn _ (Torn.refl _ _)
  · rintro img'' rfl
    exact htorn _ hi
  · exact fun e he => he.elim

/-- A sync does nothing on it. -/
theorem bytewise_sync (hok : cwp (bytewise capacity) (f ()) Q C img) :
    cwp (bytewise capacity) (actrustStorageSync >>= f) Q C img :=
  cwp_bind (cwp_sync hok.crash ⟨hok, hok.crash⟩ fun _ he => he.elim)

end Calls

/-! ### Generations on an image -/

/-- The generation of a superblock, as its eight bytes. -/
theorem superblockAt_generation (img : Image) (i : ℕ) :
    (superblockAt img i).generation.toNat = leNat (slice img (kvSuperblockOffset i + 8) 8) := by
  have hcut : ((slice img (kvSuperblockOffset i) kvSuperblockSize).drop 8).take 8 =
      slice img (kvSuperblockOffset i + 8) 8 := by
    rw [slice_drop, slice_take _ _ (by decide)]
  have hlt := leNat_lt (slice img (kvSuperblockOffset i + 8) 8)
  rw [slice_length] at hlt
  change (UInt64.ofNat (leNat _)).toNat = _
  rw [UInt64.toNat_ofNat', hcut]
  exact Nat.mod_eq_of_lt (hlt.trans_eq (by decide))

/-- The generation of a journal, likewise. -/
theorem journalAt_generation (img : Image) (i : ℕ) :
    (journalAt cfg img i).generation.toNat = leNat (slice img (kvJournalOffset cfg i + 8) 8) := by
  have hsize : 8 ≤ cfg.kvJournalSize - 8 := by
    unfold KvConfig.kvJournalSize journalSize kvJournalRecordOffset
    omega
  have hcut : ((slice img (kvJournalOffset cfg i) cfg.kvJournalSize).drop 8).take 8 =
      slice img (kvJournalOffset cfg i + 8) 8 := by
    rw [slice_drop, slice_take _ _ hsize]
  have hlt := leNat_lt (slice img (kvJournalOffset cfg i + 8) 8)
  rw [slice_length] at hlt
  change (UInt64.ofNat (leNat _)).toNat = _
  rw [UInt64.toNat_ofNat', hcut]
  exact Nat.mod_eq_of_lt (hlt.trans_eq (by decide))

/-- A torn write leaves a generation field of one byte old or new. -/
theorem torn_superblock_generation {old new : Image} (h : Torn old new img) {i n : ℕ} (hn : n < 256)
    (hold : (superblockAt old i).generation.toNat ≤ n)
    (hnew : (superblockAt new i).generation.toNat ≤ n) :
    (superblockAt img i).generation.toNat ≤ n := by
  rw [superblockAt_generation] at hold hnew ⊢
  have hmix := @Torn.leNat_slice _ _ _ h (kvSuperblockOffset i + 8) 8 (by omega) (by omega)
  omega

/-- A torn journal is no newer than a bound below 256 that both its parts keep. -/
theorem torn_journal_generation {old new : Image} (h : Torn old new img) {i n : ℕ} (hn : n < 256)
    (hold : (journalAt cfg old i).generation.toNat ≤ n)
    (hnew : (journalAt cfg new i).generation.toNat ≤ n) :
    (journalAt cfg img i).generation.toNat ≤ n := by
  rw [journalAt_generation] at hold hnew ⊢
  have hmix := @Torn.leNat_slice _ _ _ h (kvJournalOffset cfg i + 8) 8 (by omega) (by omega)
  omega

/-! ### Scanning a journal without a superblock -/

section Scan

variable {D : Device Err} (hR : KvReadable cfg D) {s : D.State} {C : Image → Prop}
  (hC : ∀ img, D.crash s img → C img) {i : ℕ} (hi : i < 2)
include hR hC hi

/-- A valid journal is found by the scan. -/
theorem kvScanJournal_valid (hv : kvJournalIsValid (journalAt cfg (D.view s) i))
    (noSuperblock : Bool) :
    Reads D s C (kvScanJournal cfg noSuperblock i) (some (journalAt cfg (D.view s) i)) := by
  refine (kvReadJournal_reads hR hC hi).andThen ?_
  have hz : ¬ kvJournalIsZero (journalAt cfg (D.view s) i) := fun hz => by
    rw [kvJournalIsZero, decide_eq_true_eq] at hz
    exact absurd (hz ▸ hv) KvJournal.zero_not_valid
  rw [if_neg hz, if_neg (not_not.mpr hv)]
  exact Reads.pure hC

/-- A journal that is neither clear nor valid ends the recovery. -/
theorem kvScanJournal_broken (hv : ¬ kvJournalIsValid (journalAt cfg (D.view s) i))
    (hz : journalAt cfg (D.view s) i ≠ .zero cfg) :
    cwp D (kvScanJournal cfg true i)
      (fun r t => t = s ∧ ∃ e, r = .error e ∧ e.code ≠ .noResource) C s := by
  refine (kvReadJournal_reads hR hC hi).bind ?_ fun e he => ⟨rfl, e, rfl, he.code⟩
  have hz' : ¬ kvJournalIsZero (journalAt cfg (D.view s) i) := by
    rw [kvJournalIsZero, decide_eq_true_eq]
    exact hz
  rw [if_neg hz', if_pos hv, if_pos rfl]
  exact cwp_done ⟨rfl, _, rfl, by decide⟩ hC

end Scan

/-! ### The third stretch -/

/-- The first superblock of the new store is in place. -/
structure Marked (cfg : KvConfig) (img : Image) : Prop where
  superblock : superblockAt img 0 = freshSuperblock
  second : (superblockAt img 1).generation.toNat ≤ 1
  records : ∀ i < cfg.maxRecords, recordAt cfg img i = .zero cfg
  journal : (journalAt cfg img 0).generation.toNat ≤ 1
  other : journalAt cfg img 1 = .zero cfg

/-- On a marked region the superblock of the first generation is in force. -/
theorem Marked.selected (h : Marked cfg img) : Selected cfg img freshSuperblock 0 := by
  have hvalid : kvSuperblockIsValid cfg (superblockAt img 0) := h.superblock ▸ freshSuperblock_isValid
  have hgen : ¬ (superblockAt img 0).generation < (superblockAt img 1).generation := by
    rw [h.superblock, UInt64.lt_iff_toNat_lt]
    exact Nat.not_lt.mpr h.second
  rw [Selected, kvNewerSuperblock, if_neg fun hn => hn.1 hvalid, if_neg, h.superblock]
  exact fun hn => hn.2.elim (fun hn => hn hvalid) hgen

/-- Its table is empty. -/
theorem Marked.table (h : Marked cfg img) : Table cfg (recordAt cfg img) ∅ where
  valid := fun i hi => by
    rw [h.records i hi]
    exact KvRecord.zero_isValid
  entries := Represents.empty fun i hi => by
    rw [h.records i hi]
    exact KvRecord.zero_entry

/-- Its header passes the probe. -/
theorem Marked.passesProbe (h : Marked cfg img) : PassesProbe (slice img 0 12) :=
  kvSuperblockIsValid_passesProbe (h.superblock ▸ @freshSuperblock_isValid cfg)

/-- Without a valid journal in slot 0 it is settled. -/
theorem Marked.settled (h : Marked cfg img) (hj : ¬ kvJournalIsValid (journalAt cfg img 0)) :
    Settled cfg img freshSuperblock 0 ∅ where
  journals := by
    intro slot hs
    obtain rfl | rfl : slot = 0 ∨ slot = 1 := by omega
    · exact hj
    · rw [h.other]
      exact KvJournal.zero_not_valid
  selected := h.selected
  count := rfl
  table := h.table

/-- The second superblock may be written, or cut short while it is written. -/
theorem Marked.secondTorn (h : Marked cfg img)
    (htorn : Torn img (patch img (kvSuperblockOffset 1) (kvEncodeSuperblock freshSuperblock)) img') :
    Marked cfg img' := by
  have hout := htorn.sameOutside
  rw [kvEncodeSuperblock_length] at hout
  have hend := kvSuperblockOffset_end_le (by omega : 1 < 2)
  have hnew : (superblockAt (patch img (kvSuperblockOffset 1) (kvEncodeSuperblock freshSuperblock))
      1).generation.toNat ≤ 1 := by
    rw [superblockAt_patch]
    exact Nat.le_refl 1
  refine ⟨?_, torn_superblock_generation htorn (by omega) h.second hnew, fun i hi => ?_, ?_, ?_⟩
  · rw [superblockAt_frame hout (Or.inl (by decide)), h.superblock]
  · rw [recordAt_frame hout (Or.inr (hend.trans (kvDataOffset_le_record cfg i))), h.records i hi]
  · rw [journalAt_frame hout (Or.inr (hend.trans (kvDataOffset_le_journal cfg 0)))]
    exact h.journal
  · rw [journalAt_frame hout (Or.inr (hend.trans (kvDataOffset_le_journal cfg 1))), h.other]

/-- So may the journal, with anything of generation 0 or 1. -/
theorem Marked.journalTorn {bs : Bytes} (h : Marked cfg img) (hlen : bs.length = cfg.kvJournalSize)
    (hgen : (journalAt cfg (patch img (kvJournalOffset cfg 0) bs) 0).generation.toNat ≤ 1)
    (htorn : Torn img (patch img (kvJournalOffset cfg 0) bs) img') : Marked cfg img' := by
  have hout := htorn.sameOutside
  rw [hlen] at hout
  have hstart := kvDataOffset_le_journal cfg 0
  refine ⟨?_, ?_, fun i hi => ?_, torn_journal_generation htorn (by omega) h.journal hgen, ?_⟩
  · rw [superblockAt_frame hout (Or.inl ((kvSuperblockOffset_end_le (by omega)).trans hstart)),
      h.superblock]
  · rw [superblockAt_frame hout (Or.inl ((kvSuperblockOffset_end_le (by omega)).trans hstart))]
    exact h.second
  · rw [recordAt_frame hout (Or.inl ((kvRecordOffset_end_le_journals hi).trans (Nat.le_add_right _ _))),
      h.records i hi]
  · rw [journalAt_frame hout (Or.inr (kvJournalOffset_end_le_of_lt (by omega))), h.other]

section Marked

variable (hcap : cfg.kvRegionSize ≤ capacity) (h : Marked cfg img) {C : Image → Prop}
  (hC : ∀ img, Marked cfg img → C img)
include hcap h hC

/-- Clearing the format's journal keeps the region marked, however it is cut. -/
theorem Marked.clear {Q : Except Err Unit → Image → Prop}
    (hQ : ∀ t, Marked cfg t → Settled cfg t freshSuperblock 0 ∅ → Q (.ok ()) t) :
    cwp (bytewise capacity) (kvClearJournal cfg 0) Q C img := by
  have hlen : (List.replicate cfg.kvJournalSize (0 : UInt8)).length = cfg.kvJournalSize :=
    List.length_replicate
  have hzero : journalAt cfg (patch img (kvJournalOffset cfg 0)
      (List.replicate cfg.kvJournalSize 0)) 0 = .zero cfg := journalAt_clear img 0
  have htorn : ∀ img', Torn img (patch img (kvJournalOffset cfg 0)
      (List.replicate cfg.kvJournalSize 0)) img' → Marked cfg img' := fun img' ht => by
    refine h.journalTorn hlen ?_ ht
    rw [hzero]
    exact Nat.zero_le 1
  rw [← Io.bind_pure (kvClearJournal cfg 0)]
  refine bytewise_write ?_ (fun img' ht => hC img' (htorn img' ht)) ?_
  · rw [hlen]
    exact (kvJournalOffset_end_le (by omega)).trans hcap
  · have ht := htorn _ fun a => Or.inr rfl
    refine cwp_done (hQ _ ht (ht.settled ?_)) fun img' hi => hi ▸ hC _ ht
    rw [hzero]
    exact KvJournal.zero_not_valid

/-- Recovery clears what is left of the journal, or ignores it. -/
theorem Marked.recover : cwp (bytewise capacity) (kvRecover cfg)
    (fun r t => r = .ok () ∧ Marked cfg t ∧ Settled cfg t freshSuperblock 0 ∅) C img := by
  have hR := @bytewise_readable cfg capacity hcap
  have hcrash : ∀ img', (bytewise capacity).crash img img' → C img' := fun img' hi =>
    hi ▸ hC img h
  refine kvRecover_scan hR hcrash h.selected ?_ fun e he => absurd he bytewise_faulted
  change cwp _ (kvRecoverFrom freshSuperblock 0 (kvNewestJournal (validJournal cfg img 0)
    (validJournal cfg img 1))) _ _ _
  rw [validJournal_zero h.other, validJournal]
  -- the format's journal is as new as the superblock and is cleared; without it nothing is done
  split_ifs with hj
  · have hle : (journalAt cfg img 0).generation ≤ freshSuperblock.generation := by
      rw [UInt64.le_iff_toNat_le]
      exact h.journal
    rw [kvNewestJournal, kvRecoverFrom, if_pos hle]
    exact h.clear hcap hC fun t ht hs => ⟨rfl, ht, hs⟩
  · refine cwp.mono (kvValidateRecords_reads hR hcrash h.table rfl) ?_ fun _ hi => hi
    rintro r t ⟨rfl, rfl | ⟨e, he, -⟩⟩
    · exact ⟨rfl, h, h.settled hj⟩
    · exact absurd he bytewise_faulted

end Marked

/-! ### Torn fields -/

/-- A field of a slice is a slice. -/
theorem slice_field (img : Image) (off : ℕ) {n k w : ℕ} (h : k + w ≤ n) :
    ((slice img off n).drop k).take w = slice img (off + k) w := by
  rw [slice_drop, slice_take _ _ (by omega)]

/-- A byte of a slice. -/
theorem kvGetU8_slice (img : Image) (off : ℕ) {n k : ℕ} (h : k < n) :
    kvGetU8 ((slice img off n).drop k) = img (off + k) := by
  rw [slice_drop, kvGetU8, slice_getD (by omega), Nat.add_zero]

section TornField

variable {old new : Image} (h : Torn old new img) {off n k : ℕ}
include h

/-- A field of four bytes is old or new if both values fit one byte. -/
theorem torn_getU32 (hk : k + 4 ≤ n) (hold : kvGetU32 ((slice old off n).drop k) < 256)
    (hnew : kvGetU32 ((slice new off n).drop k) < 256) :
    kvGetU32 ((slice img off n).drop k) = kvGetU32 ((slice old off n).drop k) ∨
      kvGetU32 ((slice img off n).drop k) = kvGetU32 ((slice new off n).drop k) := by
  have hnum : ∀ img : Image, (kvGetU32 ((slice img off n).drop k)).toNat =
      leNat (slice img (off + k) 4) := by
    intro img
    have hlt := leNat_lt (slice img (off + k) 4)
    rw [slice_length] at hlt
    rw [kvGetU32, slice_field img off hk, UInt32.toNat_ofNat']
    exact Nat.mod_eq_of_lt (hlt.trans_eq (by decide))
  rw [UInt32.lt_iff_toNat_lt, hnum] at hold hnew
  refine (h.leNat_slice hold hnew).imp (fun heq => ?_) fun heq => ?_
  all_goals
    refine UInt32.toNat_inj.mp ?_
    rw [hnum, hnum, heq]

/-- A small 64-bit field is torn as a whole: only its lowest byte can differ. -/
theorem torn_getU64 (hk : k + 8 ≤ n) (hold : kvGetU64 ((slice old off n).drop k) < 256)
    (hnew : kvGetU64 ((slice new off n).drop k) < 256) :
    kvGetU64 ((slice img off n).drop k) = kvGetU64 ((slice old off n).drop k) ∨
      kvGetU64 ((slice img off n).drop k) = kvGetU64 ((slice new off n).drop k) := by
  have hnum : ∀ img : Image, (kvGetU64 ((slice img off n).drop k)).toNat =
      leNat (slice img (off + k) 8) := by
    intro img
    have hlt := leNat_lt (slice img (off + k) 8)
    rw [slice_length] at hlt
    rw [kvGetU64, slice_field img off hk, UInt64.toNat_ofNat']
    exact Nat.mod_eq_of_lt (hlt.trans_eq (by decide))
  rw [UInt64.lt_iff_toNat_lt, hnum] at hold hnew
  refine (h.leNat_slice hold hnew).imp (fun heq => ?_) fun heq => ?_
  all_goals
    refine UInt64.toNat_inj.mp ?_
    rw [hnum, hnum, heq]

/-- A byte is the old or the new one. -/
theorem torn_getU8 (hk : k < n) :
    kvGetU8 ((slice img off n).drop k) = kvGetU8 ((slice old off n).drop k) ∨
      kvGetU8 ((slice img off n).drop k) = kvGetU8 ((slice new off n).drop k) := by
  rw [kvGetU8_slice img off hk, kvGetU8_slice old off hk, kvGetU8_slice new off hk]
  exact h (off + k)

/-- A field that is zero before and after is zero in between. -/
theorem torn_getU32_zero (hk : k + 4 ≤ n) (hold : kvGetU32 ((slice old off n).drop k) = 0)
    (hnew : kvGetU32 ((slice new off n).drop k) = 0) : kvGetU32 ((slice img off n).drop k) = 0 := by
  have hlt : (0 : UInt32) < 256 := by decide
  rcases torn_getU32 h hk (hold ▸ hlt) (hnew ▸ hlt) with heq | heq
  · exact heq.trans hold
  · exact heq.trans hnew

/-- So is a longer one. -/
theorem torn_getU64_zero (hk : k + 8 ≤ n) (hold : kvGetU64 ((slice old off n).drop k) = 0)
    (hnew : kvGetU64 ((slice new off n).drop k) = 0) : kvGetU64 ((slice img off n).drop k) = 0 := by
  have hlt : (0 : UInt64) < 256 := by decide
  rcases torn_getU64 h hk (hold ▸ hlt) (hnew ▸ hlt) with heq | heq
  · exact heq.trans hold
  · exact heq.trans hnew

end TornField


/-- What every valid journal is checked for. -/
theorem kvJournalIsValid_fields {j : KvJournal cfg} (h : kvJournalIsValid j) :
    j.magic = kvJournalMagic ∧ j.version = kvJournalVersion ∧ j.state ≠ 0 ∧ j.operation ≠ 0 ∧
      j.generation ≠ 0 ∧ j.Sealed := by
  have hs := kvJournalIsValid_sealed h
  have hp : kvJournalPrepared ≠ 0 := by decide
  have hc : kvJournalCommitted ≠ 0 := by decide
  have ho : (0 : UInt8) < kvOpSet := by decide
  simp only [kvJournalIsValid] at h
  split_ifs at h with h1
  all_goals
    simp only [not_or, not_and, not_not] at h1
    obtain ⟨hm, hv, hst, hop, -, hg, -⟩ := h1
    refine ⟨hm, hv, fun h0 => ?_, fun h0 => ?_, hg, hs⟩
    · rw [h0] at hst
      exact hc (hst hp.symm).symm
    · exact hop (h0 ▸ ho)

/-- The journal of the format carries its CRC. -/
theorem kvFormatJournal_sealed : (kvFormatJournal cfg).Sealed := rfl

/-- It is valid. -/
theorem kvFormatJournal_valid : kvJournalIsValid (kvFormatJournal cfg) := by
  have hlt : ¬ kvOpFormat < kvOpSet := by decide
  have hgt : ¬ kvOpFormat < kvOpFormat := by decide
  have hgen : (1 : UInt64) ≠ 0 := by decide
  refine (kvJournalIsValid_prepared rfl).mpr ⟨⟨rfl, rfl, hlt, hgt, hgen, kvFormatJournal_sealed⟩, ?_⟩
  exact fun hop => absurd rfl hop

/-- The record and the commit mark of a journal are the rest of its bytes. -/
theorem kvEncodeJournal_drop (j : KvJournal cfg) : (kvEncodeJournal j).drop 36 =
    kvEncodeRecord j.record ++ (kvEncodeCommit j ++ kvPutU32 j.commitCrc32) := by
  rw [kvEncodeJournal, kvJournalBody]
  simp only [List.append_assoc, List.cons_append, drop_field (kvPutU16_length _),
    drop_field (kvPutU32_length _), drop_field (kvPutU64_length _), List.drop_succ_cons,
    Nat.le_refl, Nat.reduceLeDiff, Nat.reduceSub, List.drop_zero]

/-- The part of a journal behind its head. -/
theorem journalAt_tail {old new : Image} {i j : ℕ}
    (hrecord : (journalAt cfg new i).record = (journalAt cfg old j).record)
    (hmagic : (journalAt cfg new i).commitMagic = (journalAt cfg old j).commitMagic)
    (hgen : (journalAt cfg new i).commitGeneration = (journalAt cfg old j).commitGeneration)
    (hcrc : (journalAt cfg new i).commitCrc32 = (journalAt cfg old j).commitCrc32) :
    (slice new (kvJournalOffset cfg i) cfg.kvJournalSize).drop 36 =
      (slice old (kvJournalOffset cfg j) cfg.kvJournalSize).drop 36 := by
  have hbytes : ∀ (img : Image) (i : ℕ), slice img (kvJournalOffset cfg i) cfg.kvJournalSize =
      kvEncodeJournal (journalAt cfg img i) := fun img i =>
    (kvEncodeJournal_decode (slice_length _ _ _)).symm
  rw [hbytes, hbytes, kvEncodeJournal_drop, kvEncodeJournal_drop, kvEncodeCommit, kvEncodeCommit,
    hrecord, hmagic, hgen, hcrc]

/-- **A torn journal is no journal.** While the journal of the format is being written to a clear
slot, the slot reads as valid only once it is complete. -/
theorem torn_journal_valid {old new : Image} {i : ℕ} (h : Torn old new img)
    (hold : journalAt cfg old i = .zero cfg) (hnew : journalAt cfg new i = kvFormatJournal cfg)
    (hv : kvJournalIsValid (journalAt cfg img i)) : journalAt cfg img i = kvFormatJournal cfg := by
  have hsize : cfg.kvJournalSize = 36 + cfg.kvRecordWireSize + 16 := by
    unfold KvConfig.kvJournalSize KvConfig.kvRecordWireSize journalSize kvJournalRecordOffset
    omega
  obtain ⟨hmagic, hversion, hstate, hop, hgen, hsealed⟩ := kvJournalIsValid_fields hv
  -- a checked field of one byte is not the old zero, so it is the new one
  have h6 : (journalAt cfg img i).state = kvJournalPrepared := by
    rcases torn_getU8 h (by omega : 6 < cfg.kvJournalSize) with heq | heq
    · exact absurd (heq.trans (congrArg KvJournal.state hold)) hstate
    · exact heq.trans (congrArg KvJournal.state hnew)
  have h7 : (journalAt cfg img i).operation = kvOpFormat := by
    rcases torn_getU8 h (by omega : 7 < cfg.kvJournalSize) with heq | heq
    · exact absurd (heq.trans (congrArg KvJournal.operation hold)) hop
    · exact heq.trans (congrArg KvJournal.operation hnew)
  have h8 : (journalAt cfg img i).generation = 1 := by
    have hlt0 : (journalAt cfg old i).generation < 256 := hold ▸ (by decide : (0 : UInt64) < 256)
    have hlt1 : (journalAt cfg new i).generation < 256 := hnew ▸ (by decide : (1 : UInt64) < 256)
    rcases torn_getU64 h (by omega : 8 + 8 ≤ cfg.kvJournalSize) hlt0 hlt1 with heq | heq
    · exact absurd (heq.trans (congrArg KvJournal.generation hold)) hgen
    · exact heq.trans (congrArg KvJournal.generation hnew)
  -- every other field but the CRC is zero on both sides
  have h16 : (journalAt cfg img i).baseGeneration = 0 :=
    torn_getU64_zero h (by omega) (congrArg KvJournal.baseGeneration hold)
      (congrArg KvJournal.baseGeneration hnew)
  have h24 : (journalAt cfg img i).recordIndex = 0 :=
    torn_getU32_zero h (by omega) (congrArg KvJournal.recordIndex hold)
      (congrArg KvJournal.recordIndex hnew)
  have h28 : (journalAt cfg img i).recordCount = 0 :=
    torn_getU32_zero h (by omega) (congrArg KvJournal.recordCount hold)
      (congrArg KvJournal.recordCount hnew)
  have h36 : (journalAt cfg img i).record = .zero cfg := by
    have htail : slice img (kvJournalOffset cfg i + 36) (cfg.kvJournalSize - 36) =
        slice old (kvJournalOffset cfg i + 36) (cfg.kvJournalSize - 36) := by
      refine h.slice_eq ?_
      rw [← slice_drop, ← slice_drop]
      refine journalAt_tail ?_ ?_ ?_ ?_ <;> rw [hold, hnew] <;> rfl
    rw [← slice_drop, ← slice_drop] at htail
    have hrecord : (journalAt cfg img i).record = (journalAt cfg old i).record :=
      congrArg (kvDecodeRecord cfg) htail
    rw [hrecord, hold]
    rfl
  have hmark : (journalAt cfg img i).commitMagic = 0 ∧
      (journalAt cfg img i).commitGeneration = 0 ∧ (journalAt cfg img i).commitCrc32 = 0 := by
    have hcommit : cfg.kvJournalCommitOffset = 36 + cfg.kvRecordWireSize := rfl
    refine ⟨torn_getU32_zero h (by omega) (congrArg KvJournal.commitMagic hold)
        (congrArg KvJournal.commitMagic hnew),
      torn_getU64_zero h (by omega) (congrArg KvJournal.commitGeneration hold)
        (congrArg KvJournal.commitGeneration hnew),
      torn_getU32_zero h (by omega) (congrArg KvJournal.commitCrc32 hold)
        (congrArg KvJournal.commitCrc32 hnew)⟩
  -- so the CRC covers the same bytes
  have hj : journalAt cfg img i =
      { kvFormatJournal cfg with crc32 := (journalAt cfg img i).crc32 } := by
    generalize journalAt cfg img i = j at *
    cases j
    simp only at hmagic hversion h6 h7 h8 h16 h24 h28 h36 hmark
    simp only [hmagic, hversion, h6, h7, h8, h16, h24, h28, h36, hmark]
    rfl
  have hcrc : (journalAt cfg img i).crc32 = (kvFormatJournal cfg).crc32 := by
    refine Eq.trans hsealed ?_
    rw [hj, kvJournalCrc_setCrc]
    rfl
  rw [hj, hcrc]

/-- The first generation. -/
theorem freshSuperblock_generation : freshSuperblock.generation = 1 := rfl

/-- Nothing is stored in it. -/
theorem freshSuperblock_recordCount : freshSuperblock.recordCount = 0 := rfl

/-- The superblock of a blank slot. -/
def zeroSuperblock : KvSuperblock := ⟨0, 0, 0, 0, 0, 0⟩

/-- The CRC of a superblock does not cover its CRC field. -/
theorem kvSuperblockCrc_setCrc (sb : KvSuperblock) (c : UInt32) :
    kvSuperblockCrc { sb with crc32 := c } = kvSuperblockCrc sb := rfl

/-- A superblock that passes every check is the one that is made for its generation and count. -/
theorem kvSuperblockIsValid_make {sb : KvSuperblock} (h : kvSuperblockIsValid cfg sb) :
    sb = kvMakeSuperblock sb.generation sb.recordCount := by
  simp only [kvSuperblockIsValid, decide_eq_true_eq] at h
  obtain ⟨magic, version, layout, generation, recordCount, crc32⟩ := sb
  obtain ⟨hmagic, hversion, hlayout, -, hcrc⟩ := h
  simp only at hmagic hversion hlayout hcrc
  rw [hmagic, hversion, hlayout] at hcrc ⊢
  have hset := kvSuperblockCrc_setCrc
    ⟨kvHeaderMagic, kvHeaderVersionV2, kvLayoutVersionV2, generation, recordCount, 0⟩ crc32
  rw [hcrc, hset]
  simp only [kvMakeSuperblock]

/-- The first byte of the CRC field of a superblock. -/
theorem superblockAt_crc_byte (img : Image) (i : ℕ) : img (kvSuperblockOffset i + 20) =
    (kvPutU32 (superblockAt img i).crc32).headD 0 := by
  have hput : kvPutU32 (superblockAt img i).crc32 = slice img (kvSuperblockOffset i + 20) 4 := by
    rw [← slice_field img (kvSuperblockOffset i) (by decide : 20 + 4 ≤ kvSuperblockSize)]
    refine kvPutU32_get ?_
    rw [slice_drop, slice_length]
    decide
  rw [hput, slice_succ]
  rfl

/-- **A torn superblock is no superblock.** While the first superblock is being written to a blank
slot, the slot reads as valid only once it is complete: without its generation it would need
another CRC. -/
theorem torn_superblock_valid {old new : Image} {i : ℕ} (h : Torn old new img)
    (hold : superblockAt old i = zeroSuperblock) (hnew : superblockAt new i = freshSuperblock)
    (hv : kvSuperblockIsValid cfg (superblockAt img i)) : superblockAt img i = freshSuperblock := by
  have hsize : kvSuperblockSize = 64 := rfl
  have hmake := kvSuperblockIsValid_make hv
  have hold8 : (superblockAt old i).generation = 0 := by rw [hold]; rfl
  have hnew8 : (superblockAt new i).generation = 1 := by rw [hnew, freshSuperblock_generation]
  have hold16 : (superblockAt old i).recordCount = 0 := by rw [hold]; rfl
  have hnew16 : (superblockAt new i).recordCount = 0 := by rw [hnew, freshSuperblock_recordCount]
  have hcount : (superblockAt img i).recordCount = 0 :=
    torn_getU32_zero h (by omega) hold16 hnew16
  have hgen : (superblockAt img i).generation = 0 ∨ (superblockAt img i).generation = 1 := by
    have hlt0 : (superblockAt old i).generation < 256 := hold8 ▸ by decide
    have hlt1 : (superblockAt new i).generation < 256 := hnew8 ▸ by decide
    exact (torn_getU64 h (by omega : 8 + 8 ≤ kvSuperblockSize) hlt0 hlt1).imp
      (fun heq => heq.trans hold8) fun heq => heq.trans hnew8
  rcases hgen with h0 | h1
  · -- without its generation the superblock needs a CRC that starts with another byte
    have hcrc : (superblockAt img i).crc32 = (kvMakeSuperblock 0 0).crc32 := by
      rw [hmake, h0, hcount]
    have hbyte := h (kvSuperblockOffset i + 20)
    rw [superblockAt_crc_byte img, superblockAt_crc_byte old, superblockAt_crc_byte new, hcrc, hold,
      hnew] at hbyte
    exact absurd hbyte (by decide +kernel)
  · rw [hmake, h1, hcount]
    rfl

/-! ### The first two stretches -/

/-- The region when the journal of the format is complete. -/
def journaled (cfg : KvConfig) : Image :=
  patch (fun _ => 0) (kvJournalOffset cfg 0) (kvEncodeJournal (kvFormatJournal cfg))

/-- The region when the first superblock is complete, too. -/
def headed (cfg : KvConfig) : Image :=
  patch (journaled cfg) (kvSuperblockOffset 0) (kvEncodeSuperblock freshSuperblock)

/-- A blank region has zero superblocks. -/
theorem superblockAt_blank (h : Blank img) (i : ℕ) : superblockAt img i = zeroSuperblock := by
  rw [superblockAt, h.slice]
  simp [kvDecodeSuperblock, kvGetU16, kvGetU32, kvGetU64, leNat_replicate_zero, zeroSuperblock]

/-- A zero superblock is not valid. -/
theorem zeroSuperblock_not_valid : ¬ kvSuperblockIsValid cfg zeroSuperblock := by
  have hm : zeroSuperblock.magic ≠ kvHeaderMagic := by decide
  simp [kvSuperblockIsValid, hm]

/-- The journal is being written to the blank region. -/
structure Journaling (cfg : KvConfig) (img : Image) : Prop where
  torn : Torn (fun _ => 0) (journaled cfg) img

/-- The first superblock is being written, or erased, behind the complete journal. -/
structure Heading (cfg : KvConfig) (img : Image) : Prop where
  torn : Torn (journaled cfg) (headed cfg) img

section Journaling

variable (h : Journaling cfg img)
include h

/-- While the journal is written only its slot differs from zero. -/
theorem Journaling.sameOutside :
    SameOutside (fun _ => 0) img (kvJournalOffset cfg 0) cfg.kvJournalSize := by
  have hout := h.torn.sameOutside
  rwa [kvEncodeJournal_length] at hout

/-- The header is still zero. -/
theorem Journaling.header : slice img 0 12 = List.replicate 12 0 := by
  have hend := kvSuperblockOffset_end_le (by omega : 0 < 2)
  have hstart := kvDataOffset_le_journal cfg 0
  unfold kvSuperblockOffset kvSuperblockSize at hend
  rw [h.sameOutside.slice_eq (Or.inl (by omega)), Blank.slice fun _ => rfl]

/-- So are the superblocks. -/
theorem Journaling.superblock {i : ℕ} (hi : i < 2) : superblockAt img i = zeroSuperblock := by
  have hend := (kvSuperblockOffset_end_le hi).trans (kvDataOffset_le_journal cfg 0)
  rw [superblockAt_frame h.sameOutside (Or.inl hend), superblockAt_blank fun _ => rfl]

/-- The records are empty. -/
theorem Journaling.record {i : ℕ} (hi : i < cfg.maxRecords) : recordAt cfg img i = .zero cfg := by
  have hend := (kvRecordOffset_end_le_journals hi).trans (Nat.le_add_right _ (cfg.kvJournalSize * 0))
  rw [recordAt_frame h.sameOutside (Or.inl hend), Blank.recordAt fun _ => rfl]

/-- The second journal is empty. -/
theorem Journaling.other : journalAt cfg img 1 = .zero cfg := by
  rw [journalAt_frame h.sameOutside (Or.inr (kvJournalOffset_end_le_of_lt (by omega))),
    Blank.journalAt fun _ => rfl]

/-- A clear journal slot is blank storage. -/
theorem Journaling.blank (hz : journalAt cfg img 0 = .zero cfg) : Blank img := by
  have hbytes : slice img (kvJournalOffset cfg 0) cfg.kvJournalSize =
      slice (fun _ => 0) (kvJournalOffset cfg 0) cfg.kvJournalSize := by
    rw [← kvEncodeJournal_decode (slice_length img (kvJournalOffset cfg 0) cfg.kvJournalSize),
      ← kvEncodeJournal_decode (slice_length (fun _ => 0) (kvJournalOffset cfg 0) cfg.kvJournalSize)]
    refine congrArg kvEncodeJournal (Eq.trans hz (Eq.symm ?_))
    exact Blank.journalAt (fun _ => rfl) 0
  exact congrFun (h.sameOutside.eq_of_slice hbytes)

/-- A valid journal is the complete one. -/
theorem Journaling.complete (hv : kvJournalIsValid (journalAt cfg img 0)) : img = journaled cfg := by
  have hnew : journalAt cfg (journaled cfg) 0 = kvFormatJournal cfg := journalAt_patch _ _ _
  have hj := torn_journal_valid h.torn (Blank.journalAt (fun _ => rfl) 0) hnew hv
  have hout : SameOutside (fun _ => 0) (journaled cfg) (kvJournalOffset cfg 0) cfg.kvJournalSize := by
    have hout := SameOutside.patch (fun _ => 0) (kvJournalOffset cfg 0)
      (kvEncodeJournal (kvFormatJournal cfg))
    rwa [kvEncodeJournal_length] at hout
  refine (hout.symm.trans h.sameOutside).eq_of_slice ?_
  rw [← kvEncodeJournal_decode (slice_length img (kvJournalOffset cfg 0) cfg.kvJournalSize),
    ← kvEncodeJournal_decode (slice_length (journaled cfg) (kvJournalOffset cfg 0)
      cfg.kvJournalSize)]
  exact congrArg kvEncodeJournal (hj.trans hnew.symm)

end Journaling

/-- The complete journal is the end of the first stretch and the start of the second. -/
theorem journaling_journaled : Journaling cfg (journaled cfg) := ⟨fun _ => Or.inr rfl⟩

/-- With the journal written the headers can begin. -/
theorem heading_journaled : Heading cfg (journaled cfg) := ⟨fun _ => Or.inl rfl⟩

section Heading

variable (h : Heading cfg img)
include h

/-- While the first superblock is written only its slot differs. -/
theorem Heading.sameOutside : SameOutside (journaled cfg) img (kvSuperblockOffset 0) kvSuperblockSize := by
  have hout := h.torn.sameOutside
  rwa [kvEncodeSuperblock_length] at hout

/-- The second one is still zero. -/
theorem Heading.second : superblockAt img 1 = zeroSuperblock := by
  rw [superblockAt_frame h.sameOutside (Or.inr (by decide)),
    journaling_journaled.superblock (by omega)]

/-- The records are empty. -/
theorem Heading.record {i : ℕ} (hi : i < cfg.maxRecords) : recordAt cfg img i = .zero cfg := by
  have hend := (kvSuperblockOffset_end_le (by omega : 0 < 2)).trans (kvDataOffset_le_record cfg i)
  rw [recordAt_frame h.sameOutside (Or.inr hend), journaling_journaled.record hi]

/-- The journal is the one of the format. -/
theorem Heading.journal : journalAt cfg img 0 = kvFormatJournal cfg := by
  have hend := (kvSuperblockOffset_end_le (by omega : 0 < 2)).trans (kvDataOffset_le_journal cfg 0)
  rw [journalAt_frame h.sameOutside (Or.inr hend)]
  exact journalAt_patch _ _ _

/-- The second journal is empty. -/
theorem Heading.other : journalAt cfg img 1 = .zero cfg := by
  have hend := (kvSuperblockOffset_end_le (by omega : 0 < 2)).trans (kvDataOffset_le_journal cfg 1)
  rw [journalAt_frame h.sameOutside (Or.inr hend), journaling_journaled.other]

/-- A valid first superblock is the complete one. -/
theorem Heading.marked (hv : kvSuperblockIsValid cfg (superblockAt img 0)) : Marked cfg img where
  superblock := torn_superblock_valid h.torn (journaling_journaled.superblock (by omega))
    (superblockAt_patch _ _ _) hv
  second := by
    rw [h.second]
    exact Nat.zero_le 1
  records := fun i hi => h.record hi
  journal := by
    rw [h.journal]
    exact Nat.le_refl 1
  other := h.other

/-- Erasing the data area goes back to the start of the stretch. -/
theorem Heading.erase : patch img 0 (List.replicate cfg.kvJournalOffsetBase 0) = journaled cfg := by
  funext a
  have hdata := kvSuperblockOffset_end_le (by omega : 0 < 2)
  have hbase := kvDataOffset_le_journals cfg
  unfold patch
  rw [List.length_replicate]
  split_ifs with ha
  · rw [List.getD_eq_getElem?_getD, List.getElem?_replicate, if_pos (by omega), Option.getD_some]
    refine (journaling_journaled.sameOutside a fun hj => ?_).symm
    have hle : cfg.kvJournalOffsetBase ≤ kvJournalOffset cfg 0 := Nat.le_add_right _ _
    omega
  · exact h.sameOutside a fun hs => ha (by omega)

end Heading

/-! ### One attempt -/

/-- Where a region may be after any number of attempts. -/
def OnTheWay (cfg : KvConfig) (img : Image) : Prop :=
  Journaling cfg img ∨ Heading cfg img ∨ Marked cfg img

/-- The new store is open: the first superblock is in use and nothing is left to recover. -/
def Opened (cfg : KvConfig) (r : Except Err Unit) (img : Image) : Prop :=
  r = .ok () ∧ Marked cfg img ∧ Settled cfg img freshSuperblock 0 ∅

section Attempt

variable (hcap : cfg.kvRegionSize ≤ capacity) {C : Image → Prop}
  (hC : ∀ img, OnTheWay cfg img → C img)
include hcap hC

/-- Completing the format behind the complete journal. -/
theorem Heading.completes (h : Heading cfg img) {β : Type} {f : Unit → Io Err β}
    {Q : Except Err β → Image → Prop}
    (hf : ∀ t, Marked cfg t → cwp (bytewise capacity) (f ()) Q C t) :
    cwp (bytewise capacity) (kvCompleteFormat (kvFormatJournal cfg) >>= f) Q C img := by
  have hcond : ¬ ((kvFormatJournal cfg).baseGeneration ≠ 0 ∨ (kvFormatJournal cfg).generation = 0) := by
    change ¬ ((0 : UInt64) ≠ 0 ∨ (1 : UInt64) = 0)
    decide
  have hheaded : Marked cfg (headed cfg) := by
    refine (show Heading cfg (headed cfg) from ⟨fun _ => Or.inr rfl⟩).marked ?_
    rw [headed, superblockAt_patch]
    exact freshSuperblock_isValid
  rw [kvCompleteFormat, if_neg hcond]
  refine cwp_bind (bytewise_write ?_ (fun img' ht => hC _ (Or.inr (Or.inl ⟨fun a => ?_⟩))) ?_)
  · rw [List.length_replicate, Nat.zero_add]
    exact (Nat.le_add_right _ _).trans hcap
  · -- an erase that is cut short stays on the second stretch
    rw [h.erase] at ht
    exact (ht a).elim (fun heq => heq ▸ h.torn a) Or.inl
  rw [h.erase]
  refine bytewise_write ?_ (fun img' ht => hC _ (Or.inr (Or.inl ⟨ht⟩))) ?_
  · rw [kvEncodeSuperblock_length]
    exact (kvSuperblock_region (by omega)).trans hcap
  change cwp (bytewise capacity) _ _ _ (headed cfg)
  refine bytewise_write ?_ (fun img' ht => hC _ (Or.inr (Or.inr (hheaded.secondTorn ht)))) ?_
  · rw [kvEncodeSuperblock_length]
    exact (kvSuperblock_region (by omega)).trans hcap
  have hmarked := hheaded.secondTorn fun _ => Or.inr rfl
  rw [← Io.bind_pure actrustStorageSync]
  refine bytewise_sync (cwp_done (hf _ hmarked) fun img' hi => ?_)
  exact hi ▸ hC _ (Or.inr (Or.inr hmarked))

/-- Recovery on the second stretch completes the format, unless the superblock is there already. -/
theorem Heading.recover (h : Heading cfg img) :
    cwp (bytewise capacity) (kvRecover cfg) (Opened cfg) C img := by
  -- a first superblock that is already valid marks the region
  by_cases hv : kvSuperblockIsValid cfg (superblockAt img 0)
  · exact (h.marked hv).recover hcap fun img hm => hC _ (Or.inr (Or.inr hm))
  have hR := @bytewise_readable cfg capacity hcap
  have hcrash : ∀ img', (bytewise capacity).crash img img' → C img' := fun img' hi =>
    hi ▸ hC img (Or.inr (Or.inl h))
  -- otherwise none is in force, and the journal of the format is carried out again
  have hnone : kvNewerSuperblock cfg (superblockAt img 0) (superblockAt img 1) = none :=
    if_pos ⟨hv, h.second ▸ zeroSuperblock_not_valid⟩
  refine (kvCurrentSuperblock_none hR hcrash hnone).bind ?_ fun e he => absurd he bytewise_faulted
  refine (kvScanJournal_valid hR hcrash (by omega : 0 < 2) (h.journal ▸ kvFormatJournal_valid)
    true).bind ?_ fun e he => absurd he bytewise_faulted
  refine (kvScanJournal_zero hR hcrash (by omega : 1 < 2) h.other true).bind ?_
    fun e he => absurd he bytewise_faulted
  change cwp _ (kvRecoverFormat (kvNewestJournal (some (journalAt cfg img 0)) none)) _ _ _
  have hop : ¬ (kvFormatJournal cfg).operation ≠ kvOpFormat := not_not.mpr rfl
  rw [h.journal, kvNewestJournal, kvRecoverFormat, if_neg hop]
  refine h.completes hcap hC fun t ht => ?_
  exact ht.clear hcap (fun img hm => hC _ (Or.inr (Or.inr hm))) fun t ht hs => ⟨rfl, ht, hs⟩

/-- A torn journal is refused by recovery, which leaves it as it is. -/
theorem Journaling.broken (h : Journaling cfg img)
    (hv : ¬ kvJournalIsValid (journalAt cfg img 0)) (hz : journalAt cfg img 0 ≠ .zero cfg) :
    cwp (bytewise capacity) (kvRecover cfg)
      (fun r t => t = img ∧ ∃ e, r = .error e ∧ e.code ≠ .noResource) C img := by
  have hR := @bytewise_readable cfg capacity hcap
  have hcrash : ∀ img', (bytewise capacity).crash img img' → C img' := fun img' hi =>
    hi ▸ hC img (Or.inl h)
  have hnone : kvNewerSuperblock cfg (superblockAt img 0) (superblockAt img 1) = none :=
    if_pos ⟨h.superblock (by omega : 0 < 2) ▸ zeroSuperblock_not_valid,
      h.superblock (by omega : 1 < 2) ▸ zeroSuperblock_not_valid⟩
  refine (kvCurrentSuperblock_none hR hcrash hnone).bind ?_ fun e he => absurd he bytewise_faulted
  refine cwp_bind (cwp.mono (kvScanJournal_broken hR hcrash (by omega : 0 < 2) hv hz) ?_
    fun _ hi => hi)
  rintro r t ⟨rfl, e, rfl, hcode⟩
  exact ⟨rfl, e, rfl, hcode⟩

/-- Formatting blank storage. -/
theorem kvFormat_blank (h : Blank img) : cwp (bytewise capacity) (kvFormat cfg) (Opened cfg) C img := by
  obtain rfl : img = fun _ => 0 := funext h
  -- the journal may be torn while it is written: the region then still counts as blank
  refine bytewise_write ?_ (fun img' ht => hC _ (Or.inl ⟨ht⟩)) ?_
  · rw [kvEncodeJournal_length]
    exact (kvJournalOffset_end_le (by omega)).trans hcap
  refine bytewise_sync ?_
  refine heading_journaled.completes hcap hC fun t ht => ?_
  -- the commit mark may be torn, which leaves the region marked
  have hlen := kvEncodeJournal_length (kvCommitJournal (kvFormatJournal cfg))
  have htorn : ∀ img', Torn t (patch t (kvJournalOffset cfg 0)
      (kvEncodeJournal (kvCommitJournal (kvFormatJournal cfg)))) img' → Marked cfg img' :=
    fun img' hi => by
      refine ht.journalTorn hlen ?_ hi
      rw [journalAt_patch]
      exact Nat.le_refl 1
  refine bytewise_write ?_ (fun img' hi => hC _ (Or.inr (Or.inr (htorn img' hi)))) ?_
  · rw [hlen]
    exact (kvJournalOffset_end_le (by omega)).trans hcap
  refine bytewise_sync ((htorn _ fun _ => Or.inr rfl).clear hcap ?_ ?_)
  · exact fun img hm => hC _ (Or.inr (Or.inr hm))
  · exact fun t ht hs => ⟨rfl, ht, hs⟩

end Attempt

/-- The condition: the first twelve bytes pass the probe of the open path and, as long as there is no
valid superblock, the first journal slot is clear or holds a valid journal. -/
structure Recognized (cfg : KvConfig) (img : Image) : Prop where
  probe : PassesProbe (slice img 0 12)
  journal : (∀ i < 2, ¬ kvSuperblockIsValid cfg (superblockAt img i)) →
    journalAt cfg img 0 = .zero cfg ∨ kvJournalIsValid (journalAt cfg img 0)

/-- An attempt opens the store if the region is recognized and otherwise changes nothing; cut
short, it stays on the way. -/
theorem OnTheWay.attempt (hcap : cfg.kvRegionSize ≤ capacity) (h : OnTheWay cfg img) :
    cwp (bytewise capacity) (kvPrepareStorage cfg)
      (fun r t => (Recognized cfg img ∧ Opened cfg r t) ∨
        (¬ Recognized cfg img ∧ (∃ e, r = .error e) ∧ t = img)) (OnTheWay cfg) img := by
  have hR := @bytewise_readable cfg capacity hcap
  have hcrash : ∀ img', (bytewise capacity).crash img img' → OnTheWay cfg img' := fun img' hi =>
    hi ▸ h
  have hself : ∀ img, OnTheWay cfg img → OnTheWay cfg img := fun _ hw => hw
  -- where recovery opens the store, so does the open path
  have haccept : ∀ {img : Image}, Recognized cfg img →
      cwp (bytewise capacity) (kvRecover cfg) (Opened cfg) (OnTheWay cfg) img →
      cwp (bytewise capacity) (kvPrepareStorage cfg)
        (fun r t => (Recognized cfg img ∧ Opened cfg r t) ∨
          (¬ Recognized cfg img ∧ (∃ e, r = .error e) ∧ t = img)) (OnTheWay cfg) img := by
    intro img hrec hopen
    refine kvPrepareStorage_accepts hR hrec.probe (cwp.mono hopen ?_ fun _ hi => hi)
      fun e he => absurd he bytewise_faulted
    intro r t ht
    refine ⟨Or.inl ⟨hrec, ht⟩, fun img' hi => hi ▸ Or.inr (Or.inr ht.2.1), fun e he => ?_⟩
    exact absurd (ht.1.symm.trans he) (by simp)
  have hheading : ∀ {img : Image}, Heading cfg img → PassesProbe (slice img 0 12) →
      cwp (bytewise capacity) (kvPrepareStorage cfg)
        (fun r t => (Recognized cfg img ∧ Opened cfg r t) ∨
          (¬ Recognized cfg img ∧ (∃ e, r = .error e) ∧ t = img)) (OnTheWay cfg) img := by
    intro img hh hprobe
    refine haccept ⟨hprobe, fun _ => Or.inr ?_⟩ (hh.recover hcap hself)
    rw [hh.journal]
    exact kvFormatJournal_valid
  rcases h with h | h | h
  · have hprobe : PassesProbe (slice img 0 12) := Or.inl h.header
    by_cases hz : journalAt cfg img 0 = .zero cfg
    · -- the attempt starts from scratch
      have hrec : Recognized cfg img := ⟨hprobe, fun _ => Or.inl hz⟩
      refine kvPrepareStorage_unformatted hR (h.blank hz) ?_ fun hfault => ?_
      · exact cwp.mono (kvFormat_blank hcap hself (h.blank hz)) (fun r t ht => Or.inl ⟨hrec, ht⟩)
          hself
      · exact hfault.elim fun _ he => he.elim
    by_cases hv : kvJournalIsValid (journalAt cfg img 0)
    · obtain rfl := h.complete hv
      exact hheading heading_journaled hprobe
    · have hnot : ¬ Recognized cfg img := fun hrec => by
        refine (hrec.journal fun i hi => ?_).elim hz hv
        rw [h.superblock hi]
        exact zeroSuperblock_not_valid
      refine kvPrepareStorage_accepts hR hprobe (cwp.mono (h.broken hcap hself hv hz) ?_
        fun _ hi => hi) fun e he => absurd he bytewise_faulted
      rintro r t ⟨rfl, e, rfl, hcode⟩
      refine ⟨Or.inr ⟨hnot, ⟨e, rfl⟩, rfl⟩, hcrash, fun e' he => ?_⟩
      exact (Except.error.inj he) ▸ hcode
  · by_cases hprobe : PassesProbe (slice img 0 12)
    · exact hheading h hprobe
    · exact kvPrepareStorage_refuses hR hprobe hcrash fun e =>
        Or.inr ⟨fun hrec => hprobe hrec.probe, ⟨e, rfl⟩, rfl⟩
  · refine haccept ⟨h.passesProbe, fun hnone => ?_⟩
      (h.recover hcap fun img hm => Or.inr (Or.inr hm))
    refine absurd ?_ (hnone 0 (by omega))
    rw [h.superblock]
    exact freshSuperblock_isValid

/-- Every region of a first boot is on the way. -/
theorem FirstBoot.onTheWay (hcap : cfg.kvRegionSize ≤ capacity) (h : FirstBoot cfg capacity img) :
    OnTheWay cfg img := by
  induction h with
  | blank hb => exact Or.inl ⟨fun a => Or.inl (hb a)⟩
  | @attempt img o _ he ih =>
    have hm := he.sound (ih.attempt hcap)
    cases o with
    | returned r t => exact hm.2 t rfl
    | crashed t => exact hm

/-! ### The store that a format leaves -/

/-- A new key is stored in a settled region that has room. -/
theorem Settled.set {sb : KvSuperblock} {index : ℕ} {m : KvMap} (hcap : cfg.kvRegionSize ≤ capacity)
    (h : Settled cfg img sb index m) {key value : Bytes} (hk : KeyLenOk key)
    (hv : value.length ≤ cfg.maxValueLen) (hnew : m.lookup key = none)
    (hroom : m.keys.card < cfg.maxRecords) :
    (undisturbed capacity (actrustKvSet cfg key value) img).1 = .ok () := by
  have hM := @calm_medium cfg capacity hcap
  have hC : ∀ (t img' : Image), (calm cfg capacity).crash t img' → True := fun _ _ _ => trivial
  have hbody : cwp (calm cfg capacity) (kvSetLocked cfg key value) (fun r _ => r = .ok ())
      (fun _ => True) img := by
    -- the store is settled, so the load leaves it and the superblock in force is known
    refine h.loadCurrent_bind hcap ?_
    refine (kvFindRecord_reads_none hM.readable (hC img) h.table hnew).bind ?_
      fun e he => absurd he calm_faulted
    refine cwp_bind (cwp.mono (kvScanFree_spec hM.readable (hC img) h.table.valid cfg.maxRecords 0
      (by omega)) ?_ fun _ hi => hi)
    rintro r u ⟨rfl, rfl | ⟨⟨e, he⟩, -⟩⟩
    · -- there is room, so a free slot is found
      cases hf : firstFree (entries cfg ((calm cfg capacity).view u)) cfg.maxRecords 0 with
      | none =>
        refine absurd (h.table.entries.full_iff.mpr fun i hi => ?_) (Nat.ne_of_lt hroom)
        exact firstFree_none hf i (Nat.zero_le i) (by omega)
      | some i =>
        obtain ⟨-, hi, -⟩ := firstFree_some hf
        refine cwp.mono (kvTransaction_writes hM h.selected.index_lt (by decide)
          (by omega : i < cfg.maxRecords)) ?_ fun _ hi => hi
        rintro r t (⟨rfl, -⟩ | ⟨e, he⟩)
        · rfl
        · exact he.elim
    · exact he.elim
  -- the lock is free in a single thread
  have hspec : cwp (calm cfg capacity) (actrustKvSet cfg key value) (fun r _ => r = .ok ())
      (fun _ => True) img := by
    rw [actrustKvSet, if_neg (by rw [not_or, not_not, not_lt]; exact ⟨hk, hv⟩)]
    refine cwp_lock ?_ fun e he => he.elim
    refine cwp_bind (cwp_attempt (cwp.mono hbody ?_ fun _ hi => hi))
    rintro r t rfl
    exact cwp_unlock (cwp_done rfl (hC t)) fun e he => he.elim
  exact undisturbed_sound hspec

/-- The store is empty and usable: every get answers that nothing is there, and any key can be
set. -/
structure EmptyStore (cfg : KvConfig) (capacity : ℕ) (img : Image) : Prop where
  answers : Answers cfg capacity img ∅
  sets : ∀ key value, (KvMutation.set key value).Valid cfg → 0 < cfg.maxRecords →
    (undisturbed capacity (actrustKvSet cfg key value) img).1 = .ok ()

/-- An attempt that nothing interrupts succeeds and yields an empty store. -/
def OpensEmpty (cfg : KvConfig) (capacity : ℕ) (img : Image) : Prop :=
  ∃ img', undisturbed capacity (kvPrepareStorage cfg) img = (.ok (), img') ∧
    EmptyStore cfg capacity img'

/-- A region that was opened is an empty store. -/
theorem Opened.emptyStore (hcap : cfg.kvRegionSize ≤ capacity) {r : Except Err Unit}
    (h : Opened cfg r img) : EmptyStore cfg capacity img where
  answers := h.2.2.answers hcap
  sets := fun _ _ hv hpos => h.2.2.set hcap hv.1 hv.2 rfl hpos

/-- **The first format.** After any number of attempts that a power loss cut short, between two
storage calls or inside a write, the next attempt that nothing interrupts succeeds and yields an
empty, usable store exactly when the region is recognized. -/
theorem first_format_iff (hcap : cfg.kvRegionSize ≤ capacity) (h : FirstBoot cfg capacity img) :
    OpensEmpty cfg capacity img ↔ Recognized cfg img := by
  rcases cwp.run_sound ((h.onTheWay hcap).attempt hcap) with ⟨hrec, hopen⟩ | ⟨hnot, ⟨e, he⟩, -⟩
  · exact iff_of_true ⟨_, Prod.ext hopen.1 rfl, hopen.emptyStore hcap⟩ hrec
  · refine iff_of_false ?_ hnot
    rintro ⟨img', hrun, -⟩
    have hr : (undisturbed capacity (kvPrepareStorage cfg) img).1 = .ok () := by rw [hrun]
    exact absurd (hr.symm.trans he) (by simp)

/-- A power loss behind the first `len` bytes of write number `n` of an attempt. -/
theorem FirstBoot.cut (h : FirstBoot cfg capacity img) (len n : ℕ) : FirstBoot cfg capacity
    ((kvPrepareStorage cfg).cut capacity ⟨.adapterStorage, .invalidArg⟩ len n img) :=
  .attempt h (Io.cut_exec _ len n img)

/-- The small region after a power loss inside write number `n` of its first boot, behind the first
`len` bytes of that write. -/
def tinyCut (n len : ℕ) : Image :=
  (kvPrepareStorage tinyConfig).cut tinyConfig.kvRegionSize ⟨.adapterStorage, .invalidArg⟩ len n
    fun _ => 0

/-- A format that is cut is a first boot. -/
theorem tinyCut_firstBoot (n len : ℕ) :
    FirstBoot tinyConfig tinyConfig.kvRegionSize (tinyCut n len) := by
  unfold tinyCut
  exact FirstBoot.cut (.blank fun _ => rfl) len n

/-- The theorem at a format that was cut in its third write. -/
theorem first_format_cut : OpensEmpty tinyConfig tinyConfig.kvRegionSize (tinyCut 3 9) :=
  (first_format_iff (Nat.le_refl _) (tinyCut_firstBoot 3 9)).mpr
    ⟨by decide +kernel, fun hnone => absurd (by decide +kernel) (hnone 0 (by omega))⟩

/-- One byte of the first journal write makes the region unusable for good. -/
theorem not_first_format : ¬ ∀ img, FirstBoot tinyConfig tinyConfig.kvRegionSize img →
    OpensEmpty tinyConfig tinyConfig.kvRegionSize img := by
  intro h
  have hrec := (first_format_iff (Nat.le_refl _) (tinyCut_firstBoot 0 1)).mp
    (h _ (tinyCut_firstBoot 0 1))
  exact absurd (hrec.journal (by decide +kernel)) (by decide +kernel)

end TrustSdk.Kv
