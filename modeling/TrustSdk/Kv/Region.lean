import TrustSdk.Kv.Format

/-!
# What an image of a region holds

The superblocks, records and journals read off an image, the arithmetic of the layout
that keeps them apart, and what a write to one of them leaves of the others. A write is
taken in its most general form, the torn one: `TornWrite` is the byte-wise mixture of the
old and the new image in which a superblock or a journal whose stored CRC matches is
exactly the old or exactly the new one, as far as the CRC covers it. A finished write is
the special case `TornWrite.full`.

* `SbWrite`, `RecordWrite`, `JournalWrite` — what one torn write to a superblock, a record
  or a journal slot does to everything a region holds.
-/

namespace TrustSdk.Kv

open ByteStore

variable {cfg : KvConfig} {img img' old new : Image} {i j k slot : ℕ}

/-! ### Reading a region -/

/-- The superblock read at slot `i`. -/
def superblockAt (img : Image) (i : ℕ) : KvSuperblock :=
  kvDecodeSuperblock (slice img (kvSuperblockOffset i) kvSuperblockSize)

/-- The record read at slot `i`. -/
def recordAt (cfg : KvConfig) (img : Image) (i : ℕ) : KvRecord cfg :=
  kvDecodeRecord cfg (slice img (kvRecordOffset cfg i) cfg.kvRecordWireSize)

/-- The journal read at slot `i`. -/
def journalAt (cfg : KvConfig) (img : Image) (i : ℕ) : KvJournal cfg :=
  kvDecodeJournal cfg (slice img (kvJournalOffset cfg i) cfg.kvJournalSize)

/-- The region starts with the magic number and the version of the current format. -/
def HeaderOk (img : Image) : Prop :=
  slice img 0 6 = kvPutU32 kvHeaderMagic ++ kvPutU16 kvHeaderVersionV2

/-- The stored CRC of a journal matches what it covers. -/
def KvJournal.Sealed (journal : KvJournal cfg) : Prop := journal.crc32 = kvJournalCrc journal

/-- A journal without its commit mark, which its CRC does not cover. -/
def KvJournal.unmarked (journal : KvJournal cfg) : KvJournal cfg :=
  { journal with commitMagic := 0, commitGeneration := 0, commitCrc32 := 0 }

/-! ### Layout -/

/-- A record fits into its stride. -/
theorem kvRecordWireSize_le (cfg : KvConfig) : cfg.kvRecordWireSize ≤ cfg.kvRecordSize := by
  unfold KvConfig.kvRecordWireSize KvConfig.kvRecordSize recordSize
  omega

/-- A record ends before the next one starts. -/
theorem kvRecordOffset_end_le (cfg : KvConfig) (hij : i < j) :
    kvRecordOffset cfg i + cfg.kvRecordWireSize ≤ kvRecordOffset cfg j := by
  have hwire := kvRecordWireSize_le cfg
  have hmul : cfg.kvRecordSize * (i + 1) ≤ cfg.kvRecordSize * j := Nat.mul_le_mul_left _ hij
  rw [Nat.mul_succ] at hmul
  unfold kvRecordOffset
  omega

/-- A record slot ends before the journals start. -/
theorem kvRecordOffset_end_le_journals (h : i < cfg.maxRecords) :
    kvRecordOffset cfg i + cfg.kvRecordWireSize ≤ cfg.kvJournalOffsetBase :=
  kvRecordOffset_end_le cfg h

/-- The superblocks stand before the records. -/
theorem kvSuperblockOffset_end_le (h : i < 2) :
    kvSuperblockOffset i + kvSuperblockSize ≤ kvDataOffset := by
  unfold kvSuperblockOffset kvDataOffset
  simp only [kvSuperblockSize]
  omega

/-- The records stand before the journals. -/
theorem kvDataOffset_le_journals (cfg : KvConfig) : kvDataOffset ≤ cfg.kvJournalOffsetBase :=
  Nat.le_add_right _ _

/-- The journals end where the region does. -/
theorem kvJournalOffset_end_le (h : slot < 2) :
    kvJournalOffset cfg slot + cfg.kvJournalSize ≤ cfg.kvRegionSize := by
  have hmul : cfg.kvJournalSize * (slot + 1) ≤ cfg.kvJournalSize * 2 := Nat.mul_le_mul_left _ h
  rw [Nat.mul_succ] at hmul
  unfold kvJournalOffset KvConfig.kvRegionSize kvJournalSlots
  omega

/-- A journal ends before the next one starts. -/
theorem kvJournalOffset_end_le_of_lt (h : i < j) :
    kvJournalOffset cfg i + cfg.kvJournalSize ≤ kvJournalOffset cfg j := by
  have hmul : cfg.kvJournalSize * (i + 1) ≤ cfg.kvJournalSize * j := Nat.mul_le_mul_left _ h
  rw [Nat.mul_succ] at hmul
  unfold kvJournalOffset
  omega

/-- A superblock lies in the region. -/
theorem kvSuperblock_region (h : i < 2) :
    kvSuperblockOffset i + kvSuperblockSize ≤ cfg.kvRegionSize :=
  (kvSuperblockOffset_end_le h).trans
    ((kvDataOffset_le_journals cfg).trans (Nat.le_add_right _ _))

/-- The prefix that is inspected first lies inside the first superblock. -/
theorem kvHeader_region (cfg : KvConfig) : 0 + 12 ≤ cfg.kvRegionSize := by
  have h := @kvSuperblock_region cfg 0 (by omega)
  simp only [kvSuperblockOffset, kvSuperblockSize] at h
  omega

/-- A record lies in the region. -/
theorem kvRecord_region (h : i < cfg.maxRecords) :
    kvRecordOffset cfg i + cfg.kvRecordWireSize ≤ cfg.kvRegionSize :=
  (kvRecordOffset_end_le_journals h).trans (Nat.le_add_right _ _)

/-- Offsets of the region fit 32 bits. -/
theorem kvRegionSize_lt (cfg : KvConfig) : cfg.kvRegionSize < 2 ^ 32 := cfg.fits

/-- A value length of the configuration fits its 32-bit field. -/
theorem maxValueLen_lt (cfg : KvConfig) : cfg.maxValueLen < 2 ^ 32 := by
  have h := cfg.fits
  unfold kvJournalSlots journalSize at h
  omega

/-- So do the slot numbers. -/
theorem maxRecords_lt (cfg : KvConfig) : cfg.maxRecords < 2 ^ 32 := by
  have h := cfg.fits
  have hpos : 0 < recordSize cfg.maxValueLen := by
    unfold recordSize kvRecordHeadWireSize
    omega
  have hmul : 1 * cfg.maxRecords ≤ recordSize cfg.maxValueLen * cfg.maxRecords :=
    Nat.mul_le_mul_right _ hpos
  omega

/-! ### Reading back what was written -/

/-- What is written to a superblock slot is read back. -/
theorem superblockAt_patch (img : Image) (i : ℕ) (sb : KvSuperblock) :
    superblockAt (patch img (kvSuperblockOffset i) (kvEncodeSuperblock sb)) i = sb := by
  have h := slice_patch img (kvSuperblockOffset i) (kvEncodeSuperblock sb)
  rw [kvEncodeSuperblock_length] at h
  rw [superblockAt, h]
  simpa using kvDecodeSuperblock_encode sb []

/-- What is written to a record slot is read back. -/
theorem recordAt_patch (img : Image) (i : ℕ) (r : KvRecord cfg) :
    recordAt cfg (patch img (kvRecordOffset cfg i) (kvEncodeRecord r)) i = r := by
  have h := slice_patch img (kvRecordOffset cfg i) (kvEncodeRecord r)
  rw [kvEncodeRecord_length] at h
  rw [recordAt, h]
  simpa using kvDecodeRecord_encode r []

/-- What is written to a journal slot is read back. -/
theorem journalAt_patch (img : Image) (i : ℕ) (jr : KvJournal cfg) :
    journalAt cfg (patch img (kvJournalOffset cfg i) (kvEncodeJournal jr)) i = jr := by
  have h := slice_patch img (kvJournalOffset cfg i) (kvEncodeJournal jr)
  rw [kvEncodeJournal_length] at h
  rw [journalAt, h]
  simpa using kvDecodeJournal_encode jr []

/-- A number of zero bytes is zero. -/
theorem leNat_replicate_zero (n : ℕ) : leNat (List.replicate n 0) = 0 := by
  induction n with
  | zero => rfl
  | succ n ih =>
    rw [List.replicate_succ, leNat, ih]
    rfl

/-- A byte of zeros is zero. -/
theorem kvGetU8_replicate_zero (n : ℕ) : kvGetU8 (List.replicate n 0) = 0 := by
  cases n <;> rfl

/-- Zero bytes decode to the empty record. -/
theorem kvDecodeRecord_zero (n : ℕ) : kvDecodeRecord cfg (List.replicate n 0) = .zero cfg := by
  have hbytes : ∀ k l, ByteArr.ofBytes k (List.replicate l 0) = .zero k := by
    intro k l
    refine ByteArr.ext ?_
    simp [ByteArr.ofBytes, ByteArr.zero]
  simp [kvDecodeRecord, KvRecord.zero, kvGetU16, kvGetU32, leNat_replicate_zero, hbytes,
    kvGetU8_replicate_zero]

/-- Zeros read as the zero journal. -/
theorem kvDecodeJournal_zero (n : ℕ) : kvDecodeJournal cfg (List.replicate n 0) = .zero cfg := by
  simp [kvDecodeJournal, KvJournal.zero, kvGetU16, kvGetU32, kvGetU64, leNat_replicate_zero,
    kvDecodeRecord_zero, kvGetU8_replicate_zero]

/-- A cleared journal slot reads as empty. -/
theorem journalAt_clear (img : Image) (i : ℕ) :
    journalAt cfg (patch img (kvJournalOffset cfg i) (List.replicate cfg.kvJournalSize 0)) i =
      .zero cfg := by
  have h := slice_patch img (kvJournalOffset cfg i) (List.replicate cfg.kvJournalSize 0)
  rw [List.length_replicate] at h
  rw [journalAt, h, kvDecodeJournal_zero]

/-! ### What a decoding depends on -/

section Congr

variable {off len n : ℕ} (h : slice img' off len = slice img off len) (hn : len ≤ n)
include h hn

/-- Bytes inside the part on which two images agree. -/
theorem slice_drop_take_congr {w : ℕ} (hk : k + w ≤ len) :
    ((slice img' off n).drop k).take w = ((slice img off n).drop k).take w := by
  rw [slice_drop, slice_drop, slice_take _ _ (by omega), slice_take _ _ (by omega)]
  exact slice_sub h (by omega) (by omega)

/-- A field depends on the bytes it covers only; so for the four widths and for a byte array. -/
theorem kvGetU8_congr (hk : k + 1 ≤ len) :
    kvGetU8 ((slice img' off n).drop k) = kvGetU8 ((slice img off n).drop k) := by
  have hcut : ∀ bs : Bytes, kvGetU8 bs = kvGetU8 (bs.take 1) := by
    intro bs
    cases bs <;> rfl
  rw [hcut, slice_drop_take_congr h hn hk, ← hcut]

theorem kvGetU16_congr (hk : k + 2 ≤ len) :
    kvGetU16 ((slice img' off n).drop k) = kvGetU16 ((slice img off n).drop k) := by
  rw [kvGetU16, slice_drop_take_congr h hn hk, kvGetU16]

theorem kvGetU32_congr (hk : k + 4 ≤ len) :
    kvGetU32 ((slice img' off n).drop k) = kvGetU32 ((slice img off n).drop k) := by
  rw [kvGetU32, slice_drop_take_congr h hn hk, kvGetU32]

theorem kvGetU64_congr (hk : k + 8 ≤ len) :
    kvGetU64 ((slice img' off n).drop k) = kvGetU64 ((slice img off n).drop k) := by
  rw [kvGetU64, slice_drop_take_congr h hn hk, kvGetU64]

theorem ofBytes_congr {w : ℕ} (hk : k + w ≤ len) :
    ByteArr.ofBytes w ((slice img' off n).drop k) = ByteArr.ofBytes w ((slice img off n).drop k) := by
  refine ByteArr.ext ?_
  rw [ByteArr.ofBytes_val (by simp; omega), ByteArr.ofBytes_val (by simp; omega),
    slice_drop_take_congr h hn hk]

/-- A record is read off its wire bytes. -/
theorem kvDecodeRecord_congr (hk : k + cfg.kvRecordWireSize ≤ len) :
    kvDecodeRecord cfg ((slice img' off n).drop k) =
      kvDecodeRecord cfg ((slice img off n).drop k) := by
  have hw : cfg.kvRecordWireSize = 44 + cfg.maxValueLen := rfl
  simp only [kvDecodeRecord, List.drop_drop, kvRecordHeadWireSize]
  rw [kvGetU8_congr h hn (by omega), kvGetU8_congr h hn (k := k + 1) (by omega),
    kvGetU16_congr h hn (by omega), kvGetU32_congr h hn (by omega),
    kvGetU32_congr h hn (k := k + 8) (by omega),
    ofBytes_congr h hn (by simp only [maxKeyLen]; omega), ofBytes_congr h hn (by omega)]

end Congr

/-- A superblock is read off the first 24 bytes of its slot. -/
theorem superblockAt_congr
    (h : slice img' (kvSuperblockOffset i) 24 = slice img (kvSuperblockOffset i) 24) :
    superblockAt img' i = superblockAt img i := by
  have hn : 24 ≤ kvSuperblockSize := by decide
  have h0 := kvGetU32_congr h hn (k := 0) (by omega)
  simp only [List.drop_zero] at h0
  simp only [superblockAt, kvDecodeSuperblock, kvSuperblockCrcOffset]
  rw [h0, kvGetU16_congr h hn (by omega), kvGetU16_congr h hn (k := 6) (by omega),
    kvGetU64_congr h hn (by omega), kvGetU32_congr h hn (by omega),
    kvGetU32_congr h hn (k := 20) (by omega)]

/-- The part of a journal that its CRC covers determines it up to the commit mark. -/
theorem journalAt_unmarked_congr
    (h : slice img' (kvJournalOffset cfg slot) cfg.kvJournalCommitOffset =
      slice img (kvJournalOffset cfg slot) cfg.kvJournalCommitOffset) :
    (journalAt cfg img' slot).unmarked = (journalAt cfg img slot).unmarked := by
  have hn : cfg.kvJournalCommitOffset ≤ cfg.kvJournalSize := by
    unfold KvConfig.kvJournalCommitOffset KvConfig.kvJournalSize journalSize
      KvConfig.kvRecordWireSize
    omega
  -- every field but the commit mark lies before the commit offset
  have hoff : cfg.kvJournalCommitOffset = 36 + cfg.kvRecordWireSize := rfl
  have hw : cfg.kvRecordWireSize = 44 + cfg.maxValueLen := rfl
  have h0 := kvGetU32_congr h hn (k := 0) (by omega)
  simp only [List.drop_zero] at h0
  simp only [journalAt, kvDecodeJournal, KvJournal.unmarked, kvJournalRecordOffset]
  rw [h0, kvGetU16_congr h hn (by omega), kvGetU8_congr h hn (by omega),
    kvGetU8_congr h hn (k := 7) (by omega), kvGetU64_congr h hn (by omega),
    kvGetU64_congr h hn (k := 16) (by omega), kvGetU32_congr h hn (by omega),
    kvGetU32_congr h hn (k := 28) (by omega), kvGetU32_congr h hn (k := 32) (by omega),
    kvDecodeRecord_congr h hn (by omega)]

/-! ### Frames -/

section Frame

variable {off len : ℕ} (h : SameOutside img img' off len)
include h

/-- A write that does not reach a superblock leaves it. -/
theorem superblockAt_frame (hd : kvSuperblockOffset i + kvSuperblockSize ≤ off ∨
    off + len ≤ kvSuperblockOffset i) : superblockAt img' i = superblockAt img i := by
  rw [superblockAt, h.slice_eq hd, superblockAt]

/-- A write that does not reach a record leaves it. -/
theorem recordAt_frame (hd : kvRecordOffset cfg i + cfg.kvRecordWireSize ≤ off ∨
    off + len ≤ kvRecordOffset cfg i) : recordAt cfg img' i = recordAt cfg img i := by
  rw [recordAt, h.slice_eq hd, recordAt]

/-- A write that does not reach a journal leaves it. -/
theorem journalAt_frame (hd : kvJournalOffset cfg i + cfg.kvJournalSize ≤ off ∨
    off + len ≤ kvJournalOffset cfg i) : journalAt cfg img' i = journalAt cfg img i := by
  rw [journalAt, h.slice_eq hd, journalAt]

/-- A write behind the header leaves it. -/
theorem HeaderOk.frame (hok : HeaderOk img) (hd : 6 ≤ off) : HeaderOk img' := by
  rw [HeaderOk, h.slice_eq (Or.inl (by omega))]
  exact hok

end Frame

/-! ### Torn writes -/

/-- `img` is what an unfinished write that turns `old` into `new` may leave: a byte-wise
mixture in which a superblock or a journal with a matching CRC is, as far as the CRC covers
it and with the CRC itself, exactly the old or exactly the new one. -/
structure TornWrite (cfg : KvConfig) (old new img : Image) : Prop where
  mixture : Torn old new img
  superblock : ∀ i < 2, (superblockAt img i).crc32 = kvSuperblockCrc (superblockAt img i) →
    slice img (kvSuperblockOffset i) 24 = slice old (kvSuperblockOffset i) 24 ∨
      slice img (kvSuperblockOffset i) 24 = slice new (kvSuperblockOffset i) 24
  journal : ∀ slot < 2, (journalAt cfg img slot).Sealed →
    slice img (kvJournalOffset cfg slot) cfg.kvJournalCommitOffset =
        slice old (kvJournalOffset cfg slot) cfg.kvJournalCommitOffset ∨
      slice img (kvJournalOffset cfg slot) cfg.kvJournalCommitOffset =
        slice new (kvJournalOffset cfg slot) cfg.kvJournalCommitOffset

/-- A finished write. -/
theorem TornWrite.full (cfg : KvConfig) (old new : Image) : TornWrite cfg old new new where
  mixture := fun _ => Or.inr rfl
  superblock := fun _ _ _ => Or.inr rfl
  journal := fun _ _ _ => Or.inr rfl

/-- A write that did not begin. -/
theorem TornWrite.none (cfg : KvConfig) (old new : Image) : TornWrite cfg old new old where
  mixture := Torn.refl old new
  superblock := fun _ _ _ => Or.inl rfl
  journal := fun _ _ _ => Or.inl rfl

/-- What a torn write of `sb` to superblock slot `i` leaves of a region. -/
structure SbWrite (cfg : KvConfig) (img img' : Image) (i : ℕ) (sb : KvSuperblock) : Prop where
  header : HeaderOk img → sb.magic = kvHeaderMagic → sb.version = kvHeaderVersionV2 → HeaderOk img'
  record : ∀ j < cfg.maxRecords, recordAt cfg img' j = recordAt cfg img j
  journal : ∀ slot < 2, journalAt cfg img' slot = journalAt cfg img slot
  other : ∀ j < 2, j ≠ i → superblockAt img' j = superblockAt img j
  /-- A slot that reads as valid is the old or the new superblock. -/
  here : kvSuperblockIsValid cfg (superblockAt img' i) →
    superblockAt img' i = superblockAt img i ∨ superblockAt img' i = sb

/-- What a torn write to record slot `i` leaves of a region. -/
structure RecordWrite (cfg : KvConfig) (img img' : Image) (i : ℕ) : Prop where
  header : HeaderOk img → HeaderOk img'
  superblock : ∀ j < 2, superblockAt img' j = superblockAt img j
  record : ∀ j < cfg.maxRecords, j ≠ i → recordAt cfg img' j = recordAt cfg img j
  journal : ∀ slot < 2, journalAt cfg img' slot = journalAt cfg img slot

/-- What a torn write of `journal` to journal slot `slot` leaves of a region. -/
structure JournalWrite (cfg : KvConfig) (img img' : Image) (slot : ℕ) (journal : KvJournal cfg) :
    Prop where
  header : HeaderOk img → HeaderOk img'
  superblock : ∀ j < 2, superblockAt img' j = superblockAt img j
  record : ∀ j < cfg.maxRecords, recordAt cfg img' j = recordAt cfg img j
  other : ∀ j < 2, j ≠ slot → journalAt cfg img' j = journalAt cfg img j
  /-- A slot whose CRC matches is the old or the new journal up to the commit mark. -/
  here : (journalAt cfg img' slot).Sealed →
    (journalAt cfg img' slot).unmarked = (journalAt cfg img slot).unmarked ∨
      (journalAt cfg img' slot).unmarked = journal.unmarked

/-- A valid superblock carries its CRC. -/
theorem kvSuperblockIsValid_crc {sb : KvSuperblock} (h : kvSuperblockIsValid cfg sb) :
    sb.crc32 = kvSuperblockCrc sb := by
  simp only [kvSuperblockIsValid, decide_eq_true_eq] at h
  exact h.2.2.2.2

/-- The records stand behind the superblocks. -/
theorem kvDataOffset_le_record (cfg : KvConfig) (i : ℕ) : kvDataOffset ≤ kvRecordOffset cfg i :=
  Nat.le_add_right _ _

/-- So do the journals. -/
theorem kvDataOffset_le_journal (cfg : KvConfig) (slot : ℕ) :
    kvDataOffset ≤ kvJournalOffset cfg slot :=
  (kvDataOffset_le_journals cfg).trans (Nat.le_add_right _ _)

/-- What a torn write of a superblock can change. -/
theorem TornWrite.sbWrite {sb : KvSuperblock} (hi : i < 2)
    (h : TornWrite cfg img (patch img (kvSuperblockOffset i) (kvEncodeSuperblock sb)) img') :
    SbWrite cfg img img' i sb := by
  have hout := h.mixture.sameOutside
  rw [kvEncodeSuperblock_length] at hout
  have hend := kvSuperblockOffset_end_le hi
  refine ⟨?_, ?_, ?_, ?_, ?_⟩
  · intro hok hm hv
    rw [HeaderOk, h.mixture.slice_eq, hok]
    by_cases hi0 : i = 0
    · -- the new superblock starts with the same six bytes
      subst hi0
      rw [hok, kvSuperblockOffset, Nat.zero_mul, slice_patch_take _ _ _ (by simp [kvSuperblockSize]),
        kvEncodeSuperblock, kvSuperblockBody, hm, hv]
      rfl
    · refine (SameOutside.patch _ _ _).slice_eq (Or.inl ?_)
      simp only [kvSuperblockOffset, kvSuperblockSize]
      omega
  · intro j _
    exact recordAt_frame hout (Or.inr (hend.trans (kvDataOffset_le_record cfg j)))
  · intro slot _
    exact journalAt_frame hout (Or.inr (hend.trans (kvDataOffset_le_journal cfg slot)))
  · intro j hj hne
    refine superblockAt_frame hout ?_
    simp only [kvSuperblockOffset, kvSuperblockSize]
    omega
  · intro hvalid
    refine (h.superblock i hi (kvSuperblockIsValid_crc hvalid)).imp superblockAt_congr ?_
    intro hnew
    rw [superblockAt_congr hnew, superblockAt_patch]

/-- What a torn write of a record can change. -/
theorem TornWrite.recordWrite {r : KvRecord cfg} (hi : i < cfg.maxRecords)
    (h : TornWrite cfg img (patch img (kvRecordOffset cfg i) (kvEncodeRecord r)) img') :
    RecordWrite cfg img img' i := by
  have hout := h.mixture.sameOutside
  rw [kvEncodeRecord_length] at hout
  have hstart := kvDataOffset_le_record cfg i
  refine ⟨?_, ?_, ?_, ?_⟩
  · intro hok
    refine HeaderOk.frame hout hok (le_trans ?_ hstart)
    decide
  · -- the two superblocks stand before the record, the journals behind it
    intro j hj
    exact superblockAt_frame hout (Or.inl ((kvSuperblockOffset_end_le hj).trans hstart))
  · intro j _ hne
    -- the other records lie on one side of it or the other
    refine recordAt_frame hout ?_
    rcases Nat.lt_or_gt_of_ne hne with hlt | hgt
    · exact Or.inl (kvRecordOffset_end_le cfg hlt)
    · exact Or.inr (kvRecordOffset_end_le cfg hgt)
  · intro slot _
    refine journalAt_frame hout (Or.inr ((kvRecordOffset_end_le_journals hi).trans ?_))
    exact Nat.le_add_right _ _

/-- A torn write to a journal slot, of whatever bytes that decode to `journal`. -/
theorem TornWrite.journalWrite' {bs : Bytes} {journal : KvJournal cfg}
    (hlen : bs.length = cfg.kvJournalSize)
    (hnew : journalAt cfg (patch img (kvJournalOffset cfg slot) bs) slot = journal)
    (hs : slot < 2) (h : TornWrite cfg img (patch img (kvJournalOffset cfg slot) bs) img') :
    JournalWrite cfg img img' slot journal := by
  have hout := h.mixture.sameOutside
  rw [hlen] at hout
  have hstart := kvDataOffset_le_journal cfg slot
  refine ⟨?_, ?_, ?_, ?_, ?_⟩
  · intro hok
    refine HeaderOk.frame hout hok (le_trans ?_ hstart)
    decide
  · -- superblocks and records stand before the journals
    intro j hj
    exact superblockAt_frame hout (Or.inl ((kvSuperblockOffset_end_le hj).trans hstart))
  · intro j hj
    refine recordAt_frame hout (Or.inl ((kvRecordOffset_end_le_journals hj).trans ?_))
    exact Nat.le_add_right _ _
  · intro j _ hne
    refine journalAt_frame hout ?_
    rcases Nat.lt_or_gt_of_ne hne with hlt | hgt
    · exact Or.inl (kvJournalOffset_end_le_of_lt hlt)
    · exact Or.inr (kvJournalOffset_end_le_of_lt hgt)
  · -- what passes the CRC in a torn journal is one of the two journals that were mixed
    intro hsealed
    refine (h.journal slot hs hsealed).imp journalAt_unmarked_congr ?_
    intro heq
    rw [journalAt_unmarked_congr heq, hnew]

/-- What a torn write of a journal can change. -/
theorem TornWrite.journalWrite {journal : KvJournal cfg} (hs : slot < 2)
    (h : TornWrite cfg img (patch img (kvJournalOffset cfg slot) (kvEncodeJournal journal)) img') :
    JournalWrite cfg img img' slot journal :=
  h.journalWrite' (kvEncodeJournal_length journal) (journalAt_patch img slot journal) hs

/-- What a torn clearing of a journal can change. -/
theorem TornWrite.journalClear (hs : slot < 2)
    (h : TornWrite cfg img
      (patch img (kvJournalOffset cfg slot) (List.replicate cfg.kvJournalSize 0)) img') :
    JournalWrite cfg img img' slot (.zero cfg) :=
  h.journalWrite' List.length_replicate (journalAt_clear img slot) hs

/-! ### Finished writes -/

/-- A superblock that is written whole. -/
theorem SbWrite.of_eq {sb : KvSuperblock} (hi : i < 2)
    (h : img' = patch img (kvSuperblockOffset i) (kvEncodeSuperblock sb)) :
    SbWrite cfg img img' i sb ∧ superblockAt img' i = sb := by
  subst h
  exact ⟨(TornWrite.full cfg _ _).sbWrite hi, superblockAt_patch img i sb⟩

/-- A record that is written whole. -/
theorem RecordWrite.of_eq {r : KvRecord cfg} (hi : i < cfg.maxRecords)
    (h : img' = patch img (kvRecordOffset cfg i) (kvEncodeRecord r)) :
    RecordWrite cfg img img' i ∧ recordAt cfg img' i = r := by
  subst h
  exact ⟨(TornWrite.full cfg _ _).recordWrite hi, recordAt_patch img i r⟩

/-- A journal that is written whole. -/
theorem JournalWrite.of_eq {journal : KvJournal cfg} (hs : slot < 2)
    (h : img' = patch img (kvJournalOffset cfg slot) (kvEncodeJournal journal)) :
    JournalWrite cfg img img' slot journal ∧ journalAt cfg img' slot = journal := by
  subst h
  exact ⟨(TornWrite.full cfg _ _).journalWrite hs, journalAt_patch img slot journal⟩

/-- A journal that is cleared whole. -/
theorem JournalWrite.of_clear (hs : slot < 2)
    (h : img' = patch img (kvJournalOffset cfg slot) (List.replicate cfg.kvJournalSize 0)) :
    JournalWrite cfg img img' slot (.zero cfg) ∧ journalAt cfg img' slot = .zero cfg := by
  subst h
  exact ⟨(TornWrite.full cfg _ _).journalClear hs, journalAt_clear img slot⟩

end TrustSdk.Kv
