import TrustSdk.Lib.ByteStore
import TrustSdk.Common.Errno
import Mathlib.Tactic.Ring

/-!
# The on-disk format of the KV store

A namespace region holds two superblocks, a table of fixed-size records and two journal
slots, each with its own CRC:

* bytes 0–127: two 64-byte superblocks, the newer of which (by `generation`) is current;
* from byte 128: `maxRecords` records, each at a four-byte-aligned stride;
* behind the records: two journal slots, each large enough for one whole record.

This file has the record types, their encodings, the checksums and the validity checks.
The sizes that the build configuration chooses are the fields of `KvConfig`; every
encoding lists the fields in the order of their offsets.
-/

namespace TrustSdk.Kv

open ByteStore

/-! ### Configuration and layout -/

/-- `CONFIG_ACTRUST_KV_MAX_KEY_LEN`, which the source requires to be 32. -/
def maxKeyLen : ℕ := 32

/-- `KV_SUPERBLOCK_SIZE` -/
def kvSuperblockSize : ℕ := 64

/-- `KV_DATA_OFFSET`: the records stand behind the two superblocks. -/
def kvDataOffset : ℕ := kvSuperblockSize * 2

/-- `KV_JOURNAL_SLOTS` -/
def kvJournalSlots : ℕ := 2

/-- `KV_RECORD_HEAD_WIRE_SIZE` -/
def kvRecordHeadWireSize : ℕ := 44

/-- `KV_SUPERBLOCK_CRC_OFFSET` -/
def kvSuperblockCrcOffset : ℕ := 20

/-- `KV_JOURNAL_RECORD_OFFSET` -/
def kvJournalRecordOffset : ℕ := 36

/-- `KV_RECORD_SIZE` for a maximal value length: rounded up to four bytes. -/
def recordSize (maxValueLen : ℕ) : ℕ := (kvRecordHeadWireSize + maxValueLen + 3) / 4 * 4

/-- `KV_JOURNAL_WIRE_SIZE` for a maximal value length. -/
def journalSize (maxValueLen : ℕ) : ℕ :=
  kvJournalRecordOffset + kvRecordHeadWireSize + maxValueLen + 16

/-- A build configuration. The region it describes is addressed by 32-bit offsets. -/
structure KvConfig where
  /-- `CONFIG_ACTRUST_KV_MAX_RECORDS` -/
  maxRecords : ℕ
  /-- `CONFIG_ACTRUST_KV_MAX_VALUE_LEN` -/
  maxValueLen : ℕ
  /-- The region ends below 4 GiB. -/
  fits : kvDataOffset + recordSize maxValueLen * maxRecords +
    journalSize maxValueLen * kvJournalSlots < 2 ^ 32

namespace KvConfig

variable (cfg : KvConfig)

/-- `kv_record_wire_size`: what a record takes without the padding of its stride. -/
def kvRecordWireSize : ℕ := kvRecordHeadWireSize + cfg.maxValueLen

/-- `KV_RECORD_SIZE`, the stride of the table. -/
def kvRecordSize : ℕ := recordSize cfg.maxValueLen

/-- `KV_JOURNAL_SIZE` -/
def kvJournalSize : ℕ := journalSize cfg.maxValueLen

/-- `KV_JOURNAL_COMMIT_OFFSET` -/
def kvJournalCommitOffset : ℕ := kvJournalRecordOffset + cfg.kvRecordWireSize

/-- `KV_JOURNAL_OFFSET` -/
def kvJournalOffsetBase : ℕ := kvDataOffset + cfg.kvRecordSize * cfg.maxRecords

/-- `KV_REGION_SIZE` -/
def kvRegionSize : ℕ := cfg.kvJournalOffsetBase + cfg.kvJournalSize * kvJournalSlots

end KvConfig

/-- `kv_record_offset` -/
def kvRecordOffset (cfg : KvConfig) (index : ℕ) : ℕ := kvDataOffset + cfg.kvRecordSize * index

/-- `kv_journal_offset` -/
def kvJournalOffset (cfg : KvConfig) (index : ℕ) : ℕ :=
  cfg.kvJournalOffsetBase + cfg.kvJournalSize * index

/-- Where a superblock stands. -/
def kvSuperblockOffset (index : ℕ) : ℕ := index * kvSuperblockSize

/-! ### Constants -/

/-- `KV_RECORD_NOT_USED` -/
def kvRecordNotUsed : UInt8 := 0x00

/-- `KV_RECORD_IN_USE` -/
def kvRecordInUse : UInt8 := 0x01

/-- `KV_HEADER_MAGIC` -/
def kvHeaderMagic : UInt32 := 0x41435452

/-- `KV_HEADER_VERSION_V1`, of the format before the superblocks. -/
def kvHeaderVersionV1 : UInt16 := 0x0001

/-- `KV_HEADER_VERSION_V2` -/
def kvHeaderVersionV2 : UInt16 := 0x0002

/-- `KV_LAYOUT_VERSION_V2` -/
def kvLayoutVersionV2 : UInt16 := 0x0001

/-- `KV_JOURNAL_MAGIC` -/
def kvJournalMagic : UInt32 := 0x4A4E4C32

/-- `KV_JOURNAL_VERSION` -/
def kvJournalVersion : UInt16 := 1

/-- `KV_JOURNAL_PREPARED`: the record of the journal is to be written, or has been. -/
def kvJournalPrepared : UInt8 := 1

/-- `KV_JOURNAL_COMMITTED`: the journal has been carried out. -/
def kvJournalCommitted : UInt8 := 2

/-- `KV_JOURNAL_COMMIT_MAGIC` -/
def kvJournalCommitMagic : UInt32 := 0x434F4D32

/-- `KV_OP_SET` -/
def kvOpSet : UInt8 := 1

/-- `KV_OP_DELETE` -/
def kvOpDelete : UInt8 := 2

/-- `KV_OP_FORMAT` -/
def kvOpFormat : UInt8 := 3

/-! ### Data types -/

/-- `kv_record_head_t` -/
structure KvRecordHead where
  used : UInt8
  keyLen : UInt8
  reserved : UInt16
  crc32 : UInt32
  valueLen : UInt32
  key : ByteArr maxKeyLen
  deriving DecidableEq

/-- `kv_record_t` -/
structure KvRecord (cfg : KvConfig) where
  head : KvRecordHead
  value : ByteArr cfg.maxValueLen
  deriving DecidableEq

/-- The `reserved` tail of a superblock is written as zeros and never read. -/
structure KvSuperblock where
  magic : UInt32
  version : UInt16
  layout : UInt16
  generation : UInt64
  recordCount : UInt32
  crc32 : UInt32
  deriving DecidableEq

/-- `kv_journal_t`. The last three fields are the commit mark. -/
structure KvJournal (cfg : KvConfig) where
  magic : UInt32
  version : UInt16
  state : UInt8
  operation : UInt8
  generation : UInt64
  baseGeneration : UInt64
  recordIndex : UInt32
  recordCount : UInt32
  crc32 : UInt32
  record : KvRecord cfg
  commitMagic : UInt32
  commitGeneration : UInt64
  commitCrc32 : UInt32
  deriving DecidableEq

/-- The record of a `memset` to zero. -/
def KvRecord.zero (cfg : KvConfig) : KvRecord cfg where
  head :=
    { used := 0, keyLen := 0, reserved := 0, crc32 := 0, valueLen := 0, key := .zero maxKeyLen }
  value := .zero cfg.maxValueLen

/-- The journal of a `memset` to zero. -/
def KvJournal.zero (cfg : KvConfig) : KvJournal cfg where
  magic := 0
  version := 0
  state := 0
  operation := 0
  generation := 0
  baseGeneration := 0
  recordIndex := 0
  recordCount := 0
  crc32 := 0
  record := .zero cfg
  commitMagic := 0
  commitGeneration := 0
  commitCrc32 := 0

/-! ### Checksums -/

/-- One bit of the CRC-32 loop. -/
def kvCrc32Bit (crc : UInt32) : UInt32 :=
  if crc &&& 1 = 1 then (crc >>> 1) ^^^ 0xEDB88320 else crc >>> 1

/-- One byte of the CRC-32 loop. -/
def kvCrc32Byte (crc : UInt32) (b : UInt8) : UInt32 :=
  Nat.repeat kvCrc32Bit 8 (crc ^^^ b.toUInt32)

/-- `kv_crc32_update` -/
def kvCrc32Update (crc : UInt32) (data : Bytes) : UInt32 := data.foldl kvCrc32Byte crc

/-- `kv_crc32` -/
def kvCrc32 (data : Bytes) : UInt32 := ~~~ kvCrc32Update 0xFFFFFFFF data

/-! ### Encodings -/

/-- `kv_put_u16`, little-endian as the next two. -/
def kvPutU16 (v : UInt16) : Bytes := leBytes 2 v.toNat

/-- `kv_put_u32` -/
def kvPutU32 (v : UInt32) : Bytes := leBytes 4 v.toNat

/-- `kv_put_u64` -/
def kvPutU64 (v : UInt64) : Bytes := leBytes 8 v.toNat

/-- A field of one byte. -/
def kvGetU8 (bs : Bytes) : UInt8 := bs.getD 0 0

/-- `kv_get_u16` -/
def kvGetU16 (bs : Bytes) : UInt16 := .ofNat (leNat (bs.take 2))

/-- `kv_get_u32` -/
def kvGetU32 (bs : Bytes) : UInt32 := .ofNat (leNat (bs.take 4))

/-- `kv_get_u64` -/
def kvGetU64 (bs : Bytes) : UInt64 := .ofNat (leNat (bs.take 8))

variable {cfg : KvConfig}

/-- `kv_encode_record` -/
def kvEncodeRecord (record : KvRecord cfg) : Bytes :=
  record.head.used :: record.head.keyLen ::
    (kvPutU16 record.head.reserved ++ (kvPutU32 record.head.crc32 ++
      (kvPutU32 record.head.valueLen ++ (record.head.key.1 ++ record.value.1))))

/-- `kv_decode_record` -/
def kvDecodeRecord (cfg : KvConfig) (bs : Bytes) : KvRecord cfg where
  head :=
    { used := kvGetU8 bs
      keyLen := kvGetU8 (bs.drop 1)
      reserved := kvGetU16 (bs.drop 2)
      crc32 := kvGetU32 (bs.drop 4)
      valueLen := kvGetU32 (bs.drop 8)
      key := .ofBytes maxKeyLen (bs.drop 12) }
  value := .ofBytes cfg.maxValueLen (bs.drop kvRecordHeadWireSize)

/-- The CRC of a record covers the head, with the CRC field taken as zero, and the bytes of
the value that are in use. -/
def kvRecordCrc (record : KvRecord cfg) : UInt32 :=
  kvCrc32 ((kvEncodeRecord { record with head := { record.head with crc32 := 0 } }).take
    (kvRecordHeadWireSize + record.head.valueLen.toNat))

/-- The first 20 bytes of a superblock, which its CRC covers. -/
def kvSuperblockBody (sb : KvSuperblock) : Bytes :=
  kvPutU32 sb.magic ++ (kvPutU16 sb.version ++ (kvPutU16 sb.layout ++
    (kvPutU64 sb.generation ++ kvPutU32 sb.recordCount)))

/-- `kv_superblock_crc` -/
def kvSuperblockCrc (sb : KvSuperblock) : UInt32 := kvCrc32 (kvSuperblockBody sb)

/-- `kv_encode_superblock`, with its forty reserved bytes. -/
def kvEncodeSuperblock (sb : KvSuperblock) : Bytes :=
  kvSuperblockBody sb ++ (kvPutU32 sb.crc32 ++ List.replicate 40 0)

/-- `kv_decode_superblock` -/
def kvDecodeSuperblock (bs : Bytes) : KvSuperblock where
  magic := kvGetU32 bs
  version := kvGetU16 (bs.drop 4)
  layout := kvGetU16 (bs.drop 6)
  generation := kvGetU64 (bs.drop 8)
  recordCount := kvGetU32 (bs.drop 16)
  crc32 := kvGetU32 (bs.drop kvSuperblockCrcOffset)

/-- A journal up to its commit mark. -/
def kvJournalBody (journal : KvJournal cfg) : Bytes :=
  kvPutU32 journal.magic ++ (kvPutU16 journal.version ++ (journal.state :: journal.operation ::
    (kvPutU64 journal.generation ++ (kvPutU64 journal.baseGeneration ++
      (kvPutU32 journal.recordIndex ++ (kvPutU32 journal.recordCount ++
        (kvPutU32 journal.crc32 ++ kvEncodeRecord journal.record)))))))

/-- The CRC of a journal covers everything up to the commit mark, with the CRC field taken
as zero. -/
def kvJournalCrc (journal : KvJournal cfg) : UInt32 :=
  kvCrc32 (kvJournalBody { journal with crc32 := 0 })

/-- The commit mark, up to its CRC. -/
def kvEncodeCommit (journal : KvJournal cfg) : Bytes :=
  kvPutU32 journal.commitMagic ++ kvPutU64 journal.commitGeneration

/-- `kv_commit_crc` -/
def kvCommitCrc (journal : KvJournal cfg) : UInt32 := kvCrc32 (kvEncodeCommit journal)

/-- `kv_encode_journal` -/
def kvEncodeJournal (journal : KvJournal cfg) : Bytes :=
  kvJournalBody journal ++ (kvEncodeCommit journal ++ kvPutU32 journal.commitCrc32)

/-- `kv_decode_journal` -/
def kvDecodeJournal (cfg : KvConfig) (bs : Bytes) : KvJournal cfg where
  magic := kvGetU32 bs
  version := kvGetU16 (bs.drop 4)
  state := kvGetU8 (bs.drop 6)
  operation := kvGetU8 (bs.drop 7)
  generation := kvGetU64 (bs.drop 8)
  baseGeneration := kvGetU64 (bs.drop 16)
  recordIndex := kvGetU32 (bs.drop 24)
  recordCount := kvGetU32 (bs.drop 28)
  crc32 := kvGetU32 (bs.drop 32)
  record := kvDecodeRecord cfg (bs.drop kvJournalRecordOffset)
  commitMagic := kvGetU32 (bs.drop cfg.kvJournalCommitOffset)
  commitGeneration := kvGetU64 (bs.drop (cfg.kvJournalCommitOffset + 4))
  commitCrc32 := kvGetU32 (bs.drop (cfg.kvJournalCommitOffset + 12))

/-! ### Validity -/

/-- `kv_record_is_valid`: a slot that is not in use is valid whatever else it holds. -/
def kvRecordIsValid (record : KvRecord cfg) : Bool :=
  if record.head.used = kvRecordNotUsed then true
  else if record.head.used ≠ kvRecordInUse ∨ record.head.keyLen = 0 ∨
      maxKeyLen < record.head.keyLen.toNat ∨ cfg.maxValueLen < record.head.valueLen.toNat then
    false
  else record.head.crc32 = kvRecordCrc record

/-- `kv_superblock_is_valid` -/
def kvSuperblockIsValid (cfg : KvConfig) (sb : KvSuperblock) : Bool :=
  sb.magic = kvHeaderMagic ∧ sb.version = kvHeaderVersionV2 ∧ sb.layout = kvLayoutVersionV2 ∧
    sb.recordCount.toNat ≤ cfg.maxRecords ∧ sb.crc32 = kvSuperblockCrc sb

/-- `kv_journal_is_zero` -/
def kvJournalIsZero (journal : KvJournal cfg) : Bool := journal = .zero cfg

/-- `kv_journal_is_valid` -/
def kvJournalIsValid (journal : KvJournal cfg) : Bool :=
  if journal.magic ≠ kvJournalMagic ∨ journal.version ≠ kvJournalVersion ∨
      (journal.state ≠ kvJournalPrepared ∧ journal.state ≠ kvJournalCommitted) ∨
      journal.operation < kvOpSet ∨ kvOpFormat < journal.operation ∨ journal.generation = 0 ∨
      journal.crc32 ≠ kvJournalCrc journal then false
  -- a format journal has neither an index nor a record to be checked
  else if journal.operation ≠ kvOpFormat ∧ cfg.maxRecords ≤ journal.recordIndex.toNat then false
  else if journal.operation ≠ kvOpFormat ∧ ¬ kvRecordIsValid journal.record then false
  -- only a COMMITTED journal needs its commit mark
  else if journal.state = kvJournalCommitted ∧ (journal.commitMagic ≠ kvJournalCommitMagic ∨
      journal.commitGeneration ≠ journal.generation ∨
      journal.commitCrc32 ≠ kvCommitCrc journal) then false
  else true

/-- `kv_make_superblock` -/
def kvMakeSuperblock (generation : UInt64) (recordCount : UInt32) : KvSuperblock :=
  let sb : KvSuperblock :=
    { magic := kvHeaderMagic, version := kvHeaderVersionV2, layout := kvLayoutVersionV2
      generation, recordCount, crc32 := 0 }
  -- the CRC does not cover its own field
  { sb with crc32 := kvSuperblockCrc sb }

/-! ### Lengths -/

@[simp] theorem kvPutU16_length (v : UInt16) : (kvPutU16 v).length = 2 := leBytes_length _ _
@[simp] theorem kvPutU32_length (v : UInt32) : (kvPutU32 v).length = 4 := leBytes_length _ _
@[simp] theorem kvPutU64_length (v : UInt64) : (kvPutU64 v).length = 8 := leBytes_length _ _

/-- A record is as long as the configuration says, whatever it holds, -/
@[simp] theorem kvEncodeRecord_length (r : KvRecord cfg) :
    (kvEncodeRecord r).length = cfg.kvRecordWireSize := by
  simp only [kvEncodeRecord, List.length_cons, List.length_append, kvPutU16_length,
    kvPutU32_length, ByteArr.length_val, maxKeyLen, KvConfig.kvRecordWireSize,
    kvRecordHeadWireSize]
  omega

@[simp] theorem kvSuperblockBody_length (sb : KvSuperblock) : (kvSuperblockBody sb).length = 20 := by
  simp [kvSuperblockBody]

/-- and so are a superblock -/
@[simp] theorem kvEncodeSuperblock_length (sb : KvSuperblock) :
    (kvEncodeSuperblock sb).length = kvSuperblockSize := by
  simp [kvEncodeSuperblock, kvSuperblockSize]

/-- and a journal, up to its commit mark -/
@[simp] theorem kvJournalBody_length (j : KvJournal cfg) :
    (kvJournalBody j).length = cfg.kvJournalCommitOffset := by
  simp only [kvJournalBody, List.length_cons, List.length_append, kvPutU16_length,
    kvPutU32_length, kvPutU64_length, kvEncodeRecord_length, KvConfig.kvJournalCommitOffset,
    kvJournalRecordOffset]
  omega

/-- and with it. -/
@[simp] theorem kvEncodeJournal_length (j : KvJournal cfg) :
    (kvEncodeJournal j).length = cfg.kvJournalSize := by
  simp only [kvEncodeJournal, kvEncodeCommit, List.length_append, kvJournalBody_length,
    kvPutU32_length, kvPutU64_length, KvConfig.kvJournalCommitOffset, KvConfig.kvRecordWireSize,
    KvConfig.kvJournalSize, journalSize]
  omega

/-! ### Round trips -/

@[simp] theorem kvGetU8_cons (b : UInt8) (bs : Bytes) : kvGetU8 (b :: bs) = b := rfl

/-- What was put is got back, with more bytes behind it. -/
@[simp] theorem kvGetU16_append (v : UInt16) (bs : Bytes) : kvGetU16 (kvPutU16 v ++ bs) = v := by
  rw [kvGetU16, kvPutU16, leNat_leBytes_append v.toNat_lt, UInt16.ofNat_toNat]

@[simp] theorem kvGetU32_append (v : UInt32) (bs : Bytes) : kvGetU32 (kvPutU32 v ++ bs) = v := by
  rw [kvGetU32, kvPutU32, leNat_leBytes_append v.toNat_lt, UInt32.ofNat_toNat]

@[simp] theorem kvGetU64_append (v : UInt64) (bs : Bytes) : kvGetU64 (kvPutU64 v ++ bs) = v := by
  rw [kvGetU64, kvPutU64, leNat_leBytes_append v.toNat_lt, UInt64.ofNat_toNat]

@[simp] theorem kvGetU32_put (v : UInt32) : kvGetU32 (kvPutU32 v) = v := by
  simpa using kvGetU32_append v []

/-- Skipping a field of known width. -/
theorem drop_field {xs : Bytes} {w n : ℕ} (hw : xs.length = w) (h : w ≤ n) (ys : Bytes) :
    (xs ++ ys).drop n = ys.drop (n - w) := by
  rw [List.drop_append, List.drop_eq_nil_of_le (by omega), List.nil_append, hw]

/-- **Round trip of a record**, with whatever stands behind it in the region. -/
theorem kvDecodeRecord_encode (r : KvRecord cfg) (bs : Bytes) :
    kvDecodeRecord cfg (kvEncodeRecord r ++ bs) = r := by
  obtain ⟨⟨used, keyLen, reserved, crc32, valueLen, key⟩, value⟩ := r
  -- every field has a fixed width, so each `drop` passes whole fields
  have hkey : key.1.length = 32 := key.length_val
  simp [kvDecodeRecord, kvEncodeRecord, kvRecordHeadWireSize, List.append_assoc,
    drop_field (kvPutU16_length _), drop_field (kvPutU32_length _), drop_field hkey,
    ByteArr.ofBytes_append]

/-- **Round trip of a superblock.** -/
theorem kvDecodeSuperblock_encode (sb : KvSuperblock) (bs : Bytes) :
    kvDecodeSuperblock (kvEncodeSuperblock sb ++ bs) = sb := by
  simp [kvDecodeSuperblock, kvEncodeSuperblock, kvSuperblockBody, kvSuperblockCrcOffset,
    List.append_assoc, drop_field (kvPutU16_length _), drop_field (kvPutU32_length _),
    drop_field (kvPutU64_length _)]

/-- **Round trip of a journal.** -/
theorem kvDecodeJournal_encode (j : KvJournal cfg) (bs : Bytes) :
    kvDecodeJournal cfg (kvEncodeJournal j ++ bs) = j := by
  -- the three fields of the commit mark lie behind a body whose length depends on the configuration
  have hbody : ∀ k, (kvEncodeJournal j ++ bs).drop (cfg.kvJournalCommitOffset + k) =
      (kvEncodeCommit j ++ kvPutU32 j.commitCrc32 ++ bs).drop k := by
    intro k
    rw [kvEncodeJournal, List.append_assoc,
      drop_field (kvJournalBody_length j) (Nat.le_add_right _ _), Nat.add_sub_cancel_left]
  have h0 := hbody 0
  rw [Nat.add_zero, List.drop_zero] at h0
  simp only [kvDecodeJournal, h0, hbody]
  simp [kvEncodeJournal, kvJournalBody, kvEncodeCommit, kvJournalRecordOffset, List.append_assoc,
    drop_field (kvPutU16_length _), drop_field (kvPutU32_length _),
    drop_field (kvPutU64_length _), kvDecodeRecord_encode]

/-! ### Round trips from the bytes -/

/-- What was got is put back as the bytes it was read from. -/
theorem kvPutU16_get {bs : Bytes} (h : 2 ≤ bs.length) : kvPutU16 (kvGetU16 bs) = bs.take 2 := by
  rw [kvPutU16, kvGetU16, UInt16.toNat_ofNat']
  exact leBytes_leNat_take h

theorem kvPutU32_get {bs : Bytes} (h : 4 ≤ bs.length) : kvPutU32 (kvGetU32 bs) = bs.take 4 := by
  rw [kvPutU32, kvGetU32, UInt32.toNat_ofNat']
  exact leBytes_leNat_take h

theorem kvPutU64_get {bs : Bytes} (h : 8 ≤ bs.length) : kvPutU64 (kvGetU64 bs) = bs.take 8 := by
  rw [kvPutU64, kvGetU64, UInt64.toNat_ofNat']
  exact leBytes_leNat_take h

/-- The same for a field of one byte. -/
theorem kvGetU8_cons_eq {bs : Bytes} (h : 1 ≤ bs.length) (rest : Bytes) :
    kvGetU8 bs :: rest = bs.take 1 ++ rest := by
  cases bs with
  | nil => exact absurd h (by simp)
  | cons b bs => rfl

/-- Every byte of a record belongs to a field. -/
theorem kvEncodeRecord_decode {bs : Bytes} (h : cfg.kvRecordWireSize ≤ bs.length) :
    kvEncodeRecord (kvDecodeRecord cfg bs) = bs.take cfg.kvRecordWireSize := by
  -- the widths of the fields, so that `take` can be split along them
  have hw : cfg.kvRecordWireSize = 1 + (1 + (2 + (4 + (4 + (32 + cfg.maxValueLen))))) := by
    unfold KvConfig.kvRecordWireSize kvRecordHeadWireSize
    omega
  have hd : ∀ k, (bs.drop k).length = bs.length - k := fun k => List.length_drop
  have hkey : (ByteArr.ofBytes 32 (bs.drop 12)).1 = (bs.drop 12).take 32 :=
    ByteArr.ofBytes_val (by rw [hd]; omega)
  have hval : (ByteArr.ofBytes cfg.maxValueLen (bs.drop 44)).1 =
      (bs.drop 44).take cfg.maxValueLen :=
    ByteArr.ofBytes_val (by rw [hd]; omega)
  simp only [kvEncodeRecord, kvDecodeRecord, maxKeyLen, kvRecordHeadWireSize, hval, hkey]
  -- each side condition says that the field still lies within the bytes
  rw [kvGetU8_cons_eq (by omega), kvGetU8_cons_eq (by rw [hd]; omega),
    kvPutU16_get (by rw [hd]; omega), kvPutU32_get (by rw [hd]; omega),
    kvPutU32_get (by rw [hd]; omega), hw]
  simp only [List.take_add]
  simp only [List.drop_drop, Nat.reduceAdd]

/-- Every byte of a journal slot belongs to a field. -/
theorem kvEncodeJournal_decode {bs : Bytes} (h : bs.length = cfg.kvJournalSize) :
    kvEncodeJournal (kvDecodeJournal cfg bs) = bs := by
  have hw : cfg.kvJournalSize = 4 + (2 + (1 + (1 + (8 + (8 + (4 + (4 + (4 +
      (cfg.kvRecordWireSize + (4 + (8 + 4))))))))))) := by
    unfold KvConfig.kvJournalSize KvConfig.kvRecordWireSize journalSize kvJournalRecordOffset
    omega
  have hc : cfg.kvJournalCommitOffset = 36 + cfg.kvRecordWireSize := rfl
  have hfull : bs = bs.take cfg.kvJournalSize := (List.take_of_length_le (by omega)).symm
  have hd : ∀ k, (bs.drop k).length = bs.length - k := fun k => List.length_drop
  simp only [kvEncodeJournal, kvJournalBody, kvEncodeCommit, kvDecodeJournal, kvJournalRecordOffset,
    hc]
  rw [kvPutU32_get (by omega), kvPutU16_get (by rw [hd]; omega), kvGetU8_cons_eq (by rw [hd]; omega),
    kvGetU8_cons_eq (by rw [hd]; omega), kvPutU64_get (by rw [hd]; omega),
    kvPutU64_get (by rw [hd]; omega), kvPutU32_get (by rw [hd]; omega),
    kvPutU32_get (by rw [hd]; omega), kvPutU32_get (by rw [hd]; omega),
    kvEncodeRecord_decode (by rw [hd]; omega), kvPutU32_get (by rw [hd]; omega),
    kvPutU64_get (by rw [hd]; omega), kvPutU32_get (by rw [hd]; omega)]
  -- only the right side is split: the fields stand on the left one by one already
  conv_rhs => rw [hfull, hw]
  simp only [List.take_add]
  simp only [List.drop_drop, Nat.reduceAdd, List.append_assoc, Nat.add_assoc]

end TrustSdk.Kv
