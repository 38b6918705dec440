import TrustSdk.Lib.CrashLogic
import TrustSdk.Kv.Format

/-!
# The KV store

The functions of the store as programs over the storage adapter: the journaled
transaction, the recovery that runs before every operation, formatting, and the public
calls. A loop over the record slots is a recursion on the number of slots still to visit;
a status that a caller inspects instead of passing on is taken with `attempt`.
-/

namespace TrustSdk.Kv

open ByteStore CrashLogic

/-- `KV_ERR(reason)` -/
def kvErr (reason : ErrCode) : Err := ⟨.kv, reason⟩

/-! ### The adapter calls -/

/-- `actrust_storage_get_capacity` -/
def actrustStorageGetCapacity : Io Err ℕ := .capacity .done

/-- `actrust_storage_read` -/
def actrustStorageRead (offset len : ℕ) : Io Err Bytes := .read offset len .done

/-- `actrust_storage_write` -/
def actrustStorageWrite (offset : ℕ) (bs : Bytes) : Io Err Unit := .write offset bs .done

/-- `actrust_storage_sync` -/
def actrustStorageSync : Io Err Unit := .sync .done

/-- Erasing fills the range with zeros. -/
def actrustStorageErase (offset len : ℕ) : Io Err Unit :=
  .write offset (List.replicate len 0) .done

/-- `kv_lock` -/
def kvLock : Io Err Unit := .lock .done

/-- `kv_unlock` -/
def kvUnlock : Io Err Unit := .unlock .done

/-! ### Records, superblocks and journals on storage -/

variable (cfg : KvConfig)

/-- `kv_read_record` -/
def kvReadRecord (index : ℕ) : Io Err (KvRecord cfg) := do
  let bs ← actrustStorageRead (kvRecordOffset cfg index) cfg.kvRecordWireSize
  pure (kvDecodeRecord cfg bs)

variable {cfg} in
/-- `kv_write_record`; the padding behind the record is left alone. -/
def kvWriteRecord (index : ℕ) (record : KvRecord cfg) : Io Err Unit :=
  actrustStorageWrite (kvRecordOffset cfg index) (kvEncodeRecord record)

/-- `kv_read_superblock` -/
def kvReadSuperblock (index : ℕ) : Io Err KvSuperblock := do
  let bs ← actrustStorageRead (kvSuperblockOffset index) kvSuperblockSize
  pure (kvDecodeSuperblock bs)

/-- `kv_write_superblock` -/
def kvWriteSuperblock (index : ℕ) (sb : KvSuperblock) : Io Err Unit :=
  actrustStorageWrite (kvSuperblockOffset index) (kvEncodeSuperblock sb)

/-- `kv_read_journal` -/
def kvReadJournal (index : ℕ) : Io Err (KvJournal cfg) := do
  let bs ← actrustStorageRead (kvJournalOffset cfg index) cfg.kvJournalSize
  pure (kvDecodeJournal cfg bs)

variable {cfg} in
/-- `kv_write_journal` -/
def kvWriteJournal (index : ℕ) (journal : KvJournal cfg) : Io Err Unit :=
  actrustStorageWrite (kvJournalOffset cfg index) (kvEncodeJournal journal)

/-- `kv_clear_journal` -/
def kvClearJournal (index : ℕ) : Io Err Unit :=
  actrustStorageErase (kvJournalOffset cfg index) cfg.kvJournalSize

/-! ### Recovery -/

/-- The superblock in use out of the two: the newer valid one, the first on a tie. -/
def kvNewerSuperblock (sb0 sb1 : KvSuperblock) : Option (KvSuperblock × ℕ) :=
  if ¬ kvSuperblockIsValid cfg sb0 ∧ ¬ kvSuperblockIsValid cfg sb1 then none
  else if kvSuperblockIsValid cfg sb1 ∧
      (¬ kvSuperblockIsValid cfg sb0 ∨ sb0.generation < sb1.generation) then some (sb1, 1)
  else some (sb0, 0)

/-- `kv_select_superblock` -/
def kvSelectSuperblock : Io Err (KvSuperblock × ℕ) := do
  let sb0 ← kvReadSuperblock 0
  let sb1 ← kvReadSuperblock 1
  match kvNewerSuperblock cfg sb0 sb1 with
  | none => Io.fail (kvErr .noResource)
  | some selected => pure selected

/-- The record loop of `kvValidateRecords`: `n` slots to visit from slot `i` on. -/
def kvCountRecords : (n i : ℕ) → (count : UInt32) → Io Err UInt32
  | 0, _, count => pure count
  | n + 1, i, count => do
    match ← (kvReadRecord cfg i).attempt with
    | .error _ => Io.fail (kvErr .io)
    | .ok record =>
      if ¬ kvRecordIsValid record then Io.fail (kvErr .io)
      else
        kvCountRecords n (i + 1) (if record.head.used = kvRecordInUse then count + 1 else count)

/-- `kv_validate_records` -/
def kvValidateRecords (expectedCount : UInt32) : Io Err Unit := do
  let count ← kvCountRecords cfg cfg.maxRecords 0 0
  if count = expectedCount then pure () else Io.fail (kvErr .io)

variable {cfg} in
/-- `kv_complete_format` -/
def kvCompleteFormat (journal : KvJournal cfg) : Io Err Unit :=
  if journal.baseGeneration ≠ 0 ∨ journal.generation = 0 then Io.fail (kvErr .io)
  else do
    -- everything in front of the journals
    actrustStorageErase 0 cfg.kvJournalOffsetBase
    kvWriteSuperblock 0 (kvMakeSuperblock journal.generation 0)
    kvWriteSuperblock 1 (kvMakeSuperblock journal.generation 0)
    actrustStorageSync

/-- The superblock in use, if there is one; other failures end the recovery. -/
def kvCurrentSuperblock : Io Err (Option (KvSuperblock × ℕ)) := do
  match ← (kvSelectSuperblock cfg).attempt with
  | .ok current => pure (some current)
  | .error e => if e.code = .noResource then pure none else Io.fail e

/-- One turn of the journal loop of `kvRecover`: the journal, when it is valid. Without a
superblock a journal that is neither empty nor valid ends the recovery. -/
def kvScanJournal (noSuperblock : Bool) (index : ℕ) : Io Err (Option (KvJournal cfg)) := do
  let journal ← kvReadJournal cfg index
  if kvJournalIsZero journal then pure none
  else if ¬ kvJournalIsValid journal then
    if noSuperblock then Io.fail (kvErr .io) else pure none
  else pure (some journal)

variable {cfg} in
/-- The newest valid journal and its slot, the first on a tie. -/
def kvNewestJournal : Option (KvJournal cfg) → Option (KvJournal cfg) → Option (ℕ × KvJournal cfg)
  | none, none => none
  | some journal0, none => some (0, journal0)
  | none, some journal1 => some (1, journal1)
  | some journal0, some journal1 =>
      if journal0.generation < journal1.generation then some (1, journal1) else some (0, journal0)

variable {cfg} in
/-- Finish the transaction of a journal that is ahead of the superblock. -/
def kvReplay (currentIndex slot : ℕ) (journal : KvJournal cfg) : Io Err Unit := do
  kvWriteRecord journal.recordIndex.toNat journal.record
  kvWriteSuperblock ((currentIndex + 1) % 2)
    (kvMakeSuperblock journal.generation journal.recordCount)
  actrustStorageSync
  kvClearJournal cfg slot

variable {cfg} in
/-- Recovery without a superblock: an unfinished format can be completed, nothing else. -/
def kvRecoverFormat : Option (ℕ × KvJournal cfg) → Io Err Unit
  | none => Io.fail (kvErr .noResource)
  | some (slot, journal) =>
    if journal.operation ≠ kvOpFormat then Io.fail (kvErr .io)
    else do
      kvCompleteFormat journal
      kvClearJournal cfg slot

variable {cfg} in
/-- Recovery under the superblock `sb` of slot `index`. -/
def kvRecoverFrom (sb : KvSuperblock) (index : ℕ) : Option (ℕ × KvJournal cfg) → Io Err Unit
  | none => kvValidateRecords cfg sb.recordCount
  | some (slot, journal) =>
    if journal.generation ≤ sb.generation then kvClearJournal cfg slot
    else if journal.baseGeneration ≠ sb.generation ∨ journal.operation = kvOpFormat then
      Io.fail (kvErr .io)
    else kvReplay index slot journal

/-- `kv_recover` -/
def kvRecover : Io Err Unit := do
  let current ← kvCurrentSuperblock cfg
  let journal0 ← kvScanJournal cfg current.isNone 0
  let journal1 ← kvScanJournal cfg current.isNone 1
  match current with
  | none => kvRecoverFormat (kvNewestJournal journal0 journal1)
  | some (sb, index) => kvRecoverFrom sb index (kvNewestJournal journal0 journal1)

/-! ### Formatting and preparing a region -/

/-- The chunk loop of `kvStorageIsZero`: `chunks` reads of up to 256 bytes from `offset` on. -/
def kvChunksAreZero (len : ℕ) : (chunks offset : ℕ) → Io Err Bool
  | 0, _ => pure true
  | n + 1, offset => do
    match ← (actrustStorageRead offset (min 256 (len - offset))).attempt with
    | .error _ => pure false
    | .ok bs =>
      if bs = List.replicate bs.length 0 then
        kvChunksAreZero len n (offset + min 256 (len - offset))
      else pure false

/-- `kv_storage_is_zero` -/
def kvStorageIsZero (len : ℕ) : Io Err Bool := kvChunksAreZero len ((len + 255) / 256) 0

/-- The journal of a format transaction. -/
def kvFormatJournal : KvJournal cfg :=
  -- the record and the indices stay zero
  let journal : KvJournal cfg :=
    { KvJournal.zero cfg with
      magic := kvJournalMagic, version := kvJournalVersion, state := kvJournalPrepared
      operation := kvOpFormat, generation := 1, baseGeneration := 0 }
  { journal with crc32 := kvJournalCrc journal }

variable {cfg} in
/-- The journal with the commit mark put in. -/
def kvCommitJournal (journal : KvJournal cfg) : KvJournal cfg :=
  let marked : KvJournal cfg :=
    { journal with
      state := kvJournalCommitted
      commitMagic := kvJournalCommitMagic
      commitGeneration := journal.generation }
  let sealed : KvJournal cfg := { marked with commitCrc32 := kvCommitCrc marked }
  -- the journal CRC covers the new state, so it is computed once more
  { sealed with crc32 := kvJournalCrc sealed }

/-- The second half of `kv_prepare_storage`, for a region that is all zero. -/
def kvFormat : Io Err Unit := do
  kvWriteJournal 0 (kvFormatJournal cfg)
  actrustStorageSync
  kvCompleteFormat (kvFormatJournal cfg)
  kvWriteJournal 0 (kvCommitJournal (kvFormatJournal cfg))
  actrustStorageSync
  kvClearJournal cfg 0

/-- `kv_prepare_storage` -/
def kvPrepareStorage : Io Err Unit := do
  let capacity ← actrustStorageGetCapacity
  if capacity < cfg.kvRegionSize then Io.fail (kvErr .unsupported)
  else
    -- the header is looked at before any journal: an old format is refused at once
    let header ← actrustStorageRead 0 12
    if kvGetU32 header = kvHeaderMagic ∧ kvGetU16 (header.drop 4) = kvHeaderVersionV1 then
      Io.fail (kvErr .unsupported)
    else if kvGetU32 header = kvHeaderMagic ∧ kvGetU16 (header.drop 4) = kvHeaderVersionV2 then
      kvRecover cfg
    -- a region that is neither empty nor ours
    else if header ≠ List.replicate 12 0 then Io.fail (kvErr .io)
    else
      -- an interrupted format has left zeros in front and its journal behind
      match ← (kvRecover cfg).attempt with
      | .ok _ => pure ()
      | .error e =>
        if e.code ≠ .noResource then Io.fail e
        else
          if ← kvStorageIsZero cfg.kvRegionSize then kvFormat cfg else Io.fail (kvErr .io)

/-- `kv_load_current`: every call recovers first. -/
def kvLoadCurrent : Io Err (KvSuperblock × ℕ) := do
  kvRecover cfg
  kvSelectSuperblock cfg

/-! ### Searching the record table -/

/-- The record loop of `kvFindRecord`. -/
def kvScanRecords (key : Bytes) :
    (n i : ℕ) → (found : Option ℕ) → (count : UInt32) → Io Err (Option ℕ × UInt32)
  | 0, _, found, count => pure (found, count)
  | n + 1, i, found, count => do
    match ← (kvReadRecord cfg i).attempt with
    | .error _ => Io.fail (kvErr .io)
    | .ok record =>
      if ¬ kvRecordIsValid record then Io.fail (kvErr .io)
      else if record.head.used ≠ kvRecordInUse then kvScanRecords key n (i + 1) found count
      else
        kvScanRecords key n (i + 1)
          -- the last match counts, and the loop goes on to count the records
          (if record.head.keyLen.toNat = key.length ∧ record.head.key.1.take key.length = key then
            some i else found)
          (count + 1)

/-- The slot that holds a key and the number of used slots. No slot is the source's status
`ACTRUST_ERR_NO_RESOURCE`, which leaves the count filled in. -/
def kvFindRecord (key : Bytes) : Io Err (Option ℕ × UInt32) :=
  kvScanRecords cfg key cfg.maxRecords 0 none 0

/-- The record loop of `kvFindFreeRecord`. -/
def kvScanFree : (n i : ℕ) → Io Err (Option ℕ)
  | 0, _ => pure none
  | n + 1, i => do
    match ← (kvReadRecord cfg i).attempt with
    | .error _ => pure none
    | .ok record =>
      if ¬ kvRecordIsValid record then pure none
      else if record.head.used = kvRecordNotUsed then pure (some i)
      else kvScanFree n (i + 1)

/-- The first free slot; none is the source's answer `CONFIG_ACTRUST_KV_MAX_RECORDS`. -/
def kvFindFreeRecord : Io Err (Option ℕ) := kvScanFree cfg cfg.maxRecords 0

/-! ### The transaction -/

variable {cfg} in
/-- The journal of a transaction, in state PREPARED. -/
def kvPrepareJournal (current : KvSuperblock) (operation : UInt8) (recordIndex : ℕ)
    (recordCount : UInt32) (record : KvRecord cfg) : KvJournal cfg :=
  let journal : KvJournal cfg :=
    { KvJournal.zero cfg with
      magic := kvJournalMagic, version := kvJournalVersion, state := kvJournalPrepared
      operation, generation := current.generation + 1, baseGeneration := current.generation
      recordIndex := .ofNat recordIndex, recordCount, record }
  { journal with crc32 := kvJournalCrc journal }

variable {cfg} in
/-- `kv_transaction` -/
def kvTransaction (current : KvSuperblock) (currentIndex : ℕ) (operation : UInt8)
    (recordIndex : ℕ) (recordCount : UInt32) (record : KvRecord cfg) : Io Err Unit := do
  let journal := kvPrepareJournal current operation recordIndex recordCount record
  let slot := current.generation.toNat % kvJournalSlots
  kvWriteJournal slot journal
  -- the journal is durable before the record is touched,
  actrustStorageSync
  if operation = kvOpFormat then kvCompleteFormat journal else kvWriteRecord recordIndex record
  kvWriteSuperblock ((currentIndex + 1) % 2) (kvMakeSuperblock journal.generation recordCount)
  -- and the record and the new superblock are before the journal says so
  actrustStorageSync
  kvWriteJournal slot (kvCommitJournal journal)
  actrustStorageSync
  kvClearJournal cfg slot

/-! ### The public calls -/

/-- Run a body under the namespace lock. An error of the body hides an error of the unlock. -/
def kvWithLock {α : Type} (body : Io Err α) : Io Err α := do
  kvLock
  let result ← body.attempt
  let unlocked ← kvUnlock.attempt
  match result, unlocked with
  | .ok a, .ok _ => pure a
  | .ok _, .error e => Io.fail e
  | .error e, _ => Io.fail e

/-- A valid key length. -/
def KeyLenOk (key : Bytes) : Prop := key.length ≠ 0 ∧ key.length ≤ maxKeyLen

instance (key : Bytes) : Decidable (KeyLenOk key) := inferInstanceAs (Decidable (_ ∧ _))

/-- `actrust_kv_open`, for a namespace that is found. -/
def actrustKvOpen : Io Err Unit := kvWithLock (kvPrepareStorage cfg)

/-- The record that `actrustKvSet` stores. -/
def kvMakeRecord (key value : Bytes) : KvRecord cfg :=
  let record : KvRecord cfg :=
    { head :=
        { used := kvRecordInUse, keyLen := .ofNat key.length, reserved := 0, crc32 := 0
          valueLen := .ofNat value.length, key := .ofBytes maxKeyLen key }
      value := .ofBytes cfg.maxValueLen value }
  -- the CRC covers the head with its own field zero
  { record with head := { record.head with crc32 := kvRecordCrc record } }

/-- `actrust_kv_set` under the lock. -/
def kvSetLocked (key value : Bytes) : Io Err Unit := do
  let (sb, sbIndex) ← kvLoadCurrent cfg
  match ← kvFindRecord cfg key with
  | (some index, count) =>
    -- a key that is there keeps its slot
    kvTransaction sb sbIndex kvOpSet index count (kvMakeRecord cfg key value)
  | (none, count) =>
    match ← kvFindFreeRecord cfg with
    | none => Io.fail (kvErr .noResource)
    | some index =>
      kvTransaction sb sbIndex kvOpSet index (count + 1) (kvMakeRecord cfg key value)

/-- `actrust_kv_set` -/
def actrustKvSet (key value : Bytes) : Io Err Unit :=
  if ¬ KeyLenOk key ∨ cfg.maxValueLen < value.length then Io.fail (kvErr .invalidArg)
  else kvWithLock (kvSetLocked cfg key value)

/-- `actrust_kv_del` under the lock. -/
def kvDelLocked (key : Bytes) : Io Err Unit := do
  let (sb, sbIndex) ← kvLoadCurrent cfg
  match ← kvFindRecord cfg key with
  | (none, _) => Io.fail (kvErr .noResource)
  | (some index, count) =>
    kvTransaction sb sbIndex kvOpDelete index (count - 1) (KvRecord.zero cfg)

/-- `actrust_kv_del` -/
def actrustKvDel (key : Bytes) : Io Err Unit :=
  if ¬ KeyLenOk key then Io.fail (kvErr .invalidArg) else kvWithLock (kvDelLocked cfg key)

/-- `actrust_kv_exists` under the lock. -/
def kvExistsLocked (key : Bytes) : Io Err Bool := do
  let _ ← kvLoadCurrent cfg
  let (found, _) ← kvFindRecord cfg key
  pure found.isSome

/-- `actrust_kv_exists` -/
def actrustKvExists (key : Bytes) : Io Err Bool :=
  if ¬ KeyLenOk key then Io.fail (kvErr .invalidArg) else kvWithLock (kvExistsLocked cfg key)

/-- What `actrustKvGet` leaves behind: its status, `*out_len` and the bytes copied to the
buffer, each only where the call writes it. -/
structure KvGetResult where
  status : Except Err Unit
  outLen : Option ℕ
  outValue : Option Bytes

/-- The length of the stored value, and its bytes unless they exceed the buffer. -/
def kvGetLocked (key : Bytes) (outCap : ℕ) : Io Err (ℕ × Option Bytes) := do
  let _ ← kvLoadCurrent cfg
  match ← kvFindRecord cfg key with
  | (none, _) => Io.fail (kvErr .noResource)
  | (some index, _) =>
    let record ← kvReadRecord cfg index
    if ¬ kvRecordIsValid record then Io.fail (kvErr .io)
    else
      let len := record.head.valueLen.toNat
      -- the length is told even when the value does not fit
      pure (len, if outCap < len then none else some (record.value.1.take len))

/-- The answer to a get, from what its body and the unlock returned. -/
def kvGetAnswer : Except Err (ℕ × Option Bytes) → Except Err Unit → KvGetResult
  | .error e, _ => ⟨.error e, none, none⟩
  -- here the answer of the unlock is lost
  | .ok (len, none), _ => ⟨.error (kvErr .bufTooSmall), some len, none⟩
  | .ok (len, some bs), unlocked => ⟨unlocked, some len, some bs⟩

/-- `actrust_kv_get` -/
def actrustKvGet (key : Bytes) (outCap : ℕ) : Io Err KvGetResult :=
  if ¬ KeyLenOk key then pure ⟨.error (kvErr .invalidArg), none, none⟩
  else do
    match ← kvLock.attempt with
    | .error e => pure ⟨.error e, none, none⟩
    | .ok _ =>
      let result ← (kvGetLocked cfg key outCap).attempt
      let unlocked ← kvUnlock.attempt
      pure (kvGetAnswer result unlocked)

end TrustSdk.Kv
