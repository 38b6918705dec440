import TrustSdk.Common.Errno
import TrustSdk.Lib.FileStore
import Mathlib.Data.Nat.Digits.Defs

/-!
# The file-backed secure store

The Linux security adapter keeps each slot in a file of its own. A write goes to a temporary
file that is flushed and renamed over the slot's file, after the old contents were copied to
a backup file; the backup is removed when the directory has been flushed, and is renamed back
when something fails after the first rename.

The loops that retry an interrupted call are given a number of rounds; a run that uses them
up goes on forever.
-/

namespace TrustSdk.Security

open SystemCalls FileStore

/-- `actrust_sec_slot_t`. -/
abbrev SecSlot := UInt32

/-- An error of the adapter. -/
def secErr (code : ErrCode) : Err := ⟨.adapterSecurity, code⟩

/-- `SEC_FILE_MODE`. -/
def secFileMode : ℕ := 0o600

/-- `SEC_PATH_MAX`. -/
def secPathMax : ℕ := 256

/-- `sec_stat_is_regular`. -/
def secStatIsRegular (st : Stat) : Bool :=
  st.isReg && st.owned && st.mode &&& 0o777 == secFileMode

/-! ### File names -/

/-- A name, if it fits the buffer with its terminator. -/
def secFitName (name : String) : Option String :=
  if name.length < secPathMax then some name else none

/-- A slot id in hexadecimal, eight digits at least. -/
def secHex (slotId : SecSlot) : String :=
  String.ofList (List.leftpad 8 '0' (Nat.toDigits 16 slotId.toNat))

/-- `sec_make_name`. -/
def secMakeName (slotId : SecSlot) : Option String :=
  secFitName ("sec_" ++ secHex slotId ++ ".bin")

/-- `sec_make_temp_name`. -/
def secMakeTempName (slotId : SecSlot) (pid : ℤ) (sequence : ℕ) : Option String :=
  secFitName (".sec_" ++ secHex slotId ++ "." ++ toString pid ++ "." ++ toString sequence ++
    ".tmp")

/-- `sec_make_backup_name`. -/
def secMakeBackupName (slotId : SecSlot) (pid : ℤ) (sequence : ℕ) : Option String :=
  secFitName (".sec_" ++ secHex slotId ++ "." ++ toString pid ++ "." ++ toString sequence ++
    ".old")

/-- The sequence numbers tried for a temporary name and for a backup name. -/
@[irreducible] def secSequences : List ℕ := List.range 100

/-! ### Whole transfers -/

/-- `sec_write_all`. -/
def secWriteAll (fd : ℕ) : ℕ → List UInt8 → Prog String Bool
  | _, [] => return true
  | 0, _ => .spin
  | fuel + 1, buf => do
      match ← invoke (.write fd buf) with
      | .error .EINTR => secWriteAll fd fuel buf
      | .error _ => return false
      | .ok (0 : ℕ) => return false
      | .ok (n : ℕ) => secWriteAll fd fuel (buf.drop n)

/-- `sec_read_all`, with the bytes read so far. -/
def secReadAll (fd : ℕ) : ℕ → ℕ → List UInt8 → Prog String (Option (List UInt8))
  | _, 0, total => return some total
  | 0, _, _ => .spin
  | fuel + 1, left, total => do
      match ← invoke (.read fd left) with
      | .error .EINTR => secReadAll fd fuel left total
      | .error _ => return none
      | .ok ([] : List UInt8) => return none
      | .ok (bs : List UInt8) => secReadAll fd fuel (left - bs.length) (total ++ bs)

/-- The buffer of `sec_copy_file`. -/
def secCopyChunk : ℕ := 4096

/-- `sec_copy_file`. -/
def secCopyFile (fuel srcfd dstfd : ℕ) : ℕ → ℕ → Prog String Bool
  | _, 0 => return true
  | 0, _ => .spin
  | rounds + 1, remaining => do
      match ← invoke (.read srcfd (min remaining secCopyChunk)) with
      | .error .EINTR => secCopyFile fuel srcfd dstfd rounds remaining
      | .error _ => return false
      | .ok ([] : List UInt8) => return false
      | .ok (bs : List UInt8) =>
        if ← secWriteAll dstfd fuel bs then
          secCopyFile fuel srcfd dstfd rounds (remaining - bs.length)
        else return false

/-! ### The backup -/

/-- The checks and the copy of `sec_create_backup`, once both files are open. -/
def secFillBackup (fuel srcfd dstfd : ℕ) (sourceSize : ℕ) : Prog String Bool := do
  match ← invoke (.fstat dstfd) with
  | .error _ => return false
  | .ok (st : Stat) =>
    if !st.isReg then return false
    (succeeds (.fchmod dstfd secFileMode)).andThen <|
      (succeeds (.lseek srcfd 0)).andThen <|
        (secCopyFile fuel srcfd dstfd fuel sourceSize).andThen <|
          succeeds (.fsync dstfd)

/-- Close a descriptor if it is open, and report whether that went well. -/
def secCloseFile : Option ℕ → Prog String Bool
  | none => return true
  | some fd => succeeds (.close fd)

/-- The `cleanup` block of `sec_create_backup`. -/
def secCloseBackup (srcfd dstfd : Option ℕ) (backupName : String) (success : Bool) :
    Prog String Bool := do
  let savedErrno ← errno
  let srcClosed ← secCloseFile srcfd
  let dstClosed ← secCloseFile dstfd
  let success := success && srcClosed && dstClosed
  if !success && dstfd.isSome then
    let _ ← succeeds (.unlinkat backupName)
  if !success then setErrno savedErrno
  return success

/-- `sec_create_backup`. -/
def secCreateBackup (sizeMax fuel : ℕ) (name backupName : String) : Prog String Bool := do
  match ← invoke (.openFile name) with
  | .error _ => secCloseBackup none none backupName false
  | .ok (srcfd : ℕ) =>
    match ← invoke (.fstat srcfd) with
    | .error _ => secCloseBackup srcfd none backupName false
    | .ok (st : Stat) =>
      if !secStatIsRegular st || st.size < 0 || sizeMax < st.size then
        secCloseBackup srcfd none backupName false
      else
        match ← invoke (.createFile backupName secFileMode) with
        | .error _ => secCloseBackup srcfd none backupName false
        | .ok (dstfd : ℕ) =>
          let success ← secFillBackup fuel srcfd dstfd st.size.toNat
          secCloseBackup srcfd dstfd backupName success

/-! ### Writing a slot -/

/-- The loop that finds a free temporary name, over the sequence numbers left to try. -/
def secOpenTemp (slotId : SecSlot) (pid : ℤ) : List ℕ → Prog String (Option (ℕ × String))
  | [] => return none
  | sequence :: rest => do
      match secMakeTempName slotId pid sequence with
      | none => return none
      | some tempName =>
        match ← invoke (.createFile tempName secFileMode) with
        | .ok (fd : ℕ) => return some (fd, tempName)
        | .error .EEXIST => secOpenTemp slotId pid rest
        | .error _ => return none

/-- The loop that finds a free backup name and copies the slot's file to it. -/
def secBackUp (sizeMax fuel : ℕ) (slotId : SecSlot) (pid : ℤ) (name : String) :
    List ℕ → Prog String (Option String)
  | [] => return none
  | sequence :: rest => do
      match secMakeBackupName slotId pid sequence with
      | none => return none
      | some backupName =>
        if ← secCreateBackup sizeMax fuel name backupName then return some backupName
        if (← errno) ≠ .EEXIST then return none
        secBackUp sizeMax fuel slotId pid name rest

/-- The local variables of `actrust_sec_store_write` that its cleanup reads, and the name of
the backup it has made. -/
structure WriteState where
  success : Bool := false
  renamed : Bool := false
  backup : Option String := none
  preserveBackup : Bool := false
  fd : Option ℕ := none
  deriving DecidableEq, Repr

/-- The temporary file filled and flushed. -/
def secFillTemp (fuel fd : ℕ) (data : List UInt8) : Prog String Bool := do
  match ← invoke (.fstat fd) with
  | .error _ => return false
  | .ok (st : Stat) =>
    if !st.isReg then return false
    (succeeds (.fchmod fd secFileMode)).andThen <|
      (secWriteAll fd fuel data).andThen <|
        succeeds (.fsync fd)

/-- The `rollback` block. -/
def secRollback (name : String) (oldExists : Bool) (backup : Option String) :
    Prog String WriteState := do
  let state : WriteState ← match backup with
    | some backupName =>
      if ← succeeds (.renameat backupName name) then pure { renamed := true }
      else pure { renamed := true, backup := backup, preserveBackup := true }
    | none => do
      if !oldExists then
        let _ ← succeeds (.unlinkat name)
      pure { renamed := true }
  let _ ← succeeds .fsyncDir
  return state

/-- The rename of the temporary file over the slot's file, and what follows it. -/
def secReplace (name tempName : String) (oldExists : Bool) (backup : Option String) :
    Prog String WriteState := do
  if !(← succeeds (.renameat tempName name)) then return { backup := backup }
  if !(← succeeds .fsyncDir) then secRollback name oldExists backup
  else
    match backup with
    | none => return { success := true, renamed := true }
    | some backupName =>
      if ← succeeds (.unlinkat backupName) then return { success := true, renamed := true }
      else secRollback name oldExists backup

/-- `actrust_sec_store_write` between the choice of the temporary name and the cleanup. -/
def secWriteSlot (sizeMax fuel : ℕ) (slotId : SecSlot) (pid : ℤ) (name tempName : String)
    (fd : ℕ) (data : List UInt8) : Prog String WriteState := do
  if !(← secFillTemp fuel fd data) then return { fd := fd }
  if !(← succeeds (.close fd)) then return {}
  match ← invoke (.fstatat name) with
  | .ok (st : Stat) =>
    if !secStatIsRegular st then
      setErrno .EACCES
      return {}
    match ← secBackUp sizeMax fuel slotId pid name secSequences with
    | none => return {}
    | some backupName => secReplace name tempName true backupName
  | .error .ENOENT => secReplace name tempName false none
  | .error _ => return {}

/-- Release the directory. -/
def secReleaseDir : Prog String Unit := do
  let _ ← succeeds (.flock false)
  let _ ← succeeds .closeDir

/-- The `cleanup` block. -/
def secCleanup (tempName : String) (state : WriteState) : Prog String (Except Err Unit) := do
  let _ ← secCloseFile state.fd
  if !state.renamed then
    let _ ← succeeds (.unlinkat tempName)
  if let some backupName := state.backup then
    if !state.preserveBackup then
      let _ ← succeeds (.unlinkat backupName)
  secReleaseDir
  return if state.success then .ok () else .error (secErr .io)

/-- `actrust_sec_store_write`, for `len` bytes at `data`, `none` for the null pointer. -/
def actrustSecStoreWrite (sizeMax fuel : ℕ) (pid : ℤ) (slotId : SecSlot)
    (data : Option (List UInt8)) (len : ℕ) : Prog String (Except Err Unit) := do
  if data.isNone ∧ 0 < len then return .error (secErr .invalidArg)
  if !(← succeeds (.openDir true)) then return .error (secErr .io)
  if !(← succeeds (.flock true)) then
    let _ ← succeeds .closeDir
    return .error (secErr .io)
  match secMakeName slotId with
  | none =>
    secReleaseDir
    return .error (secErr .io)
  | some name =>
    match ← secOpenTemp slotId pid secSequences with
    | none =>
      secReleaseDir
      return .error (secErr .io)
    | some (fd, tempName) =>
      match secMakeBackupName slotId pid 0 with
      | none =>
        let _ ← succeeds (.close fd)
        let _ ← succeeds (.unlinkat tempName)
        secReleaseDir
        return .error (secErr .io)
      | some _ =>
        let state ← secWriteSlot sizeMax fuel slotId pid name tempName fd
          ((data.getD []).take len)
        secCleanup tempName state

/-! ### Reading a slot -/

/-- What `actrust_sec_store_read` gives back: its status, the bytes put into the buffer and
the length reported. -/
structure SecReadResult where
  status : Except Err Unit
  out : List UInt8 := []
  actualLen : Option ℕ := none

/-- `actrust_sec_store_read` into a buffer of `outLen` bytes. -/
def actrustSecStoreRead (sizeMax fuel : ℕ) (slotId : SecSlot) (outLen : ℕ) :
    Prog String SecReadResult := do
  match ← invoke (.openDir false) with
  | .error e => return { status := .error (secErr (if e = .ENOENT then .noResource else .io)) }
  | .ok _ =>
    match secMakeName slotId with
    | none =>
      let _ ← succeeds .closeDir
      return { status := .error (secErr .io) }
    | some name =>
      match ← invoke (.openFile name) with
      | .error e =>
        let _ ← succeeds .closeDir
        return { status := .error (secErr (if e = .ENOENT then .noResource else .io)) }
      | .ok (fd : ℕ) =>
        match ← invoke (.fstat fd) with
        | .error _ =>
          let _ ← succeeds (.close fd)
          let _ ← succeeds .closeDir
          return { status := .error (secErr .io) }
        | .ok (st : Stat) =>
          if !secStatIsRegular st || st.size < 0 || sizeMax < st.size then
            let _ ← succeeds (.close fd)
            let _ ← succeeds .closeDir
            return { status := .error (secErr .io) }
          else if outLen < st.size.toNat then
            let _ ← succeeds (.close fd)
            let _ ← succeeds .closeDir
            return { status := .error (secErr .bufTooSmall), actualLen := st.size.toNat }
          else
            let out ← secReadAll fd fuel st.size.toNat []
            let closeOk ← succeeds (.close fd)
            let _ ← succeeds .closeDir
            match out, closeOk with
            | some bs, true => return { status := .ok (), out := bs, actualLen := bs.length }
            | _, _ => return { status := .error (secErr .io) }

/-! ### Deleting a slot -/

/-- The status of a call that says there is no slot, or that fails in another way. -/
def secMissing (e : Errno) : Except Err Unit :=
  .error (secErr (if e = .ENOENT then .noResource else .io))

/-- `actrust_sec_store_delete`. -/
def actrustSecStoreDelete (slotId : SecSlot) : Prog String (Except Err Unit) := do
  match ← invoke (.openDir false) with
  | .error e => return secMissing e
  | .ok _ =>
    if !(← succeeds (.flock true)) then
      let _ ← succeeds .closeDir
      return .error (secErr .io)
    match secMakeName slotId with
    | none =>
      secReleaseDir
      return .error (secErr .io)
    | some name =>
      match ← invoke (.fstatat name) with
      | .error e =>
        secReleaseDir
        return secMissing e
      | .ok (st : Stat) =>
        if !secStatIsRegular st then
          secReleaseDir
          return .error (secErr .io)
        match ← invoke (.unlinkat name) with
        | .error e =>
          secReleaseDir
          return secMissing e
        | .ok _ =>
          let syncOk ← succeeds .fsyncDir
          let closeOk ← (succeeds (.flock false)).andThen (succeeds .closeDir)
          return if syncOk && closeOk then .ok () else .error (secErr .io)

end TrustSdk.Security
