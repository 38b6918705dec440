import TrustSdk.Common.Errno
import TrustSdk.Lib.PositionedFile

/-!
# The storage adapter over a file

`storage.c` keeps a storage region in one file. A read and a write go on until all of it is done,
behind signals and partial transfers, and a write or an erase is flushed before it returns.

The loops have as many rounds as their argument `fuel` says, and spin when these are used up;
`storagePwrite_spec` and the others hold for every number of them.
-/

namespace TrustSdk.Storage

open ByteStore SystemCalls PositionedFile WriteCache

/-- Programs of the adapter. -/
abbrev Prog (α : Type) := Sys (Reply Err) α

/-- An error of the adapter. -/
def storageErr (code : ErrCode) : Err := ⟨.adapterStorage, code⟩

/-- `storage_handle_t`; its file is the one of the world. -/
structure StorageHandle where
  fd : ℤ
  closed : Bool
  deriving DecidableEq, Repr

/-- `storage_valid_handle`, with `none` for the null pointer. -/
def storageValidHandle : Option StorageHandle → Bool
  | none => false
  | some handle => !handle.closed && decide (0 ≤ handle.fd)

/-- `storage_valid_range`, for a region of `regionSize` bytes. -/
def storageValidRange (regionSize offset len : ℕ) : Bool :=
  decide (offset ≤ regionSize) && decide (len ≤ regionSize - offset)

/-- The check of the range does not overflow. -/
theorem storageValidRange_iff {regionSize offset len : ℕ} :
    storageValidRange regionSize offset len = true ↔ offset + len ≤ regionSize := by
  simp only [storageValidRange, Bool.and_eq_true, decide_eq_true_eq]
  omega

/-! ### The loops -/

/-- `storage_pread`, once `got` has been read; `none` when it fails. -/
def storagePread (offset len : ℕ) : ℕ → Bytes → Prog (Option Bytes)
  | fuel, got =>
    if len ≤ got.length then return some got
    else
      match fuel with
      | 0 => .spin
      | fuel + 1 => do
        match ← pread (offset + got.length) (len - got.length) with
        | .error .EINTR => storagePread offset len fuel got
        | .error (.other _) => return none
        | .ok [] =>
          -- the end of the file; the rest is filled with zeros
          return some (got ++ List.replicate (len - got.length) 0)
        | .ok (b :: bs) => storagePread offset len fuel (got ++ b :: bs)

/-- `storage_pwrite`. -/
def storagePwrite : ℕ → ℕ → Bytes → Prog Bool
  | _, _, [] => return true
  | 0, _, _ :: _ => .spin
  | fuel + 1, offset, b :: bs => do
    match ← pwrite offset (b :: bs) with
    | .error .EINTR => storagePwrite fuel offset (b :: bs)
    | .error (.other _) => return false
    | .ok 0 => return false
    | .ok (n + 1) => storagePwrite fuel (offset + (n + 1)) ((b :: bs).drop (n + 1))

/-- `sizeof(zeros)`. -/
def eraseChunk : ℕ := 256

/-- The loop of `actrust_storage_erase`, with as many rounds as there are bytes at most. -/
def storageEraseLoop (fuel : ℕ) : ℕ → ℕ → ℕ → Prog Bool
  | _, _, 0 => return true
  | 0, _, _ + 1 => .spin
  | rounds + 1, pos, remaining + 1 => do
    let chunk := min (remaining + 1) eraseChunk
    if ← storagePwrite fuel pos (List.replicate chunk 0) then
      storageEraseLoop fuel rounds (pos + chunk) (remaining + 1 - chunk)
    else return false

/-! ### The calls -/

/-- `fsync`, at the end of a call. -/
def storageFlush : Prog (Except Err Unit) := do
  match ← fsync with
  | .error _ => return .error (storageErr .io)
  | .ok () => return .ok ()

/-- `actrust_storage_get_capacity`. The size is cut to 32 bits. -/
def actrustStorageGetCapacity (st : Option StorageHandle) : Prog (Except Err ℕ) := do
  if storageValidHandle st = false then return .error (storageErr .invalidArg)
  match ← fstat with
  | .error _ => return .error (storageErr .io)
  | .ok size => return .ok (size % 2 ^ 32)

/-- `actrust_storage_sync`. -/
def actrustStorageSync (st : Option StorageHandle) : Prog (Except Err Unit) := do
  if storageValidHandle st = false then return .error (storageErr .invalidArg)
  storageFlush

/-- `actrust_storage_read`. -/
def actrustStorageRead (fuel regionSize : ℕ) (st : Option StorageHandle) (offset len : ℕ) :
    Prog (Except Err Bytes) := do
  if storageValidHandle st = false ∨ storageValidRange regionSize offset len = false then
    return .error (storageErr .invalidArg)
  match ← storagePread offset len fuel [] with
  | none => return .error (storageErr .io)
  | some bs => return .ok bs

/-- `actrust_storage_write`. -/
def actrustStorageWrite (fuel regionSize : ℕ) (st : Option StorageHandle) (offset : ℕ)
    (bs : Bytes) : Prog (Except Err Unit) := do
  if storageValidHandle st = false ∨ storageValidRange regionSize offset bs.length = false then
    return .error (storageErr .invalidArg)
  if ← storagePwrite fuel offset bs then
    if 0 < bs.length then storageFlush else return .ok ()
  else return .error (storageErr .io)

/-- `actrust_storage_erase`. -/
def actrustStorageErase (fuel regionSize : ℕ) (st : Option StorageHandle) (offset len : ℕ) :
    Prog (Except Err Unit) := do
  if storageValidHandle st = false ∨ storageValidRange regionSize offset len = false then
    return .error (storageErr .invalidArg)
  if len = 0 then return .ok ()
  if ← storageEraseLoop fuel len offset len then storageFlush
  else return .error (storageErr .io)

/-! ### What the loops do -/

section Loops

variable {w : World Err} {old : Image} {off k fuel : ℕ} {bs : Bytes} {s : Cache}

/-- Bytes that are on their way to the file. -/
def Writing (old : Image) (off : ℕ) (bs : Bytes) (s : Cache) : Prop :=
  ∃ k ≤ bs.length, Written old off bs k s

/-- What a loop that writes comes to: the bytes are on their way, or a call has failed. -/
def Puts (w : World Err) (old : Image) (off : ℕ) (bs : Bytes) (k : ℕ) (ok : Bool) (t : Cache) :
    Prop :=
  if ok then Written old off bs k t else ¬w.WritesSucceed

/-- A write of some of the bytes, from where the last one has left off. -/
theorem storagePwrite_spec (fuel : ℕ) {m : ℕ} (h : Written old off bs k s)
    (hfits : k + m ≤ bs.length) :
    wp (Step w) (Writing old off bs) (Puts w old off bs (k + m))
      (storagePwrite fuel (off + k) ((bs.drop k).take m)) s := by
  induction fuel generalizing k m s with
  | zero =>
    have hwriting : Writing old off bs s := ⟨k, by omega, h⟩
    cases m with
    | zero =>
      rw [List.take_zero, storagePwrite]
      exact wp_pure hwriting h
    | succ m =>
      obtain ⟨b, rest, hrest⟩ := List.exists_cons_of_length_pos (l := (bs.drop k).take (m + 1))
        (by rw [List.length_take, List.length_drop]; omega)
      rw [hrest, storagePwrite]
      exact hwriting
  | succ fuel ih =>
    have hwriting : Writing old off bs s := ⟨k, by omega, h⟩
    cases m with
    | zero =>
      rw [List.take_zero, storagePwrite]
      exact wp_pure hwriting h
    | succ m =>
      have hlength : ((bs.drop k).take (m + 1)).length = m + 1 := by
        rw [List.length_take, List.length_drop]
        omega
      obtain ⟨b, rest, hrest⟩ := List.exists_cons_of_length_pos (l := (bs.drop k).take (m + 1))
        (by omega)
      rw [hrest, storagePwrite]
      refine wp_bind (wp_call hwriting fun r s' hstep => ?_)
      cases hstep with
      | pwriteInterrupted =>
        refine ⟨hwriting, ?_⟩
        rw [← hrest]
        exact ih h hfits
      | pwriteFails hfails =>
        refine ⟨hwriting, ?_⟩
        rename_i e
        cases e with
        | EINTR =>
          rw [← hrest]
          exact ih h hfits
        | other n => exact wp_pure hwriting fun hsucceed => hsucceed.pwrite _ _ hfails
      | pwriteNothing hfails =>
        exact ⟨hwriting, wp_pure hwriting fun hsucceed => hsucceed.pwrite _ _ hfails⟩
      | pwrite hpos hle =>
        rename_i n
        obtain ⟨n, rfl⟩ := Nat.exists_eq_add_one.mpr hpos
        rw [← hrest, hlength] at hle
        -- a piece of what is left has been written, and the loop goes on behind it
        have hpiece : (b :: rest).take (n + 1) = (bs.drop k).take (n + 1) := by
          rw [← hrest, List.take_take, Nat.min_eq_left hle]
        have hrest' : (b :: rest).drop (n + 1) =
            (bs.drop (k + (n + 1))).take (m + 1 - (n + 1)) := by
          rw [← hrest, List.drop_take, List.drop_drop]
        have hnext := h.piece (by omega) (n + 1)
        have hloop := ih (m := m + 1 - (n + 1)) hnext (by omega)
        rw [← hrest', show off + (k + (n + 1)) = off + k + (n + 1) from (Nat.add_assoc _ _ _).symm,
          show k + (n + 1) + (m + 1 - (n + 1)) = k + (m + 1) by omega] at hloop
        rw [hpiece]
        exact ⟨⟨_, by omega, hnext⟩, hloop⟩

/-- The bytes of an erase. -/
def zeros (len : ℕ) : Bytes := List.replicate len 0

/-- `storage_erase` writes its zeros chunk by chunk. -/
theorem storageEraseLoop_spec (fuel : ℕ) {len rounds remaining : ℕ}
    (h : Written old off (zeros len) k s) (hleft : k + remaining = len)
    (hrounds : remaining ≤ rounds) :
    wp (Step w) (Writing old off (zeros len)) (Puts w old off (zeros len) len)
      (storageEraseLoop fuel rounds (off + k) remaining) s := by
  have hlength : (zeros len).length = len := List.length_replicate
  -- on the rounds; each writes a chunk, and there are no more chunks than bytes left
  induction rounds generalizing k remaining s with
  | zero =>
    obtain rfl : remaining = 0 := Nat.le_zero.mp hrounds
    obtain rfl : k = len := hleft
    exact wp_pure ⟨k, Nat.le_of_eq hlength.symm, h⟩ h
  | succ rounds ih =>
    cases remaining with
    | zero =>
      obtain rfl : k = len := hleft
      exact wp_pure ⟨k, Nat.le_of_eq hlength.symm, h⟩ h
    | succ remaining =>
      have hchunk : min (remaining + 1) eraseChunk ≤ remaining + 1 := Nat.min_le_left _ _
      have hpos : 0 < min (remaining + 1) eraseChunk := by
        rw [eraseChunk]
        omega
      have hbytes : List.replicate (min (remaining + 1) eraseChunk) 0 =
          ((zeros len).drop k).take (min (remaining + 1) eraseChunk) := by
        rw [zeros, List.drop_replicate, List.take_replicate]
        congr 1
        omega
      rw [storageEraseLoop, hbytes]
      refine wp_bind ((storagePwrite_spec fuel h (by omega)).mono (fun _ ht => ht) ?_)
      intro ok t hwriting hputs
      cases ok with
      | false => exact wp_pure hwriting hputs
      | true =>
        have hleft' : k + min (remaining + 1) eraseChunk +
            (remaining + 1 - min (remaining + 1) eraseChunk) = len := by omega
        have hloop := ih hputs hleft' (by omega)
        rw [← Nat.add_assoc] at hloop
        exact hloop

/-- Two ranges next to each other are one. -/
theorem slice_append (img : Image) (off m n : ℕ) :
    slice img off m ++ slice img (off + m) n = slice img off (m + n) := by
  have hdrop := slice_drop img off (m + n) m
  rw [Nat.add_sub_cancel_left] at hdrop
  rw [← hdrop, ← slice_take img off (Nat.le_add_right m n), List.take_append_drop]

/-- A read that goes on behind what it has got. -/
theorem storagePread_spec (fuel : ℕ) {len : ℕ} {got : Bytes} (hin : off + len ≤ w.size)
    (hgot : got = slice s.view off got.length) (hle : got.length ≤ len) :
    wp (Step w) (fun t => t = s) (fun r _ => ∀ bs, r = some bs → bs = slice s.view off len)
      (storagePread off len fuel got) s := by
  have hfull : len ≤ got.length → got = slice s.view off len := by
    intro hge
    rw [hgot, Nat.le_antisymm hle hge]
  induction fuel generalizing got with
  | zero =>
    rw [storagePread]
    split_ifs with hge
    · exact wp_pure rfl (by rintro _ ⟨⟩; exact hfull hge)
    · rfl
  | succ fuel ih =>
    rw [storagePread]
    split_ifs with hge
    · exact wp_pure rfl (by rintro _ ⟨⟩; exact hfull hge)
    · refine wp_bind (wp_call (I := fun t => t = s) rfl fun r s' hstep => ?_)
      cases hstep with
      | preadInterrupted => exact ⟨rfl, ih hgot hle hfull⟩
      | preadFails =>
        rename_i e _
        cases e with
        | EINTR => exact ⟨rfl, ih hgot hle hfull⟩
        | other n => exact ⟨rfl, wp_pure rfl (by rintro _ ⟨⟩)⟩
      | pread hn hsize hend =>
        rename_i n
        have hmore : got ++ slice s.view (off + got.length) n =
            slice s.view off (got.length + n) := by
          calc got ++ slice s.view (off + got.length) n
              = slice s.view off got.length ++ slice s.view (off + got.length) n := by
                rw [← hgot]
            _ = slice s.view off (got.length + n) := slice_append _ _ _ _
        refine ⟨rfl, ?_⟩
        cases hread : slice s.view (off + got.length) n with
        | nil =>
          -- inside of the file something is there to be read
          have hzero : n = 0 := by
            rw [← slice_length s.view (off + got.length) n, hread, List.length_nil]
          rcases hend hzero with hlen | hbehind <;> omega
        | cons b bs =>
          rw [hread] at hmore
          have hlength : (got ++ b :: bs).length = got.length + n := by
            rw [hmore, slice_length]
          refine ih (by rw [hlength]; exact hmore) (by omega) fun hge' => ?_
          rw [hmore]
          congr 1
          omega

/-! ### The loops come to their ends -/

variable {n : ℕ}

/-- Every round of a write that is not interrupted writes something. -/
theorem storagePwrite_lasts (hfuel : bs.length + n ≤ fuel) :
    Lasts (storagePwrite fuel off bs) n := by
  -- on the fuel; an interrupted write uses one round and leaves the bytes, any other consumes one
  induction fuel generalizing off bs n with
  | zero =>
    obtain rfl : bs = [] := List.length_eq_zero_iff.mp (by omega)
    exact trivial
  | succ fuel ih =>
    cases bs with
    | nil => exact trivial
    | cons b bs =>
      rw [List.length_cons] at hfuel
      intro r
      cases r with
      | error e =>
        cases e with
        | EINTR =>
          intro hpos
          exact ih (by rw [List.length_cons]; omega)
        | other k => exact trivial
      | ok k =>
        cases k with
        | zero => exact trivial
        | succ k => exact ih (by rw [List.length_drop, List.length_cons]; omega)

/-- The reads of the loop are interrupted no more often than the bound. -/
theorem storagePread_lasts {len : ℕ} {got : Bytes} (hfuel : len - got.length + n ≤ fuel) :
    Lasts (storagePread off len fuel got) n := by
  induction fuel generalizing got n with
  | zero =>
    rw [storagePread, if_pos (by omega)]
    exact trivial
  | succ fuel ih =>
    rw [storagePread]
    split_ifs with hge
    · exact trivial
    · intro r
      cases r with
      | error e =>
        cases e with
        | EINTR =>
          intro hpos
          exact ih (by omega)
        | other k => exact trivial
      | ok bs =>
        cases bs with
        | nil => exact trivial
        | cons b bs => exact ih (by rw [List.length_append, List.length_cons]; omega)

/-- So are the writes of the erase. -/
theorem storageEraseLoop_lasts {rounds pos remaining : ℕ} (hfuel : remaining + n ≤ fuel)
    (hrounds : remaining ≤ rounds) : Lasts (storageEraseLoop fuel rounds pos remaining) n := by
  induction rounds generalizing pos remaining with
  | zero =>
    obtain rfl : remaining = 0 := Nat.le_zero.mp hrounds
    exact trivial
  | succ rounds ih =>
    cases remaining with
    | zero => exact trivial
    | succ remaining =>
      have hpos : 0 < min (remaining + 1) eraseChunk := by
        rw [eraseChunk]
        omega
      have hchunk : min (remaining + 1) eraseChunk ≤ remaining + 1 := Nat.min_le_left _ _
      rw [storageEraseLoop]
      refine Lasts.bind (storagePwrite_lasts (by rw [List.length_replicate]; omega)) fun ok => ?_
      cases ok with
      | false => exact trivial
      | true => exact ih (by omega) (by omega)

end Loops

end TrustSdk.Storage
