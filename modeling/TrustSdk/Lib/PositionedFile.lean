import TrustSdk.Lib.SystemCalls
import TrustSdk.Lib.WriteCache

/-!
# A file with positioned reads and writes

One open file behind a page cache, and the calls of POSIX on it. A read or a write may come back
with less than was asked for, or be interrupted before it has done anything; what is written reaches
the medium with the next flush, and a crash leaves any part of it, byte by byte (`Leaves`). The
calls of a mutex stand beside them, for programs that lock.

* `Step` — what each call may do, where the calls in `fails` may fail;
* `Lasts` — a program that spins only behind more interruptions than a number says;
* `Written` — the file while some bytes are on their way to it, in however many pieces. A crash
  leaves a mixture of the file before and behind the whole (`Written.torn`).
-/

namespace PositionedFile

open ByteStore SystemCalls WriteCache

/-- The errors that are told apart. -/
inductive Errno where
  | EINTR
  | other (n : ℕ)
  deriving DecidableEq, Repr

/-- The system calls. -/
inductive Call where
  | pread (off len : ℕ)
  | pwrite (off : ℕ) (bs : Bytes)
  | fsync
  | fstat
  | lock
  | unlock
  deriving DecidableEq, Repr

/-- What a call answers. -/
@[reducible] def Reply (ε : Type) : Call → Type
  | .pread _ _ => Except Errno Bytes
  | .pwrite _ _ => Except Errno ℕ
  | .fsync => Except Errno Unit
  | .fstat => Except Errno ℕ
  | .lock | .unlock => Except ε Unit

section Calls

variable {ε : Type}

/-- `pread` -/
def pread (off len : ℕ) : Sys (Reply ε) (Except Errno Bytes) := Sys.ask (Call.pread off len)

/-- `pwrite` -/
def pwrite (off : ℕ) (bs : Bytes) : Sys (Reply ε) (Except Errno ℕ) := Sys.ask (Call.pwrite off bs)

/-- `fsync` -/
def fsync : Sys (Reply ε) (Except Errno Unit) := Sys.ask Call.fsync

/-- `fstat` -/
def fstat : Sys (Reply ε) (Except Errno ℕ) := Sys.ask Call.fstat

/-- Taking the lock. -/
def lock : Sys (Reply ε) (Except ε Unit) := Sys.ask Call.lock

/-- Giving it up. -/
def unlock : Sys (Reply ε) (Except ε Unit) := Sys.ask Call.unlock

end Calls

/-- The size of the file, the calls on it that may fail, and the errors of the mutex. -/
structure World (ε : Type) where
  size : ℕ
  fails : Call → Prop
  lockFault : ε → Prop

/-- What the calls do. A write of no byte, though there are some to write, is a failure. -/
inductive Step {ε : Type} (w : World ε) : Cache → (c : Call) → Reply ε c → Cache → Prop
  | preadInterrupted {s off len} : Step w s (.pread off len) (.error .EINTR) s
  | preadFails {s off len e} : w.fails (.pread off len) → Step w s (.pread off len) (.error e) s
  | pread {s off len n} : n ≤ len → off + n ≤ w.size ∨ n = 0 →
      (n = 0 → len = 0 ∨ w.size ≤ off) →
      Step w s (.pread off len) (.ok (slice s.view off n)) s
  | pwriteInterrupted {s off bs} : Step w s (.pwrite off bs) (.error .EINTR) s
  | pwriteFails {s off bs e} : w.fails (.pwrite off bs) → Step w s (.pwrite off bs) (.error e) s
  | pwriteNothing {s off bs} : w.fails (.pwrite off bs) → Step w s (.pwrite off bs) (.ok 0) s
  | pwrite {s off bs n} : 0 < n → n ≤ bs.length →
      Step w s (.pwrite off bs) (.ok n) { s with pending := (off, bs.take n) :: s.pending }
  | fsync {s} : Step w s .fsync (.ok ()) ⟨s.view, []⟩
  | fsyncFails {s e} : w.fails .fsync → Step w s .fsync (.error e) s
  | fstat {s} : Step w s .fstat (.ok w.size) s
  | fstatFails {s e} : w.fails .fstat → Step w s .fstat (.error e) s
  | lock {s} : Step w s .lock (.ok ()) s
  | lockFails {s e} : w.lockFault e → Step w s .lock (.error e) s
  | unlock {s} : Step w s .unlock (.ok ()) s
  | unlockFails {s e} : w.lockFault e → Step w s .unlock (.error e) s

/-- No write and no flush fails. -/
structure World.WritesSucceed {ε : Type} (w : World ε) : Prop where
  pwrite : ∀ off bs, ¬w.fails (.pwrite off bs)
  fsync : ¬w.fails .fsync

/-- What a crash may leave: of every byte that was written since the last flush, any of its
values. -/
def Leaves (s : Cache) (img : Image) : Prop :=
  Persists Torn (fun _ _ _ => False) s.medium s.pending img

/-- A file that has been flushed. -/
def Clean (s : Cache) : Prop := s.pending = []

/-- The first `k` bytes of `bs` have been written at `off` since the file was flushed. -/
structure Written (old : Image) (off : ℕ) (bs : Bytes) (k : ℕ) (s : Cache) : Prop where
  medium : s.medium = old
  view : s.view = patch old off (bs.take k)
  torn : ∀ img, Leaves s img → Torn old (patch old off bs) img

section Written

variable {old img : Image} {off k n : ℕ} {bs : Bytes} {s : Cache}

/-- With nothing pending the view is the medium. -/
theorem view_of_clean (h : Clean s) : s.view = s.medium := by
  rw [Cache.view, h, applyAll]

/-- A crash then leaves the medium. -/
theorem leaves_of_clean (h : Clean s) : Leaves s img ↔ img = s.medium := by
  rw [Leaves, h, Persists]

/-- Likewise for a file that was flushed. -/
theorem leaves_flushed {medium : Image} : Leaves ⟨medium, []⟩ img ↔ img = medium :=
  leaves_of_clean (show Clean ⟨medium, []⟩ from rfl)

/-- Writing nothing. -/
theorem patch_nil (img : Image) (off : ℕ) : patch img off [] = img := by
  funext a
  exact if_neg fun ha => absurd ha.2 (Nat.not_lt_of_le ha.1)

/-- Nothing has been written yet. -/
theorem Written.start (h : Clean s) (off : ℕ) (bs : Bytes) : Written s.medium off bs 0 s where
  medium := rfl
  view := by
    rw [List.take_zero, patch_nil]
    exact view_of_clean h
  torn img hleaves := by
    rw [(leaves_of_clean h).mp hleaves]
    exact Torn.refl _ _

/-- A piece of the bytes, where it belongs. -/
theorem patch_take_drop (old : Image) (off : ℕ) {bs : Bytes} {k : ℕ} (hk : k ≤ bs.length)
    (n : ℕ) : patch (patch old off (bs.take k)) (off + k) ((bs.drop k).take n) =
      patch old off (bs.take (k + n)) := by
  have hlength : (bs.take k).length = k := List.length_take_of_le hk
  calc patch (patch old off (bs.take k)) (off + k) ((bs.drop k).take n)
      = patch (patch old off (bs.take k)) (off + (bs.take k).length) ((bs.drop k).take n) := by
        rw [hlength]
    _ = patch old off (bs.take k ++ (bs.drop k).take n) := patch_append _ _ _ _
    _ = patch old off (bs.take (k + n)) := by rw [List.take_add]

/-- The bytes of a piece are those of the whole. -/
theorem patch_piece (mid old : Image) {off k n a : ℕ} {bs : Bytes}
    (ha : off + k ≤ a ∧ a < off + k + ((bs.drop k).take n).length) :
    patch mid (off + k) ((bs.drop k).take n) a = patch old off bs a := by
  obtain ⟨hle, hlt⟩ := ha
  rw [List.length_take, List.length_drop] at hlt
  have hpiece : a - (off + k) < n := by omega
  have hsum : k + (a - (off + k)) = a - off := by omega
  rw [patch, patch, if_pos ⟨hle, by rw [List.length_take, List.length_drop]; omega⟩,
    if_pos ⟨by omega, by omega⟩, List.getD_eq_getElem?_getD, List.getD_eq_getElem?_getD,
    List.getElem?_take_of_lt hpiece, List.getElem?_drop, hsum]

/-- One more piece. -/
theorem Written.piece (h : Written old off bs k s) (hk : k ≤ bs.length) (n : ℕ) :
    Written old off bs (k + n)
      { s with pending := (off + k, (bs.drop k).take n) :: s.pending } where
  medium := h.medium
  view := by
    show patch s.view (off + k) ((bs.drop k).take n) = _
    rw [h.view, patch_take_drop old off hk]
  torn img hleaves := by
    obtain ⟨mid, hmid, htorn, -⟩ := hleaves
    have hbefore := h.torn mid hmid
    intro a
    -- inside the piece the byte may be the old or the new one, outside it was not touched
    by_cases ha : off + k ≤ a ∧ a < off + k + ((bs.drop k).take n).length
    · rcases htorn a with hold | hnew
      · rw [hold]
        exact hbefore a
      · exact .inr (hnew.trans (patch_piece mid old ha))
    · have hsame : img a = mid a := by
        rcases htorn a with hold | hnew
        · exact hold
        · exact hnew.trans (if_neg ha)
      rw [hsame]
      exact hbefore a

/-- All of it has been written, and flushed. -/
theorem Written.flushed (h : Written old off bs bs.length s) :
    (⟨s.view, []⟩ : Cache) = ⟨patch old off bs, []⟩ := by
  rw [h.view, List.take_length]

end Written

/-! ### Interruptions -/

section Interruptions

variable {ε α β : Type} {m n : ℕ}

/-- The call was interrupted and is made again. -/
def interrupts : (c : Call) → Reply ε c → Bool
  | .pread _ _, .error .EINTR => true
  | .pwrite _ _, .error .EINTR => true
  | _, _ => false

/-- The program comes to an end, unless it is interrupted more than `n` times. -/
def Lasts : Sys (Reply ε) α → ℕ → Prop
  | .done _, _ => True
  | .spin, _ => False
  | .call c k, n => ∀ r, if interrupts c r then 0 < n → Lasts (k r) (n - 1) else Lasts (k r) n

/-- A larger bound. -/
theorem Lasts.mono {p : Sys (Reply ε) α} (h : Lasts p n) (hle : m ≤ n) : Lasts p m := by
  induction p generalizing m n with
  | done a => trivial
  | spin => exact h
  | call c k ih =>
    intro r
    have hr := h r
    split_ifs at hr ⊢ with hinterrupts
    · intro hpos
      exact ih r (hr (Nat.lt_of_lt_of_le hpos hle)) (Nat.sub_le_sub_right hle 1)
    · exact ih r hr hle

/-- A program that goes on lasts as long as its parts. -/
theorem Lasts.bind {p : Sys (Reply ε) α} {f : α → Sys (Reply ε) β} (h : Lasts p n)
    (hf : ∀ a, Lasts (f a) n) : Lasts (p >>= f) n := by
  change Lasts (p.bind f) n
  induction p generalizing n with
  | done a => exact hf a
  | spin => exact h.elim
  | call c k ih =>
    intro r
    have hr := h r
    split_ifs at hr ⊢ with hinterrupts
    · intro hpos
      exact ih r (hr hpos) fun a => (hf a).mono (Nat.sub_le n 1)
    · exact ih r hr hf

end Interruptions

end PositionedFile
