import TrustSdk.Common.Errno
import TrustSdk.Lib.Threads

/-!
# Shutting down the time client

`ntp.c` for any number of threads that run operations (a sync, or a reading of the time) and
`actrust_ntp_deinit`. A deinit sets `closing`, waits until the operations that have been admitted
are gone, and destroys the two locks and the semaphore. The operation that leaves last posts the
semaphore inside of the admission lock, and unlocks that lock behind it: the deinit it has woken may
destroy the lock first. And a deinit that fails behind its first section leaves `closing` set, so
that no later one gets past it (`failed_never_completes`).

* `Permits` — what rules this out: no wait and no destroy of a deinit fails, and the admission lock
  is destroyed when no operation is between its post and its unlock;
* `Clear` — nobody is counted, and nobody is in the admission lock but that one operation; it holds
  from the moment a token is there, and goes on to hold;
* `ntp_shutdown_safe` — in every run whose steps permit it, what a deinit destroys no admitted
  operation has a step left on, and no deinit has to be retried.
-/

namespace TrustSdk.Ntp

open Machine

/-- An error of this component. -/
def ntpErr (code : ErrCode) : Err := ⟨.ntp, code⟩

/-! ### The client -/

/-- A mutex that can be destroyed. -/
inductive NtpMutex where
  | free
  | held
  | destroyed
  deriving DecidableEq, Repr

/-- `actrust_ntp_s`, as far as the operations and the shutdown share it. Here `none` is
`ACTRUST_OK`. -/
structure NtpClient where
  closing : Bool
  activeUsers : ℕ
  admissionLock : NtpMutex
  operationLock : NtpMutex
  /-- The count of `idle_sem`, until it is destroyed. -/
  idleSem : Option ℕ
  deriving DecidableEq, Repr

/-- A client that `actrust_ntp_init` has made. -/
def NtpClient.initial : NtpClient := ⟨false, 0, .free, .free, some 0⟩

/-- How a call begins. -/
inductive NtpApi where
  | operation
  | deinit
  deriving DecidableEq, Repr

/-- Where a call is. -/
inductive NtpCall where
  /-- Before the lock of `ntp_operation_acquire`. -/
  | entering
  | inAcquire
  /-- The client is closing; the unlock is left. -/
  | refused
  /-- Counted; the unlock is left. -/
  | admitted
  /-- Before the lock of the operation. -/
  | locking
  /-- That lock has failed. -/
  | givingUp (e : Err)
  | inGiveUp (e : Err)
  | leavingGiveUp (e : Err)
  /-- With the operation lock. -/
  | working
  | finishing (result : Option Err)
  /-- Before the lock of `ntp_operation_release`. -/
  | releasing (result : Option Err)
  | inRelease (result : Option Err)
  /-- Before the post, -/
  | posting (result : Option Err)
  /-- and before the unlock that follows it. -/
  | leavingRelease (result : Option Err)
  | returned (result : Option Err)
  | enteringDeinit
  | inDeinit
  /-- `closing` is set; the unlock is left. -/
  | closing (waits : Bool)
  | waiting
  | destroyingOperation
  | destroyingIdle
  | destroyingAdmission
  | deinited
  /-- The wait or a destroy has failed. -/
  | failed (e : Err)
  deriving DecidableEq, Repr

/-- Where a call starts. -/
def NtpApi.enter : NtpApi → NtpCall
  | .operation => .entering
  | .deinit => .enteringDeinit

/-- What the adapter answers, and what the operation comes to. -/
structure NtpEnv where
  lock : Option Err
  unlock : Option Err
  semPost : Option Err
  semWait : Option Err
  destroy : Option Err
  result : Option Err
  deriving DecidableEq, Repr

/-- `actrust_mutex_lock(handle->admission_lock)`: it fails, or goes on when the lock is free. -/
def lockAdmission (env : NtpEnv) (s : NtpClient) (waits next : NtpCall) (failed : Err → NtpCall) :
    NtpClient × NtpCall :=
  match env.lock with
  | some e => (s, failed e)
  | none =>
    if s.admissionLock = .free then ({ s with admissionLock := .held }, next) else (s, waits)

/-- `(void) actrust_mutex_unlock(handle->admission_lock)`. -/
def unlockAdmission (env : NtpEnv) (s : NtpClient) (next : NtpCall) : NtpClient × NtpCall :=
  match env.unlock with
  | some _ => (s, next)
  | none =>
    if s.admissionLock = .held then ({ s with admissionLock := .free }, next) else (s, next)

/-- The count goes down in both ways out of an operation. -/
def NtpClient.leaves (s : NtpClient) : NtpClient :=
  { s with activeUsers := if 0 < s.activeUsers then s.activeUsers - 1 else s.activeUsers }

/-- One step of a call. -/
def NtpCall.step (env : NtpEnv) (s : NtpClient) : NtpCall → NtpClient × NtpCall
  | .entering => lockAdmission env s .entering .inAcquire fun e => .returned (some e)
  | .inAcquire =>
    if s.closing then (s, .refused)
    else ({ s with activeUsers := s.activeUsers + 1 }, .admitted)
  | .refused => unlockAdmission env s (.returned (some (ntpErr .badState)))
  | .admitted => unlockAdmission env s .locking
  | .locking =>
    match env.lock with
    | some e => (s, .givingUp e)
    | none =>
      if s.operationLock = .free then ({ s with operationLock := .held }, .working)
      else (s, .locking)
  | .givingUp e => lockAdmission env s (.givingUp e) (.inGiveUp e) fun _ => .returned (some e)
  | .inGiveUp e => (s.leaves, .leavingGiveUp e)
  | .leavingGiveUp e => unlockAdmission env s (.returned (some e))
  | .working => (s, .finishing env.result)
  | .finishing result =>
    match env.unlock with
    | some _ => (s, .releasing result)
    | none =>
      if s.operationLock = .held then ({ s with operationLock := .free }, .releasing result)
      else (s, .releasing result)
  | .releasing result =>
    lockAdmission env s (.releasing result) (.inRelease result) fun _ => .returned result
  | .inRelease result =>
    if s.closing = true ∧ s.leaves.activeUsers = 0 then (s.leaves, .posting result)
    else (s.leaves, .leavingRelease result)
  | .posting result =>
    match env.semPost with
    | some _ => (s, .leavingRelease result)
    | none => ({ s with idleSem := s.idleSem.map (· + 1) }, .leavingRelease result)
  | .leavingRelease result => unlockAdmission env s (.returned result)
  | .returned result => (s, .returned result)
  | .enteringDeinit => lockAdmission env s .enteringDeinit .inDeinit fun e => .returned (some e)
  | .inDeinit =>
    if s.closing then (s, .refused)
    else ({ s with closing := true }, .closing (decide (0 < s.activeUsers)))
  | .closing waits => unlockAdmission env s (if waits then .waiting else .destroyingOperation)
  | .waiting =>
    match env.semWait, s.idleSem with
    | some e, _ => (s, .failed e)
    | none, some (tokens + 1) => ({ s with idleSem := some tokens }, .destroyingOperation)
    | none, _ => (s, .waiting)
  | .destroyingOperation =>
    match env.destroy with
    | some e => (s, .failed e)
    | none => ({ s with operationLock := .destroyed }, .destroyingIdle)
  | .destroyingIdle =>
    match env.destroy with
    | some e => (s, .failed e)
    | none => ({ s with idleSem := none }, .destroyingAdmission)
  | .destroyingAdmission =>
    match env.destroy with
    | some e => (s, .failed e)
    | none => ({ s with admissionLock := .destroyed }, .deinited)
  | .deinited => (s, .deinited)
  | .failed e => (s, .failed e)

/-- The threads inside the calls of the client. -/
abbrev NtpSystem := Threads.System NtpClient NtpCall

/-- A new call, or a step of one. -/
abbrev NtpAction := Threads.Action NtpApi NtpEnv

/-- A step of the system. -/
def NtpSystem.step : NtpSystem → NtpAction → Unit × NtpSystem :=
  Threads.step NtpApi.enter NtpCall.step

/-- No call has begun. -/
def NtpSystem.initial : NtpSystem := ⟨.initial, []⟩

/-! ### The property -/

namespace NtpCall

/-- An admitted operation that has a step left on the operation lock. -/
def UsesOperation : NtpCall → Prop
  | .admitted | .locking | .working | .finishing _ => True
  | _ => False

/-- An admitted operation that may still post the semaphore. -/
def UsesIdle : NtpCall → Prop
  | .admitted | .locking | .working | .finishing _ | .releasing _ | .inRelease _ => True
  | .posting _ => True
  | _ => False

/-- An admitted operation that has a step left on the admission lock. -/
def UsesAdmission : NtpCall → Prop
  | .admitted | .locking | .working | .finishing _ | .releasing _ | .inRelease _ => True
  | .posting _ | .leavingRelease _ | .givingUp _ | .inGiveUp _ | .leavingGiveUp _ => True
  | _ => False

/-- The operation has posted, or found that it need not, and has yet to unlock. -/
def Unlocking : NtpCall → Prop
  | .leavingRelease _ => True
  | _ => False

instance : DecidablePred UsesOperation := fun call => by
  unfold UsesOperation
  split <;> infer_instance

instance : DecidablePred UsesIdle := fun call => by
  unfold UsesIdle
  split <;> infer_instance

instance : DecidablePred UsesAdmission := fun call => by
  unfold UsesAdmission
  split <;> infer_instance

instance : DecidablePred Unlocking := fun call => by
  unfold Unlocking
  split <;> infer_instance

end NtpCall

namespace NtpSystem

/-- What this step destroys no admitted operation has a step left on. -/
def CarefulCall (s : NtpSystem) : NtpCall → Prop
  | .destroyingOperation => ∀ call ∈ s.calls, ¬call.UsesOperation
  | .destroyingIdle => ∀ call ∈ s.calls, ¬call.UsesIdle
  | .destroyingAdmission => ∀ call ∈ s.calls, ¬call.UsesAdmission
  | _ => True

instance (s : NtpSystem) : DecidablePred s.CarefulCall := fun call => by
  unfold CarefulCall
  split <;> infer_instance

/-- The step destroys nothing that another call still uses. -/
def Careful (s : NtpSystem) (a : NtpAction) : Prop :=
  ∀ p ∈ Threads.acting s a, s.CarefulCall p.2

instance (s : NtpSystem) (a : NtpAction) : Decidable (s.Careful a) :=
  inferInstanceAs (Decidable (∀ p ∈ Threads.acting s a, _))

/-- When a deinit has failed half-way, the client can still be deinitialised. -/
def Retryable (s : NtpSystem) : Prop :=
  (∃ e, .failed e ∈ s.calls) → ∃ actions, .deinited ∈ (run NtpSystem.step actions s).2.calls

/-- A step of a deinit that keeps the shutdown safe. -/
def PermitsCall (s : NtpSystem) (env : NtpEnv) : NtpCall → Prop
  | .waiting => env.semWait = none
  | .destroyingOperation => env.destroy = none
  | .destroyingIdle => env.destroy = none
  | .destroyingAdmission => env.destroy = none ∧ ∀ call ∈ s.calls, ¬call.Unlocking
  | _ => True

instance (s : NtpSystem) (env : NtpEnv) : DecidablePred (s.PermitsCall env) := fun call => by
  unfold PermitsCall
  split <;> infer_instance

/-- The step meets the condition. -/
def Permits (s : NtpSystem) (a : NtpAction) : Prop :=
  ∀ p ∈ Threads.acting s a, s.PermitsCall p.1 p.2

instance (s : NtpSystem) (a : NtpAction) : Decidable (s.Permits a) :=
  inferInstanceAs (Decidable (∀ p ∈ Threads.acting s a, _))

end NtpSystem

/-! ### The invariant -/

/-- A mutex is taken once or not. -/
def NtpMutex.taken : NtpMutex → ℕ
  | .held => 1
  | _ => 0

/-- A mutex is taken at most once. -/
theorem NtpMutex.taken_le (m : NtpMutex) : m.taken ≤ 1 := by
  cases m <;> decide

/-- The tokens of the semaphore, if it was created. -/
def NtpClient.tokens (s : NtpClient) : ℕ := s.idleSem.getD 0

namespace NtpCall

/-- The call has the admission lock. -/
def holds : NtpCall → ℕ
  | .inAcquire | .refused | .admitted | .inGiveUp _ | .leavingGiveUp _ | .inRelease _ => 1
  | .posting _ | .leavingRelease _ | .inDeinit | .closing _ => 1
  | _ => 0

/-- The operation is counted. -/
def counted : NtpCall → ℕ
  | .admitted | .locking | .givingUp _ | .inGiveUp _ | .working | .finishing _ => 1
  | .releasing _ | .inRelease _ => 1
  | _ => 0

/-- The deinit that has set `closing`. -/
def closes : NtpCall → ℕ
  | .closing _ | .waiting | .destroyingOperation | .destroyingIdle | .destroyingAdmission => 1
  | .deinited | .failed _ => 1
  | _ => 0

/-- The operation is no longer counted, and has more to do than the unlock of a release. -/
def lingers : NtpCall → ℕ
  | .posting _ | .leavingGiveUp _ => 1
  | _ => 0

/-- The deinit knows that no operation is left. -/
def Quiet : NtpCall → Prop
  | .closing waits => waits = false
  | .destroyingOperation | .destroyingIdle | .destroyingAdmission | .deinited => True
  | _ => False

/-- The call is about to post. -/
def Posts : NtpCall → Prop
  | .posting _ => True
  | _ => False

/-- A call that lingers holds the admission lock. -/
theorem lingers_le_holds (call : NtpCall) : call.lingers ≤ call.holds := by
  cases call <;> simp only [lingers, holds, Nat.le_refl, Nat.zero_le]

end NtpCall

namespace NtpSystem

/-- The client is closing, nobody is counted, and nobody is in the admission lock who could post. -/
def Clear (s : NtpSystem) : Prop :=
  s.shared.closing = true ∧ s.shared.activeUsers = 0 ∧ Threads.total NtpCall.lingers s.calls = 0

/-- What holds of the client and the calls inside it. -/
structure Tracked (s : NtpSystem) : Prop where
  gate : s.shared.admissionLock ≠ .destroyed →
    Threads.total NtpCall.holds s.calls ≤ s.shared.admissionLock.taken
  counted : Threads.total NtpCall.counted s.calls ≤ s.shared.activeUsers
  closers : Threads.total NtpCall.closes s.calls = s.shared.closing.toNat
  tokens : 0 < s.shared.tokens → s.Clear
  destroyed : s.shared.admissionLock = .destroyed → s.Clear
  quiet : ∀ call ∈ s.calls, call.Quiet → s.Clear
  posts : ∀ call ∈ s.calls, call.Posts → s.shared.closing = true ∧ s.shared.activeUsers = 0

end NtpSystem

/-- What a step of a call can do to what the invariant is about. -/
structure NtpCall.Moves (s : NtpClient) (call : NtpCall) (s' : NtpClient) (call' : NtpCall) :
    Prop where
  gate : s'.admissionLock ≠ .destroyed → s.admissionLock ≠ .destroyed ∧
    call'.holds + s.admissionLock.taken ≤ call.holds + s'.admissionLock.taken
  counted : call'.counted + s.activeUsers ≤ call.counted + s'.activeUsers
  closers : call'.closes + s.closing.toNat = call.closes + s'.closing.toNat
  closing : s.closing = true → s'.closing = true ∧ s'.activeUsers ≤ s.activeUsers
  lingers : call'.lingers ≤ call.lingers ∨ call.counted = 1
  tokens : 0 < s'.tokens → 0 < s.tokens ∨ call.Posts ∧ call'.lingers = 0
  destroyed : s'.admissionLock = .destroyed → s.admissionLock = .destroyed ∨ call.Quiet
  quiet : call'.Quiet → call.Quiet ∨ 0 < s.tokens ∨
    call = .inDeinit ∧ call'.lingers = 0 ∧ s.closing = false ∧ s'.closing = true ∧
      s'.activeUsers = 0
  posts : call'.Posts → s'.closing = true ∧ s'.activeUsers = 0

namespace NtpCall

variable {s s' : NtpClient} {call call' : NtpCall}

/-- A step that leaves the client as it is but for the locks. -/
theorem Moves.of_same (hsame : s'.closing = s.closing ∧ s'.activeUsers = s.activeUsers ∧
      s'.idleSem = s.idleSem)
    (hgate : s'.admissionLock ≠ .destroyed → s.admissionLock ≠ .destroyed ∧
      call'.holds + s.admissionLock.taken ≤ call.holds + s'.admissionLock.taken)
    (hdestroyed : s'.admissionLock = .destroyed → s.admissionLock = .destroyed)
    (hcounted : call'.counted ≤ call.counted) (hcloses : call'.closes = call.closes)
    (hlingers : call'.lingers ≤ call.lingers) (hquiet : call'.Quiet → call.Quiet)
    (hposts : ¬call'.Posts) : call.Moves s s' call' := by
  obtain ⟨hclosing, husers, hidle⟩ := hsame
  refine ⟨hgate, ?_, ?_, fun h => ⟨hclosing ▸ h, Nat.le_of_eq husers⟩, .inl hlingers, fun h => ?_,
    fun h => .inl (hdestroyed h), fun h => .inl (hquiet h), fun h => absurd h hposts⟩
  · rw [husers]
    exact Nat.add_le_add_right hcounted _
  · rw [hclosing, hcloses]
  · rw [NtpClient.tokens, hidle] at h
    exact .inl h

/-- A step that changes nothing but the place of the call. -/
theorem Moves.of_eq (hholds : call'.holds ≤ call.holds) (hcounted : call'.counted ≤ call.counted)
    (hcloses : call'.closes = call.closes) (hlingers : call'.lingers ≤ call.lingers)
    (hquiet : call'.Quiet → call.Quiet) (hposts : ¬call'.Posts) : call.Moves s s call' :=
  .of_same ⟨rfl, rfl, rfl⟩ (fun h => ⟨h, Nat.add_le_add_right hholds _⟩) id hcounted hcloses
    hlingers hquiet hposts

/-- Taking the admission lock. -/
theorem lockAdmission_moves {env : NtpEnv} {next : NtpCall} {failed : Err → NtpCall}
    (hcall : ¬call.Posts) (hnext : next.holds = 1 ∧ next.counted ≤ call.counted ∧
      next.closes = call.closes ∧ next.lingers = 0 ∧ ¬next.Quiet ∧ ¬next.Posts)
    (hfailed : ∀ e, (failed e).holds = 0 ∧ (failed e).counted = 0 ∧
      (failed e).closes = call.closes ∧ (failed e).lingers = 0 ∧ ¬(failed e).Quiet ∧
      ¬(failed e).Posts) :
    call.Moves s (lockAdmission env s call next failed).1
      (lockAdmission env s call next failed).2 := by
  obtain ⟨hholds, hcounted, hcloses, hlingers, hquiet, hposts⟩ := hnext
  unfold lockAdmission
  cases env.lock with
  | some e =>
    obtain ⟨hholds', hcounted', hcloses', hlingers', hquiet', hposts'⟩ := hfailed e
    exact .of_eq (hholds' ▸ Nat.zero_le _) (hcounted' ▸ Nat.zero_le _) hcloses'
      (hlingers' ▸ Nat.zero_le _) (fun h => absurd h hquiet') hposts'
  | none =>
    dsimp only
    split_ifs with hfree
    · refine .of_same ⟨rfl, rfl, rfl⟩ (fun _ => ⟨by rw [hfree]; rintro ⟨⟩, ?_⟩) (by rintro ⟨⟩)
        hcounted hcloses (hlingers ▸ Nat.zero_le _) (fun h => absurd h hquiet) hposts
      rw [hholds, hfree]
      exact Nat.le_add_left 1 _
    · exact .of_eq (Nat.le_refl _) (Nat.le_refl _) rfl (Nat.le_refl _) id hcall

/-- Giving it up. -/
theorem unlockAdmission_moves {env : NtpEnv} {next : NtpCall} (hheld : call.holds = 1)
    (hnext : next.holds = 0 ∧ next.counted ≤ call.counted ∧ next.closes = call.closes ∧
      next.lingers = 0 ∧ (next.Quiet → call.Quiet) ∧ ¬next.Posts) :
    call.Moves s (unlockAdmission env s next).1 (unlockAdmission env s next).2 := by
  obtain ⟨hholds, hcounted, hcloses, hlingers, hquiet, hposts⟩ := hnext
  have hstays : call.Moves s s next :=
    .of_eq (hholds ▸ Nat.zero_le _) hcounted hcloses (hlingers ▸ Nat.zero_le _) hquiet hposts
  unfold unlockAdmission
  cases env.unlock with
  | some e => exact hstays
  | none =>
    dsimp only
    split_ifs with htaken
    · refine .of_same ⟨rfl, rfl, rfl⟩ (fun _ => ⟨by rw [htaken]; rintro ⟨⟩, ?_⟩) (by rintro ⟨⟩)
        hcounted hcloses (hlingers ▸ Nat.zero_le _) hquiet hposts
      exact Nat.le_of_eq (by rw [hholds, hheld, htaken]; rfl)
    · exact hstays

/-- A counted operation is taken from the count. -/
theorem leaves_moves (hcounted : call.counted = 1) (hcounted' : call'.counted = 0)
    (hholds : call'.holds ≤ call.holds) (hcloses : call'.closes = call.closes)
    (hquiet : ¬call'.Quiet)
    (hposts : call'.Posts → s.closing = true ∧ s.leaves.activeUsers = 0) :
    call.Moves s s.leaves call' := by
  have husers : s.leaves.activeUsers ≤ s.activeUsers ∧
      s.activeUsers ≤ 1 + s.leaves.activeUsers := by
    unfold NtpClient.leaves
    dsimp only
    split_ifs <;> omega
  refine ⟨fun h => ⟨h, Nat.add_le_add_right hholds _⟩, ?_, ?_, fun h => ⟨h, husers.1⟩,
    .inr hcounted, .inl, .inl, fun h => absurd h hquiet, hposts⟩
  · rw [hcounted, hcounted', Nat.zero_add]
    exact husers.2
  · rw [hcloses]
    rfl

/-- What a step does to the client and to the call. -/
theorem step_moves (env : NtpEnv) (s : NtpClient) (call : NtpCall) :
    call.Moves s (call.step env s).1 (call.step env s).2 := by
  -- the admission is taken and given up around each part; only two parts touch the count or the
  -- flag
  cases call with
  | entering =>
    exact lockAdmission_moves id ⟨rfl, Nat.le_refl _, rfl, rfl, id, id⟩
      fun _ => ⟨rfl, rfl, rfl, rfl, id, id⟩
  | inAcquire =>
    -- Refused by a closing client, or counted as a user.
    dsimp only [NtpCall.step]
    split_ifs with hclosing
    · exact .of_eq (Nat.le_refl _) (Nat.le_refl _) rfl (Nat.le_refl _) id id
    · refine ⟨fun h => ⟨h, Nat.le_refl _⟩, ?_, rfl, fun h => absurd h hclosing,
        .inl (Nat.le_refl _), .inl, .inl, False.elim, False.elim⟩
      show 1 + s.activeUsers ≤ 0 + (s.activeUsers + 1)
      omega
  | refused => exact unlockAdmission_moves rfl ⟨rfl, Nat.le_refl _, rfl, rfl, id, id⟩
  | admitted => exact unlockAdmission_moves rfl ⟨rfl, Nat.le_refl _, rfl, rfl, id, id⟩
  -- The operation lock is taken, held by another, or fails.
  | locking =>
    dsimp only [NtpCall.step]
    cases env.lock with
    | some e => exact .of_eq (Nat.le_refl _) (Nat.le_refl _) rfl (Nat.le_refl _) id id
    | none =>
      dsimp only
      split_ifs
      · exact .of_same ⟨rfl, rfl, rfl⟩ (fun h => ⟨h, Nat.le_refl _⟩) id (Nat.le_refl _) rfl
          (Nat.le_refl _) id id
      · exact .of_eq (Nat.le_refl _) (Nat.le_refl _) rfl (Nat.le_refl _) id id
  -- To give up, the call takes the admission first, as to release.
  | givingUp e =>
    exact lockAdmission_moves id ⟨rfl, Nat.le_refl _, rfl, rfl, id, id⟩
      fun _ => ⟨rfl, rfl, rfl, rfl, id, id⟩
  | inGiveUp e => exact leaves_moves rfl rfl (Nat.le_refl _) rfl id False.elim
  | leavingGiveUp e => exact unlockAdmission_moves rfl ⟨rfl, Nat.le_refl _, rfl, rfl, id, id⟩
  | working => exact .of_eq (Nat.le_refl _) (Nat.le_refl _) rfl (Nat.le_refl _) id id
  | finishing result =>
    dsimp only [NtpCall.step]
    cases env.unlock with
    | some e => exact .of_eq (Nat.le_refl _) (Nat.le_refl _) rfl (Nat.le_refl _) id id
    | none =>
      dsimp only
      split_ifs
      · exact .of_same ⟨rfl, rfl, rfl⟩ (fun h => ⟨h, Nat.le_refl _⟩) id (Nat.le_refl _) rfl
          (Nat.le_refl _) id id
      · exact .of_eq (Nat.le_refl _) (Nat.le_refl _) rfl (Nat.le_refl _) id id
  | releasing result =>
    exact lockAdmission_moves id ⟨rfl, Nat.le_refl _, rfl, rfl, id, id⟩
      fun _ => ⟨rfl, rfl, rfl, rfl, id, id⟩
  -- The last user behind a closing client has to post.
  | inRelease result =>
    dsimp only [NtpCall.step]
    split_ifs with hlast
    · exact leaves_moves rfl rfl (Nat.le_refl _) rfl id fun _ => hlast
    · exact leaves_moves rfl rfl (Nat.le_refl _) rfl id False.elim
  -- The post may fail, and the call goes on either way.
  | posting result =>
    dsimp only [NtpCall.step]
    cases env.semPost with
    | some e => exact .of_eq (Nat.le_refl _) (Nat.le_refl _) rfl (Nat.zero_le _) id id
    | none =>
      exact ⟨fun h => ⟨h, Nat.le_refl _⟩, Nat.le_refl _, rfl, fun h => ⟨h, Nat.le_refl _⟩,
        .inl (Nat.zero_le _), fun _ => .inr ⟨trivial, rfl⟩, .inl, False.elim, False.elim⟩
  | leavingRelease result =>
    exact unlockAdmission_moves rfl ⟨rfl, Nat.le_refl _, rfl, rfl, id, id⟩
  | returned result => exact .of_eq (Nat.le_refl _) (Nat.le_refl _) rfl (Nat.le_refl _) id id
  | enteringDeinit =>
    exact lockAdmission_moves id ⟨rfl, Nat.le_refl _, rfl, rfl, id, id⟩
      fun _ => ⟨rfl, rfl, rfl, rfl, id, id⟩
  -- The deinit closes the gate once, and need not wait where nobody is inside.
  | inDeinit =>
    dsimp only [NtpCall.step]
    split_ifs with hclosing
    · exact .of_eq (Nat.le_refl _) (Nat.le_refl _) rfl (Nat.le_refl _) id id
    · have hopen := Bool.eq_false_iff.mpr hclosing
      refine ⟨fun h => ⟨h, Nat.le_refl _⟩, Nat.le_refl _, ?_, fun h => absurd h hclosing,
        .inl (Nat.le_refl _), .inl, .inl, fun hquiet => .inr (.inr ⟨rfl, rfl, hopen, rfl, ?_⟩),
        False.elim⟩
      · rw [hopen]
        rfl
      · exact Nat.eq_zero_of_not_pos (of_decide_eq_false hquiet)
  -- By whether it has to wait.
  | closing waits =>
    cases waits with
    | true =>
      exact unlockAdmission_moves rfl ⟨rfl, Nat.le_refl _, rfl, rfl, False.elim, id⟩
    | false =>
      exact unlockAdmission_moves rfl ⟨rfl, Nat.le_refl _, rfl, rfl, fun _ => rfl, id⟩
  -- The wait takes the token of the last user.
  | waiting =>
    dsimp only [NtpCall.step]
    cases env.semWait with
    | some e => exact .of_eq (Nat.le_refl _) (Nat.le_refl _) rfl (Nat.le_refl _) id id
    | none =>
      rcases hidle : s.idleSem with _ | _ | tokens
      · exact .of_eq (Nat.le_refl _) (Nat.le_refl _) rfl (Nat.le_refl _) id id
      · exact .of_eq (Nat.le_refl _) (Nat.le_refl _) rfl (Nat.le_refl _) id id
      · have htokens : 0 < s.tokens := by
          rw [NtpClient.tokens, hidle]
          exact Nat.succ_pos tokens
        exact ⟨fun h => ⟨h, Nat.le_refl _⟩, Nat.le_refl _, rfl, fun h => ⟨h, Nat.le_refl _⟩,
          .inl (Nat.le_refl _), fun _ => .inl htokens, .inl, fun _ => .inr (.inl htokens),
          False.elim⟩
  -- From here the client is taken apart; each step may fail.
  | destroyingOperation =>
    dsimp only [NtpCall.step]
    cases env.destroy with
    | some e => exact .of_eq (Nat.le_refl _) (Nat.le_refl _) rfl (Nat.le_refl _) False.elim id
    | none =>
      exact .of_same ⟨rfl, rfl, rfl⟩ (fun h => ⟨h, Nat.le_refl _⟩) id (Nat.le_refl _) rfl
        (Nat.le_refl _) id id
  | destroyingIdle =>
    dsimp only [NtpCall.step]
    cases env.destroy with
    | some e => exact .of_eq (Nat.le_refl _) (Nat.le_refl _) rfl (Nat.le_refl _) False.elim id
    | none =>
      exact ⟨fun h => ⟨h, Nat.le_refl _⟩, Nat.le_refl _, rfl, fun h => ⟨h, Nat.le_refl _⟩,
        .inl (Nat.le_refl _), fun h => absurd h (Nat.lt_irrefl 0), .inl, .inl, False.elim⟩
  -- The gate itself is the last to go.
  | destroyingAdmission =>
    dsimp only [NtpCall.step]
    cases env.destroy with
    | some e => exact .of_eq (Nat.le_refl _) (Nat.le_refl _) rfl (Nat.le_refl _) False.elim id
    | none =>
      exact ⟨fun h => absurd rfl h, Nat.le_refl _, rfl, fun h => ⟨h, Nat.le_refl _⟩,
        .inl (Nat.le_refl _), .inl, fun _ => .inr trivial, .inl, False.elim⟩
  | deinited => exact .of_eq (Nat.le_refl _) (Nat.le_refl _) rfl (Nat.le_refl _) id id
  | failed e => exact .of_eq (Nat.le_refl _) (Nat.le_refl _) rfl (Nat.le_refl _) id id

end NtpCall

namespace NtpSystem

variable {s : NtpSystem} {k : ℕ} {call call' : NtpCall} {s' : NtpClient}

/-- Before the first call. -/
theorem tracked_initial : initial.Tracked where
  gate _ := Nat.le_refl 0
  counted := Nat.le_refl 0
  closers := rfl
  tokens h := absurd h (Nat.lt_irrefl 0)
  destroyed := by rintro ⟨⟩
  quiet := by rintro _ ⟨⟩
  posts := by rintro _ ⟨⟩

/-- A clear client stays clear. -/
theorem Clear.moves (hclear : s.Clear) (h : s.Tracked) (hk : s.calls[k]? = some call)
    (hmoves : call.Moves s.shared s' call') : Clear ⟨s', s.calls.set k call'⟩ := by
  obtain ⟨hclosing, husers, hlingers⟩ := hclear
  obtain ⟨hclosing', husers'⟩ := hmoves.closing hclosing
  refine ⟨hclosing', Nat.le_zero.mp (husers ▸ husers'), ?_⟩
  have hset := Threads.total_set hk NtpCall.lingers call'
  show Threads.total NtpCall.lingers (s.calls.set k call') = 0
  rcases hmoves.lingers with hle | hcounted
  · omega
  · have hone := Threads.le_total hk NtpCall.counted
    have hcount := h.counted
    omega

/-- The call that has the admission lock is alone there. -/
theorem Tracked.alone (h : s.Tracked) (hk : s.calls[k]? = some call) (hheld : call.holds = 1)
    (halive : s.shared.admissionLock ≠ .destroyed) (hnext : call'.lingers = 0) :
    Threads.total NtpCall.lingers (s.calls.set k call') = 0 := by
  refine Threads.total_eq_zero.mpr fun other hother => ?_
  obtain ⟨j, hj⟩ := List.mem_iff_getElem?.mp hother
  by_cases hjk : k = j
  · subst hjk
    obtain ⟨hlt, -⟩ := List.getElem?_eq_some_iff.mp hk
    rw [List.getElem?_set_self hlt, Option.some_inj] at hj
    rw [← hj]
    exact hnext
  · rw [List.getElem?_set_ne hjk] at hj
    have hpair := Threads.pair_le_total hk hj (Ne.symm hjk) NtpCall.holds
    have hgate := h.gate halive
    have htaken := s.shared.admissionLock.taken_le
    have hholds := other.lingers_le_holds
    omega

/-- The post of the last operation leaves the client clear, -/
theorem Tracked.clear_posted (h : s.Tracked) (hk : s.calls[k]? = some call)
    (hmoves : call.Moves s.shared s' call') (hposts : call.Posts) (hlingers : call'.lingers = 0) :
    Clear ⟨s', s.calls.set k call'⟩ := by
  obtain ⟨hclosing, husers⟩ := h.posts call (List.mem_of_getElem? hk) hposts
  obtain ⟨hclosing', husers'⟩ := hmoves.closing hclosing
  have hposting : call.holds = 1 ∧ call.lingers = 1 := by
    cases call <;> first | exact ⟨rfl, rfl⟩ | exact hposts.elim
  refine ⟨hclosing', Nat.le_zero.mp (husers ▸ husers'), h.alone hk hposting.1 ?_ hlingers⟩
  intro hdestroyed
  have hone := Threads.le_total hk NtpCall.lingers
  rw [(h.destroyed hdestroyed).2.2, hposting.2] at hone
  cases hone

/-- and so does a deinit that finds nobody counted. -/
theorem Tracked.clear_closed (h : s.Tracked) (hk : s.calls[k]? = some .inDeinit)
    (hlingers : call'.lingers = 0) (hopen : s.shared.closing = false) (hclosing : s'.closing = true)
    (husers : s'.activeUsers = 0) : Clear ⟨s', s.calls.set k call'⟩ := by
  refine ⟨hclosing, husers, h.alone hk rfl ?_ hlingers⟩
  intro hdestroyed
  cases hopen.symm.trans (h.destroyed hdestroyed).1

/-- A step of a call keeps the invariant. -/
theorem Tracked.moves (h : s.Tracked) (hk : s.calls[k]? = some call)
    (hmoves : call.Moves s.shared s' call') : Tracked ⟨s', s.calls.set k call'⟩ where
  -- The gate: who holds it is counted, and the step moves gate and count together.
  gate := by
    intro halive
    obtain ⟨halive', hgate⟩ := hmoves.gate halive
    have hset := Threads.total_set hk NtpCall.holds call'
    -- each weight moves by what the step says of it
    have hheld := h.gate halive'
    show Threads.total NtpCall.holds (s.calls.set k call') ≤ s'.admissionLock.taken
    omega
  -- The users: one enters or leaves at a time.
  counted := by
    have hset := Threads.total_set hk NtpCall.counted call'
    have hcount := h.counted
    have hmoved := hmoves.counted
    show Threads.total NtpCall.counted (s.calls.set k call') ≤ s'.activeUsers
    omega
  -- One call at most closes the client.
  closers := by
    have hset := Threads.total_set hk NtpCall.closes call'
    have hclosers := h.closers
    have hmoved := hmoves.closers
    show Threads.total NtpCall.closes (s.calls.set k call') = s'.closing.toNat
    omega
  -- The token is the old one, or this step has posted it.
  tokens := by
    intro htokens
    rcases hmoves.tokens htokens with htokens' | ⟨hposts, hlingers⟩
    · exact (h.tokens htokens').moves h hk hmoves
    · exact h.clear_posted hk hmoves hposts hlingers
  -- Behind the destruction nobody is inside, since the deinit found none.
  destroyed := by
    intro hdestroyed
    rcases hmoves.destroyed hdestroyed with hdestroyed' | hquiet
    · exact (h.destroyed hdestroyed').moves h hk hmoves
    · exact (h.quiet call (List.mem_of_getElem? hk) hquiet).moves h hk hmoves
  -- What the deinit found holds on, or is found in this step.
  quiet := by
    intro other hother hquiet
    rcases List.mem_or_eq_of_mem_set hother with hother | rfl
    · exact (h.quiet other hother hquiet).moves h hk hmoves
    · rcases hmoves.quiet hquiet with hquiet' | htokens | ⟨rfl, hlingers, hopen, hclosing, husers⟩
      · exact (h.quiet call (List.mem_of_getElem? hk) hquiet').moves h hk hmoves
      · exact (h.tokens htokens).moves h hk hmoves
      · exact h.clear_closed hk hlingers hopen hclosing husers
  -- A call that posts stands behind a closed gate with no user left.
  posts := by
    intro other hother hposts
    rcases List.mem_or_eq_of_mem_set hother with hother | rfl
    · obtain ⟨hclosing, husers⟩ := h.posts other hother hposts
      obtain ⟨hclosing', husers'⟩ := hmoves.closing hclosing
      exact ⟨hclosing', Nat.le_zero.mp (husers ▸ husers')⟩
    · exact hmoves.posts hposts

/-- A call that starts leaves it clear. -/
theorem Clear.start (hclear : s.Clear) {api : NtpApi} (hlingers : api.enter.lingers = 0) :
    Clear ⟨s.shared, s.calls ++ [api.enter]⟩ := by
  obtain ⟨hclosing, husers, htotal⟩ := hclear
  refine ⟨hclosing, husers, ?_⟩
  rw [Threads.total_snoc, hlingers]
  exact htotal

/-- A call that starts. -/
theorem Tracked.start (h : s.Tracked) (api : NtpApi) :
    Tracked ⟨s.shared, s.calls ++ [api.enter]⟩ := by
  have hnew : api.enter.holds = 0 ∧ api.enter.counted = 0 ∧ api.enter.closes = 0 ∧
      api.enter.lingers = 0 ∧ ¬api.enter.Quiet ∧ ¬api.enter.Posts := by
    cases api <;> exact ⟨rfl, rfl, rfl, rfl, id, id⟩
  obtain ⟨hholds, hcounted, hcloses, hlingers, hquiet, hposts⟩ := hnew
  refine ⟨fun halive => ?_, ?_, ?_, fun ht => (h.tokens ht).start hlingers,
    fun hd => (h.destroyed hd).start hlingers, fun call hcall hq => ?_, fun call hcall hp => ?_⟩
  · rw [Threads.total_snoc, hholds]
    exact h.gate halive
  · rw [Threads.total_snoc, hcounted]
    exact h.counted
  · rw [Threads.total_snoc, hcloses]
    exact h.closers
  · rcases List.mem_append.mp hcall with hcall | hcall
    · exact (h.quiet call hcall hq).start hlingers
    · rw [List.mem_singleton.mp hcall] at hq
      exact absurd hq hquiet
  · rcases List.mem_append.mp hcall with hcall | hcall
    · exact h.posts call hcall hp
    · rw [List.mem_singleton.mp hcall] at hp
      exact absurd hp hposts

/-- A step of the system keeps it. -/
theorem Tracked.step (h : s.Tracked) (a : NtpAction) : (s.step a).2.Tracked := by
  rcases Threads.step_cases NtpApi.enter NtpCall.step s a with
    ⟨api, -, hstep⟩ | ⟨-, hstep⟩ | ⟨k, env, call, -, hk, -, hstep⟩
  · rw [NtpSystem.step, hstep]
    exact h.start api
  · rw [NtpSystem.step, hstep]
    exact h
  · rw [NtpSystem.step, hstep]
    exact h.moves hk (call.step_moves env s.shared)

/-- In every state of every run. -/
theorem tracked_run (actions : List NtpAction) : (run NtpSystem.step actions initial).2.Tracked :=
  run_invariant (fun _ a h (_ : True) => h.step a) tracked_initial
    (Meets.of_forall (fun _ _ => trivial) actions initial)

/-! ### What is destroyed -/

/-- When the client is clear, an admitted operation has the unlock of its release left at most. -/
theorem Clear.unused (hclear : s.Clear) (h : s.Tracked) (hcall : call ∈ s.calls)
    (hunlocking : ¬call.Unlocking) :
    ¬call.UsesOperation ∧ ¬call.UsesIdle ∧ ¬call.UsesAdmission := by
  obtain ⟨-, husers, hlingers⟩ := hclear
  have hcounted : call.counted = 0 :=
    Threads.total_eq_zero.mp (Nat.le_zero.mp (husers ▸ h.counted)) call hcall
  have hlinger : call.lingers = 0 := Threads.total_eq_zero.mp hlingers call hcall
  cases call <;>
    first
    | exact ⟨id, id, id⟩
    | exact absurd hcounted Nat.one_ne_zero
    | exact absurd hlinger Nat.one_ne_zero
    | exact absurd trivial hunlocking

/-- An operation that is unlocking the admission lock uses nothing else. -/
theorem unlocking_unused (h : call.Unlocking) : ¬call.UsesOperation ∧ ¬call.UsesIdle := by
  cases call <;> first | exact ⟨id, id⟩ | exact h.elim

/-- A step that meets the condition is careful. -/
theorem Tracked.careful (h : s.Tracked) {a : NtpAction} (hpermits : s.Permits a) :
    s.Careful a := by
  rintro ⟨env, call⟩ hacting
  have hmem : call ∈ s.calls := by
    cases a with
    | start api => cases hacting
    | advance k env' =>
      obtain ⟨t, hk, hpair⟩ := Option.map_eq_some_iff.mp hacting
      cases hpair
      exact List.mem_of_getElem? hk
  have hpermitted := hpermits (env, call) hacting
  -- only the three destructions could take something from another call
  cases call with
  | destroyingOperation =>
    intro other hother
    by_cases hunlocking : other.Unlocking
    · exact (unlocking_unused hunlocking).1
    · exact ((h.quiet _ hmem trivial).unused h hother hunlocking).1
  | destroyingIdle =>
    intro other hother
    by_cases hunlocking : other.Unlocking
    · exact (unlocking_unused hunlocking).2
    · exact ((h.quiet _ hmem trivial).unused h hother hunlocking).2.1
  | destroyingAdmission =>
    intro other hother
    exact ((h.quiet _ hmem trivial).unused h hother (hpermitted.2 other hother)).2.2
  | _ => trivial

/-! ### Deinits that fail -/

/-- A deinit that has failed half-way is the last one that got past `closing`: none completes any
more. -/
theorem failed_never_completes (h : s.Tracked) {e : Err} (hfailed : .failed e ∈ s.calls)
    (actions : List NtpAction) : .deinited ∉ (run NtpSystem.step actions s).2.calls := by
  -- The failed deinit keeps its place in the list of calls, and takes no further step.
  obtain ⟨k, hk⟩ := List.mem_iff_getElem?.mp hfailed
  have hkeeps : ∀ (s : NtpSystem) (a : NtpAction), s.Tracked ∧ s.calls[k]? = some (.failed e) →
      True → (s.step a).2.Tracked ∧ (s.step a).2.calls[k]? = some (.failed e) := by
    rintro s a ⟨h, hk⟩ -
    refine ⟨h.step a, ?_⟩
    obtain ⟨hlt, -⟩ := List.getElem?_eq_some_iff.mp hk
    rcases Threads.step_cases NtpApi.enter NtpCall.step s a with
      ⟨api, -, hstep⟩ | ⟨-, hstep⟩ | ⟨j, env, call, -, hj, -, hstep⟩
    · rw [NtpSystem.step, hstep, List.getElem?_append_left hlt]
      exact hk
    · rw [NtpSystem.step, hstep]
      exact hk
    · rw [NtpSystem.step, hstep]
      by_cases hjk : j = k
      · subst hjk
        rw [hk, Option.some_inj] at hj
        subst hj
        exact List.getElem?_set_self hlt
      · rw [List.getElem?_set_ne hjk]
        exact hk
  obtain ⟨hend, hkend⟩ := run_invariant hkeeps ⟨h, hk⟩
    (Meets.of_forall (fun _ _ => trivial) actions s)
  intro hdeinited
  obtain ⟨j, hj⟩ := List.mem_iff_getElem?.mp hdeinited
  have hjk : j ≠ k := by
    rintro rfl
    cases hj.symm.trans hkend
  -- both are deinits that have set `closing`
  have hpair := Threads.pair_le_total hkend hj hjk NtpCall.closes
  have hclosers := hend.closers
  have hone := Bool.toNat_le (run NtpSystem.step actions s).2.shared.closing
  have hboth : NtpCall.closes (.failed e) + NtpCall.closes .deinited = 2 := rfl
  omega

/-- So a client can be deinitialised after a failure only when there was none. -/
theorem retryable_iff (h : s.Tracked) : s.Retryable ↔ ∀ e, .failed e ∉ s.calls := by
  refine ⟨fun hretry e hfailed => ?_, fun hnone hfailed => ?_⟩
  · obtain ⟨actions, hdeinited⟩ := hretry ⟨e, hfailed⟩
    exact failed_never_completes h hfailed actions hdeinited
  · obtain ⟨e, hfailed⟩ := hfailed
    exact absurd hfailed (hnone e)

/-- A permitted step is no failure of a deinit. -/
-- a wait or a destruction that fails is what the condition excludes
theorem step_unfailed {env : NtpEnv} (hpermits : s.PermitsCall env call)
    (hcall : ∀ e, call ≠ .failed e) (e : Err) : (call.step env s.shared).2 ≠ .failed e := by
  cases call with
  | waiting =>
    dsimp only [NtpCall.step]
    rw [show env.semWait = none from hpermits]
    rcases s.shared.idleSem with _ | _ | tokens <;> rintro ⟨⟩
  | destroyingOperation =>
    dsimp only [NtpCall.step]
    rw [show env.destroy = none from hpermits]
    rintro ⟨⟩
  | destroyingIdle =>
    dsimp only [NtpCall.step]
    rw [show env.destroy = none from hpermits]
    rintro ⟨⟩
  | destroyingAdmission =>
    dsimp only [NtpCall.step]
    rw [hpermits.1]
    rintro ⟨⟩
  | failed e' => exact absurd rfl (hcall e')
  | _ =>
    dsimp only [NtpCall.step, lockAdmission, unlockAdmission]
    repeat' split
    all_goals rintro ⟨⟩

/-- No call fails. -/
theorem unfailed_step (h : ∀ e, .failed e ∉ s.calls) {a : NtpAction} (hpermits : s.Permits a)
    (e : Err) : .failed e ∉ (s.step a).2.calls := by
  rcases Threads.step_cases NtpApi.enter NtpCall.step s a with
    ⟨api, -, hstep⟩ | ⟨-, hstep⟩ | ⟨k, env, call, -, hk, hacting, hstep⟩
  · rw [NtpSystem.step, hstep]
    intro hmem
    rcases List.mem_append.mp hmem with hmem | hmem
    · exact h e hmem
    · have hfailed := List.mem_singleton.mp hmem
      cases api <;> cases hfailed
  · rw [NtpSystem.step, hstep]
    exact h e
  · rw [NtpSystem.step, hstep]
    intro hmem
    rcases List.mem_or_eq_of_mem_set hmem with hmem | hfailed
    · exact h e hmem
    · refine step_unfailed (hpermits (env, call) hacting) ?_ e hfailed.symm
      rintro e' rfl
      exact h e' (List.mem_of_getElem? hk)

/-! ### The result -/

/-- In every run whose steps permit it, what a deinit destroys no admitted operation has a step left
on, and the client can be deinitialised after every failure. -/
theorem ntp_shutdown_safe {actions : List NtpAction}
    (hpermits : Meets NtpSystem.step Permits actions initial) :
    Meets NtpSystem.step Careful actions initial ∧
      Always NtpSystem.step Retryable actions initial := by
  have hstep : ∀ (s : NtpSystem) (a : NtpAction), (s.Tracked ∧ ∀ e, .failed e ∉ s.calls) →
      s.Permits a → (s.step a).2.Tracked ∧ ∀ e, .failed e ∉ (s.step a).2.calls :=
    fun s a h hok => ⟨h.1.step a, unfailed_step h.2 hok⟩
  have hinitial : initial.Tracked ∧ ∀ e, .failed e ∉ initial.calls :=
    ⟨tracked_initial, by rintro _ ⟨⟩⟩
  exact ⟨Meets.of_invariant hstep (fun _ _ h hok => h.1.careful hok) hinitial hpermits,
    always_of_invariant hstep (fun _ h => (retryable_iff h.1).mpr h.2) hinitial hpermits⟩

/-- Everything works. -/
def calm : NtpEnv := ⟨none, none, none, none, none, none⟩

/-- `n` steps of a call, with all answers in order. -/
def steps (k n : ℕ) : List NtpAction := List.replicate n (.advance k calm)

/-- A deinit waits for an operation, which gets as far as its post. -/
def untilPosted : List NtpAction :=
  [.start .operation] ++ steps 0 6 ++ [.start .deinit] ++ steps 1 3 ++ steps 0 3

/-- An operation and a deinit that waits for it. -/
theorem ntp_shutdown_safe_waits :
    (run NtpSystem.step (untilPosted ++ steps 0 1 ++ steps 1 4) initial).2.calls =
        [.returned none, .deinited] ∧
      Meets NtpSystem.step Careful (untilPosted ++ steps 0 1 ++ steps 1 4) initial ∧
      Always NtpSystem.step Retryable (untilPosted ++ steps 0 1 ++ steps 1 4) initial :=
  ⟨by decide +kernel, ntp_shutdown_safe (by decide +kernel)⟩

/-- The deinit runs ahead of the unlock behind the post; and one whose first destroy fails cannot be
retried. -/
theorem not_ntp_shutdown_safe :
    ¬Meets NtpSystem.step Careful (untilPosted ++ steps 1 4) initial ∧
      ¬Always NtpSystem.step Retryable
        ([.start .deinit] ++ steps 0 3 ++
          [.advance 0 { calm with destroy := some ⟨.adapterSystem, .hwFailure⟩ }]) initial := by
  refine ⟨by decide +kernel, fun hretry => ?_⟩
  exact (retryable_iff (tracked_run _)).mp hretry.last ⟨.adapterSystem, .hwFailure⟩
    (by decide +kernel)

end NtpSystem

end TrustSdk.Ntp
