import TrustSdk.Lib.Release
import TrustSdk.Queue.Calls

/-!
# Destroying the bounded queue

`actrust_queue_destroy` closes the queue and releases its four primitives, each one on its own: an
attempt that fails keeps what it could not release, and the next attempt takes up from there.

The model is the sequential one, of a queue that nobody else is in. The counters of callers are
part of it: with a caller left inside, `queue_wait_quiescent` would poll for good (`Fault.polls`).
-/

namespace TrustSdk.Queue

open Release

/-- How a call fails: with an error, or by waiting for what nobody does. -/
inductive Fault where
  | err (e : Err)
  | polls
  deriving DecidableEq, Repr

/-- What a queue holds; the structure and its buffer are released together. -/
inductive QueueResource where
  | emptySlots
  | filledSlots
  | stateLock
  | lock
  | memory
  deriving DecidableEq, Repr

/-- The handles of a queue that has not been freed, of which each may be `NULL`. -/
structure QueueHandles where
  emptySlots : Bool
  filledSlots : Bool
  stateLock : Bool
  lock : Bool
  state : QueueState
  inFlight : ℕ
  waitingPush : ℕ
  waitingPop : ℕ
  deriving DecidableEq, Repr

/-- The queue as `actrust_queue_create` leaves it. -/
def QueueHandles.created : QueueHandles := ⟨true, true, true, true, .isOpen, 0, 0, 0⟩

/-- The resources that are still there. -/
def QueueHandles.Holds (q : QueueHandles) : QueueResource → Prop
  | .emptySlots => q.emptySlots = true
  | .filledSlots => q.filledSlots = true
  | .stateLock => q.stateLock = true
  | .lock => q.lock = true
  | .memory => True

/-- Nobody is in the queue. -/
structure QueueHandles.Unused (q : QueueHandles) : Prop where
  inFlight : q.inFlight = 0
  waitingPush : q.waitingPush = 0
  waitingPop : q.waitingPop = 0

/-- What the calls of one attempt answer; `none` is success. -/
structure QueueDestroyEnv where
  /-- `actrust_mutex_lock`, in `actrust_queue_close`. -/
  closeLock : Option Err
  /-- `actrust_mutex_lock`, in `queue_wait_quiescent`. -/
  pollLock : Option Err
  /-- `actrust_mutex_lock`, in front of the release of `state_lock`. -/
  stateLockLock : Option Err
  emptySlots : Option Err
  filledSlots : Option Err
  stateLock : Option Err
  lock : Option Err
  deriving DecidableEq, Repr

/-- The locks can be taken. -/
structure QueueDestroyEnv.Locks (env : QueueDestroyEnv) : Prop where
  closeLock : env.closeLock = none
  pollLock : env.pollLock = none
  stateLockLock : env.stateLockLock = none

/-- A stage of the destruction. -/
abbrev QueueStage := Stage QueueResource Fault QueueHandles

/-- `queue_state_lock` -/
def queueStateLock (fails : Option Err) : QueueStage := fun q =>
  if q.stateLock then
    ⟨[.use .stateLock],
      match fails with
      | none => .ok ()
      | some e => .error (.err e),
      q⟩
  else ⟨[], .error (.err (queueErr .badState)), q⟩

/-- `queue_state_unlock` -/
def queueStateUnlock : QueueStage := fun q => ⟨[.use .stateLock], .ok (), q⟩

/-- Nothing changes between two polls. -/
def queueWaitQuiescent (env : QueueDestroyEnv) : QueueStage :=
  andThen (queueStateLock env.pollLock) fun q =>
    ⟨[.use .stateLock],
      if q.inFlight = 0 ∧ q.waitingPush = 0 ∧ q.waitingPop = 0 then .ok () else .error .polls, q⟩

/-- `actrust_queue_close`, as destroy calls it. -/
def actrustQueueClose (env : QueueDestroyEnv) : QueueStage :=
  andThen (queueStateLock env.closeLock) fun q =>
    if q.state = .closed then queueStateUnlock q
    else andThen queueStateUnlock (queueWaitQuiescent env) { q with state := .closing }

/-- The section of `actrust_queue_destroy` for `state_lock`, which takes the lock once more. -/
def queueReleaseStateLock (env : QueueDestroyEnv) : QueueStage := fun q =>
  if q.stateLock then
    match env.stateLockLock with
    | some e => ⟨[.use .stateLock], .error (.err e), q⟩
    | none =>
      andThen (fun q => ⟨[.use .stateLock], .ok (), { q with state := .closed }⟩)
        (releaseIf .stateLock QueueHandles.stateLock (fun q => { q with stateLock := false })
          (env.stateLock.map .err)) q
  else ⟨[], .ok (), q⟩

/-- The four primitives: an error does not keep the others from being released. -/
def queueReleasePrimitives (env : QueueDestroyEnv) : QueueStage :=
  both
    (releaseIf .emptySlots QueueHandles.emptySlots (fun q => { q with emptySlots := false })
      (env.emptySlots.map .err))
    (both
      (releaseIf .filledSlots QueueHandles.filledSlots (fun q => { q with filledSlots := false })
        (env.filledSlots.map .err))
      (both (queueReleaseStateLock env)
        (releaseIf .lock QueueHandles.lock (fun q => { q with lock := false })
          (env.lock.map .err))))

/-- `actrust_queue_destroy` on a queue that is there; the handle is cleared by the caller below. -/
def queueDestroy (env : QueueDestroyEnv) : QueueStage :=
  andThen (fun q => if q.stateLock then actrustQueueClose env q else ⟨[], .ok (), q⟩)
    (andThen (queueReleasePrimitives env) fun q =>
      if q.emptySlots ∨ q.filledSlots ∨ q.stateLock ∨ q.lock then
        ⟨[], .error (.err (queueErr .busy)), q⟩
      else ⟨[], .ok (), q⟩)

/-- `actrust_queue_destroy`: the handle is `none` when it has been cleared. -/
def actrustQueueDestroy (env : QueueDestroyEnv) :
    Stage QueueResource Fault (Option QueueHandles)
  | none => ⟨[], .error (.err (queueErr .invalidArg)), none⟩
  | some q =>
    match (queueDestroy env q).result with
    | .error e => ⟨(queueDestroy env q).log, .error e, some (queueDestroy env q).state⟩
    | .ok _ => ⟨(queueDestroy env q).log ++ [.release .memory], .ok (), none⟩

/-! ### What the stages do -/

/-- The resources of a queue. -/
def QueueHandles.held (q : QueueHandles) : Set QueueResource := {r | q.Holds r}

/-- What the handle holds. -/
def held : Option QueueHandles → Set QueueResource
  | none => ∅
  | some q => q.held

section Stages

variable {env : QueueDestroyEnv}

/-- Taking the state lock uses it only. -/
theorem queueStateLock_meets {P : QueueHandles → Prop} (fails : Option Err)
    (hlock : ∀ q, P q → q.stateLock = true) :
    Meets (fails = none) QueueHandles.held P (queueStateLock fails) P P := by
  have heq : ∀ q, P q → queueStateLock fails q = ⟨[.use .stateLock],
      match fails with
      | none => .ok ()
      | some e => .error (.err e), q⟩ := by
    intro q hq
    unfold queueStateLock
    rw [if_pos (hlock q hq)]
  refine .of_uses ?_ ?_ ?_ ?_ ?_
  · intro q hq
    rw [heq q hq]
    refine ⟨[.stateLock], rfl, fun r hr => ?_⟩
    rw [List.mem_singleton.mp hr]
    exact hlock q hq
  · intro q hq
    rw [heq q hq]
  · intro q hq _
    rw [heq q hq]
    exact hq
  · intro q e hq _
    rw [heq q hq]
    exact hq
  · intro hnone q hq
    rw [heq q hq, hnone]

/-- So does giving it up. -/
theorem queueStateUnlock_meets {P E : QueueHandles → Prop} {works : Prop}
    (hlock : ∀ q, P q → q.stateLock = true) :
    Meets works QueueHandles.held P queueStateUnlock P E := by
  refine .of_uses ?_ (fun _ _ => rfl) (fun _ hq _ => hq) (fun _ _ _ h => nomatch h)
    (fun _ _ _ => rfl)
  intro q hq
  refine ⟨[.stateLock], rfl, fun r hr => ?_⟩
  rw [List.mem_singleton.mp hr]
  exact hlock q hq

/-- With nobody inside, the first poll ends the wait. -/
theorem queueWaitQuiescent_meets : Meets env.Locks QueueHandles.held
    (fun q => q.Unused ∧ q.stateLock = true) (queueWaitQuiescent env) QueueHandles.Unused
    QueueHandles.Unused := by
  refine .andThen (((queueStateLock_meets env.pollLock fun q hq => hq.2).weaken
    QueueDestroyEnv.Locks.pollLock (fun _ h => h) (fun _ h => h) fun _ h => h.1)) ?_
  refine .of_uses ?_ (fun _ _ => rfl) (fun _ hq _ => hq.1) (fun _ _ hq _ => hq.1) ?_
  · intro q hq
    refine ⟨[.stateLock], rfl, fun r hr => ?_⟩
    rw [List.mem_singleton.mp hr]
    exact hq.2
  · intro _ q hq
    exact if_pos ⟨hq.1.inFlight, hq.1.waitingPush, hq.1.waitingPop⟩

/-- Closing uses and releases nothing but the lock it takes. -/
theorem actrustQueueClose_meets : Meets env.Locks QueueHandles.held
    (fun q => q.Unused ∧ q.stateLock = true) (actrustQueueClose env) QueueHandles.Unused
    QueueHandles.Unused := by
  refine .andThen ((queueStateLock_meets env.closeLock fun q hq => hq.2).weaken
    QueueDestroyEnv.Locks.closeLock (fun _ h => h) (fun _ h => h) fun _ h => h.1) ?_
  refine .ite ?_ ?_
  · exact (queueStateUnlock_meets fun q hq => hq.2).weaken (fun h => h) (fun _ h => h.1)
      (fun _ h => h.1) fun _ h => h
  · refine .comp (Q := fun q => q.Unused ∧ q.stateLock = true)
      (.andThen (queueStateUnlock_meets fun q hq => hq.2) queueWaitQuiescent_meets) ?_ ?_
    · rintro q ⟨⟨hunused, hlock⟩, -⟩
      exact ⟨⟨hunused.inFlight, hunused.waitingPush, hunused.waitingPop⟩, hlock⟩
    · intro q _
      rfl

/-- A primitive is released, and the others stay. -/
theorem queueRelease_meets (works : Prop) (fails : Option Fault) {r : QueueResource}
    {present : QueueHandles → Bool} {clear : QueueHandles → QueueHandles}
    (hpresent : ∀ q, present q = true ↔ r ∈ q.held) (hclear : ∀ q, (clear q).held = q.held \ {r})
    (hunused : ∀ q : QueueHandles, q.Unused → (clear q).Unused) :
    Meets works QueueHandles.held QueueHandles.Unused (releaseIf r present clear fails)
      (fun q => q.Unused ∧ r ∉ q.held) QueueHandles.Unused :=
  .releaseIf hpresent hclear (fun _ hq hr => ⟨hq, hr⟩) (fun q hq hr => ⟨hunused q hq, hr⟩)
    fun _ hq _ => hq

/-- Without its semaphore for empty slots. -/
theorem held_emptySlots (q : QueueHandles) :
    { q with emptySlots := false }.held = q.held \ {.emptySlots} := by
  ext r
  cases r <;> simp [QueueHandles.held, QueueHandles.Holds]

/-- Without its semaphore for items. -/
theorem held_filledSlots (q : QueueHandles) :
    { q with filledSlots := false }.held = q.held \ {.filledSlots} := by
  ext r
  cases r <;> simp [QueueHandles.held, QueueHandles.Holds]

/-- Without its state lock. -/
theorem held_stateLock (q : QueueHandles) :
    { q with stateLock := false }.held = q.held \ {.stateLock} := by
  ext r
  cases r <;> simp [QueueHandles.held, QueueHandles.Holds]

/-- Without the lock of the ring. -/
theorem held_lock (q : QueueHandles) : { q with lock := false }.held = q.held \ {.lock} := by
  ext r
  cases r <;> simp [QueueHandles.held, QueueHandles.Holds]

/-- The state lock is released under itself, once nothing can be inside. -/
theorem queueReleaseStateLock_meets : Meets env.Locks QueueHandles.held QueueHandles.Unused
    (queueReleaseStateLock env) (fun q => q.Unused ∧ .stateLock ∉ q.held)
    QueueHandles.Unused := by
  refine .ite ?_ ?_
  · -- a failing lock leaves the mutex for the next attempt
    cases hlock : env.stateLockLock with
    | some e =>
      refine .of_uses ?_ (fun _ _ => rfl) (fun _ _ h => nomatch h) (fun _ _ hq _ => hq.1)
        fun hw => nomatch hlock.symm.trans hw.stateLockLock
      intro q hq
      refine ⟨[.stateLock], rfl, fun r hr => ?_⟩
      rw [List.mem_singleton.mp hr]
      exact hq.2
    | none =>
      have hclosed : Meets env.Locks QueueHandles.held
          (fun q => q.Unused ∧ q.stateLock = true)
          (fun q => (⟨[.use .stateLock], .ok (), { q with state := .closed }⟩ :
            Outcome QueueResource Fault QueueHandles))
          QueueHandles.Unused QueueHandles.Unused := by
        refine .of_uses ?_ (fun _ _ => rfl) ?_ (fun _ _ _ h => nomatch h) (fun _ _ _ => rfl)
        · intro q hq
          refine ⟨[.stateLock], rfl, fun r hr => ?_⟩
          rw [List.mem_singleton.mp hr]
          exact hq.2
        · rintro q ⟨hunused, -⟩ -
          exact ⟨hunused.inFlight, hunused.waitingPush, hunused.waitingPop⟩
      exact .andThen hclosed (queueRelease_meets _ _ (fun _ => .rfl) held_stateLock
        fun q hq => ⟨hq.inFlight, hq.waitingPush, hq.waitingPop⟩)
  · refine (Meets.skip fun q hq => ?_).weaken (fun h => h) (fun _ h => h) (fun _ h => h) fun _ h => h
    exact ⟨hq.1, hq.2⟩

/-- The four primitives are gone. -/
def QueueHandles.Released (q : QueueHandles) : Prop :=
  q.Unused ∧ .emptySlots ∉ q.held ∧ .filledSlots ∉ q.held ∧ .stateLock ∉ q.held ∧ .lock ∉ q.held

/-- The semaphores and the other mutex. -/
theorem queueReleasePrimitives_meets : Meets env.Locks QueueHandles.held QueueHandles.Unused
    (queueReleasePrimitives env) QueueHandles.Released QueueHandles.Unused := by
  have hlocks := queueReleaseStateLock_meets.both_gone
    (queueRelease_meets env.Locks (env.lock.map .err) (fun _ => .rfl) held_lock
      fun q hq => ⟨hq.inFlight, hq.waitingPush, hq.waitingPop⟩) fun q hq => hq.1
  have hfilled := (queueRelease_meets env.Locks (env.filledSlots.map .err)
    (fun _ => .rfl) held_filledSlots
      fun q hq => ⟨hq.inFlight, hq.waitingPush, hq.waitingPop⟩).both_gone hlocks fun q hq => hq.2.1
  have hempty := (queueRelease_meets env.Locks (env.emptySlots.map .err)
    (fun _ => .rfl) held_emptySlots
      fun q hq => ⟨hq.inFlight, hq.waitingPush, hq.waitingPop⟩).both_gone hfilled
      fun q hq => hq.1.1
  exact hempty.weaken (fun h => h) (fun _ h => h)
    (fun q hq => ⟨hq.1.1, hq.1.2, hq.2.1.2, hq.2.2.1.2, hq.2.2.2.2⟩) fun _ h => h

/-- All stages. -/
theorem queueDestroy_meets (env : QueueDestroyEnv) : Meets env.Locks QueueHandles.held QueueHandles.Unused
    (queueDestroy env) QueueHandles.Released QueueHandles.Unused := by
  refine .andThen (.ite actrustQueueClose_meets ?_) (queueReleasePrimitives_meets.andThen ?_)
  · exact .skip fun q hq => hq.1
  · refine .of_uses (fun q _ => ⟨[], ?_, nofun⟩) (fun q _ => ?_) ?_ ?_ ?_
    · split_ifs <;> rfl
    · split_ifs <;> rfl
    · intro q hq _
      split_ifs <;> exact hq
    · intro q e hq _
      split_ifs <;> exact hq.1
    · -- the last check finds no handle left
      intro _ q hq
      rw [if_neg]
      rintro (h | h | h | h)
      · exact hq.2.1 h
      · exact hq.2.2.1 h
      · exact hq.2.2.2.1 h
      · exact hq.2.2.2.2 h

/-- The handle is there, and nobody is in the queue. -/
def HandleUnused (handle : Option QueueHandles) : Prop := ∃ q, handle = some q ∧ q.Unused

/-- `actrust_queue_destroy`, which frees the memory last. -/
theorem actrustQueueDestroy_meets (env : QueueDestroyEnv) : Meets env.Locks held HandleUnused (actrustQueueDestroy env)
    (fun handle => handle = none) HandleUnused := by
  -- the memory is freed only when all stages went well
  have hcases : ∀ q : QueueHandles,
      (∃ e, (queueDestroy env q).result = .error e ∧ actrustQueueDestroy env (some q) =
        ⟨(queueDestroy env q).log, .error e, some (queueDestroy env q).state⟩) ∨
      ((queueDestroy env q).result = .ok () ∧ actrustQueueDestroy env (some q) =
        ⟨(queueDestroy env q).log ++ [.release .memory], .ok (), none⟩) := by
    intro q
    dsimp only [actrustQueueDestroy]
    cases (queueDestroy env q).result with
    | error e => exact .inl ⟨e, rfl, rfl⟩
    | ok _ => exact .inr ⟨rfl, rfl⟩
  have hmeets := queueDestroy_meets env
  refine ⟨?_, ?_, ?_, ?_⟩
  · rintro handle ⟨q, hhandle, hq⟩
    subst hhandle
    rcases hcases q with ⟨e, -, heq⟩ | ⟨hr, heq⟩ <;> rw [heq]
    · exact hmeets.lawful q hq
    · have hreleased := hmeets.done q hq hr
      refine (hmeets.lawful q hq).append (.release trivial ?_)
      have hnone : (queueDestroy env q).state.held \ {.memory} = held none := by
        refine Set.eq_empty_of_forall_notMem fun r hr => ?_
        cases r with
        | emptySlots => exact hreleased.2.1 hr.1
        | filledSlots => exact hreleased.2.2.1 hr.1
        | stateLock => exact hreleased.2.2.2.1 hr.1
        | lock => exact hreleased.2.2.2.2 hr.1
        | memory => exact hr.2 rfl
      rw [hnone]
      exact .nil
  · rintro handle ⟨q, hhandle, hq⟩ hok
    subst hhandle
    rcases hcases q with ⟨e, -, heq⟩ | ⟨-, heq⟩ <;> rw [heq] at hok ⊢
    cases hok
  · rintro handle e ⟨q, hhandle, hq⟩ herr
    subst hhandle
    rcases hcases q with ⟨e', hr, heq⟩ | ⟨hr, heq⟩ <;> rw [heq] at herr ⊢
    · exact ⟨_, rfl, hmeets.failed q e' hq hr⟩
    · cases herr
  · rintro hw handle ⟨q, hhandle, hq⟩
    subst hhandle
    have hclean := hmeets.clean hw q hq
    rcases hcases q with ⟨e, hr, heq⟩ | ⟨hr, heq⟩ <;> rw [heq]
    · rw [← hclean, hr]
    · refine ⟨fun _ => clean_append.mpr ⟨hclean.mp hr, fun r hr' => ?_⟩, fun _ => rfl⟩
      cases List.mem_singleton.mp hr'

/-- `actrust_queue_destroy` can be tried again, on its own. -/
theorem actrustQueueDestroy_retryable (envs : List QueueDestroyEnv) {q : QueueHandles}
    (hq : q.Unused) : Retryable QueueDestroyEnv.Locks held actrustQueueDestroy envs (some q) :=
  retryable actrustQueueDestroy_meets (fun _ hnone => hnone ▸ rfl) envs ⟨q, rfl, hq⟩

/-- The handle is cleared exactly when nothing is held. -/
theorem held_eq_empty {handle : Option QueueHandles} : held handle = ∅ ↔ handle = none := by
  constructor
  · intro h
    cases handle with
    | none => rfl
    | some q =>
      have hmem : QueueResource.memory ∈ held (some q) := trivial
      rw [h] at hmem
      exact absurd hmem (Set.notMem_empty _)
  · rintro rfl
    rfl

end Stages

end TrustSdk.Queue
