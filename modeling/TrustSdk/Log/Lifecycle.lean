import TrustSdk.Common.Errno
import TrustSdk.Lib.Threads

/-!
# The lifecycle of the log

`log.c` for any number of threads that call `actrust_log_write`, `actrust_log_init` and
`actrust_log_deinit`. Init and deinit run under the lifecycle gate, and deinit gives it up while it
waits for the writers. A writer holds the gate only while it is counted in and out: it uses the
output mutex outside of the gate, through the handle it has found when it was counted in.

* `LogCall.step` — one operation on the gate or on a mutex, or one section under the gate;
* `Tracked` — the writers that are counted have the mutex of the log, and nobody destroys it or
  makes another one while there are any;
* `log_lifecycle_safe` — no writer uses a destroyed mutex, deinit succeeds only when there are no
  writers, the count is exact, and a write that finds the log not ready uses no mutex at all.
-/

namespace TrustSdk.Log

open Machine

/-- An error of this component. -/
def logErr (code : ErrCode) : Err := ⟨.log, code⟩

/-! ### The state of the log -/

/-- `log_state_t`. -/
inductive LogState where
  | uninit
  | initing
  | ready
  | closing
  deriving DecidableEq, Repr

/-- A mutex that `actrust_mutex_create` has made. -/
inductive LogMutex where
  | free
  | held
  | destroyed
  deriving DecidableEq, Repr

/-- The state of `log.c`, with the lifecycle gate and all mutexes made so far. Here `none` is
`ACTRUST_OK`. -/
structure LogShared where
  gate : Bool
  mutexes : List LogMutex
  /-- `s_log_mutex`. -/
  mutex : Option ℕ
  /-- `s_log_state`. -/
  state : LogState
  /-- `s_log_active_writers`. -/
  activeWriters : ℕ
  /-- `s_log_teardown_error`. -/
  teardownError : Option Err
  deriving DecidableEq, Repr

/-- Before the first call of the process. -/
def LogShared.initial : LogShared := ⟨false, [], none, .uninit, 0, none⟩

/-- The mutex has been made and not been destroyed. -/
def LogShared.Alive (s : LogShared) (mutex : ℕ) : Prop :=
  ∃ m, s.mutexes[mutex]? = some m ∧ m ≠ .destroyed

/-- `log_state_error`. -/
def logStateError (state : LogState) : Err :=
  logErr (if state = .uninit then .notReady else .badState)

/-- `log_writer_acquire` between the lock and the unlock. -/
def logWriterAcquire (s : LogShared) : Except Err (ℕ × LogShared) :=
  if s.state ≠ .ready then .error (logStateError s.state)
  else
    match s.mutex with
    | none => .error (logStateError s.state)
    | some mutex =>
      if s.activeWriters = 2 ^ 32 - 1 then .error (logErr .noResource)
      else .ok (mutex, { s with activeWriters := s.activeWriters + 1 })

/-- `log_writer_release` between the lock and the unlock. -/
def logWriterRelease (unlockError : Option Err) (s : LogShared) : LogShared :=
  { s with
    activeWriters := if 0 < s.activeWriters then s.activeWriters - 1 else s.activeWriters
    teardownError := s.teardownError <|> unlockError }

/-- `actrust_log_init`. -/
def actrustLogInit (mutexCreate : Option Err) (s : LogShared) : Option Err × LogShared :=
  match s.state with
  | .ready => (none, s)
  | .uninit =>
    let s := { s with state := .initing, teardownError := none }
    match mutexCreate with
    | none => (none, { s with
        mutexes := s.mutexes ++ [.free], mutex := some s.mutexes.length, state := .ready })
    | some e => (some e, { s with mutex := none, state := .uninit })
  | _ => (some (logErr .badState), s)

/-- What a pass of the loop of `actrust_log_deinit` comes to. -/
inductive DeinitPass where
  | returns (result : Option Err)
  | waits
  deriving DecidableEq, Repr

/-- A pass of the loop of `actrust_log_deinit`. -/
def logDeinitPass (mutexDestroy : Option Err) (s : LogShared) : DeinitPass × LogShared :=
  if s.state = .uninit then (.returns (some (logErr .notReady)), s)
  else if s.state = .initing then (.returns (some (logErr .badState)), s)
  else
    let s := { s with state := .closing }
    if 0 < s.activeWriters then (.waits, s)
    else if s.teardownError ≠ none then (.returns s.teardownError, s)
    else
      match s.mutex with
      | none => (.returns none, { s with state := .uninit })
      | some mutex =>
        match mutexDestroy with
        | some e => (.returns (some e), s)
        | none => (.returns none, { s with
            mutexes := s.mutexes.set mutex .destroyed, mutex := none, state := .uninit })

/-! ### The calls -/

/-- How a call begins. -/
inductive LogApi where
  | write
  | init
  | deinit
  deriving DecidableEq, Repr

/-- Where a call is. Init and deinit take the gate first, as their callers have to. -/
inductive LogCall where
  /-- Before the lock of `log_writer_acquire`. -/
  | acquiring
  | acquired
  /-- Counted in; the unlock of `log_writer_acquire` is left. -/
  | admitted (mutex : ℕ)
  | refused (e : Err)
  /-- The write has returned what `log_writer_acquire` has. -/
  | declined (e : Err)
  | formatting (mutex : ℕ)
  | locking (mutex : ℕ)
  /-- With the output mutex. -/
  | writing (mutex : ℕ)
  | unlocking (mutex : ℕ) (result : Option Err)
  /-- Before the lock of `log_writer_release`. -/
  | releasing (result unlockError : Option Err)
  | inRelease (result unlockError : Option Err)
  | leavingRelease (result : Option Err)
  | written (result : Option Err)
  | enteringInit
  | inInit
  | leavingInit (result : Option Err)
  | enteringDeinit
  /-- At the head of the loop. -/
  | inDeinit
  /-- Before the unlock in the loop. -/
  | yielding
  /-- In the sleep, or in the lock that follows it. -/
  | sleeping
  | leavingDeinit (result : Option Err)
  /-- An init or a deinit has returned. -/
  | ended (result : Option Err)
  deriving DecidableEq, Repr

/-- Where a call starts. -/
def LogApi.enter : LogApi → LogCall
  | .write => .acquiring
  | .init => .enteringInit
  | .deinit => .enteringDeinit

/-- What the adapter answers. -/
structure LogEnv where
  lifecycleLock : Option Err
  lifecycleUnlock : Option Err
  mutexCreate : Option Err
  mutexDestroy : Option Err
  mutexLock : Option Err
  mutexUnlock : Option Err
  /-- The line cannot be made. -/
  format : Option Err
  logOut : Option Err
  deriving DecidableEq, Repr

/-- `actrust_lifecycle_lock`: it fails, or goes on when the gate is free. -/
def lifecycleLock (answer : Option Err) (s : LogShared) (waits next : LogCall)
    (failed : Err → LogCall) : LogShared × LogCall :=
  match answer with
  | some e => (s, failed e)
  | none => if s.gate then (s, waits) else ({ s with gate := true }, next)

/-- `actrust_lifecycle_unlock`. -/
def lifecycleUnlock (answer : Option Err) (s : LogShared) (next : LogCall)
    (failed : Err → LogCall) : LogShared × LogCall :=
  match answer with
  | some e => (s, failed e)
  | none => ({ s with gate := false }, next)

/-- One step of a call. -/
def LogCall.step (env : LogEnv) (s : LogShared) : LogCall → LogShared × LogCall
  | .acquiring => lifecycleLock env.lifecycleLock s .acquiring .acquired .declined
  | .acquired =>
    match logWriterAcquire s with
    | .error e => (s, .refused e)
    | .ok (mutex, s') => (s', .admitted mutex)
  | .admitted mutex => lifecycleUnlock env.lifecycleUnlock s (.formatting mutex) .declined
  | .refused e => lifecycleUnlock env.lifecycleUnlock s (.declined e) fun _ => .declined e
  | .declined e => (s, .declined e)
  | .formatting mutex =>
    match env.format with
    | some e => (s, .releasing (some e) none)
    | none => (s, .locking mutex)
  | .locking mutex =>
    match env.mutexLock with
    | some e => (s, .releasing (some e) none)
    | none =>
      if s.mutexes[mutex]? = some .free then
        ({ s with mutexes := s.mutexes.set mutex .held }, .writing mutex)
      else (s, .locking mutex)
  | .writing mutex => (s, .unlocking mutex env.logOut)
  | .unlocking mutex result =>
    match env.mutexUnlock with
    | some e => (s, .releasing (result <|> some e) (some e))
    | none =>
      if s.mutexes[mutex]? = some .held then
        ({ s with mutexes := s.mutexes.set mutex .free }, .releasing result none)
      else (s, .releasing result none)
  | .releasing result unlockError =>
    lifecycleLock env.lifecycleLock s (.releasing result unlockError)
      (.inRelease result unlockError) fun e => .written (result <|> some e)
  | .inRelease result unlockError => (logWriterRelease unlockError s, .leavingRelease result)
  | .leavingRelease result =>
    lifecycleUnlock env.lifecycleUnlock s (.written result) fun e => .written (result <|> some e)
  | .written result => (s, .written result)
  | .enteringInit =>
    lifecycleLock env.lifecycleLock s .enteringInit .inInit fun e => .ended (some e)
  | .inInit =>
    ((actrustLogInit env.mutexCreate s).2, .leavingInit (actrustLogInit env.mutexCreate s).1)
  | .leavingInit result =>
    lifecycleUnlock env.lifecycleUnlock s (.ended result) fun _ => .ended result
  | .enteringDeinit =>
    lifecycleLock env.lifecycleLock s .enteringDeinit .inDeinit fun e => .ended (some e)
  | .inDeinit =>
    match logDeinitPass env.mutexDestroy s with
    | (.returns result, s') => (s', .leavingDeinit result)
    | (.waits, s') => (s', .yielding)
  | .yielding =>
    lifecycleUnlock env.lifecycleUnlock s .sleeping fun e => .leavingDeinit (some e)
  | .sleeping =>
    -- deinit returns without the gate when it does not get it back
    lifecycleLock env.lifecycleLock s .sleeping .inDeinit fun e => .ended (some e)
  | .leavingDeinit result =>
    lifecycleUnlock env.lifecycleUnlock s (.ended result) fun _ => .ended result
  | .ended result => (s, .ended result)

/-- The threads inside the calls of the logger. -/
abbrev LogSystem := Threads.System LogShared LogCall

/-- A new call, or a step of one. -/
abbrev LogAction := Threads.Action LogApi LogEnv

/-- A step of the system. -/
def LogSystem.step : LogSystem → LogAction → Unit × LogSystem :=
  Threads.step LogApi.enter LogCall.step

/-- No call has begun. -/
def LogSystem.initial : LogSystem := ⟨.initial, []⟩

/-! ### The property -/

namespace LogCall

/-- The call has the gate. -/
def holds : LogCall → ℕ
  | .acquired | .admitted _ | .refused _ | .inRelease _ _ | .leavingRelease _ => 1
  | .inInit | .leavingInit _ | .inDeinit | .yielding | .leavingDeinit _ => 1
  | _ => 0

/-- The writer has been admitted and has not yet released. -/
def active : LogCall → ℕ
  | .admitted _ | .formatting _ | .locking _ | .writing _ | .unlocking _ _ => 1
  | .releasing _ _ | .inRelease _ _ => 1
  | _ => 0

/-- The mutex that an admitted writer has found. -/
def mutex : LogCall → Option ℕ
  | .admitted mutex | .formatting mutex | .locking mutex | .writing mutex => some mutex
  | .unlocking mutex _ => some mutex
  | _ => none

/-- The mutex that the call is about to lock or to unlock. -/
def touches : LogCall → Option ℕ
  | .locking mutex => some mutex
  | .unlocking mutex _ => some mutex
  | _ => none

/-- The call is a write. -/
def Writes : LogCall → Prop
  | .enteringInit | .inInit | .leavingInit _ | .ended _ => False
  | .enteringDeinit | .inDeinit | .yielding | .sleeping | .leavingDeinit _ => False
  | _ => True

instance : DecidablePred Writes := fun call => by
  unfold Writes
  split <;> infer_instance

/-- The operations that a writer does on the gate and on its mutex succeed. -/
def Succeeds (env : LogEnv) (call : LogCall) : Prop :=
  call.Writes → env.lifecycleLock = none ∧ env.lifecycleUnlock = none ∧
    env.mutexLock = none ∧ env.mutexUnlock = none

instance (env : LogEnv) : DecidablePred (Succeeds env) := fun call =>
  inferInstanceAs (Decidable (call.Writes → _))

/-- The write has been let in, now or before. -/
def Admitted : LogCall → Prop
  | .admitted _ | .formatting _ | .locking _ | .writing _ | .unlocking _ _ => True
  | .releasing _ _ | .inRelease _ _ | .leavingRelease _ | .written _ => True
  | _ => False

/-- The write has not been let in, with this error. -/
def Refused (e : Err) (call : LogCall) : Prop := call = .refused e ∨ call = .declined e

end LogCall

namespace LogSystem

/-- The step is no failure of a writer. -/
def WritersSucceed (s : LogSystem) (a : LogAction) : Prop :=
  ∀ p ∈ Threads.acting s a, p.2.Succeeds p.1

instance (s : LogSystem) (a : LogAction) : Decidable (s.WritersSucceed a) :=
  inferInstanceAs (Decidable (∀ p ∈ Threads.acting s a, _))

/-- What a call does. -/
inductive Event where
  /-- `log_writer_acquire` looks at the state. -/
  | examines (state : LogState)
  /-- `actrust_mutex_lock` or `actrust_mutex_unlock`. -/
  | touches (mutex : ℕ)
  deriving DecidableEq

/-- What a step of a call shows: the state it examines, or the mutex it touches. -/
def callEvents (s : LogShared) (call : LogCall) : List Event :=
  if call = .acquired then [.examines s.state] else call.touches.toList.map .touches

/-- The events of a step, with the number of the call. -/
def events (s : LogSystem) : LogAction → List (ℕ × Event)
  | .start _ => []
  | .advance k _ => (s.calls[k]?.elim [] (callEvents s.shared)).map fun event => (k, event)

/-- A mutex is locked and unlocked while it exists, the count is exact, and a deinit that returns
OK leaves no writer behind. -/
structure Safe (s : LogSystem) : Prop where
  exist : ∀ call ∈ s.calls, ∀ mutex, call.touches = some mutex → s.shared.Alive mutex
  counted : s.shared.activeWriters = Threads.total LogCall.active s.calls
  quiet : .leavingDeinit none ∈ s.calls → Threads.total LogCall.active s.calls = 0

/-- The gate is held by one call at most; the counted writers have the mutex of the log, and while
there are any it is not replaced. -/
structure Tracked (s : LogSystem) : Prop where
  gate : Threads.total LogCall.holds s.calls ≤ s.shared.gate.toNat
  counted : s.shared.activeWriters = Threads.total LogCall.active s.calls
  found : ∀ call ∈ s.calls, ∀ mutex, call.mutex = some mutex → s.shared.mutex = some mutex
  alive : ∀ mutex, s.shared.mutex = some mutex → s.shared.Alive mutex
  idle : s.shared.state = .uninit → s.shared.activeWriters = 0
  quiet : .leavingDeinit none ∈ s.calls → s.shared.activeWriters = 0

end LogSystem

/-! ### What the sections under the gate do -/

/-- A writer is let in only when the log is ready. -/
theorem logWriterAcquire_cases (s : LogShared) :
    (∃ e, logWriterAcquire s = .error e ∧ (s.state ≠ .ready → e = logStateError s.state)) ∨
    ∃ mutex, s.state = .ready ∧ s.mutex = some mutex ∧
      logWriterAcquire s = .ok (mutex, { s with activeWriters := s.activeWriters + 1 }) := by
  unfold logWriterAcquire
  by_cases hstate : s.state = .ready
  · rw [if_neg (not_not.mpr hstate)]
    cases hmutex : s.mutex with
    | none => exact .inl ⟨_, rfl, fun _ => rfl⟩
    | some mutex =>
      by_cases hfull : s.activeWriters = 2 ^ 32 - 1
      · exact .inl ⟨_, if_pos hfull, fun h => absurd hstate h⟩
      · exact .inr ⟨mutex, hstate, rfl, if_neg hfull⟩
  · rw [if_pos hstate]
    exact .inl ⟨_, rfl, fun _ => rfl⟩

/-- An init changes something only when the log is uninitialised. -/
theorem actrustLogInit_cases (mutexCreate : Option Err) (s : LogShared) :
    (∃ result, actrustLogInit mutexCreate s = (result, s)) ∨
    (s.state = .uninit ∧ actrustLogInit mutexCreate s = (none, { s with
      teardownError := none, mutexes := s.mutexes ++ [.free], mutex := some s.mutexes.length,
      state := .ready })) ∨
    ∃ e, s.state = .uninit ∧ actrustLogInit mutexCreate s = (some e, { s with
      teardownError := none, mutex := none, state := .uninit }) := by
  unfold actrustLogInit
  cases hstate : s.state with
  | uninit =>
    cases mutexCreate with
    | none => exact .inr (.inl ⟨rfl, rfl⟩)
    | some e => exact .inr (.inr ⟨e, rfl, rfl⟩)
  | _ => exact .inl ⟨_, rfl⟩

/-- A deinit gives up the mutex only when no writer is active. -/
theorem logDeinitPass_cases (mutexDestroy : Option Err) (s : LogShared) :
    (∃ e state, (state = .uninit → s.state = .uninit) ∧
      logDeinitPass mutexDestroy s = (.returns (some e), { s with state })) ∨
    logDeinitPass mutexDestroy s = (.waits, { s with state := .closing }) ∨
    ∃ mutexes, s.activeWriters = 0 ∧ logDeinitPass mutexDestroy s =
      (.returns none, { s with mutexes, mutex := none, state := .uninit }) := by
  unfold logDeinitPass
  dsimp only
  split_ifs with huninit hiniting hactive herror
  · exact .inl ⟨_, s.state, id, rfl⟩
  · exact .inl ⟨_, s.state, id, rfl⟩
  · exact .inr (.inl rfl)
  · obtain ⟨e, he⟩ := Option.ne_none_iff_exists'.mp herror
    exact .inl ⟨e, .closing, by rintro ⟨⟩, by rw [he]⟩
  · have hzero : s.activeWriters = 0 := Nat.eq_zero_of_not_pos hactive
    cases hmutex : s.mutex with
    | none => exact .inr (.inr ⟨s.mutexes, hzero, rfl⟩)
    | some mutex =>
      cases mutexDestroy with
      | some e => exact .inl ⟨e, .closing, by rintro ⟨⟩, rfl⟩
      | none => exact .inr (.inr ⟨_, hzero, rfl⟩)

/-! ### The invariant -/

/-- The step moves the call and perhaps the gate, but neither the books of the log nor what the
call has found. -/
structure LogCall.Plain (s : LogShared) (call : LogCall) (s' : LogShared) (call' : LogCall) :
    Prop where
  gate : call'.holds + s.gate.toNat ≤ call.holds + s'.gate.toNat
  active : call'.active = call.active
  found : ∀ mutex, call'.mutex = some mutex → call.mutex = some mutex
  alive : ∀ mutex, s.Alive mutex → s'.Alive mutex
  same : s'.mutex = s.mutex ∧ s'.activeWriters = s.activeWriters
  idle : s'.state = .uninit → s.state = .uninit
  quiet : call' ≠ .leavingDeinit none

namespace LogCall

variable {s : LogShared} {call call' : LogCall} {answer : Option Err}

/-- Nothing but the place of the call changes. -/
theorem Plain.moves (hholds : call'.holds ≤ call.holds) (hactive : call'.active = call.active)
    (hfound : ∀ mutex, call'.mutex = some mutex → call.mutex = some mutex)
    (hquiet : call' ≠ .leavingDeinit none) : call.Plain s s call' where
  gate := Nat.add_le_add_right hholds _
  active := hactive
  found := hfound
  alive _ h := h
  same := ⟨rfl, rfl⟩
  idle := id
  quiet := hquiet

/-- Taking the lifecycle lock. -/
theorem lifecycleLock_plain {next : LogCall} {failed : Err → LogCall}
    (hstay : call ≠ .leavingDeinit none) (hnext : next.holds = 1 ∧ next.active = call.active ∧
      next.mutex = none ∧ next ≠ .leavingDeinit none)
    (hfailed : ∀ e, answer = some e → (failed e).holds = 0 ∧ (failed e).active = call.active ∧
      (failed e).mutex = none ∧ failed e ≠ .leavingDeinit none) :
    call.Plain s (lifecycleLock answer s call next failed).1
      (lifecycleLock answer s call next failed).2 := by
  obtain ⟨hholds, hactive, hmutex, hquiet⟩ := hnext
  cases answer with
  | some e =>
    obtain ⟨hholds', hactive', hmutex', hquiet'⟩ := hfailed e rfl
    exact .moves (by rw [lifecycleLock, hholds']; exact Nat.zero_le _) hactive'
      (by rw [lifecycleLock, hmutex']; rintro _ ⟨⟩) hquiet'
  | none =>
    dsimp only [lifecycleLock]
    split_ifs with hheld
    · exact .moves (Nat.le_refl _) rfl (fun _ h => h) hstay
    · refine ⟨?_, hactive, by rw [hmutex]; rintro _ ⟨⟩, fun _ h => h, ⟨rfl, rfl⟩, id, hquiet⟩
      rw [hholds, Bool.eq_false_iff.mpr hheld]
      exact Nat.le_add_left 1 _

/-- Giving it up. -/
theorem lifecycleUnlock_plain {next : LogCall} {failed : Err → LogCall} (hheld : call.holds = 1)
    (hnext : next.holds = 0 ∧ next.active = call.active ∧
      (∀ mutex, next.mutex = some mutex → call.mutex = some mutex) ∧ next ≠ .leavingDeinit none)
    (hfailed : ∀ e, answer = some e → (failed e).holds ≤ 1 ∧ (failed e).active = call.active ∧
      (failed e).mutex = none ∧ failed e ≠ .leavingDeinit none) :
    call.Plain s (lifecycleUnlock answer s next failed).1
      (lifecycleUnlock answer s next failed).2 := by
  obtain ⟨hholds, hactive, hmutex, hquiet⟩ := hnext
  cases answer with
  | some e =>
    obtain ⟨hholds', hactive', hmutex', hquiet'⟩ := hfailed e rfl
    exact .moves (by rw [lifecycleUnlock, hheld]; exact hholds') hactive'
      (by rw [lifecycleUnlock, hmutex']; rintro _ ⟨⟩) hquiet'
  | none =>
    refine ⟨?_, hactive, hmutex, fun _ h => h, ⟨rfl, rfl⟩, id, hquiet⟩
    show next.holds + s.gate.toNat ≤ call.holds + 0
    rw [hholds, hheld, Nat.zero_add]
    exact Bool.toNat_le s.gate

/-- A mutex that is locked or unlocked goes on to exist. -/
theorem alive_set {mutexes : List LogMutex} {mutex : ℕ} {m : LogMutex} (hm : m ≠ .destroyed)
    (hlt : mutexes[mutex]? ≠ none) {other : ℕ}
    (h : ∃ m', mutexes[other]? = some m' ∧ m' ≠ .destroyed) :
    ∃ m', (mutexes.set mutex m)[other]? = some m' ∧ m' ≠ .destroyed := by
  by_cases hother : mutex = other
  · subst hother
    have hlt' : mutex < mutexes.length := by
      by_contra hge
      exact hlt (List.getElem?_eq_none (Nat.le_of_not_lt hge))
    exact ⟨m, List.getElem?_set_self hlt', hm⟩
  · rw [List.getElem?_set_ne hother]
    exact h

end LogCall

namespace LogSystem

variable {s : LogSystem} {k : ℕ} {call call' : LogCall} {s' : LogShared}

/-- Before the first call. -/
theorem tracked_initial : initial.Tracked where
  gate := Nat.le_refl 0
  counted := rfl
  found := by rintro _ ⟨⟩
  alive := by rintro _ ⟨⟩
  idle _ := rfl
  quiet := by rintro ⟨⟩

/-- A step of one call. Another deinit that is about to return OK holds the gate, so this call does
not, and lets no writer in. -/
theorem Tracked.move (h : s.Tracked) (hk : s.calls[k]? = some call)
    (hgate : call'.holds + s.shared.gate.toNat ≤ call.holds + s'.gate.toNat)
    (hcounted : s'.activeWriters + call.active = s.shared.activeWriters + call'.active)
    (hfound : ∀ other ∈ s.calls, ∀ mutex, other.mutex = some mutex → s'.mutex = some mutex)
    (hfound' : ∀ mutex, call'.mutex = some mutex → s'.mutex = some mutex)
    (halive : ∀ mutex, s'.mutex = some mutex → s'.Alive mutex)
    (hidle : s'.state = .uninit → s'.activeWriters = 0)
    (hquiet : call.holds = 0 → s.shared.activeWriters = 0 → s'.activeWriters = 0)
    (hquiet' : call' = .leavingDeinit none → s'.activeWriters = 0) :
    Tracked ⟨s', s.calls.set k call'⟩ where
  -- the gate and the count move by what the step says of them
  gate := by
    have hset := Threads.total_set hk LogCall.holds call'
    have hheld := h.gate
    show Threads.total LogCall.holds (s.calls.set k call') ≤ s'.gate.toNat
    omega
  counted := by
    have hset := Threads.total_set hk LogCall.active call'
    have hcount := h.counted
    show s'.activeWriters = Threads.total LogCall.active (s.calls.set k call')
    omega
  found := by
    intro other hother mutex hmutex
    rcases List.mem_or_eq_of_mem_set hother with hother | rfl
    · exact hfound other hother mutex hmutex
    · exact hfound' mutex hmutex
  alive := halive
  idle := hidle
  -- a deinit at its end holds the gate, so no second one can be there
  quiet := by
    intro hmem
    obtain ⟨j, hj⟩ := List.mem_iff_getElem?.mp hmem
    by_cases hjk : k = j
    · subst hjk
      obtain ⟨hlt, -⟩ := List.getElem?_eq_some_iff.mp hk
      rw [List.getElem?_set_self hlt, Option.some_inj] at hj
      exact hquiet' hj
    · rw [List.getElem?_set_ne hjk] at hj
      have hpair := Threads.pair_le_total hk hj (Ne.symm hjk) LogCall.holds
      have hone := Bool.toNat_le s.shared.gate
      have hheld : LogCall.holds (.leavingDeinit none) = 1 := rfl
      have hgate := h.gate
      exact hquiet (by omega) (h.quiet (List.mem_of_getElem? hj))

/-- A step that touches neither the state nor the mutexes. -/
theorem Tracked.plain (h : s.Tracked) (hk : s.calls[k]? = some call)
    (hplain : call.Plain s.shared s' call') : Tracked ⟨s', s.calls.set k call'⟩ := by
  obtain ⟨hmutex, hwriters⟩ := hplain.same
  refine h.move hk hplain.gate ?_ ?_ ?_ ?_ ?_ (fun _ hzero => hwriters.trans hzero)
    fun hquiet => absurd hquiet hplain.quiet
  · rw [hwriters, hplain.active]
  · intro other hother mutex hm
    rw [hmutex]
    exact h.found other hother mutex hm
  · intro mutex hm
    rw [hmutex]
    exact h.found call (List.mem_of_getElem? hk) mutex (hplain.found mutex hm)
  · intro mutex hm
    exact hplain.alive mutex (h.alive mutex (hmutex ▸ hm))
  · intro huninit
    exact hwriters.trans (h.idle (hplain.idle huninit))

/-- As long as nobody is counted, nobody has found a mutex. -/
theorem Tracked.found_none (h : s.Tracked) (hzero : s.shared.activeWriters = 0) :
    ∀ other ∈ s.calls, other.mutex = none := by
  intro other hother
  have hactive := Threads.total_eq_zero.mp (h.counted.symm.trans hzero) other hother
  cases other <;> first | rfl | cases hactive

/-- With nobody counted, the mutex may be replaced. -/
theorem Tracked.replace (h : s.Tracked) (hk : s.calls[k]? = some call) (hheld : call.holds = 1)
    (hactive : call.active = 0) (hzero : s.shared.activeWriters = 0)
    (hwriters : s'.activeWriters = 0) (hgate : s'.gate = s.shared.gate)
    (hnext : call'.holds = 1 ∧ call'.active = 0 ∧ call'.mutex = none)
    (halive : ∀ mutex, s'.mutex = some mutex → s'.Alive mutex) :
    Tracked ⟨s', s.calls.set k call'⟩ := by
  obtain ⟨hholds, hactive', hmutex⟩ := hnext
  refine h.move hk ?_ ?_ ?_ ?_ halive (fun _ => hwriters) (fun _ _ => hwriters) fun _ => hwriters
  · exact Nat.le_of_eq (by rw [hholds, hheld, hgate])
  · rw [hwriters, hzero, hactive, hactive']
  · intro other hother mutex hm
    rw [h.found_none hzero other hother] at hm
    cases hm
  · rw [hmutex]
    rintro _ ⟨⟩

/-- A writer is admitted, and counted. -/
theorem Tracked.acquires (h : s.Tracked) (hk : s.calls[k]? = some .acquired) (env : LogEnv) :
    Tracked ⟨(LogCall.acquired.step env s.shared).1,
      s.calls.set k (LogCall.acquired.step env s.shared).2⟩ := by
  dsimp only [LogCall.step]
  rcases logWriterAcquire_cases s.shared with ⟨e, herror, -⟩ | ⟨mutex, hready, hmutex, hok⟩
  · rw [herror]
    exact h.plain hk (.moves (Nat.le_refl _) rfl (by rintro _ ⟨⟩) (by rintro ⟨⟩))
  · rw [hok]
    refine h.move hk (Nat.le_refl _) ?_ h.found ?_ h.alive ?_ (by rintro ⟨⟩) (by rintro ⟨⟩)
    · exact Nat.add_right_comm _ 1 0
    · rintro m ⟨⟩
      exact hmutex
    · intro huninit
      cases hready.symm.trans huninit

/-- A writer leaves, and is counted no longer. -/
theorem Tracked.releases (h : s.Tracked) {result unlockError : Option Err}
    (hk : s.calls[k]? = some (.inRelease result unlockError)) (env : LogEnv) :
    Tracked ⟨((LogCall.inRelease result unlockError).step env s.shared).1,
      s.calls.set k ((LogCall.inRelease result unlockError).step env s.shared).2⟩ := by
  have hpos : 0 < s.shared.activeWriters := by
    rw [h.counted]
    exact Threads.le_total hk LogCall.active
  have hwriters : (logWriterRelease unlockError s.shared).activeWriters + 1 =
      s.shared.activeWriters := by
    show (if 0 < s.shared.activeWriters then _ else _) + 1 = _
    rw [if_pos hpos]
    exact Nat.sub_add_cancel hpos
  refine h.move hk (Nat.le_refl _) hwriters h.found (by rintro _ ⟨⟩) h.alive ?_ (by rintro ⟨⟩)
    (by rintro ⟨⟩)
  intro huninit
  exact absurd (h.idle huninit) (Nat.pos_iff_ne_zero.mp hpos)

/-- The logger is initialised, with a new mutex. -/
theorem Tracked.initialises (h : s.Tracked) (hk : s.calls[k]? = some .inInit) (env : LogEnv) :
    Tracked ⟨(LogCall.inInit.step env s.shared).1,
      s.calls.set k (LogCall.inInit.step env s.shared).2⟩ := by
  dsimp only [LogCall.step]
  rcases actrustLogInit_cases env.mutexCreate s.shared with
    ⟨result, heq⟩ | ⟨huninit, heq⟩ | ⟨e, huninit, heq⟩
  · rw [heq]
    exact h.plain hk (.moves (Nat.le_refl _) rfl (by rintro _ ⟨⟩) (by rintro ⟨⟩))
  · rw [heq]
    have hzero := h.idle huninit
    refine h.replace hk rfl rfl hzero hzero rfl ⟨rfl, rfl, rfl⟩ ?_
    rintro mutex ⟨⟩
    exact ⟨.free, by simp, by rintro ⟨⟩⟩
  · rw [heq]
    have hzero := h.idle huninit
    exact h.replace hk rfl rfl hzero hzero rfl ⟨rfl, rfl, rfl⟩ (by rintro _ ⟨⟩)

/-- The logger is taken out of use, once no writer is left. -/
theorem Tracked.deinitialises (h : s.Tracked) (hk : s.calls[k]? = some .inDeinit) (env : LogEnv) :
    Tracked ⟨(LogCall.inDeinit.step env s.shared).1,
      s.calls.set k (LogCall.inDeinit.step env s.shared).2⟩ := by
  dsimp only [LogCall.step]
  rcases logDeinitPass_cases env.mutexDestroy s.shared with
    ⟨e, state, hstate, heq⟩ | heq | ⟨mutexes, hzero, heq⟩
  · rw [heq]
    exact h.plain hk ⟨Nat.le_refl _, rfl, by rintro _ ⟨⟩, fun _ ha => ha, ⟨rfl, rfl⟩, hstate,
      by rintro ⟨⟩⟩
  · rw [heq]
    exact h.plain hk ⟨Nat.le_refl _, rfl, by rintro _ ⟨⟩, fun _ ha => ha, ⟨rfl, rfl⟩,
      by rintro ⟨⟩, by rintro ⟨⟩⟩
  · rw [heq]
    exact h.replace hk rfl rfl hzero hzero rfl ⟨rfl, rfl, rfl⟩ (by rintro _ ⟨⟩)

/-- A step of a call keeps the invariant. -/
theorem Tracked.advance (h : s.Tracked) (hk : s.calls[k]? = some call) {env : LogEnv}
    (hok : call.Succeeds env) :
    Tracked ⟨(call.step env s.shared).1, s.calls.set k (call.step env s.shared).2⟩ := by
  -- four places change the state or the count; the others only take and give up locks
  cases call with
  | acquiring =>
    exact h.plain hk (LogCall.lifecycleLock_plain (by rintro ⟨⟩) ⟨rfl, rfl, rfl, by rintro ⟨⟩⟩
      fun e _ => ⟨rfl, rfl, rfl, by rintro ⟨⟩⟩)
  | acquired => exact h.acquires hk env
  | admitted mutex =>
    refine h.plain hk (LogCall.lifecycleUnlock_plain rfl
      ⟨rfl, rfl, fun _ hm => hm, by rintro ⟨⟩⟩ fun e he => ?_)
    cases (hok trivial).2.1.symm.trans he
  | refused e =>
    exact h.plain hk (LogCall.lifecycleUnlock_plain rfl ⟨rfl, rfl, by rintro _ ⟨⟩, by rintro ⟨⟩⟩
      fun e' _ => ⟨Nat.zero_le _, rfl, rfl, by rintro ⟨⟩⟩)
  | declined e => exact h.plain hk (.moves (Nat.le_refl _) rfl (fun _ hm => hm) (by rintro ⟨⟩))
  | formatting mutex =>
    dsimp only [LogCall.step]
    cases env.format with
    | some e => exact h.plain hk (.moves (Nat.le_refl _) rfl (by rintro _ ⟨⟩) (by rintro ⟨⟩))
    | none => exact h.plain hk (.moves (Nat.le_refl _) rfl (fun _ hm => hm) (by rintro ⟨⟩))
  | locking mutex =>
    dsimp only [LogCall.step]
    rw [(hok trivial).2.2.1]
    dsimp only
    split_ifs with hfree
    · refine h.plain hk ⟨Nat.le_refl _, rfl, fun _ hm => hm, fun _ ha => ?_, ⟨rfl, rfl⟩, id,
        by rintro ⟨⟩⟩
      exact LogCall.alive_set (by rintro ⟨⟩) (by rw [hfree]; rintro ⟨⟩) ha
    · exact h.plain hk (.moves (Nat.le_refl _) rfl (fun _ hm => hm) (by rintro ⟨⟩))
  | writing mutex =>
    exact h.plain hk (.moves (Nat.le_refl _) rfl (fun _ hm => hm) (by rintro ⟨⟩))
  | unlocking mutex result =>
    dsimp only [LogCall.step]
    rw [(hok trivial).2.2.2]
    dsimp only
    split_ifs with hheld
    · refine h.plain hk ⟨Nat.le_refl _, rfl, by rintro _ ⟨⟩, fun _ ha => ?_, ⟨rfl, rfl⟩, id,
        by rintro ⟨⟩⟩
      exact LogCall.alive_set (by rintro ⟨⟩) (by rw [hheld]; rintro ⟨⟩) ha
    · exact h.plain hk (.moves (Nat.le_refl _) rfl (by rintro _ ⟨⟩) (by rintro ⟨⟩))
  | releasing result unlockError =>
    refine h.plain hk (LogCall.lifecycleLock_plain (by rintro ⟨⟩)
      ⟨rfl, rfl, rfl, by rintro ⟨⟩⟩ fun e he => ?_)
    cases (hok trivial).1.symm.trans he
  | inRelease result unlockError => exact h.releases hk env
  | leavingRelease result =>
    exact h.plain hk (LogCall.lifecycleUnlock_plain rfl ⟨rfl, rfl, by rintro _ ⟨⟩, by rintro ⟨⟩⟩
      fun e _ => ⟨Nat.zero_le _, rfl, rfl, by rintro ⟨⟩⟩)
  | written result => exact h.plain hk (.moves (Nat.le_refl _) rfl (fun _ hm => hm) (by rintro ⟨⟩))
  | enteringInit =>
    exact h.plain hk (LogCall.lifecycleLock_plain (by rintro ⟨⟩) ⟨rfl, rfl, rfl, by rintro ⟨⟩⟩
      fun e _ => ⟨rfl, rfl, rfl, by rintro ⟨⟩⟩)
  | inInit => exact h.initialises hk env
  | leavingInit result =>
    exact h.plain hk (LogCall.lifecycleUnlock_plain rfl ⟨rfl, rfl, by rintro _ ⟨⟩, by rintro ⟨⟩⟩
      fun e _ => ⟨Nat.zero_le _, rfl, rfl, by rintro ⟨⟩⟩)
  | enteringDeinit =>
    exact h.plain hk (LogCall.lifecycleLock_plain (by rintro ⟨⟩) ⟨rfl, rfl, rfl, by rintro ⟨⟩⟩
      fun e _ => ⟨rfl, rfl, rfl, by rintro ⟨⟩⟩)
  | inDeinit => exact h.deinitialises hk env
  | yielding =>
    exact h.plain hk (LogCall.lifecycleUnlock_plain rfl ⟨rfl, rfl, by rintro _ ⟨⟩, by rintro ⟨⟩⟩
      fun e _ => ⟨Nat.le_refl _, rfl, rfl, by rintro ⟨⟩⟩)
  | sleeping =>
    exact h.plain hk (LogCall.lifecycleLock_plain (by rintro ⟨⟩) ⟨rfl, rfl, rfl, by rintro ⟨⟩⟩
      fun e _ => ⟨rfl, rfl, rfl, by rintro ⟨⟩⟩)
  | leavingDeinit result =>
    exact h.plain hk (LogCall.lifecycleUnlock_plain rfl ⟨rfl, rfl, by rintro _ ⟨⟩, by rintro ⟨⟩⟩
      fun e _ => ⟨Nat.zero_le _, rfl, rfl, by rintro ⟨⟩⟩)
  | ended result => exact h.plain hk (.moves (Nat.le_refl _) rfl (fun _ hm => hm) (by rintro ⟨⟩))

/-- A call that starts. -/
theorem Tracked.start (h : s.Tracked) (api : LogApi) :
    Tracked ⟨s.shared, s.calls ++ [api.enter]⟩ := by
  have hnew : api.enter.holds = 0 ∧ api.enter.active = 0 ∧ api.enter.mutex = none ∧
      api.enter ≠ .leavingDeinit none := by
    cases api <;> exact ⟨rfl, rfl, rfl, by rintro ⟨⟩⟩
  obtain ⟨hholds, hactive, hmutex, hquiet⟩ := hnew
  refine ⟨?_, ?_, fun call hcall mutex hm => ?_, h.alive, h.idle, fun hmem => ?_⟩
  · rw [Threads.total_snoc, hholds]
    exact h.gate
  · rw [Threads.total_snoc, hactive]
    exact h.counted
  · rcases List.mem_append.mp hcall with hcall | hcall
    · exact h.found call hcall mutex hm
    · rw [List.mem_singleton.mp hcall, hmutex] at hm
      cases hm
  · rcases List.mem_append.mp hmem with hmem | hmem
    · exact h.quiet hmem
    · exact absurd (List.mem_singleton.mp hmem).symm hquiet

/-- A step of the system keeps it. -/
theorem Tracked.step (h : s.Tracked) {a : LogAction} (hok : s.WritersSucceed a) :
    (s.step a).2.Tracked := by
  rcases Threads.step_cases LogApi.enter LogCall.step s a with
    ⟨api, -, hstep⟩ | ⟨-, hstep⟩ | ⟨k, env, call, -, hk, hacting, hstep⟩
  · rw [LogSystem.step, hstep]
    exact h.start api
  · rw [LogSystem.step, hstep]
    exact h
  · rw [LogSystem.step, hstep]
    exact h.advance hk (hok (env, call) hacting)

/-- What the invariant says to the user of the logger. -/
theorem Tracked.safe (h : s.Tracked) : s.Safe where
  exist := by
    intro call hcall mutex htouches
    have hfound : call.mutex = some mutex := by
      cases call <;> first | exact htouches | cases htouches
    exact h.alive mutex (h.found call hcall mutex hfound)
  counted := h.counted
  quiet hmem := h.counted.symm.trans (h.quiet hmem)

/-! ### Refused writes -/

/-- What an event says about its call from then on. -/
def Event.Marks : Event → LogCall → Prop
  | .examines state => fun call => state ≠ .ready → call.Refused (logStateError state)
  | .touches _ => LogCall.Admitted

/-- The three ways of taking a lock. -/
theorem lifecycleLock_cases (answer : Option Err) (s : LogShared) (waits next : LogCall)
    (failed : Err → LogCall) :
    (lifecycleLock answer s waits next failed).2 = waits ∨
      (lifecycleLock answer s waits next failed).2 = next ∨
      ∃ e, answer = some e ∧ (lifecycleLock answer s waits next failed).2 = failed e := by
  cases answer with
  | some e => exact .inr (.inr ⟨e, rfl, rfl⟩)
  | none =>
    dsimp only [lifecycleLock]
    split_ifs
    · exact .inl rfl
    · exact .inr (.inl rfl)

/-- A write that has been let in is so to its end. -/
theorem step_admitted {env : LogEnv} {shared : LogShared} (hok : call.Succeeds env)
    (h : call.Admitted) : (call.step env shared).2.Admitted := by
  -- an admitted writer stays admitted until it has left
  cases call with
  | admitted mutex =>
    dsimp only [LogCall.step]
    rw [(hok trivial).2.1]
    trivial
  | formatting mutex =>
    dsimp only [LogCall.step]
    cases env.format <;> trivial
  | locking mutex =>
    dsimp only [LogCall.step]
    rw [(hok trivial).2.2.1]
    dsimp only
    split_ifs <;> trivial
  | unlocking mutex result =>
    dsimp only [LogCall.step]
    rw [(hok trivial).2.2.2]
    dsimp only
    split_ifs <;> trivial
  | releasing result unlockError =>
    rcases lifecycleLock_cases env.lifecycleLock shared (.releasing result unlockError)
      (.inRelease result unlockError) fun e => .written (result <|> some e) with
      hstep | hstep | ⟨e, -, hstep⟩ <;>
    · rw [LogCall.step, hstep]
      trivial
  | leavingRelease result =>
    dsimp only [LogCall.step]
    cases env.lifecycleUnlock <;> trivial
  | writing mutex => trivial
  | inRelease result unlockError => trivial
  | written result => trivial
  | _ => exact h.elim

/-- A write that has been refused returns its error. -/
theorem step_refused {env : LogEnv} {shared : LogShared} {e : Err} (h : call.Refused e) :
    (call.step env shared).2.Refused e := by
  rcases h with rfl | rfl
  · dsimp only [LogCall.step]
    cases env.lifecycleUnlock <;> exact .inr rfl
  · exact .inr rfl

/-- What a call has shown stays with it. -/
theorem Event.Marks.step {env : LogEnv} {shared : LogShared} {event : Event}
    (hok : call.Succeeds env) (h : event.Marks call) : event.Marks (call.step env shared).2 := by
  cases event with
  | examines state => exact fun hstate => step_refused (h hstate)
  | touches mutex => exact step_admitted hok h

/-- An event of a step is true of its call behind it. -/
theorem callEvents_marks {env : LogEnv} {shared : LogShared} (hok : call.Succeeds env)
    {event : Event} (h : event ∈ callEvents shared call) :
    event.Marks (call.step env shared).2 := by
  unfold callEvents at h
  split_ifs at h with hacquired
  · subst hacquired
    rw [List.mem_singleton.mp h]
    intro hstate
    dsimp only [LogCall.step]
    rcases logWriterAcquire_cases shared with ⟨e, herror, he⟩ | ⟨mutex, hready, -⟩
    · rw [herror, he hstate]
      exact .inl rfl
    · exact absurd hready hstate
  · obtain ⟨mutex, htouches, rfl⟩ := List.mem_map.mp h
    refine step_admitted hok ?_
    cases call <;> trivial

/-- The events so far are true of their calls. -/
def Told (past : List (ℕ × Event)) (s : LogSystem) : Prop :=
  ∀ p ∈ past, ∃ call, s.calls[p.1]? = some call ∧ p.2.Marks call

/-- The events of a run are the events of its calls. -/
theorem Told.step {past : List (ℕ × Event)} (h : Told past s) {a : LogAction}
    (hok : s.WritersSucceed a) : Told (past ++ s.events a) (s.step a).2 := by
  rcases Threads.step_cases LogApi.enter LogCall.step s a with
    ⟨api, rfl, hstep⟩ | ⟨hacting, hstep⟩ | ⟨k, env, call, rfl, hk, hacting, hstep⟩
  · rw [LogSystem.step, hstep, events, List.append_nil]
    intro p hp
    obtain ⟨call, hcall, hmarks⟩ := h p hp
    obtain ⟨hlt, -⟩ := List.getElem?_eq_some_iff.mp hcall
    exact ⟨call, by rw [List.getElem?_append_left hlt]; exact hcall, hmarks⟩
  · have hnone : s.events a = [] := by
      cases a with
      | start api => rfl
      | advance k env =>
        rw [Threads.acting, Option.map_eq_none_iff] at hacting
        rw [events, hacting]
        rfl
    rw [LogSystem.step, hstep, hnone, List.append_nil]
    exact h
  · have hsucceeds := hok (env, call) hacting
    obtain ⟨hlt, -⟩ := List.getElem?_eq_some_iff.mp hk
    rw [LogSystem.step, hstep]
    intro p hp
    rcases List.mem_append.mp hp with hp | hp
    · obtain ⟨call', hcall', hmarks⟩ := h p hp
      by_cases hpk : k = p.1
      · subst hpk
        rw [hk, Option.some_inj] at hcall'
        subst hcall'
        exact ⟨_, List.getElem?_set_self hlt, hmarks.step hsucceeds⟩
      · exact ⟨call', by rw [List.getElem?_set_ne hpk]; exact hcall', hmarks⟩
    · rw [events, hk] at hp
      obtain ⟨event, hevent, rfl⟩ := List.mem_map.mp hp
      exact ⟨_, List.getElem?_set_self hlt, callEvents_marks hsucceeds hevent⟩

/-! ### The result -/

/-- For any number of writes, inits and deinits, in any order of their steps: no mutex is locked or
unlocked that has been destroyed, the count of the writers is exact, and a deinit returns OK only
without any; and a write that finds the log not ready returns an error, and touches no mutex. -/
theorem log_lifecycle_safe {actions : List LogAction}
    (hok : Meets LogSystem.step WritersSucceed actions initial) :
    Always LogSystem.step Safe actions initial ∧
      ∀ k state, (k, .examines state) ∈ history LogSystem.step events actions initial →
        state ≠ .ready →
        (∃ call, (run LogSystem.step actions initial).2.calls[k]? = some call ∧
          call.Refused (logStateError state)) ∧
        ∀ mutex, (k, .touches mutex) ∉ history LogSystem.step events actions initial := by
  have htold : Told (history LogSystem.step events actions initial)
      (run LogSystem.step actions initial).2 :=
    history_invariant_of_meets (fun _ _ _ h hok => h.step hok) (by rintro _ ⟨⟩) hok
  refine ⟨always_of_invariant (fun _ _ h hok => h.step hok) (fun _ h => h.safe) tracked_initial hok,
    fun k state hexamines hstate => ?_⟩
  obtain ⟨call, hcall, hmarks⟩ := htold _ hexamines
  refine ⟨⟨call, hcall, hmarks hstate⟩, fun mutex htouches => ?_⟩
  obtain ⟨call', hcall', hadmitted⟩ := htold _ htouches
  rw [hcall, Option.some_inj] at hcall'
  subst hcall'
  rcases hmarks hstate with rfl | rfl <;> exact hadmitted

/-- The steps of a write that overlaps a deinit, with a second write that comes too late. -/
def overlapping : List LogAction :=
  let calm : LogEnv := ⟨none, none, none, none, none, none, none, none⟩
  let go (k n : ℕ) : List LogAction := List.replicate n (.advance k calm)
  [.start .init] ++ go 0 3 ++ [.start .write] ++ go 1 3 ++ [.start .deinit] ++ go 2 3 ++
    [.start .write] ++ go 3 3 ++ go 1 7 ++ go 2 3

/-- A writer that overlaps a deinit, and one that comes too late. -/
theorem log_lifecycle_safe_overlapping :
    (run LogSystem.step overlapping initial).2.calls =
        [.ended none, .written none, .ended none, .declined (logErr .badState)] ∧
      Always LogSystem.step Safe overlapping initial :=
  ⟨by decide +kernel, (log_lifecycle_safe (by decide +kernel)).1⟩

end LogSystem

end TrustSdk.Log
