import TrustSdk.Common.Errno
import TrustSdk.Lib.RingBuffer
import TrustSdk.Lib.Threads

/-!
# The bounded queue

`queue.c`: push, pop and size, close and destroy, for any number of calls at once. A step of a call
is one operation on a mutex or a semaphore, and what follows it up to the next one. A call that
finds a mutex taken, or a semaphore empty that it may wait for, stays where it is.

Mutex operations succeed, and so does the post that gives a token back; a wait may fail or time out,
and so may the post that publishes an item or a free slot.
-/

namespace TrustSdk.Queue

open RingBuffer

/-- An error of this component. -/
def queueErr (code : ErrCode) : Err := ⟨.queue, code⟩

/-- `actrust_queue_state_t`. -/
inductive QueueState where
  | isOpen
  | closing
  | closed
  deriving DecidableEq, Repr

/-- `struct actrust_queue`: the ring holds the buffer, its capacity, `head`, `tail` and `size`; of
the mutexes it counts whether they are taken, of the semaphores their tokens. -/
structure QueueCore (α : Type) where
  ring : Fifo α
  lock : Bool
  stateLock : Bool
  emptySlots : ℕ
  filledSlots : ℕ
  state : QueueState
  inFlight : ℕ
  waitingPush : ℕ
  waitingPop : ℕ
  /-- The release of the primitives has begun. -/
  released : Bool

/-- `actrust_queue_create`. -/
def actrustQueueCreate {α : Type} (buf : ℕ → α) (capacity : ℕ) : QueueCore α where
  ring := .empty buf capacity
  lock := false
  stateLock := false
  emptySlots := capacity
  filledSlots := 0
  state := .isOpen
  inFlight := 0
  waitingPush := 0
  waitingPop := 0
  released := false

/-- What a call is to transfer. -/
inductive Transfer (α : Type) where
  | push (item : α)
  | pop
  deriving DecidableEq, Repr

/-- `timeout_ms`: zero, a deadline, or `UINT32_MAX`. -/
inductive Timeout where
  | zero
  | finite
  | infinite
  deriving DecidableEq, Repr

/-- What a call that succeeds gives back. -/
inductive Reply (α : Type) where
  | done
  | item (a : α)
  | size (n : ℕ)
  deriving DecidableEq, Repr

/-- What the primitives and the clock answer. -/
structure PrimEnv where
  /-- The deadline has passed. -/
  expired : Bool
  /-- The wait fails with a code of the adapter, or goes on until there is a token. -/
  semWait : Option ErrCode
  semPost : Except Err Unit

section Sections

variable {α : Type}

/-- The semaphore that a transfer waits for. -/
def QueueCore.own (q : QueueCore α) : Transfer α → ℕ
  | .push _ => q.emptySlots
  | .pop => q.filledSlots

/-- A token of it is taken. -/
def QueueCore.takeOwn (q : QueueCore α) : Transfer α → QueueCore α
  | .push _ => { q with emptySlots := q.emptySlots - 1 }
  | .pop => { q with filledSlots := q.filledSlots - 1 }

/-- And given back. -/
def QueueCore.postOwn (q : QueueCore α) : Transfer α → QueueCore α
  | .push _ => { q with emptySlots := q.emptySlots + 1 }
  | .pop => { q with filledSlots := q.filledSlots + 1 }

/-- What `queue_push` and `queue_pop` count before they wait. -/
def QueueCore.enterWaiting (q : QueueCore α) : Transfer α → QueueCore α
  | .push _ => { q with inFlight := q.inFlight + 1, waitingPush := q.waitingPush + 1 }
  | .pop => { q with inFlight := q.inFlight + 1, waitingPop := q.waitingPop + 1 }

/-- The counters stop at zero. -/
def QueueCore.leaveWaiting (q : QueueCore α) : Transfer α → QueueCore α
  | .push _ => { q with waitingPush := q.waitingPush - 1 }
  | .pop => { q with waitingPop := q.waitingPop - 1 }

/-- `queue_operation_leave_locked` -/
def queueOperationLeaveLocked (q : QueueCore α) : QueueCore α :=
  { q with inFlight := q.inFlight - 1 }

/-- The other semaphore is posted, and the item is moved. -/
def QueueCore.commit (q : QueueCore α) : Transfer α → QueueCore α × Reply α
  | .push item =>
    ({ q with filledSlots := q.filledSlots + 1, ring := q.ring.push item }, .done)
  | .pop =>
    ({ q with emptySlots := q.emptySlots + 1, ring := q.ring.pop }, .item (q.ring.buf q.ring.head))

/-- The error of a wait, as the call returns it. It is the adapter's, and never the
`BAD_STATE` of the queue that `queue_wait_resource` answers with. -/
def waitErr (d : Transfer α) (e : Err) : Err :=
  if e = ⟨.adapterSystem, .wouldBlock⟩ then
    match d with
    | .push _ => queueErr .queueFull
    | .pop => queueErr .noResource
  else e

end Sections

/-- Where a call is. The names say which mutexes it holds: `InState` the state lock, `InBoth` both,
`InLock` the lock of the data. -/
inductive QueuePc (α : Type) where
  | enter (d : Transfer α) (t : Timeout)
  /-- The queue is not open: the call is not let in. -/
  | refusedInState
  | admittedInState (d : Transfer α) (t : Timeout)
  /-- `queue_wait_resource`. -/
  | waiting (d : Transfer α) (t : Timeout)
  | waited (d : Transfer α) (t : Timeout) (result : Except Err Unit)
  | expired (d : Transfer α)
  | keepWaitingInState (d : Transfer α) (t : Timeout)
  | gotTokenInState (d : Transfer α)
  | failedInState (d : Transfer α) (e : Err)
  | returnTokenInState (d : Transfer α)
  | leaving (e : Err)
  /-- The last section of an admitted call that holds no other mutex. -/
  | exitInState (result : Except Err (Reply α))
  | locking (d : Transfer α)
  | inLock (d : Transfer α)
  | postingInBoth (d : Transfer α)
  | givingBackInBoth (d : Transfer α) (e : Err)
  | unlockInBoth (result : Except Err (Reply α))
  | unlockInLock (result : Except Err (Reply α))
  | returned (result : Except Err (Reply α))
  /-- `actrust_queue_size`. -/
  | sizing
  /-- `actrust_queue_close`, alone or in `actrust_queue_destroy`. -/
  | close (destroy : Bool)
  | closedInState (destroy : Bool)
  | closingInState (destroy : Bool)
  | polling (destroy : Bool)
  | polledInState (destroy : Bool) (quiescent : Bool)
  /-- Close has returned `ACTRUST_OK`. -/
  | quiesced (destroy : Bool)
  /-- `actrust_queue_destroy` has begun to release. -/
  | destroying
  | destroyedInState
  | ended
  deriving DecidableEq, Repr

/-- How a call begins. -/
inductive QueueApi (α : Type) where
  | push (item : α) (t : Timeout)
  | pop (t : Timeout)
  | size
  | close
  | destroy

/-- Where a call starts. -/
def QueueApi.enter {α : Type} : QueueApi α → QueuePc α
  | .push item t => .enter (.push item) t
  | .pop t => .enter .pop t
  | .size => .sizing
  | .close => .close false
  | .destroy => .close true

section Steps

variable {α : Type}

/-- A section that takes the state lock. -/
def lockState (q : QueueCore α) (here : QueuePc α)
    (section_ : QueueCore α → QueueCore α × QueuePc α) : QueueCore α × QueuePc α :=
  if q.stateLock then (q, here) else section_ { q with stateLock := true }

/-- `queue_state_unlock` -/
def unlockState (q : QueueCore α) : QueueCore α := { q with stateLock := false }

/-- The section behind a wait, in `queue_wait_resource`. -/
def waitedSection (d : Transfer α) (t : Timeout) (result : Except Err Unit) (q : QueueCore α) :
    QueueCore α × QueuePc α :=
  match t with
  | .zero =>
    if q.state ≠ .isOpen then
      match result with
      | .ok _ => (q.leaveWaiting d, .returnTokenInState d)
      | .error _ =>
        (queueOperationLeaveLocked (q.leaveWaiting d), .exitInState (.error (queueErr .badState)))
    else
      match result with
      | .ok _ => (q.leaveWaiting d, .gotTokenInState d)
      | .error e => (q.leaveWaiting d, .failedInState d e)
  | .finite | .infinite =>
    if q.state ≠ .isOpen then
      (queueOperationLeaveLocked (q.leaveWaiting d), .exitInState (.error (queueErr .badState)))
    else
      match result with
      | .ok _ => (q.leaveWaiting d, .gotTokenInState d)
      | .error e =>
        if e.code = .timeout ∨ e.code = .wouldBlock then (q, .keepWaitingInState d t)
        else (q.leaveWaiting d, .failedInState d e)

/-- The wait for a token. -/
def waitStep (env : PrimEnv) (q : QueueCore α) (d : Transfer α) (t : Timeout) :
    QueueCore α × QueuePc α :=
  if t = .finite ∧ env.expired = true then (q, .expired d)
  else
    match env.semWait with
    | some code => (q, .waited d t (.error ⟨.adapterSystem, code⟩))
    | none =>
      if q.own d > 0 then (q.takeOwn d, .waited d t (.ok ()))
      else if t = .zero then (q, .waited d t (.error ⟨.adapterSystem, .wouldBlock⟩))
      else (q, .waiting d t)

/-- One step of a call. -/
def QueuePc.step (env : PrimEnv) (q : QueueCore α) : QueuePc α → QueueCore α × QueuePc α
  | .enter d t =>
    lockState q (.enter d t) fun q =>
      if q.state ≠ .isOpen then (q, .refusedInState)
      else (q.enterWaiting d, .admittedInState d t)
  | .refusedInState => (unlockState q, .returned (.error (queueErr .badState)))
  | .admittedInState d t => (unlockState q, .waiting d t)
  | .waiting d t => waitStep env q d t
  | .waited d t result => lockState q (.waited d t result) (waitedSection d t result)
  | .expired d =>
    lockState q (.expired d) fun q =>
      (q.leaveWaiting d, .failedInState d ⟨.adapterSystem, .timeout⟩)
  | .keepWaitingInState d t => (unlockState q, .waiting d t)
  | .gotTokenInState d => (unlockState q, .locking d)
  | .failedInState d e => (unlockState q, .leaving (waitErr d e))
  | .returnTokenInState d =>
    (queueOperationLeaveLocked (q.postOwn d), .exitInState (.error (queueErr .badState)))
  | .leaving e =>
    lockState q (.leaving e) fun q => (queueOperationLeaveLocked q, .exitInState (.error e))
  | .exitInState result => (unlockState q, .returned result)
  | .locking d => if q.lock then (q, .locking d) else ({ q with lock := true }, .inLock d)
  | .inLock d =>
    lockState q (.inLock d) fun q =>
      if q.state ≠ .isOpen then (q, .givingBackInBoth d (queueErr .badState))
      else (q, .postingInBoth d)
  | .postingInBoth d =>
    match env.semPost with
    | .error e => (q, .givingBackInBoth d e)
    | .ok _ => (queueOperationLeaveLocked (q.commit d).1, .unlockInBoth (.ok (q.commit d).2))
  | .givingBackInBoth d e => (queueOperationLeaveLocked (q.postOwn d), .unlockInBoth (.error e))
  | .unlockInBoth result => (unlockState q, .unlockInLock result)
  | .unlockInLock result => ({ q with lock := false }, .returned result)
  | .returned result => (q, .returned result)
  | .sizing =>
    lockState q .sizing fun q =>
      if q.state ≠ .isOpen then (q, .refusedInState)
      else (q, .exitInState (.ok (.size q.ring.count)))
  | .close destroy =>
    lockState q (.close destroy) fun q =>
      match q.state with
      | .isOpen => ({ q with state := .closing }, .closingInState destroy)
      | .closing => (q, .closingInState destroy)
      | .closed => (q, .closedInState destroy)
  | .closedInState destroy => (unlockState q, .quiesced destroy)
  | .closingInState destroy => (unlockState q, .polling destroy)
  | .polling destroy =>
    lockState q (.polling destroy) fun q =>
      (q, .polledInState destroy
        (q.inFlight = 0 ∧ q.waitingPush = 0 ∧ q.waitingPop = 0))
  | .polledInState destroy quiescent =>
    (unlockState q, if quiescent then .quiesced destroy else .polling destroy)
  | .quiesced destroy =>
    -- the semaphores go first
    if destroy then ({ q with released := true }, .destroying) else (q, .ended)
  | .destroying =>
    lockState q .destroying fun q => ({ q with state := .closed }, .destroyedInState)
  | .destroyedInState => (unlockState q, .ended)
  | .ended => (q, .ended)

/-- The threads inside the calls of one queue. -/
abbrev QueueSystem (α : Type) := Threads.System (QueueCore α) (QueuePc α)

/-- A new call, or a step of one. -/
abbrev QueueAction (α : Type) := Threads.Action (QueueApi α) PrimEnv

/-- A step of the system. -/
def QueueSystem.step : QueueSystem α → QueueAction α → Unit × QueueSystem α :=
  Threads.step QueueApi.enter QueuePc.step

/-- A queue that was just created. -/
def QueueSystem.created (buf : ℕ → α) (capacity : ℕ) : QueueSystem α :=
  ⟨actrustQueueCreate buf capacity, []⟩

end Steps

end TrustSdk.Queue
