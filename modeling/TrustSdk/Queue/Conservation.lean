import TrustSdk.Queue.Calls

/-!
# What the calls of the bounded queue hold

Each call holds a share of the counters, tokens and mutexes of the queue (`QueuePc.holds`), and the
queue is balanced when its own counts and those of all calls together account for it.

* `Holdings`, `QueueCore.Balanced` — the shares and the balance;
* `QueuePc.step_balanced` — every step of a call keeps the balance, whatever the others hold;
* `queue_conserves` — over every run: the ring is a queue that is as long as the tokens say, what
  has been popped is the beginning of what has been pushed, and a call that fails moves nothing.
-/

namespace TrustSdk.Queue

open RingBuffer Machine

variable {α : Type}

/-! ### Shares -/

/-- What one call has of the queue, or all calls together. -/
structure Holdings where
  inFlight : ℕ
  waitingPush : ℕ
  waitingPop : ℕ
  /-- Tokens of the semaphores that have been taken and not given back. -/
  emptySlots : ℕ
  filledSlots : ℕ
  stateLock : ℕ
  lock : ℕ
  /-- The call has seen that the queue is open, and still holds the state lock. -/
  checked : ℕ

/-- The holdings of two groups of calls. -/
def Holdings.add (h h' : Holdings) : Holdings where
  inFlight := h.inFlight + h'.inFlight
  waitingPush := h.waitingPush + h'.waitingPush
  waitingPop := h.waitingPop + h'.waitingPop
  emptySlots := h.emptySlots + h'.emptySlots
  filledSlots := h.filledSlots + h'.filledSlots
  stateLock := h.stateLock + h'.stateLock
  lock := h.lock + h'.lock
  checked := h.checked + h'.checked

/-- The share of a transfer that is in flight. -/
def Transfer.holds (waiting token stateLock lock checked : ℕ) : Transfer α → Holdings
  | .push _ => ⟨1, waiting, 0, token, 0, stateLock, lock, checked⟩
  | .pop => ⟨1, 0, waiting, 0, token, stateLock, lock, checked⟩

/-- The share of a call that is not. -/
def Holdings.locks (stateLock lock : ℕ) : Holdings := ⟨0, 0, 0, 0, 0, stateLock, lock, 0⟩

/-- What a call holds at each point. -/
def QueuePc.holds : QueuePc α → Holdings
  | .enter _ _ => .locks 0 0
  | .refusedInState => .locks 1 0
  | .admittedInState d _ => d.holds 1 0 1 0 0
  | .waiting d _ => d.holds 1 0 0 0 0
  | .waited d _ (.ok _) => d.holds 1 1 0 0 0
  | .waited d _ (.error _) => d.holds 1 0 0 0 0
  | .expired d => d.holds 1 0 0 0 0
  | .keepWaitingInState d _ => d.holds 1 0 1 0 0
  | .gotTokenInState d => d.holds 0 1 1 0 0
  | .failedInState d _ => d.holds 0 0 1 0 0
  | .returnTokenInState d => d.holds 0 1 1 0 0
  | .leaving _ => ⟨1, 0, 0, 0, 0, 0, 0, 0⟩
  | .exitInState _ => .locks 1 0
  | .locking d => d.holds 0 1 0 0 0
  | .inLock d => d.holds 0 1 0 1 0
  | .postingInBoth d => d.holds 0 1 1 1 1
  | .givingBackInBoth d _ => d.holds 0 1 1 1 0
  | .unlockInBoth _ => .locks 1 1
  | .unlockInLock _ => .locks 0 1
  | .returned _ => .locks 0 0
  | .sizing => .locks 0 0
  | .close _ => .locks 0 0
  | .closedInState _ => .locks 1 0
  | .closingInState _ => .locks 1 0
  | .polling _ => .locks 0 0
  | .polledInState _ _ => .locks 1 0
  | .quiesced _ => .locks 0 0
  | .destroying => .locks 0 0
  | .destroyedInState => .locks 1 0
  | .ended => .locks 0 0

/-- The shares of all calls. -/
def holdings (calls : List (QueuePc α)) : Holdings where
  inFlight := Threads.total (·.holds.inFlight) calls
  waitingPush := Threads.total (·.holds.waitingPush) calls
  waitingPop := Threads.total (·.holds.waitingPop) calls
  emptySlots := Threads.total (·.holds.emptySlots) calls
  filledSlots := Threads.total (·.holds.filledSlots) calls
  stateLock := Threads.total (·.holds.stateLock) calls
  lock := Threads.total (·.holds.lock) calls
  checked := Threads.total (·.holds.checked) calls

/-- A call that has checked the state holds its lock. -/
theorem QueuePc.checked_le (pc : QueuePc α) : pc.holds.checked ≤ pc.holds.stateLock := by
  cases pc with
  | waited d t result => cases result <;> cases d <;> exact Nat.le_refl _
  | admittedInState d t | waiting d t | expired d | keepWaitingInState d t | gotTokenInState d
    | failedInState d e | returnTokenInState d | locking d | inLock d | postingInBoth d
    | givingBackInBoth d e => cases d <;> first | exact Nat.le_refl _ | exact Nat.zero_le _
  | _ => exact Nat.zero_le _

/-- One call among the others, whose shares do not change when it moves. -/
theorem holdings_split {calls : List (QueuePc α)} {k : ℕ} {pc : QueuePc α}
    (hk : calls[k]? = some pc) : ∃ others : Holdings, others.checked ≤ others.stateLock ∧
      holdings calls = pc.holds.add others ∧
      ∀ pc', holdings (calls.set k pc') = pc'.holds.add others := by
  obtain ⟨before, after, hcalls, hset⟩ := Threads.split hk
  have htotal : ∀ (w : QueuePc α → ℕ) (pc' : QueuePc α),
      Threads.total w (before ++ pc' :: after) = w pc' + Threads.total w (before ++ after) := by
    intro w pc'
    simp only [Threads.total, List.map_append, List.map_cons, List.sum_append, List.sum_cons]
    omega
  -- the weights of the other calls do not depend on where the one stands
  have hholdings : ∀ pc' : QueuePc α,
      holdings (before ++ pc' :: after) = pc'.holds.add (holdings (before ++ after)) := by
    intro pc'
    simp only [holdings, Holdings.add, htotal]
  refine ⟨holdings (before ++ after), ?_, hcalls ▸ hholdings pc, fun pc' => hset pc' ▸ hholdings pc'⟩
  show Threads.total _ (before ++ after) ≤ Threads.total _ (before ++ after)
  generalize before ++ after = others
  induction others with
  | nil => exact Nat.le_refl 0
  | cons pc' others ih => exact Nat.add_le_add pc'.checked_le ih

/-- A call that starts holds nothing. -/
theorem holdings_snoc (calls : List (QueuePc α)) (api : QueueApi α) :
    holdings (calls ++ [api.enter]) = holdings calls := by
  have hnone : api.enter.holds = .locks 0 0 := by cases api <;> rfl
  simp only [holdings, Threads.total_snoc, hnone, Holdings.locks, Nat.add_zero]

/-! ### The balance -/

/-- The counts of the queue, and what the calls hold, account for its ring. -/
structure QueueCore.Balanced (capacity : ℕ) (q : QueueCore α) (h : Holdings) : Prop where
  ring : q.ring.WellFormed
  depth : q.ring.depth = capacity
  inFlight : q.inFlight = h.inFlight
  waitingPush : q.waitingPush = h.waitingPush
  waitingPop : q.waitingPop = h.waitingPop
  stateLock : q.stateLock.toNat = h.stateLock
  lock : q.lock.toNat = h.lock
  /-- What has been checked under the state lock still holds. -/
  checked : h.checked ≠ 0 → q.state = .isOpen
  emptySlots : q.state = .isOpen → q.emptySlots + h.emptySlots + q.ring.count = capacity
  filledSlots : q.state = .isOpen → q.filledSlots + h.filledSlots = q.ring.count

section Balance

variable {capacity : ℕ} {q : QueueCore α} {h others : Holdings}

/-- A mutex that a call holds is taken, and no other call holds it. -/
theorem toNat_eq_succ {b : Bool} {n : ℕ} (h : b.toNat = 1 + n) : b = true ∧ n = 0 := by
  cases b
  · rw [Bool.toNat_false] at h
    omega
  · rw [Bool.toNat_true] at h
    exact ⟨rfl, by omega⟩

/-- A flag that is not set counts zero. -/
theorem toNat_eq_zero {b : Bool} (h : ¬b = true) : b.toNat = 0 := by
  cases b
  · rfl
  · exact absurd rfl h

/-- The state lock is given up, and with it what has been checked. -/
theorem QueueCore.Balanced.unlockState (hb : q.Balanced capacity (h.add others))
    (hlock : h.stateLock = 1) (ho : others.checked ≤ others.stateLock) :
    (unlockState q).Balanced capacity
      (({ h with stateLock := 0, checked := 0 } : Holdings).add others) := by
  have hsum : q.stateLock.toNat = h.stateLock + others.stateLock := hb.stateLock
  rw [hlock] at hsum
  have hothers := (toNat_eq_succ hsum).2
  refine ⟨hb.ring, hb.depth, hb.inFlight, hb.waitingPush, hb.waitingPop, ?_, hb.lock, ?_,
    hb.emptySlots, hb.filledSlots⟩
  · show 0 = 0 + others.stateLock
    rw [hothers]
  · intro hchecked
    refine absurd ?_ hchecked
    show 0 + others.checked = 0
    omega

/-- The section is entered when no other call is in one. -/
theorem QueueCore.Balanced.lockState {pc : QueuePc α}
    {section_ : QueueCore α → QueueCore α × QueuePc α}
    (hb : q.Balanced capacity (pc.holds.add others)) (hfree : pc.holds.stateLock = 0)
    (hsection : others.stateLock = 0 → ({ q with stateLock := true } : QueueCore α).Balanced capacity
        (({ pc.holds with stateLock := 1 } : Holdings).add others) →
      (section_ { q with stateLock := true }).1.Balanced capacity
        ((section_ { q with stateLock := true }).2.holds.add others)) :
    (Queue.lockState q pc section_).1.Balanced capacity
      ((Queue.lockState q pc section_).2.holds.add others) := by
  unfold Queue.lockState
  by_cases hheld : q.stateLock = true
  · rw [if_pos hheld]
    exact hb
  · rw [if_neg hheld]
    -- the lock is free, so no other call holds it
    have hsum := hb.stateLock
    rw [toNat_eq_zero hheld] at hsum
    have hothers : others.stateLock = 0 := by
      have hsum : 0 = pc.holds.stateLock + others.stateLock := hsum
      omega
    refine hsection hothers ⟨hb.ring, hb.depth, hb.inFlight, hb.waitingPush, hb.waitingPop, ?_,
      hb.lock, hb.checked, hb.emptySlots, hb.filledSlots⟩
    show 1 = 1 + others.stateLock
    rw [hothers]

section Sections

variable {d : Transfer α} {waiting token stateLock lock checked : ℕ}

/-- Entering the wait counts the operation once. -/
theorem QueueCore.Balanced.enterWaiting
    (hb : q.Balanced capacity ((Holdings.locks 1 0).add others)) :
    (q.enterWaiting d).Balanced capacity ((d.holds 1 0 1 0 0).add others) := by
  obtain ⟨hring, hdepth, hinFlight, hpush, hpop, hstate, hlock, hchecked, hempty, hfilled⟩ := hb
  cases d with
  | push item =>
    refine ⟨hring, hdepth, ?_, ?_, hpop, hstate, hlock, hchecked, hempty, hfilled⟩
    · show q.inFlight + 1 = 1 + others.inFlight
      rw [hinFlight, Nat.add_comm]
      exact congrArg (1 + ·) (Nat.zero_add _)
    · show q.waitingPush + 1 = 1 + others.waitingPush
      rw [hpush, Nat.add_comm]
      exact congrArg (1 + ·) (Nat.zero_add _)
  | pop =>
    refine ⟨hring, hdepth, ?_, hpush, ?_, hstate, hlock, hchecked, hempty, hfilled⟩
    · show q.inFlight + 1 = 1 + others.inFlight
      rw [hinFlight, Nat.add_comm]
      exact congrArg (1 + ·) (Nat.zero_add _)
    · show q.waitingPop + 1 = 1 + others.waitingPop
      rw [hpop, Nat.add_comm]
      exact congrArg (1 + ·) (Nat.zero_add _)

/-- Leaving the wait counts it no longer. -/
theorem QueueCore.Balanced.leaveWaiting
    (hb : q.Balanced capacity ((d.holds 1 token stateLock lock checked).add others)) :
    (q.leaveWaiting d).Balanced capacity ((d.holds 0 token stateLock lock checked).add others) := by
  obtain ⟨hring, hdepth, hinFlight, hpush, hpop, hstate, hlock, hchecked, hempty, hfilled⟩ := hb
  cases d with
  | push item =>
    refine ⟨hring, hdepth, hinFlight, ?_, hpop, hstate, hlock, hchecked, hempty, hfilled⟩
    have hpush : q.waitingPush = 1 + others.waitingPush := hpush
    show q.waitingPush - 1 = 0 + others.waitingPush
    omega
  | pop =>
    refine ⟨hring, hdepth, hinFlight, hpush, ?_, hstate, hlock, hchecked, hempty, hfilled⟩
    have hpop : q.waitingPop = 1 + others.waitingPop := hpop
    show q.waitingPop - 1 = 0 + others.waitingPop
    omega

/-- A call that has no token leaves. -/
theorem QueueCore.Balanced.leave
    (hb : q.Balanced capacity ((d.holds 0 0 stateLock lock 0).add others)) :
    (queueOperationLeaveLocked q).Balanced capacity ((Holdings.locks stateLock lock).add others) := by
  obtain ⟨hring, hdepth, hinFlight, hpush, hpop, hstate, hlock, hchecked, hempty, hfilled⟩ := hb
  have hone : q.inFlight = 1 + others.inFlight := by cases d <;> exact hinFlight
  have hzero : q.inFlight - 1 = 0 + others.inFlight := by omega
  cases d <;> exact ⟨hring, hdepth, hzero, hpush, hpop, hstate, hlock, hchecked, hempty, hfilled⟩

/-- A call that finds the queue closed may take its token with it. -/
theorem QueueCore.Balanced.abandon (hclosed : q.state ≠ .isOpen)
    (hb : q.Balanced capacity ((d.holds 0 token stateLock lock 0).add others)) :
    (queueOperationLeaveLocked q).Balanced capacity ((Holdings.locks stateLock lock).add others) := by
  obtain ⟨hring, hdepth, hinFlight, hpush, hpop, hstate, hlock, hchecked, hempty, hfilled⟩ := hb
  have hone : q.inFlight = 1 + others.inFlight := by cases d <;> exact hinFlight
  have hzero : q.inFlight - 1 = 0 + others.inFlight := by omega
  cases d <;> exact ⟨hring, hdepth, hzero, hpush, hpop, hstate, hlock, hchecked,
    fun hopen => absurd hopen hclosed, fun hopen => absurd hopen hclosed⟩

/-- A token is taken from the semaphore. -/
theorem QueueCore.Balanced.takeOwn (hown : q.own d > 0)
    (hb : q.Balanced capacity ((d.holds waiting 0 stateLock lock checked).add others)) :
    (q.takeOwn d).Balanced capacity ((d.holds waiting 1 stateLock lock checked).add others) := by
  obtain ⟨hring, hdepth, hinFlight, hpush, hpop, hstate, hlock, hchecked, hempty, hfilled⟩ := hb
  cases d with
  | push item =>
    refine ⟨hring, hdepth, hinFlight, hpush, hpop, hstate, hlock, hchecked, fun hopen => ?_, hfilled⟩
    have hown : q.emptySlots > 0 := hown
    have hslots : q.emptySlots + (0 + others.emptySlots) + q.ring.count = capacity := hempty hopen
    show q.emptySlots - 1 + (1 + others.emptySlots) + q.ring.count = capacity
    omega
  | pop =>
    refine ⟨hring, hdepth, hinFlight, hpush, hpop, hstate, hlock, hchecked, hempty, fun hopen => ?_⟩
    have hown : q.filledSlots > 0 := hown
    have hslots : q.filledSlots + (0 + others.filledSlots) = q.ring.count := hfilled hopen
    show q.filledSlots - 1 + (1 + others.filledSlots) = q.ring.count
    omega

/-- And posted back. -/
theorem QueueCore.Balanced.postOwn
    (hb : q.Balanced capacity ((d.holds waiting 1 stateLock lock checked).add others)) :
    (q.postOwn d).Balanced capacity ((d.holds waiting 0 stateLock lock checked).add others) := by
  obtain ⟨hring, hdepth, hinFlight, hpush, hpop, hstate, hlock, hchecked, hempty, hfilled⟩ := hb
  cases d with
  | push item =>
    refine ⟨hring, hdepth, hinFlight, hpush, hpop, hstate, hlock, hchecked, fun hopen => ?_, hfilled⟩
    have hslots : q.emptySlots + (1 + others.emptySlots) + q.ring.count = capacity := hempty hopen
    show q.emptySlots + 1 + (0 + others.emptySlots) + q.ring.count = capacity
    omega
  | pop =>
    refine ⟨hring, hdepth, hinFlight, hpush, hpop, hstate, hlock, hchecked, hempty, fun hopen => ?_⟩
    have hslots : q.filledSlots + (1 + others.filledSlots) = q.ring.count := hfilled hopen
    show q.filledSlots + 1 + (0 + others.filledSlots) = q.ring.count
    omega

/-- A token of the one semaphore becomes a token of the other, and the item is moved: there is room
for it, or an item, because the call has its token. -/
theorem QueueCore.Balanced.commit
    (hb : q.Balanced capacity ((d.holds 0 1 1 1 1).add others)) :
    (queueOperationLeaveLocked (q.commit d).1).Balanced capacity
      ((Holdings.locks 1 1).add others) := by
  obtain ⟨hring, hdepth, hinFlight, hpush, hpop, hstate, hlock, hchecked, hempty, hfilled⟩ := hb
  -- the lock has been held since the state was checked, so the queue is still open
  have hopen : q.state = .isOpen := by
    refine hchecked ?_
    cases d <;> exact Nat.ne_of_gt (Nat.lt_of_lt_of_le Nat.zero_lt_one (Nat.le_add_right 1 _))
  have hinFlight' : q.inFlight - 1 = 0 + others.inFlight := by
    have hone : q.inFlight = 1 + others.inFlight := by cases d <;> exact hinFlight
    omega
  -- the token that was taken guarantees the room or the item; the other token is posted
  cases d with
  | push item =>
    have hslots : q.emptySlots + (1 + others.emptySlots) + q.ring.count = capacity := hempty hopen
    have hitems : q.filledSlots + (0 + others.filledSlots) = q.ring.count := hfilled hopen
    refine ⟨hring.push (by omega) item, hdepth, hinFlight', hpush, hpop, hstate, hlock,
      fun _ => hopen, fun _ => ?_, fun _ => ?_⟩
    · show q.emptySlots + (0 + others.emptySlots) + (q.ring.count + 1) = capacity
      omega
    · show q.filledSlots + 1 + (0 + others.filledSlots) = q.ring.count + 1
      omega
  | pop =>
    have hslots : q.emptySlots + (0 + others.emptySlots) + q.ring.count = capacity := hempty hopen
    have hitems : q.filledSlots + (1 + others.filledSlots) = q.ring.count := hfilled hopen
    refine ⟨hring.pop (by omega), hdepth, hinFlight', hpush, hpop, hstate, hlock,
      fun _ => hopen, fun _ => ?_, fun _ => ?_⟩
    · show q.emptySlots + 1 + (0 + others.emptySlots) + (q.ring.count - 1) = capacity
      omega
    · show q.filledSlots + (0 + others.filledSlots) = q.ring.count - 1
      omega

/-- The state was found open under the lock. -/
theorem QueueCore.Balanced.check (hopen : q.state = .isOpen)
    (hb : q.Balanced capacity ((d.holds waiting token stateLock lock 0).add others)) :
    q.Balanced capacity ((d.holds waiting token stateLock lock 1).add others) := by
  obtain ⟨hring, hdepth, hinFlight, hpush, hpop, hstate, hlock, -, hempty, hfilled⟩ := hb
  cases d <;> exact ⟨hring, hdepth, hinFlight, hpush, hpop, hstate, hlock, fun _ => hopen, hempty,
    hfilled⟩

/-- The lock is given up, and with it what was checked. -/
theorem QueueCore.Balanced.uncheck
    (hb : q.Balanced capacity ((d.holds waiting token stateLock lock 1).add others)) :
    q.Balanced capacity ((d.holds waiting token stateLock lock 0).add others) := by
  obtain ⟨hring, hdepth, hinFlight, hpush, hpop, hstate, hlock, hchecked, hempty, hfilled⟩ := hb
  have hopen : q.state = .isOpen := by
    refine hchecked ?_
    cases d <;> exact Nat.ne_of_gt (Nat.lt_of_lt_of_le Nat.zero_lt_one (Nat.le_add_right 1 _))
  cases d <;> exact ⟨hring, hdepth, hinFlight, hpush, hpop, hstate, hlock, fun _ => hopen, hempty,
    hfilled⟩

/-- The queue leaves `OPEN` when no call has checked that it is open. -/
theorem QueueCore.Balanced.close (state : QueueState) (hstate' : state ≠ .isOpen)
    (hnone : h.checked + others.checked = 0) (hb : q.Balanced capacity (h.add others)) :
    ({ q with state } : QueueCore α).Balanced capacity (h.add others) :=
  ⟨hb.ring, hb.depth, hb.inFlight, hb.waitingPush, hb.waitingPop, hb.stateLock, hb.lock,
    fun hchecked => absurd hnone hchecked, fun hopen => absurd hopen hstate',
    fun hopen => absurd hopen hstate'⟩

/-- The lock of the ring is taken. -/
theorem QueueCore.Balanced.lockData
    (hb : q.Balanced capacity ((d.holds waiting token stateLock 0 checked).add others))
    (hfree : ¬q.lock = true) : ({ q with lock := true } : QueueCore α).Balanced capacity
      ((d.holds waiting token stateLock 1 checked).add others) := by
  obtain ⟨hring, hdepth, hinFlight, hpush, hpop, hstate, hlock, hchecked, hempty, hfilled⟩ := hb
  have hothers : others.lock = 0 := by
    have hsum : q.lock.toNat = 0 + others.lock := by cases d <;> exact hlock
    rw [toNat_eq_zero hfree] at hsum
    omega
  have hone : (true : Bool).toNat = 1 + others.lock := by rw [hothers]; rfl
  cases d <;> exact ⟨hring, hdepth, hinFlight, hpush, hpop, hstate, hone, hchecked, hempty, hfilled⟩

/-- And given up. -/
theorem QueueCore.Balanced.unlockData
    (hb : q.Balanced capacity ((Holdings.locks 0 1).add others)) :
    ({ q with lock := false } : QueueCore α).Balanced capacity
      ((Holdings.locks 0 0).add others) := by
  obtain ⟨hring, hdepth, hinFlight, hpush, hpop, hstate, hlock, hchecked, hempty, hfilled⟩ := hb
  have hothers := (toNat_eq_succ hlock).2
  refine ⟨hring, hdepth, hinFlight, hpush, hpop, hstate, ?_, hchecked, hempty, hfilled⟩
  show 0 = 0 + others.lock
  rw [hothers]

/-- The holdings without the state lock. -/
theorem Transfer.holds_unlock (d : Transfer α) :
    ({ d.holds waiting token stateLock lock checked with stateLock := 0, checked := 0 } : Holdings) =
      d.holds waiting token 0 lock 0 := by
  cases d <;> rfl

/-- The holdings with it. -/
theorem Transfer.holds_lock (d : Transfer α) :
    ({ d.holds waiting token stateLock lock checked with stateLock := 1 } : Holdings) =
      d.holds waiting token 1 lock checked := by
  cases d <;> rfl

/-- Whether the state lock is held. -/
theorem Transfer.stateLock_holds (d : Transfer α) :
    (d.holds waiting token stateLock lock checked).stateLock = stateLock := by
  cases d <;> rfl

/-- A transfer gives up the state lock. -/
theorem QueueCore.Balanced.unlockTransfer (ho : others.checked ≤ others.stateLock)
    (hb : q.Balanced capacity ((d.holds waiting token 1 lock checked).add others)) :
    (Queue.unlockState q).Balanced capacity ((d.holds waiting token 0 lock 0).add others) := by
  rw [← d.holds_unlock]
  exact hb.unlockState d.stateLock_holds ho

/-- A transfer enters a section. -/
theorem QueueCore.Balanced.lockTransfer {pc : QueuePc α}
    {section_ : QueueCore α → QueueCore α × QueuePc α}
    (hpc : pc.holds = d.holds waiting token 0 lock 0)
    (hb : q.Balanced capacity (pc.holds.add others))
    (hsection : ∀ q : QueueCore α,
      q.Balanced capacity ((d.holds waiting token 1 lock 0).add others) →
      (section_ q).1.Balanced capacity ((section_ q).2.holds.add others)) :
    (Queue.lockState q pc section_).1.Balanced capacity
      ((Queue.lockState q pc section_).2.holds.add others) := by
  refine hb.lockState (hpc ▸ d.stateLock_holds) fun _ hb => hsection _ ?_
  rw [hpc, d.holds_lock] at hb
  exact hb

/-- What is done under the state lock when the wait has ended. -/
theorem waitedSection_balanced {t : Timeout} {result : Except Err Unit}
    (hb : q.Balanced capacity
      ((d.holds 1 (match result with
        | .ok _ => 1
        | .error _ => 0) 1 0 0).add others)) :
    (waitedSection d t result q).1.Balanced capacity
      ((waitedSection d t result q).2.holds.add others) := by
  have hleft := hb.leaveWaiting
  have hstate : (q.leaveWaiting d).state = q.state := by cases d <;> rfl
  unfold waitedSection
  by_cases hopen : q.state = .isOpen
  · -- the queue is open: the token is kept, the wait goes on, or it has failed
    have hnot : ¬q.state ≠ .isOpen := not_not.mpr hopen
    cases t <;> dsimp only <;> rw [if_neg hnot] <;> cases result with
      | ok _ => exact hleft
      | error e =>
        first
          | exact hleft
          | dsimp only
            split_ifs
            · exact hb
            · exact hleft
  · have hclosed : (q.leaveWaiting d).state ≠ .isOpen := hstate ▸ hopen
    cases t <;> dsimp only <;> rw [if_pos hopen]
    · cases result with
      | ok _ => exact hleft
      | error e => exact hleft.leave
    · exact hleft.abandon hclosed
    · exact hleft.abandon hclosed

end Sections

end Balance

/-- Every step of a call keeps the balance. -/
theorem QueuePc.step_balanced {capacity : ℕ} {q : QueueCore α} {others : Holdings}
    (ho : others.checked ≤ others.stateLock) (env : PrimEnv) (pc : QueuePc α)
    (hb : q.Balanced capacity (pc.holds.add others)) :
    (pc.step env q).1.Balanced capacity ((pc.step env q).2.holds.add others) := by
  cases pc with
  | enter d t =>
    -- refused in a queue that is not open, or counted as waiting
    refine hb.lockState rfl fun _ hb => ?_
    dsimp only
    split_ifs
    · exact hb
    · exact hb.enterWaiting
  -- Refused: the call only gives the state lock back.
  | refusedInState => exact hb.unlockState rfl ho
  | admittedInState d t => exact hb.unlockTransfer ho
  | waiting d t =>
    dsimp only [QueuePc.step, waitStep]
    -- expired without a token, failed, or with a token taken
    by_cases hexpired : t = .finite ∧ env.expired = true
    · rw [if_pos hexpired]
      exact hb
    · rw [if_neg hexpired]
      cases env.semWait with
      | some code => exact hb
      | none =>
        dsimp only
        by_cases hown : q.own d > 0
        · rw [if_pos hown]
          exact hb.takeOwn hown
        · rw [if_neg hown]
          split_ifs <;> exact hb
  -- By the result of the wait the call stops waiting, or goes on to the transfer.
  | waited d t result =>
    cases result with
    | ok _ => exact hb.lockTransfer rfl fun _ hb => waitedSection_balanced hb
    | error e => exact hb.lockTransfer rfl fun _ hb => waitedSection_balanced hb
  -- Expired: it stops waiting.
  | expired d => exact hb.lockTransfer rfl fun _ hb => hb.leaveWaiting
  | keepWaitingInState d t => exact hb.unlockTransfer ho
  | gotTokenInState d => exact hb.unlockTransfer ho
  -- A wait that failed may be of either direction; both leave as they came.
  | failedInState d e =>
    have hleft := hb.unlockTransfer ho
    obtain ⟨hring, hdepth, hinFlight, hpush, hpop, hstate, hlock, hchecked, hempty, hfilled⟩ := hleft
    cases d <;> exact ⟨hring, hdepth, hinFlight, hpush, hpop, hstate, hlock, hchecked, hempty,
      hfilled⟩
  -- The token goes back to its own semaphore, and the call leaves.
  | returnTokenInState d => exact hb.postOwn.leave
  | leaving e =>
    refine hb.lockState rfl fun _ hb => ?_
    exact QueueCore.Balanced.leave (d := .pop) hb
  | exitInState result => exact hb.unlockState rfl ho
  | locking d =>
    dsimp only [QueuePc.step]
    split_ifs with hheld
    · exact hb
    · exact hb.lockData hheld
  -- Behind the lock the state is looked at again: a queue closed meanwhile is left.
  | inLock d =>
    refine hb.lockTransfer rfl fun q hb => ?_
    split_ifs with hclosed
    · exact hb
    · exact hb.check (not_not.mp hclosed)
  -- The other semaphore is posted: the item moves, or the call takes its part back.
  | postingInBoth d =>
    dsimp only [QueuePc.step]
    cases env.semPost with
    | error e => exact hb.uncheck
    | ok _ => exact hb.commit
  | givingBackInBoth d e => exact hb.postOwn.leave
  | unlockInBoth result => exact hb.unlockState rfl ho
  | unlockInLock result => exact hb.unlockData
  | returned result => exact hb
  | sizing =>
    refine hb.lockState rfl fun _ hb => ?_
    dsimp only
    split_ifs <;> exact hb
  -- Close: only an open queue changes its state, under the state lock.
  | close destroy =>
    refine hb.lockState rfl fun hothers hb => ?_
    have hnone : 0 + others.checked = 0 := by omega
    generalize ({ q with stateLock := true } : QueueCore α) = q at hb ⊢
    cases hstate : q.state with
    | isOpen => exact hb.close .closing nofun hnone
    | closing => exact hb
    | closed => exact hb
  | closedInState destroy => exact hb.unlockState rfl ho
  | closingInState destroy => exact hb.unlockState rfl ho
  | polling destroy => exact hb.lockState rfl fun _ hb => hb
  | polledInState destroy quiescent =>
    have hleft := hb.unlockState rfl ho
    cases quiescent <;> exact hleft
  -- A quiesced close that destroys goes on to the semaphores.
  | quiesced destroy =>
    cases destroy with
    | false => exact hb
    | true =>
      exact ⟨hb.ring, hb.depth, hb.inFlight, hb.waitingPush, hb.waitingPop, hb.stateLock, hb.lock,
        hb.checked, hb.emptySlots, hb.filledSlots⟩
  | destroying =>
    refine hb.lockState rfl fun hothers hb => ?_
    have hnone : 0 + others.checked = 0 := by omega
    exact hb.close .closed nofun hnone
  | destroyedInState => exact hb.unlockState rfl ho
  | ended => exact hb

/-! ### Transfers -/

/-- The transfers, with the call that makes them. -/
inductive QueueEvent (α : Type) where
  | pushed (call : ℕ) (item : α)
  | popped (call : ℕ) (item : α)
  deriving DecidableEq

/-- The call an event belongs to. -/
def QueueEvent.call : QueueEvent α → ℕ
  | pushed k _ => k
  | popped k _ => k

/-- The items that were pushed, in order. -/
def pushes (h : List (QueueEvent α)) : List α :=
  h.filterMap fun e => match e with
    | .pushed _ item => some item
    | .popped _ _ => none

/-- The items that were popped, in order. -/
def pops (h : List (QueueEvent α)) : List α :=
  h.filterMap fun e => match e with
    | .pushed _ _ => none
    | .popped _ item => some item

/-- The transfers of one call. -/
def transfersOf (k : ℕ) (h : List (QueueEvent α)) : List (QueueEvent α) :=
  h.filter fun e => e.call = k

/-- The pushes of two histories. -/
theorem pushes_append (h h' : List (QueueEvent α)) : pushes (h ++ h') = pushes h ++ pushes h' :=
  List.filterMap_append

/-- The pops of two histories. -/
theorem pops_append (h h' : List (QueueEvent α)) : pops (h ++ h') = pops h ++ pops h' :=
  List.filterMap_append

/-- The transfers of one call. -/
theorem transfersOf_append (k : ℕ) (h h' : List (QueueEvent α)) :
    transfersOf k (h ++ h') = transfersOf k h ++ transfersOf k h' := List.filter_append _ _

/-- What the `k`-th call transfers in this step. -/
def QueuePc.transfers (k : ℕ) (env : PrimEnv) (q : QueueCore α) : QueuePc α → List (QueueEvent α)
  | .postingInBoth d =>
    match env.semPost, d with
    | .ok _, .push item => [.pushed k item]
    | .ok _, .pop => [.popped k (q.ring.buf q.ring.head)]
    | .error _, _ => []
  | _ => []

/-- What a step of the system moved. -/
def QueueSystem.transfers (s : QueueSystem α) : QueueAction α → List (QueueEvent α)
  | .start _ => []
  | .advance k env => (s.calls[k]?).elim [] (QueuePc.transfers k env s.shared)

/-- The result that a call is going to return, once it has one. -/
def QueuePc.result : QueuePc α → Option (Except Err (Reply α))
  | .exitInState result => some result
  | .unlockInBoth result => some result
  | .unlockInLock result => some result
  | .returned result => some result
  | _ => none

/-- What a call has transferred, by its result: an error means nothing. -/
def Explains : Option (Except Err (Reply α)) → List (QueueEvent α) → Prop
  | some (.ok .done), moved => ∃ k item, moved = [.pushed k item]
  | some (.ok (.item a)), moved => ∃ k, moved = [.popped k a]
  | _, moved => moved = []

section Steps

variable {q : QueueCore α}

/-- Taking the state lock moves nothing. -/
theorem lockState_result {pc : QueuePc α} {section_ : QueueCore α → QueueCore α × QueuePc α}
    {moved : List (QueueEvent α)} (h : Explains pc.result moved)
    (hsection : ∀ q, Explains (section_ q).2.result moved) :
    Explains (lockState q pc section_).2.result moved := by
  unfold lockState
  split_ifs
  · exact h
  · exact hsection _

/-- A step explains what has been transferred up to its end. -/
theorem QueuePc.step_explains {moved : List (QueueEvent α)} (k : ℕ) (env : PrimEnv)
    (pc : QueuePc α) (h : Explains pc.result moved) :
    Explains (pc.step env q).2.result (moved ++ pc.transfers k env q) := by
  cases pc with
  | postingInBoth d =>
    -- before the post the call has moved nothing, and only a post that goes well moves the item
    have hnil : moved = [] := h
    rw [hnil]
    dsimp only [QueuePc.step, QueuePc.transfers]
    cases env.semPost with
    | error e => cases d <;> exact rfl
    | ok _ =>
      cases d with
      | push item => exact ⟨k, item, rfl⟩
      | pop => exact ⟨k, rfl⟩
  -- The entry moves nothing: the call is refused or waits.
  | enter d t =>
    show Explains _ (moved ++ [])
    rw [List.append_nil]
    refine lockState_result h fun q => ?_
    split_ifs <;> exact h
  -- Nor does the wait.
  | waiting d t =>
    show Explains _ (moved ++ [])
    rw [List.append_nil]
    dsimp only [QueuePc.step, waitStep]
    by_cases hexpired : t = .finite ∧ env.expired = true
    · rw [if_pos hexpired]
      exact h
    · rw [if_neg hexpired]
      cases env.semWait with
      | some code => exact h
      | none =>
        dsimp only
        split_ifs <;> exact h
  -- Nor what is found behind it.
  | waited d t result =>
    show Explains _ (moved ++ [])
    rw [List.append_nil]
    refine lockState_result h fun q => ?_
    unfold waitedSection
    cases t <;> dsimp only <;> split_ifs <;> cases result <;> dsimp only <;>
      first
        | exact h
        | split_ifs <;> exact h
  | inLock d =>
    show Explains _ (moved ++ [])
    rw [List.append_nil]
    refine lockState_result h fun q => ?_
    split_ifs <;> exact h
  | locking d =>
    show Explains _ (moved ++ [])
    rw [List.append_nil]
    dsimp only [QueuePc.step]
    split_ifs <;> exact h
  | sizing =>
    show Explains _ (moved ++ [])
    rw [List.append_nil]
    refine lockState_result h fun q => ?_
    split_ifs <;> exact h
  -- Close and its polling move no item.
  | close destroy =>
    show Explains _ (moved ++ [])
    rw [List.append_nil]
    refine lockState_result h fun q => ?_
    cases q.state <;> exact h
  | polledInState destroy quiescent =>
    show Explains _ (moved ++ [])
    rw [List.append_nil]
    cases quiescent <;> exact h
  | quiesced destroy =>
    show Explains _ (moved ++ [])
    rw [List.append_nil]
    cases destroy <;> exact h
  | expired _ | leaving _ | polling _ | destroying =>
    show Explains _ (moved ++ [])
    rw [List.append_nil]
    exact lockState_result h fun _ => h
  -- The remaining steps only give a lock back.
  | _ =>
    show Explains _ (moved ++ [])
    rw [List.append_nil]
    exact h

/-- What a step that transfers nothing leaves alone; no step opens the queue again. -/
def Keeps (q q' : QueueCore α) : Prop :=
  q'.ring = q.ring ∧ (q'.state = .isOpen → q.state = .isOpen)

/-- Nothing changed. -/
theorem Keeps.refl (q : QueueCore α) : Keeps q q := ⟨rfl, id⟩

/-- Taking the state lock leaves the ring. -/
theorem lockState_keeps {pc : QueuePc α} {section_ : QueueCore α → QueueCore α × QueuePc α}
    (hsection : ∀ q, Keeps q (section_ q).1) : Keeps q (lockState q pc section_).1 := by
  unfold lockState
  split_ifs
  · exact .refl q
  · exact hsection { q with stateLock := true }

/-- So does the end of the wait. -/
theorem waitedSection_keeps (d : Transfer α) (t : Timeout) (result : Except Err Unit)
    (q : QueueCore α) : Keeps q (waitedSection d t result q).1 := by
  have hleave : Keeps q (q.leaveWaiting d) := by cases d <;> exact ⟨rfl, id⟩
  unfold waitedSection
  cases t <;> dsimp only <;> split_ifs <;> cases result <;> dsimp only <;>
    first
      | exact hleave
      | split_ifs <;> first | exact .refl q | exact hleave

/-- The ring is touched by a post that goes well, and by nothing else. -/
theorem QueuePc.step_keeps (env : PrimEnv) (pc : QueuePc α) :
    (∃ d reply, pc = .postingInBoth d ∧ env.semPost = .ok reply) ∨ Keeps q (pc.step env q).1 := by
  -- A token given back changes neither the ring nor the state of the queue.
  have hown : ∀ d : Transfer α, Keeps q (queueOperationLeaveLocked (q.postOwn d)) := by
    intro d
    cases d <;> exact ⟨rfl, id⟩
  cases pc with
  | postingInBoth d =>
    dsimp only [QueuePc.step]
    cases hpost : env.semPost with
    | error e => exact .inr (.refl q)
    | ok reply => exact .inl ⟨d, reply, rfl, rfl⟩
  | enter d t =>
    refine .inr (lockState_keeps fun q => ?_)
    split_ifs
    · exact .refl q
    · cases d <;> exact ⟨rfl, id⟩
  | waiting d t =>
    refine .inr ?_
    dsimp only [QueuePc.step, waitStep]
    by_cases hexpired : t = .finite ∧ env.expired = true
    · rw [if_pos hexpired]
      exact .refl q
    · rw [if_neg hexpired]
      cases env.semWait with
      | some code => exact .refl q
      | none =>
        dsimp only
        split_ifs
        · cases d <;> exact ⟨rfl, id⟩
        · exact .refl q
        · exact .refl q
  | waited d t result => exact .inr (lockState_keeps (waitedSection_keeps d t result))
  -- The count of those that wait is no part of what is kept.
  | expired d =>
    refine .inr (lockState_keeps fun q => ?_)
    cases d <;> exact ⟨rfl, id⟩
  | returnTokenInState d => exact .inr (hown d)
  | givingBackInBoth d e => exact .inr (hown d)
  | leaving e => exact .inr (lockState_keeps fun q => ⟨rfl, id⟩)
  | locking d =>
    refine .inr ?_
    dsimp only [QueuePc.step]
    split_ifs <;> exact ⟨rfl, id⟩
  | inLock d =>
    refine .inr (lockState_keeps fun q => ?_)
    split_ifs <;> exact .refl q
  | sizing =>
    refine .inr (lockState_keeps fun q => ?_)
    split_ifs <;> exact .refl q
  -- Only an open queue is closed.
  | close destroy =>
    refine .inr (lockState_keeps fun q => ?_)
    cases hstate : q.state with
    | isOpen => exact ⟨rfl, nofun⟩
    | closing => exact .refl q
    | closed => exact .refl q
  | polling destroy => exact .inr (lockState_keeps fun q => .refl q)
  | quiesced destroy => cases destroy <;> exact .inr ⟨rfl, id⟩
  | destroying => exact .inr (lockState_keeps fun q => ⟨rfl, nofun⟩)
  | _ => exact .inr ⟨rfl, id⟩

/-- The step that transfers. -/
def QueuePc.Commits (env : PrimEnv) (pc : QueuePc α) : Prop :=
  ∃ d reply, pc = .postingInBoth d ∧ env.semPost = .ok reply

/-- Other steps move nothing. -/
theorem QueuePc.transfers_of_not_commits {env : PrimEnv} {pc : QueuePc α} (h : ¬pc.Commits env)
    (k : ℕ) : pc.transfers k env q = [] := by
  cases pc with
  | postingInBoth d =>
    unfold QueuePc.transfers
    cases hpost : env.semPost with
    | error e => cases d <;> rfl
    | ok reply => exact absurd ⟨d, reply, rfl, hpost⟩ h
  | _ => rfl

/-- Before it transfers, a call has made sure that the queue is open. -/
theorem QueueCore.Balanced.posting {capacity : ℕ} {others : Holdings} {d : Transfer α}
    (hb : q.Balanced capacity ((QueuePc.postingInBoth d).holds.add others)) : q.state = .isOpen := by
  refine hb.checked ?_
  have hone : (QueuePc.postingInBoth d).holds.checked = 1 := by cases d <;> rfl
  show (QueuePc.postingInBoth d).holds.checked + others.checked ≠ 0
  omega

/-- The ring changes by what is transferred. -/
theorem QueuePc.step_ring {capacity : ℕ} {others : Holdings} (k : ℕ) (env : PrimEnv)
    (pc : QueuePc α) {past : List (QueueEvent α)} (h : pushes past = pops past ++ q.ring.toList)
    (hb : q.Balanced capacity (pc.holds.add others)) :
    pushes (past ++ pc.transfers k env q) =
      pops (past ++ pc.transfers k env q) ++ (pc.step env q).1.ring.toList := by
  -- the item goes in or out with the post, so the ring and the histories move together
  by_cases hcommits : pc.Commits env
  · obtain ⟨d, reply, rfl, hpost⟩ := hcommits
    have hopen := hb.posting
    dsimp only [QueuePc.step, QueuePc.transfers]
    rw [hpost, pushes_append, pops_append]
    cases d with
    | push item =>
      have hslots : q.emptySlots + (1 + others.emptySlots) + q.ring.count = capacity :=
        hb.emptySlots hopen
      have hroom : q.ring.count < q.ring.depth := by
        rw [hb.depth]
        omega
      show pushes past ++ [item] = pops past ++ [] ++ (q.ring.push item).toList
      rw [hb.ring.toList_push hroom, h, List.append_nil, List.append_assoc]
    | pop =>
      have hitems : q.filledSlots + (1 + others.filledSlots) = q.ring.count := hb.filledSlots hopen
      have hsome : q.ring.count ≠ 0 := by omega
      show pushes past ++ [] = pops past ++ [q.ring.buf q.ring.head] ++ q.ring.pop.toList
      rw [List.append_nil, List.append_assoc, List.singleton_append, ← hb.ring.toList_pop hsome, h]
  · obtain ⟨hring, -⟩ := (pc.step_keeps (q := q) env).resolve_left hcommits
    rw [pc.transfers_of_not_commits hcommits, List.append_nil, hring, h]

end Steps

/-! ### Runs -/

/-- The call has not been let in, or is over. -/
def QueuePc.Outside : QueuePc α → Prop
  | .enter _ _ => True
  | .returned _ => True
  | .sizing => True
  | .close _ => True
  | .quiesced _ => True
  | .ended => True
  | _ => False

namespace QueueSystem

variable {s : QueueSystem α} {past : List (QueueEvent α)} {capacity : ℕ}

/-- What every step keeps; `past` is what has been transferred. -/
structure Conserves (capacity : ℕ) (past : List (QueueEvent α)) (s : QueueSystem α) : Prop where
  balanced : s.shared.Balanced capacity (holdings s.calls)
  fifo : pushes past = pops past ++ s.shared.ring.toList
  explains : ∀ k, Explains (s.calls[k]?.bind QueuePc.result) (transfersOf k past)

/-- A queue that was created holds nothing and owes nothing. -/
theorem conserves_created (buf : ℕ → α) (hcapacity : 0 < capacity) :
    Conserves capacity [] (created buf capacity) where
  balanced := ⟨Fifo.wellFormed_empty _ hcapacity, rfl, rfl, rfl, rfl, rfl, rfl, fun _ => rfl,
    fun _ => rfl, fun _ => rfl⟩
  fifo := rfl
  explains _ := rfl

/-- The transfers of one step are those of the call that takes it. -/
theorem transfers_call {k : ℕ} {env : PrimEnv} {q : QueueCore α} {pc : QueuePc α} :
    ∀ e ∈ pc.transfers k env q, e.call = k := by
  intro e he
  cases pc with
  | postingInBoth d =>
    unfold QueuePc.transfers at he
    cases hpost : env.semPost with
    | error e' => rw [hpost] at he; cases d <;> cases he
    | ok _ =>
      rw [hpost] at he
      cases d <;> rw [List.mem_singleton.mp he] <;> rfl
  | _ => cases he

/-- What a call moves is its own. -/
theorem transfersOf_self {k : ℕ} {env : PrimEnv} {q : QueueCore α} {pc : QueuePc α} :
    transfersOf k (pc.transfers k env q) = pc.transfers k env q :=
  List.filter_eq_self.mpr fun e he => decide_eq_true (transfers_call e he)

/-- And of no other call. -/
theorem transfersOf_other {j k : ℕ} (hjk : j ≠ k) {env : PrimEnv} {q : QueueCore α}
    {pc : QueuePc α} : transfersOf j (pc.transfers k env q) = [] :=
  List.filter_eq_nil_iff.mpr fun e he => by
    rw [transfers_call e he, decide_eq_true_eq]
    exact hjk.symm

/-- A call that starts changes nothing. -/
theorem Conserves.start (h : Conserves capacity past s) (api : QueueApi α) :
    Conserves capacity past ⟨s.shared, s.calls ++ [api.enter]⟩ := by
  refine ⟨?_, h.fifo, fun k => ?_⟩
  · show s.shared.Balanced capacity (holdings (s.calls ++ [api.enter]))
    rw [holdings_snoc]
    exact h.balanced
  · have hresult : (s.calls ++ [api.enter])[k]?.bind QueuePc.result =
        s.calls[k]?.bind QueuePc.result := by
      rcases Nat.lt_trichotomy k s.calls.length with hlt | heq | hgt
      · rw [List.getElem?_append_left hlt]
      · have hnone : api.enter.result = none := by cases api <;> rfl
        rw [heq, List.getElem?_concat_length, List.getElem?_eq_none (Nat.le_refl _)]
        exact hnone
      · rw [List.getElem?_eq_none (by rw [List.length_append]; exact hgt),
          List.getElem?_eq_none hgt.le]
    show Explains ((s.calls ++ [api.enter])[k]?.bind QueuePc.result) _
    rw [hresult]
    exact h.explains k

/-- A step of one call. -/
theorem Conserves.advance (h : Conserves capacity past s) {k : ℕ} {pc : QueuePc α}
    (hk : s.calls[k]? = some pc) (env : PrimEnv) :
    Conserves capacity (past ++ pc.transfers k env s.shared)
      ⟨(pc.step env s.shared).1, s.calls.set k (pc.step env s.shared).2⟩ := by
  obtain ⟨others, ho, hcalls, hset⟩ := holdings_split hk
  have hb := h.balanced
  rw [hcalls] at hb
  -- the balance and the order by the step lemmas; the answers call by call
  refine ⟨?_, pc.step_ring k env h.fifo hb, fun j => ?_⟩
  · show (pc.step env s.shared).1.Balanced capacity
      (holdings (s.calls.set k (pc.step env s.shared).2))
    rw [hset]
    exact pc.step_balanced ho env hb
  · have hj := h.explains j
    obtain ⟨hlt, -⟩ := List.getElem?_eq_some_iff.mp hk
    show Explains ((s.calls.set k (pc.step env s.shared).2)[j]?.bind QueuePc.result) _
    rw [transfersOf_append]
    by_cases hjk : j = k
    · subst hjk
      rw [hk] at hj
      rw [List.getElem?_set_self hlt, transfersOf_self]
      exact pc.step_explains j env hj
    · rw [List.getElem?_set_ne (Ne.symm hjk), transfersOf_other hjk, List.append_nil]
      exact hj

/-- One step keeps the invariant. -/
theorem Conserves.step (h : Conserves capacity past s) (a : QueueAction α) :
    Conserves capacity (past ++ s.transfers a) (QueueSystem.step s a).2 := by
  cases a with
  | start api =>
    show Conserves capacity (past ++ []) _
    rw [List.append_nil]
    exact h.start api
  | advance k env =>
    cases hk : s.calls[k]? with
    | none =>
      simp only [QueueSystem.transfers, QueueSystem.step, Threads.step, hk, Option.elim,
        List.append_nil]
      exact h
    | some pc =>
      rw [QueueSystem.step, Threads.step_advance hk]
      simp only [QueueSystem.transfers, hk, Option.elim]
      exact h.advance hk env

/-- What the queue promises of a state: `past` is what has been transferred. -/
structure Promises (capacity : ℕ) (past : List (QueueEvent α)) (s : QueueSystem α) : Prop where
  size_le : s.shared.ring.count ≤ capacity
  tail_eq : s.shared.ring.tail = (s.shared.ring.head + s.shared.ring.count) % capacity
  emptySlots : s.shared.state = .isOpen →
    s.shared.emptySlots + (holdings s.calls).emptySlots = capacity - s.shared.ring.count
  filledSlots : s.shared.state = .isOpen →
    s.shared.filledSlots + (holdings s.calls).filledSlots = s.shared.ring.count
  fifo : pops past <+: pushes past
  /-- A call that returns an error has transferred nothing, and one that succeeds its item. -/
  returned : ∀ k result, s.calls[k]? = some (.returned result) →
    Explains (some result) (transfersOf k past)
  idle : (∀ pc ∈ s.calls, pc.Outside) →
    s.shared.inFlight = 0 ∧ s.shared.waitingPush = 0 ∧ s.shared.waitingPop = 0

/-- What the invariant says to the user of the queue. -/
theorem Conserves.promises (h : Conserves capacity past s) : Promises capacity past s where
  size_le := h.balanced.depth ▸ h.balanced.ring.count_le
  tail_eq := h.balanced.depth ▸ h.balanced.ring.tail_eq
  emptySlots hopen := by
    have hslots := h.balanced.emptySlots hopen
    omega
  filledSlots := h.balanced.filledSlots
  fifo := ⟨_, h.fifo.symm⟩
  returned k result hk := by
    have hk' := h.explains k
    rw [hk] at hk'
    exact hk'
  idle houtside := by
    have hnone : ∀ w : Holdings → ℕ, w (.locks 0 0) = 0 →
        Threads.total (fun pc : QueuePc α => w pc.holds) s.calls = 0 := by
      intro w hw
      rw [Threads.total_eq_zero]
      intro pc hmem
      have hpc := houtside pc hmem
      have hholds : pc.holds = .locks 0 0 := by cases pc <;> first | rfl | exact hpc.elim
      rw [hholds, hw]
    exact ⟨h.balanced.inFlight.trans (hnone Holdings.inFlight rfl),
      h.balanced.waitingPush.trans (hnone Holdings.waitingPush rfl),
      h.balanced.waitingPop.trans (hnone Holdings.waitingPop rfl)⟩

/-- **In every state of every run the queue is a queue, its counts account for it, and what is
popped is what has been pushed.** -/
theorem queue_conserves (buf : ℕ → α) (hcapacity : 0 < capacity) (actions : List (QueueAction α)) :
    Promises capacity (history QueueSystem.step transfers actions (created buf capacity))
      (run QueueSystem.step actions (created buf capacity)).2 :=
  (history_invariant (I := Conserves capacity) (fun _ _ a h => h.step a) actions
    (conserves_created buf hcapacity)).promises

/-- Everything succeeds. -/
def works : PrimEnv := ⟨false, none, .ok ()⟩

/-- The `k`-th call goes on for `n` steps. -/
def goOn (k n : ℕ) : List (QueueAction α) := List.replicate n (.advance k works)

/-- Two items are pushed and one is popped. -/
def transferRun : List (QueueAction ℕ) :=
  .start (.push 4 .infinite) :: goOn 0 10 ++ .start (.push 5 .zero) :: goOn 1 10 ++
    .start (.pop .finite) :: goOn 2 10

/-- Two pushes and one pop on a queue of two. -/
theorem queue_conserves_transfer :
    0 < 2 ∧ pops (history QueueSystem.step transfers transferRun (created (fun _ => 0) 2)) = [4] ∧
      Promises 2 (history QueueSystem.step transfers transferRun (created (fun _ => 0) 2))
        (run QueueSystem.step transferRun (created (fun _ => 0) 2)).2 :=
  ⟨Nat.two_pos, by decide +kernel, queue_conserves (fun _ => 0) Nat.two_pos transferRun⟩

end QueueSystem

end TrustSdk.Queue
