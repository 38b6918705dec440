import TrustSdk.Core.Jobs
import TrustSdk.Lib.Threads

/-!
# Closing the job queue

`core_job.c` once more, for any number of tasks that call enqueue, dequeue and close. A close posts
one token for each call that is registered as a waiter at that moment. A dequeue that comes later
is still let in while jobs are left, and no token is posted for it: with two of them and one job,
one sleeps for good on a queue that is closed and empty (`not_closed_queue_wakes`).

* `Permits` — what rules this out: a call that enters a closed queue finds a token that no other
  call waits for;
* `closed_queue_wakes` — in every run whose steps permit it nobody is stranded, the jobs come out
  in the order they went in, and a dequeue of a closed queue gets a job or is told so.
-/

namespace TrustSdk.Core

open RingBuffer Machine

/-- The queue with the tokens that a close has not been able to post. -/
structure ClosingQueue extends JobQueue where
  closeWakePending : ℕ

/-- `actrust_job_queue_init`. -/
def ClosingQueue.init (depth : ℕ) : ClosingQueue := ⟨actrustJobQueueInit depth, 0⟩

/-- How a call begins. -/
inductive QueueApi where
  | enqueue (idx : ℕ)
  | dequeue
  | close
  deriving DecidableEq, Repr

/-- A call of the queue. Everything but the wait is a section under the lock of the queue. -/
inductive QueueCall where
  | enqueue (idx : ℕ)
  | close
  | dequeue
  /-- In `actrust_sem_wait`. -/
  | waiting
  /-- The wait has failed. -/
  | givingUp (e : Err)
  /-- The call has got a token. -/
  | taking
  | returned
  deriving DecidableEq, Repr

/-- What the semaphore answers. -/
structure QueueEnv where
  /-- The wait fails, or goes on until there is a token. -/
  semWait : Option Err
  semPost : Except Err Unit
  /-- The posts of a close, one for each token. -/
  wakePosts : ℕ → Except Err Unit

/-- The loop of `actrust_job_queue_close`, with the count of the semaphore and the tokens still to
be posted. -/
def jobQueueWake (posts : ℕ → Except Err Unit) (semItems : ℕ) : ℕ → ℕ × ℕ
  | 0 => (semItems, 0)
  | pending + 1 =>
    match posts pending with
    | .error _ => (semItems, pending + 1)
    | .ok _ => jobQueueWake posts (semItems + 1) pending

/-- `actrust_job_queue_close`. -/
def ClosingQueue.close (posts : ℕ → Except Err Unit) (q : ClosingQueue) : ClosingQueue :=
  let pending := if q.closed then q.closeWakePending else q.waiterCount
  let (semItems, closeWakePending) := jobQueueWake posts q.semItems pending
  { q with closed := true, semItems, closeWakePending }

/-- One step of a call. -/
def QueueCall.step (env : QueueEnv) (q : ClosingQueue) : QueueCall → ClosingQueue × QueueCall
  | .enqueue idx =>
    match actrustJobQueueEnqueue q.toJobQueue env.semPost idx with
    | .error _ => (q, .returned)
    | .ok queue => ({ q with toJobQueue := queue }, .returned)
  | .close => (q.close env.wakePosts, .returned)
  | .dequeue =>
    match jobQueueEnter q.toJobQueue with
    | .error _ => (q, .returned)
    | .ok queue => ({ q with toJobQueue := queue }, .waiting)
  | .waiting =>
    match env.semWait with
    | some e => (q, .givingUp e)
    | none => if q.semItems = 0 then (q, .waiting) else ({ q with semItems := q.semItems - 1 }, .taking)
  | .givingUp e => ({ q with toJobQueue := (jobQueueGiveUp q.toJobQueue e).2 }, .returned)
  | .taking => ({ q with toJobQueue := (jobQueueTake q.toJobQueue).2 }, .returned)
  | .returned => (q, .returned)

/-- What a dequeue returns in this step, if it does. -/
def QueueCall.answer (q : ClosingQueue) : QueueCall → Option (Except Err ℕ)
  | .dequeue =>
    match jobQueueEnter q.toJobQueue with
    | .error e => some (.error e)
    | .ok _ => none
  | .givingUp e => some (.error (jobQueueGiveUp q.toJobQueue e).1)
  | .taking => some (jobQueueTake q.toJobQueue).1
  | _ => none

/-- The queue and the calls in it. -/
abbrev QueueSystem := Threads.System ClosingQueue QueueCall

/-- A call begins, or takes its next access. -/
abbrev QueueAction := Threads.Action QueueApi QueueEnv

/-- What a call does first. -/
def QueueApi.enter : QueueApi → QueueCall
  | .enqueue idx => .enqueue idx
  | .dequeue => .dequeue
  | .close => .close

/-- One access of one call. -/
def QueueSystem.step : QueueSystem → QueueAction → Unit × QueueSystem :=
  Threads.step QueueApi.enter QueueCall.step

/-- An open queue and no call. -/
def QueueSystem.initial (depth : ℕ) : QueueSystem := ⟨.init depth, []⟩

/-! ### The property -/

/-- The call sleeps on the semaphore. -/
def QueueCall.waits : QueueCall → ℕ
  | .waiting => 1
  | _ => 0

/-- The calls that are registered as waiters. -/
def QueueCall.registered : QueueCall → ℕ
  | .waiting => 1
  | .givingUp _ => 1
  | .taking => 1
  | _ => 0

/-- The call has its token and has yet to take a job. -/
def QueueCall.takes : QueueCall → ℕ
  | .taking => 1
  | _ => 0

namespace QueueSystem

/-- The queue is closed and empty, no token is left, and a call waits for one. -/
def Stranded (s : QueueSystem) : Prop :=
  s.shared.closed = true ∧ s.shared.ring.count = 0 ∧ s.shared.semItems = 0 ∧
    QueueCall.waiting ∈ s.calls

instance (s : QueueSystem) : Decidable s.Stranded :=
  inferInstanceAs (Decidable (_ ∧ _ ∧ _ ∧ _))

/-- What happens in the queue. -/
inductive Event where
  | enqueued (idx : ℕ)
  /-- A dequeue returns; the queue is closed or not. -/
  | answered (closed : Bool) (result : Except Err ℕ)

/-- The jobs queued so far. -/
def enqueued (h : List Event) : List ℕ :=
  h.filterMap fun e => match e with
    | .enqueued idx => some idx
    | _ => none

/-- The jobs dequeued so far. -/
def dequeued (h : List Event) : List ℕ :=
  h.filterMap fun e => match e with
    | .answered _ (.ok idx) => some idx
    | _ => none

/-- What an access of a call records. -/
def callEvents (env : QueueEnv) (q : ClosingQueue) : QueueCall → List Event
  | .enqueue idx =>
    match actrustJobQueueEnqueue q.toJobQueue env.semPost idx with
    | .error _ => []
    | .ok _ => [.enqueued idx]
  | call => (call.answer q).toList.map (.answered q.closed)

/-- What an action records. -/
def events (s : QueueSystem) (a : QueueAction) : List Event :=
  (Threads.acting s a).elim [] fun (env, call) => callEvents env s.shared call

/-- A step of a call that keeps the wake-ups complete. -/
def PermitsCall (s : QueueSystem) (env : QueueEnv) : QueueCall → Prop
  | .close => ∀ n < s.shared.waiterCount, env.wakePosts n = .ok ()
  | .dequeue => s.shared.closed = true → s.shared.ring.count ≠ 0 →
      Threads.total QueueCall.waits s.calls < s.shared.semItems
  | .givingUp _ => s.shared.closed = true → s.shared.ring.count = 0
  | _ => True

instance (s : QueueSystem) (env : QueueEnv) : DecidablePred (s.PermitsCall env) := fun call => by
  unfold PermitsCall
  split <;> infer_instance

/-- The condition on the access taken. -/
def Permits (s : QueueSystem) (a : QueueAction) : Prop :=
  ∀ p ∈ Threads.acting s a, s.PermitsCall p.1 p.2

instance (s : QueueSystem) (a : QueueAction) : Decidable (s.Permits a) :=
  inferInstanceAs (Decidable (∀ p ∈ Threads.acting s a, _))

/-- The tokens, the waiters and the jobs agree; `past` is what has happened in the queue. -/
structure Balanced (past : List Event) (s : QueueSystem) : Prop where
  ring : s.shared.ring.WellFormed
  jobs : enqueued past = dequeued past ++ s.shared.ring.toList
  waiters : s.shared.waiterCount = Threads.total QueueCall.registered s.calls
  pending : s.shared.closeWakePending = 0
  tokens : s.shared.closed = false →
    s.shared.semItems + Threads.total QueueCall.takes s.calls = s.shared.ring.count
  awake : s.shared.closed = true → Threads.total QueueCall.waits s.calls ≤ s.shared.semItems
  told : ∀ result, .answered true result ∈ past →
    (∃ idx, result = .ok idx) ∨ result = .error (coreErr .badState)

variable {s : QueueSystem} {past : List Event}

/-- Nothing has passed yet. -/
theorem balanced_initial {depth : ℕ} (hdepth : 0 < depth) : Balanced [] (initial depth) where
  ring := Fifo.wellFormed_empty _ hdepth
  jobs := rfl
  waiters := rfl
  pending := rfl
  tokens _ := rfl
  awake _ := Nat.le_refl 0
  told := nofun

/-- A close posts a token for each waiter. -/
theorem jobQueueWake_all {posts : ℕ → Except Err Unit} {pending : ℕ}
    (h : ∀ n < pending, posts n = .ok ()) (semItems : ℕ) :
    jobQueueWake posts semItems pending = (semItems + pending, 0) := by
  induction pending generalizing semItems with
  | zero => rfl
  | succ pending ih =>
    rw [jobQueueWake, h pending (Nat.lt_succ_self _)]
    dsimp only
    rw [ih fun n hn => h n (Nat.lt_succ_of_lt hn), Nat.add_right_comm, Nat.add_assoc]

/-- When its posts succeed, a close is the one of the first model. -/
theorem close_eq {posts : ℕ → Except Err Unit} {q : ClosingQueue} (hpending : q.closeWakePending = 0)
    (h : ∀ n < q.waiterCount, posts n = .ok ()) :
    q.close posts = ⟨actrustJobQueueClose q.toJobQueue, 0⟩ := by
  unfold ClosingQueue.close actrustJobQueueClose
  by_cases hclosed : q.closed = true
  · rw [if_pos hclosed, if_pos hclosed, hpending]
    obtain ⟨⟨ring, waiterCount, closed, semItems⟩, pending⟩ := q
    cases hclosed
    cases hpending
    rfl
  · rw [if_neg hclosed, if_neg hclosed]
    dsimp only
    rw [jobQueueWake_all h]

/-- What a longer history queues. -/
theorem enqueued_append (h h' : List Event) : enqueued (h ++ h') = enqueued h ++ enqueued h' :=
  List.filterMap_append

/-- What it dequeues. -/
theorem dequeued_append (h h' : List Event) : dequeued (h ++ h') = dequeued h ++ dequeued h' :=
  List.filterMap_append

/-- A call that begins counts nowhere. -/
theorem Balanced.start (h : Balanced past s) (api : QueueApi) :
    Balanced past ⟨s.shared, s.calls ++ [api.enter]⟩ := by
  have hnone : ∀ w : QueueCall → ℕ, w api.enter = 0 →
      Threads.total w (s.calls ++ [api.enter]) = Threads.total w s.calls := by
    intro w hw
    rw [Threads.total_snoc, hw, Nat.add_zero]
  -- None of the first points of a call is registered, waiting or taking.
  have hzero : api.enter.registered = 0 ∧ api.enter.takes = 0 ∧ api.enter.waits = 0 := by
    cases api <;> exact ⟨rfl, rfl, rfl⟩
  refine ⟨h.ring, h.jobs, ?_, h.pending, ?_, ?_, h.told⟩
  · rw [hnone _ hzero.1]
    exact h.waiters
  · rw [hnone _ hzero.2.1]
    exact h.tokens
  · rw [hnone _ hzero.2.2]
    exact h.awake

/-- The waiting calls are among the registered ones. -/
theorem waits_le_registered (calls : List QueueCall) :
    Threads.total QueueCall.waits calls ≤ Threads.total QueueCall.registered calls := by
  induction calls with
  | nil => exact Nat.le_refl 0
  | cons call calls ih =>
    have hcall : call.waits ≤ call.registered := by cases call <;> simp [QueueCall.waits, QueueCall.registered]
    exact Nat.add_le_add hcall ih

/-- What a call that moves does to the totals. -/
theorem totals_set {calls : List QueueCall} {k : ℕ} {call : QueueCall} (hk : calls[k]? = some call)
    (call' : QueueCall) :
    Threads.total QueueCall.registered (calls.set k call') + call.registered =
        Threads.total QueueCall.registered calls + call'.registered ∧
      Threads.total QueueCall.takes (calls.set k call') + call.takes =
        Threads.total QueueCall.takes calls + call'.takes ∧
      Threads.total QueueCall.waits (calls.set k call') + call.waits =
        Threads.total QueueCall.waits calls + call'.waits :=
  ⟨Threads.total_set hk _ _, Threads.total_set hk _ _, Threads.total_set hk _ _⟩

/-- A call that is over has nothing, and one that has nothing leaves the books as they are. -/
-- The call leaves all three sums as they are.
theorem Balanced.ends (h : Balanced past s) {k : ℕ} {call : QueueCall} (hk : s.calls[k]? = some call)
    (hcall : call.registered = 0 ∧ call.takes = 0 ∧ call.waits = 0) :
    Balanced past ⟨s.shared, s.calls.set k .returned⟩ := by
  obtain ⟨hregistered, htakes, hwaits⟩ := totals_set hk .returned
  rw [hcall.1, Nat.add_zero] at hregistered
  rw [hcall.2.1, Nat.add_zero] at htakes
  rw [hcall.2.2, Nat.add_zero] at hwaits
  refine ⟨h.ring, h.jobs, h.waiters.trans hregistered.symm, h.pending, fun hopen => ?_,
    fun hclosed => ?_, h.told⟩
  · show s.shared.semItems + Threads.total QueueCall.takes (s.calls.set k .returned) = _
    rw [htakes]
    exact h.tokens hopen
  · show Threads.total QueueCall.waits (s.calls.set k .returned) ≤ _
    rw [hwaits]
    exact h.awake hclosed

/-- One answer more. -/
theorem told_append {closed : Bool} {answer : Except Err ℕ}
    (h : ∀ result, .answered true result ∈ past →
      (∃ idx, result = .ok idx) ∨ result = .error (coreErr .badState))
    (hanswer : closed = true → (∃ idx, answer = .ok idx) ∨ answer = .error (coreErr .badState)) :
    ∀ result, .answered true result ∈ past ++ [.answered closed answer] →
      (∃ idx, result = .ok idx) ∨ result = .error (coreErr .badState) := by
  intro result hmem
  rcases List.mem_append.mp hmem with hmem | hmem
  · exact h result hmem
  · have heq := List.mem_singleton.mp hmem
    injection heq with hclosed hresult
    rw [hresult]
    exact hanswer hclosed.symm

/-- An error answer passes no job. -/
theorem jobs_append_error {closed : Bool} {e : Err} {jobs : List ℕ}
    (h : enqueued past = dequeued past ++ jobs) :
    enqueued (past ++ [.answered closed (.error e)]) =
      dequeued (past ++ [.answered closed (.error e)]) ++ jobs := by
  rw [enqueued_append, dequeued_append]
  show enqueued past ++ [] = dequeued past ++ [] ++ jobs
  rw [List.append_nil, List.append_nil, h]

/-- An enqueue adds its job, with a token, or nothing. -/
theorem Balanced.enqueue (h : Balanced past s) {k idx : ℕ} {env : QueueEnv}
    (hk : s.calls[k]? = some (.enqueue idx)) :
    Balanced (past ++ callEvents env s.shared (.enqueue idx))
      ⟨((QueueCall.enqueue idx).step env s.shared).1,
        s.calls.set k ((QueueCall.enqueue idx).step env s.shared).2⟩ := by
  have hends := h.ends hk ⟨rfl, rfl, rfl⟩
  dsimp only [QueueCall.step, callEvents, actrustJobQueueEnqueue]
  -- Closed, full, or room; only the last queues the job, if its post succeeds.
  split_ifs with hclosed hfull
  · dsimp only
    rw [List.append_nil]
    exact hends
  · dsimp only
    rw [List.append_nil]
    exact hends
  · cases env.semPost with
    | error e =>
      dsimp only
      rw [List.append_nil]
      exact hends
    | ok _ =>
      have hroom : s.shared.ring.count < s.shared.ring.depth := Nat.lt_of_not_le hfull
      refine ⟨h.ring.push hroom idx, ?_, hends.waiters, h.pending, fun hopen => ?_,
        fun hc => absurd hc hclosed, ?_⟩
      · rw [enqueued_append, dequeued_append]
        show enqueued past ++ [idx] = dequeued past ++ [] ++ (s.shared.ring.push idx).toList
        rw [h.ring.toList_push hroom, h.jobs, List.append_nil, List.append_assoc]
      · have htokens := hends.tokens hopen
        show s.shared.semItems + 1 + Threads.total QueueCall.takes (s.calls.set k .returned) =
          s.shared.ring.count + 1
        dsimp only at htokens
        omega
      · intro result hmem
        rcases List.mem_append.mp hmem with hmem | hmem
        · exact h.told result hmem
        · cases List.mem_singleton.mp hmem

/-- With all its posts a close leaves a token for every waiter. -/
theorem Balanced.close (h : Balanced past s) {k : ℕ} {env : QueueEnv} (hk : s.calls[k]? = some .close)
    (hposts : ∀ n < s.shared.waiterCount, env.wakePosts n = .ok ()) :
    Balanced past ⟨s.shared.close env.wakePosts, s.calls.set k .returned⟩ := by
  have hends := h.ends hk ⟨rfl, rfl, rfl⟩
  rw [close_eq h.pending hposts]
  unfold actrustJobQueueClose
  by_cases hclosed : s.shared.closed = true
  · rw [if_pos hclosed]
    exact ⟨h.ring, h.jobs, hends.waiters, rfl, hends.tokens, hends.awake, h.told⟩
  · rw [if_neg hclosed]
    refine ⟨h.ring, h.jobs, hends.waiters, rfl, Bool.noConfusion, fun _ => ?_, h.told⟩
    -- a token for every call that is registered, of which the waiting ones are some
    have hle := waits_le_registered (s.calls.set k .returned)
    have hwaiters : s.shared.waiterCount =
        Threads.total QueueCall.registered (s.calls.set k .returned) := hends.waiters
    show Threads.total QueueCall.waits (s.calls.set k .returned) ≤
      s.shared.semItems + s.shared.waiterCount
    omega

/-- A dequeue registers itself, or is told that the queue is closed. -/
theorem Balanced.dequeue (h : Balanced past s) {k : ℕ} {env : QueueEnv}
    (hk : s.calls[k]? = some .dequeue) (hp : s.PermitsCall env .dequeue) :
    Balanced (past ++ callEvents env s.shared .dequeue)
      ⟨(QueueCall.dequeue.step env s.shared).1,
        s.calls.set k (QueueCall.dequeue.step env s.shared).2⟩ := by
  dsimp only [QueueCall.step, callEvents, QueueCall.answer, jobQueueEnter]
  by_cases hempty : s.shared.closed = true ∧ s.shared.ring.count = 0
  · rw [if_pos hempty]
    have hends := h.ends hk ⟨rfl, rfl, rfl⟩
    exact ⟨h.ring, jobs_append_error h.jobs, hends.waiters, h.pending, hends.tokens, hends.awake,
      told_append h.told fun _ => .inr rfl⟩
  · rw [if_neg hempty]
    obtain ⟨hregistered, htakes, hwaits⟩ := totals_set hk .waiting
    dsimp only [QueueCall.registered, QueueCall.takes, QueueCall.waits] at hregistered htakes hwaits
    show Balanced (past ++ []) _
    rw [List.append_nil]
    refine ⟨h.ring, h.jobs, ?_, h.pending, fun hopen => ?_, fun hclosed => ?_, h.told⟩
    · have hwaiters := h.waiters
      show s.shared.waiterCount + 1 =
        Threads.total QueueCall.registered (s.calls.set k .waiting)
      omega
    · have htokens := h.tokens hopen
      show s.shared.semItems + Threads.total QueueCall.takes (s.calls.set k .waiting) =
        s.shared.ring.count
      omega
    · -- the step is permitted: it finds a token that nobody waits for
      have hspare := hp hclosed fun hcount => hempty ⟨hclosed, hcount⟩
      show Threads.total QueueCall.waits (s.calls.set k .waiting) ≤ s.shared.semItems
      omega

/-- A waiter takes a token, goes on sleeping, or gives up. -/
theorem Balanced.wait (h : Balanced past s) {k : ℕ} {env : QueueEnv}
    (hk : s.calls[k]? = some .waiting) :
    Balanced past ⟨(QueueCall.waiting.step env s.shared).1,
      s.calls.set k (QueueCall.waiting.step env s.shared).2⟩ := by
  dsimp only [QueueCall.step]
  cases env.semWait with
  -- The wait failed: the waiter goes to give up, still registered.
  | some e =>
    obtain ⟨hregistered, htakes, hwaits⟩ := totals_set hk (.givingUp e)
    dsimp only [QueueCall.registered, QueueCall.takes, QueueCall.waits] at hregistered htakes hwaits
    refine ⟨h.ring, h.jobs, ?_, h.pending, fun hopen => ?_, fun hclosed => ?_, h.told⟩
    · have hwaiters := h.waiters
      show s.shared.waiterCount =
        Threads.total QueueCall.registered (s.calls.set k (.givingUp e))
      omega
    · have htokens := h.tokens hopen
      show s.shared.semItems + Threads.total QueueCall.takes (s.calls.set k (.givingUp e)) =
        s.shared.ring.count
      omega
    · have hawake := h.awake hclosed
      show Threads.total QueueCall.waits (s.calls.set k (.givingUp e)) ≤ s.shared.semItems
      omega
  -- A token is there, or it goes on sleeping, which is no step at all.
  | none =>
    dsimp only
    by_cases hzero : s.shared.semItems = 0
    · rw [if_pos hzero]
      obtain ⟨hregistered, htakes, hwaits⟩ := totals_set hk .waiting
      have hset : s.calls.set k .waiting = s.calls := by
        obtain ⟨hlt, heq⟩ := List.getElem?_eq_some_iff.mp hk
        rw [← heq, List.set_getElem_self]
      rw [hset]
      exact h
    · rw [if_neg hzero]
      obtain ⟨hregistered, htakes, hwaits⟩ := totals_set hk .taking
      dsimp only [QueueCall.registered, QueueCall.takes, QueueCall.waits] at hregistered htakes hwaits
      refine ⟨h.ring, h.jobs, ?_, h.pending, fun hopen => ?_, fun hclosed => ?_, h.told⟩
      · have hwaiters := h.waiters
        show s.shared.waiterCount =
          Threads.total QueueCall.registered (s.calls.set k .taking)
        omega
      · have htokens := h.tokens hopen
        show s.shared.semItems - 1 + Threads.total QueueCall.takes (s.calls.set k .taking) =
          s.shared.ring.count
        omega
      · have hawake := h.awake hclosed
        show Threads.total QueueCall.waits (s.calls.set k .taking) ≤ s.shared.semItems - 1
        omega

/-- A waiter that gives up is told BAD_STATE when the queue is closed. -/
theorem Balanced.giveUp (h : Balanced past s) {k : ℕ} {e : Err} {env : QueueEnv}
    (hk : s.calls[k]? = some (.givingUp e)) (hp : s.PermitsCall env (.givingUp e)) :
    Balanced (past ++ [.answered s.shared.closed (.error (jobQueueGiveUp s.shared.toJobQueue e).1)])
      ⟨⟨(jobQueueGiveUp s.shared.toJobQueue e).2, s.shared.closeWakePending⟩,
        s.calls.set k .returned⟩ := by
  obtain ⟨hregistered, htakes, hwaits⟩ := totals_set hk .returned
  dsimp only [QueueCall.registered, QueueCall.takes, QueueCall.waits] at hregistered htakes hwaits
  refine ⟨h.ring, jobs_append_error h.jobs, ?_, h.pending, fun hopen => ?_, fun hclosed => ?_,
    told_append h.told fun hclosed => .inr ?_⟩
  · have hwaiters := h.waiters
    show s.shared.waiterCount - 1 =
      Threads.total QueueCall.registered (s.calls.set k .returned)
    omega
  · have htokens := h.tokens hopen
    show s.shared.semItems + Threads.total QueueCall.takes (s.calls.set k .returned) =
      s.shared.ring.count
    omega
  · have hawake := h.awake hclosed
    show Threads.total QueueCall.waits (s.calls.set k .returned) ≤ s.shared.semItems
    omega
  · -- After the close the error is the one of a closed queue.
    unfold jobQueueGiveUp
    rw [if_pos ⟨hclosed, hp hclosed⟩]

/-- A waiter with a token takes the job at the head, or finds the closed queue empty. -/
theorem Balanced.take (h : Balanced past s) {k : ℕ} (hk : s.calls[k]? = some .taking) :
    Balanced (past ++ [.answered s.shared.closed (jobQueueTake s.shared.toJobQueue).1])
      ⟨⟨(jobQueueTake s.shared.toJobQueue).2, s.shared.closeWakePending⟩,
        s.calls.set k .returned⟩ := by
  obtain ⟨hregistered, htakes, hwaits⟩ := totals_set hk .returned
  dsimp only [QueueCall.registered, QueueCall.takes, QueueCall.waits] at hregistered htakes hwaits
  have hwaiters := h.waiters
  dsimp only [jobQueueTake]
  by_cases hempty : s.shared.ring.count = 0
  · rw [if_pos hempty]
    refine ⟨h.ring, jobs_append_error h.jobs, ?_, h.pending, fun hopen => ?_, fun hclosed => ?_,
      told_append h.told fun hclosed => .inr ?_⟩
    · show s.shared.waiterCount - 1 =
      Threads.total QueueCall.registered (s.calls.set k .returned)
      omega
    · -- an open queue has a job for every token
      have htokens := h.tokens hopen
      omega
    · have hawake := h.awake hclosed
      show Threads.total QueueCall.waits (s.calls.set k .returned) ≤ s.shared.semItems
      omega
    · rw [if_pos hclosed]
  · rw [if_neg hempty]
    refine ⟨h.ring.pop hempty, ?_, ?_, h.pending, fun hopen => ?_, fun hclosed => ?_,
      told_append h.told fun _ => .inl ⟨_, rfl⟩⟩
    · rw [enqueued_append, dequeued_append]
      show enqueued past ++ [] = dequeued past ++ [s.shared.ring.buf s.shared.ring.head] ++
        s.shared.ring.pop.toList
      rw [List.append_nil, List.append_assoc, List.singleton_append, ← h.ring.toList_pop hempty,
        h.jobs]
    · show s.shared.waiterCount - 1 =
      Threads.total QueueCall.registered (s.calls.set k .returned)
      omega
    · have htokens := h.tokens hopen
      show s.shared.semItems + Threads.total QueueCall.takes (s.calls.set k .returned) =
        s.shared.ring.count - 1
      omega
    · have hawake := h.awake hclosed
      show Threads.total QueueCall.waits (s.calls.set k .returned) ≤ s.shared.semItems
      omega

/-- Every step that is permitted keeps the balance. -/
-- By the point of the call that takes its access.
theorem Balanced.step (h : Balanced past s) {a : QueueAction} (hp : s.Permits a) :
    Balanced (past ++ s.events a) (QueueSystem.step s a).2 := by
  rcases Threads.step_cases QueueApi.enter QueueCall.step s a with
    ⟨api, rfl, hstep⟩ | ⟨hacting, hstep⟩ | ⟨k, env, call, rfl, hk, hacting, hstep⟩
  · rw [QueueSystem.step, hstep]
    show Balanced (past ++ []) _
    rw [List.append_nil]
    exact h.start api
  · rw [QueueSystem.step, hstep, events, hacting]
    show Balanced (past ++ []) _
    rw [List.append_nil]
    exact h
  · have hcall := hp _ (Option.mem_def.mpr hacting)
    rw [QueueSystem.step, hstep, events, hacting]
    dsimp only [Option.elim]
    cases call with
    | enqueue idx => exact h.enqueue hk
    | dequeue => exact h.dequeue hk hcall
    | close =>
      show Balanced (past ++ []) _
      rw [List.append_nil]
      exact h.close hk hcall
    | waiting =>
      show Balanced (past ++ []) _
      rw [List.append_nil]
      exact h.wait hk
    | givingUp e => exact h.giveUp hk hcall
    | taking => exact h.take hk
    | returned =>
      show Balanced (past ++ []) _
      rw [List.append_nil]
      exact h.ends hk ⟨rfl, rfl, rfl⟩

/-- On a closed queue every waiter has a token, so none is stranded. -/
theorem Balanced.not_stranded (h : Balanced past s) : ¬s.Stranded := by
  rintro ⟨hclosed, -, hzero, hmem⟩
  have hawake := h.awake hclosed
  rw [hzero, Nat.le_zero, Threads.total_eq_zero] at hawake
  exact Nat.one_ne_zero (hawake _ hmem)

/-- What the queue promises of a run: nobody is stranded, the jobs come out in the order they went
in, and a dequeue that ends on the closed queue has got a job or is told that it is closed. -/
def Wakes (depth : ℕ) (actions : List QueueAction) : Prop :=
  Always QueueSystem.step (fun s => ¬s.Stranded) actions (initial depth) ∧
    dequeued (history QueueSystem.step events actions (initial depth)) <+:
      enqueued (history QueueSystem.step events actions (initial depth)) ∧
    ∀ result, .answered true result ∈ history QueueSystem.step events actions (initial depth) →
      (∃ idx, result = .ok idx) ∨ result = .error (coreErr .badState)

/-- **In every run whose steps permit it, the queue keeps its promise.** -/
theorem closed_queue_wakes {depth : ℕ} (hdepth : 0 < depth) {actions : List QueueAction}
    (h : Meets QueueSystem.step Permits actions (initial depth)) : Wakes depth actions := by
  have hbalanced := history_invariant_of_meets (I := Balanced)
    (fun past s a hI ha => hI.step ha) (balanced_initial hdepth) h
  refine ⟨?_, ⟨_, hbalanced.jobs.symm⟩, hbalanced.told⟩
  exact always_of_invariant (I := fun s => ∃ past, Balanced past s)
    (fun s a ⟨past, hI⟩ ha => ⟨_, hI.step ha⟩) (fun s ⟨past, hI⟩ => hI.not_stranded)
    ⟨[], balanced_initial hdepth⟩ h

/-- Everything succeeds, and a wait goes on until there is a token. -/
def works : QueueEnv := ⟨none, .ok (), fun _ => .ok ()⟩

/-- A job is enqueued, one call waits, and the queue is closed: the waiting call gets the job. -/
def wokenRun : List QueueAction :=
  [.start .dequeue, .advance 0 works, .start (.enqueue 7), .advance 1 works, .start .close,
    .advance 2 works, .advance 0 works, .advance 0 works]

/-- A waiter, a close, and the waiter's answer. -/
theorem closed_queue_wakes_woken :
    Meets QueueSystem.step Permits wokenRun (initial 1) ∧ Wakes 1 wokenRun := by
  have h : Meets QueueSystem.step Permits wokenRun (initial 1) := by decide +kernel
  exact ⟨h, closed_queue_wakes Nat.one_pos h⟩

/-- One job, a close, and two calls that are still let in. -/
def strandedRun : List QueueAction :=
  [.start (.enqueue 7), .advance 0 works, .start .close, .advance 1 works, .start .dequeue,
    .start .dequeue, .advance 2 works, .advance 3 works, .advance 2 works, .advance 2 works]

/-- The second call sleeps on a queue that is closed and empty. -/
theorem not_closed_queue_wakes :
    ¬ ∀ (depth : ℕ) (actions : List QueueAction), 0 < depth → Wakes depth actions := by
  intro h
  have hstranded : (run QueueSystem.step strandedRun (initial 1)).2.Stranded := by decide +kernel
  exact (h 1 strandedRun Nat.one_pos).1.last hstranded

end QueueSystem

end TrustSdk.Core
