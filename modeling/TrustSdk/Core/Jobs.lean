import TrustSdk.Core.Registration
import TrustSdk.Lib.RingBuffer

/-!
# Jobs of the core: the pool and the queue

`core_job.c`. A job is a slot of the pool. It is allocated by the call that posts it, goes through
the queue as a pointer to its slot, and is released by the service task. Each function here is one
section under the pool's or the queue's lock.

Mutexes are taken to work; the semaphore of the queue may fail.
-/

namespace TrustSdk.Core

open RingBuffer

/-- `actrust_job_type_t`. -/
inductive JobType where
  | none
  | init
  | connect
  | disconnect
  | register
  | send
  | deinit
  deriving DecidableEq, Repr

/-- What a job was posted for: its type, and the call that has posted it, which no step reads. -/
structure Request where
  type : JobType
  call : ℕ
  deriving DecidableEq, Repr

/-- `actrust_job_t`; its parameters are not looked at here. -/
structure Job where
  request : Request
  refcnt : ℕ
  deriving DecidableEq

/-! ### The pool -/

/-- `actrust_job_pool_t`. The free indices are a stack, its top first. -/
structure JobPool where
  pool : ℕ → Job
  freeIndices : List ℕ

/-- `actrust_job_pool_init`: every slot is free. -/
def actrustJobPoolInit (size : ℕ) : JobPool where
  pool _ := ⟨⟨.none, 0⟩, 0⟩
  freeIndices := (List.range size).reverse

/-- `actrust_job_alloc`, and the type that the caller fills in. -/
def actrustJobAlloc (p : JobPool) (request : Request) : Except Err (ℕ × JobPool) :=
  match p.freeIndices with
  | [] => .error (coreErr .noResource)
  | idx :: freeIndices =>
    .ok (idx, { pool := Function.update p.pool idx ⟨request, 1⟩, freeIndices })

/-- `actrust_job_release`: the slot is free again when its last reference goes. -/
def actrustJobRelease (p : JobPool) (idx : ℕ) : Except Err JobPool :=
  let job := p.pool idx
  if job.refcnt = 0 then .error (coreErr .badState)
  else if job.refcnt - 1 = 0 then
    .ok { pool := Function.update p.pool idx ⟨{ job.request with type := .none }, 0⟩
          freeIndices := idx :: p.freeIndices }
  else
    .ok { p with pool := Function.update p.pool idx { job with refcnt := job.refcnt - 1 } }

/-- The jobs in some slots. -/
def JobPool.requests (p : JobPool) (slots : List ℕ) : List Request :=
  slots.map fun i => (p.pool i).request

/-- Every slot is free and has no reference, or is held by one holder and has one. -/
structure JobPool.Accounted (size : ℕ) (p : JobPool) (held : List ℕ) : Prop where
  perm : (p.freeIndices ++ held).Perm (List.range size)
  free : ∀ i ∈ p.freeIndices, (p.pool i).refcnt = 0
  held : ∀ i ∈ held, (p.pool i).refcnt = 1

/-- The requests of slots that are the same are the same. -/
theorem JobPool.requests_congr {p p' : JobPool} {slots : List ℕ}
    (h : ∀ i ∈ slots, p'.pool i = p.pool i) : p'.requests slots = p.requests slots :=
  List.map_congr_left fun i hi => by rw [h i hi]

namespace JobPool.Accounted

variable {size : ℕ} {p p' : JobPool} {held held' : List ℕ} {idx : ℕ} {request : Request}

/-- A new pool: all slots are free, none is held. -/
theorem init (size : ℕ) : (actrustJobPoolInit size).Accounted size [] where
  perm := by
    rw [List.append_nil]
    exact List.reverse_perm _
  free _ _ := rfl
  held := nofun

/-- The order of the slots held does not matter. -/
theorem congr (h : p.Accounted size held) (hp : held.Perm held') : p.Accounted size held' where
  perm := (hp.append_left _).symm.trans h.perm
  free := h.free
  held i hi := h.held i (hp.mem_iff.mpr hi)

/-- No slot is free twice, held twice, or both. -/
theorem nodup (h : p.Accounted size held) : (p.freeIndices ++ held).Nodup :=
  h.perm.nodup_iff.mpr List.nodup_range

/-- An allocation takes a free slot and leaves the others alone. -/
theorem alloc (h : p.Accounted size held) (ha : actrustJobAlloc p request = .ok (idx, p')) :
    p'.Accounted size (idx :: held) ∧ (p'.pool idx).request = request ∧
      ∀ i ∈ held, p'.pool i = p.pool i := by
  obtain ⟨pool, freeIndices⟩ := p
  -- The slot is the first of the free list.
  cases freeIndices with
  | nil => cases ha
  | cons i rest =>
    cases ha
    -- It is neither free any more nor held before, so the update hits no other slot.
    have hnodup : idx ∉ rest ∧ idx ∉ held := by
      have := h.nodup
      simp only [List.cons_append, List.nodup_cons, List.mem_append, not_or] at this
      exact this.1
    have hsame : ∀ j, j ≠ idx → Function.update pool idx ⟨request, 1⟩ j = pool j :=
      fun j hj => Function.update_of_ne hj _ _
    refine ⟨⟨?_, ?_, ?_⟩, ?_, ?_⟩
    · exact List.perm_middle.trans h.perm
    · intro j hj
      show (Function.update pool idx _ j).refcnt = 0
      rw [hsame j fun heq => hnodup.1 (heq ▸ hj)]
      exact h.free j (List.mem_cons_of_mem _ hj)
    · intro j hj
      show (Function.update pool idx _ j).refcnt = 1
      by_cases heq : j = idx
      · rw [heq, Function.update_self]
      · rw [hsame j heq]
        exact h.held j ((List.mem_cons.mp hj).resolve_left heq)
    · show (Function.update pool idx _ idx).request = request
      rw [Function.update_self]
    · exact fun j hj => hsame j fun heq => hnodup.2 (heq ▸ hj)

/-- A held slot, whose count is one, is free after its release. -/
theorem release (h : p.Accounted size (idx :: held)) :
    ∃ p', actrustJobRelease p idx = .ok p' ∧ p'.Accounted size held ∧
      ∀ i ∈ held, p'.pool i = p.pool i := by
  have hcount : (p.pool idx).refcnt = 1 := h.held idx List.mem_cons_self
  have hnodup : idx ∉ p.freeIndices ∧ idx ∉ held := by
    have := List.perm_middle.nodup_iff.mp h.nodup
    simp only [List.nodup_cons, List.mem_append, not_or] at this
    exact this.1
  have hsame : ∀ job j, j ≠ idx → Function.update p.pool idx job j = p.pool j :=
    fun job j hj => Function.update_of_ne hj _ _
  -- The count is one, so this release is the last.
  have hrelease : actrustJobRelease p idx =
      .ok { pool := Function.update p.pool idx ⟨{ (p.pool idx).request with type := .none }, 0⟩
            freeIndices := idx :: p.freeIndices } := by
    unfold actrustJobRelease
    simp only [hcount]
    rfl
  refine ⟨_, hrelease, ⟨?_, ?_, ?_⟩, ?_⟩
  · exact List.perm_middle.symm.trans h.perm
  · intro j hj
    show (Function.update p.pool idx _ j).refcnt = 0
    by_cases heq : j = idx
    · rw [heq, Function.update_self]
    · rw [hsame _ j heq]
      exact h.free j ((List.mem_cons.mp hj).resolve_left heq)
  · intro j hj
    show (Function.update p.pool idx _ j).refcnt = 1
    rw [hsame _ j fun heq => hnodup.2 (heq ▸ hj)]
    exact h.held j (List.mem_cons_of_mem _ hj)
  · exact fun j hj => hsame _ j fun heq => hnodup.2 (heq ▸ hj)

/-- When nothing is held, a slot can be had. -/
theorem exists_alloc (h : p.Accounted size []) (hsize : 0 < size) (request : Request) :
    ∃ idx p', actrustJobAlloc p request = .ok (idx, p') := by
  obtain ⟨pool, freeIndices⟩ := p
  cases freeIndices with
  | nil =>
    have := h.perm.length_eq
    simp only [List.append_nil, List.length_nil, List.length_range] at this
    omega
  | cons idx rest => exact ⟨idx, _, rfl⟩

end JobPool.Accounted

/-! ### The queue -/

/-- `actrust_job_queue_t`, of indices into the pool. -/
structure JobQueue where
  ring : Fifo ℕ
  waiterCount : ℕ
  closed : Bool
  /-- The count of `sem_items`. -/
  semItems : ℕ

/-- `actrust_job_queue_init`. -/
def actrustJobQueueInit (depth : ℕ) : JobQueue where
  ring := .empty (fun _ => 0) depth
  waiterCount := 0
  closed := false
  semItems := 0

/-- `actrust_job_queue_close`: everybody who waits is woken. -/
def actrustJobQueueClose (q : JobQueue) : JobQueue :=
  if q.closed then q else { q with closed := true, semItems := q.semItems + q.waiterCount }

/-- The check of `actrust_job_queue_deinit`. -/
def actrustJobQueueDeinit (q : JobQueue) : Except Err Unit :=
  if q.closed = true ∧ q.ring.count = 0 ∧ q.waiterCount = 0 then .ok ()
  else .error (coreErr .badState)

/-- `actrust_job_queue_enqueue`. The semaphore is posted first. -/
def actrustJobQueueEnqueue (q : JobQueue) (semPost : Except Err Unit) (idx : ℕ) :
    Except Err JobQueue :=
  if q.closed then .error (coreErr .badState)
  else if q.ring.count ≥ q.ring.depth then .error (coreErr .queueFull)
  else
    match semPost with
    | .error e => .error e
    | .ok _ => .ok { q with ring := q.ring.push idx, semItems := q.semItems + 1 }

/-- The first section of `actrust_job_queue_dequeue`. -/
def jobQueueEnter (q : JobQueue) : Except Err JobQueue :=
  if q.closed = true ∧ q.ring.count = 0 then .error (coreErr .badState)
  else .ok { q with waiterCount := q.waiterCount + 1 }

/-- The section behind a wait that has failed. -/
def jobQueueGiveUp (q : JobQueue) (e : Err) : Err × JobQueue :=
  (if q.closed = true ∧ q.ring.count = 0 then coreErr .badState else e,
    { q with waiterCount := q.waiterCount - 1 })

/-- The last section of `actrust_job_queue_dequeue`. -/
def jobQueueTake (q : JobQueue) : Except Err ℕ × JobQueue :=
  let q := { q with waiterCount := q.waiterCount - 1 }
  if q.ring.count = 0 then
    (.error (if q.closed then coreErr .badState else coreErr .noResource), q)
  else (.ok (q.ring.buf q.ring.head), { q with ring := q.ring.pop })

/-- `core_drain_pending_jobs` when nobody else uses the queue: every job is released, unless the
semaphore fails before. -/
def coreDrainPendingJobs (p : JobPool) (q : JobQueue) : List (Except Err Unit) → JobPool × JobQueue
  | [] => (p, q)
  | semWait :: answers =>
    match semWait, q.semItems, jobQueueTake { q with waiterCount := q.waiterCount + 1 } with
    | .ok _, n + 1, (.ok idx, q) =>
      match actrustJobRelease p idx with
      | .error _ => coreDrainPendingJobs p { q with semItems := n } answers
      | .ok p => coreDrainPendingJobs p { q with semItems := n } answers
    | _, _, _ => (p, q)

end TrustSdk.Core
