import Mathlib.Data.List.Nodup
import Mathlib.Data.List.Perm.Subperm
import TrustSdk.Core.Jobs
import TrustSdk.Lib.Machine

/-!
# The job pool and the job queue, whatever is called

`core_job.c` keeps the free slots of the pool twice, as the slots without a reference and as a stack
of their indices in an array. Any calls on the pool and on one queue, in any order, keep the two
together (`Represented`) and keep the ring of the queue in order; where `JobPool` has a list, this
pool has the array (`JobPoolArrays.toJobPool`).

A call is a section under the lock of the pool or of the queue, of which a dequeue has two, before
its wait and behind it. The sections of many threads may come in any order. Locks and the semaphore
may fail.
-/

namespace TrustSdk.Core

open RingBuffer Machine

/-! ### The pool -/

/-- `actrust_job_pool_t`. The stack is in `freeIndices 0` to `freeIndices freeTop`. -/
structure JobPoolArrays where
  pool : ℕ → Job
  freeIndices : ℕ → ℕ
  freeTop : ℤ

namespace JobPoolArrays

/-- `UINT8_MAX`, the most references that a job can have. -/
def refcntMax : ℕ := 255

/-- `actrust_job_pool_init`: the stack holds every index. -/
def actrustJobPoolInit (size : ℕ) : JobPoolArrays where
  pool _ := ⟨⟨.none, 0⟩, 0⟩
  freeIndices i := i
  freeTop := size - 1

/-- `actrust_job_alloc`: the index on top of the stack, with one reference. -/
def actrustJobAlloc (p : JobPoolArrays) (lock : Except Err Unit) : Except Err ℕ × JobPoolArrays :=
  match lock with
  | .error e => (.error e, p)
  | .ok _ =>
    if p.freeTop < 0 then (.error (coreErr .noResource), p)
    else
      let idx := p.freeIndices p.freeTop.toNat
      (.ok idx,
        { p with
          pool := Function.update p.pool idx ⟨⟨.none, 0⟩, 1⟩
          freeTop := p.freeTop - 1 })

/-- `actrust_job_retain`, which stops at the largest count. -/
def actrustJobRetain (p : JobPoolArrays) (lock : Except Err Unit) (idx : ℕ) :
    Except Err Unit × JobPoolArrays :=
  match lock with
  | .error e => (.error e, p)
  | .ok _ =>
    let job := p.pool idx
    if job.refcnt = 0 then (.error (coreErr .badState), p)
    else if job.refcnt = refcntMax then (.error (coreErr .noResource), p)
    else
      (.ok (), { p with pool := Function.update p.pool idx { job with refcnt := job.refcnt + 1 } })

/-- `actrust_job_release`, in a pool of `size` slots. -/
def actrustJobRelease (size : ℕ) (p : JobPoolArrays) (lock : Except Err Unit) (idx : ℕ) :
    Except Err Unit × JobPoolArrays :=
  match lock with
  | .error e => (.error e, p)
  | .ok _ =>
    let job := p.pool idx
    if job.refcnt = 0 then (.error (coreErr .badState), p)
    else if job.refcnt - 1 = 0 then
      let pool := Function.update p.pool idx ⟨{ job.request with type := .none }, 0⟩
      if idx ≥ size then (.error (coreErr .invalidArg), { p with pool })
      else
        (.ok (),
          { pool
            freeIndices := Function.update p.freeIndices (p.freeTop + 1).toNat idx
            freeTop := p.freeTop + 1 })
    else
      (.ok (), { p with pool := Function.update p.pool idx { job with refcnt := job.refcnt - 1 } })

/-- The entries of the stack, the top last. -/
def freeList (p : JobPoolArrays) : List ℕ := (List.range (p.freeTop + 1).toNat).map p.freeIndices

/-- The stack and the reference counts say the same of every slot. -/
structure Represented (size : ℕ) (p : JobPoolArrays) : Prop where
  top_ge : -1 ≤ p.freeTop
  top_le : p.freeTop ≤ size - 1
  nodup : p.freeList.Nodup
  mem_iff : ∀ idx, idx ∈ p.freeList ↔ idx < size ∧ (p.pool idx).refcnt = 0
  refcnt_le : ∀ idx, (p.pool idx).refcnt ≤ refcntMax

section Lemmas

variable {size idx : ℕ} {p p' : JobPoolArrays} {lock : Except Err Unit}

/-- The list of free slots ends in the index on top of the stack. -/
theorem freeList_of_top (h : 0 ≤ p.freeTop) :
    p.freeList = { p with freeTop := p.freeTop - 1 }.freeList ++ [p.freeIndices p.freeTop.toNat] := by
  have htop : (p.freeTop + 1).toNat = (p.freeTop - 1 + 1).toNat + 1 := by omega
  have hlast : (p.freeTop - 1 + 1).toNat = p.freeTop.toNat := by omega
  unfold freeList
  rw [htop, List.range_succ, List.map_append, hlast]
  rfl

/-- A push leaves the entries below it. -/
theorem freeList_push (h : -1 ≤ p.freeTop) (pool : ℕ → Job) (idx : ℕ) :
    (JobPoolArrays.mk pool (Function.update p.freeIndices (p.freeTop + 1).toNat idx)
      (p.freeTop + 1)).freeList = p.freeList ++ [idx] := by
  have htop : (p.freeTop + 1 + 1).toNat = (p.freeTop + 1).toNat + 1 := by omega
  show (List.range (p.freeTop + 1 + 1).toNat).map
    (Function.update p.freeIndices (p.freeTop + 1).toNat idx) = _
  rw [htop, List.range_succ, List.map_append, List.map_singleton, Function.update_self]
  congr 1
  refine List.map_congr_left fun i hi => Function.update_of_ne ?_ _ _
  exact (List.mem_range.mp hi).ne

/-- A new pool represents one whose slots are all free. -/
theorem Represented.init (size : ℕ) : (actrustJobPoolInit size).Represented size where
  top_ge := by
    show -1 ≤ (size : ℤ) - 1
    omega
  top_le := le_rfl
  nodup := by
    have hid : (actrustJobPoolInit size).freeIndices = id := rfl
    rw [freeList, hid, List.map_id]
    exact List.nodup_range
  mem_iff idx := by
    have hid : (actrustJobPoolInit size).freeIndices = id := rfl
    have htop : ((actrustJobPoolInit size).freeTop + 1).toNat = size := by
      show ((size : ℤ) - 1 + 1).toNat = size
      omega
    rw [freeList, hid, List.map_id, htop, List.mem_range]
    exact (and_iff_left rfl).symm
  refcnt_le _ := Nat.zero_le _

/-- A change of a reference count that is not zero before or behind it. -/
theorem Represented.update (h : p.Represented size) {job : Job} (hidx : (p.pool idx).refcnt ≠ 0)
    (hjob : job.refcnt ≠ 0) (hle : job.refcnt ≤ refcntMax) :
    { p with pool := Function.update p.pool idx job }.Represented size where
  top_ge := h.top_ge
  top_le := h.top_le
  nodup := h.nodup
  -- The slot is held before and after, so no slot enters or leaves the stack.
  mem_iff i := by
    refine (h.mem_iff i).trans (and_congr_right fun _ => ?_)
    show _ ↔ (Function.update p.pool idx job i).refcnt = 0
    by_cases hi : i = idx
    · rw [hi, Function.update_self]
      exact iff_of_false hidx hjob
    · rw [Function.update_of_ne hi]
  refcnt_le i := by
    show (Function.update p.pool idx job i).refcnt ≤ refcntMax
    by_cases hi : i = idx
    · rw [hi, Function.update_self]
      exact hle
    · rw [Function.update_of_ne hi]
      exact h.refcnt_le i

/-- What is allocated was on the stack. -/
theorem Represented.alloc (h : p.Represented size)
    (ha : p.actrustJobAlloc lock = (.ok idx, p')) :
    idx < size ∧ (p.pool idx).refcnt = 0 ∧ p'.Represented size := by
  -- The index comes off the stack, where it stood once, with a count of zero.
  unfold actrustJobAlloc at ha
  cases lock with
  | error e => cases ha
  | ok _ =>
    simp only at ha
    split_ifs at ha with htop
    · cases ha
    have hlist := freeList_of_top (not_lt.mp htop)
    cases ha
    set idx := p.freeIndices p.freeTop.toNat
    set rest := { p with freeTop := p.freeTop - 1 }.freeList
    have hmem : idx ∈ p.freeList := by
      rw [hlist]
      exact List.mem_append_right _ List.mem_cons_self
    -- The stack has no index twice, so the one popped is not left in it.
    have hnodup : rest.Nodup ∧ idx ∉ rest := by
      have := h.nodup
      rw [hlist, List.nodup_append_comm, List.singleton_append, List.nodup_cons] at this
      exact this.symm
    obtain ⟨hidx, hfree⟩ := (h.mem_iff idx).mp hmem
    have hge := h.top_ge
    have hle := h.top_le
    refine ⟨hidx, hfree, ?_, ?_, hnodup.1, fun i => ?_, fun i => ?_⟩
    · show -1 ≤ p.freeTop - 1
      omega
    · show p.freeTop - 1 ≤ size - 1
      omega
    · show i ∈ rest ↔ i < size ∧ (Function.update p.pool idx _ i).refcnt = 0
      by_cases hi : i = idx
      · rw [hi, Function.update_self]
        exact iff_of_false hnodup.2 fun ⟨_, hone⟩ => Nat.one_ne_zero hone
      · rw [Function.update_of_ne hi, ← h.mem_iff, hlist, List.mem_append, List.mem_singleton]
        exact (or_iff_left hi).symm
    · show (Function.update p.pool idx _ i).refcnt ≤ refcntMax
      by_cases hi : i = idx
      · rw [hi, Function.update_self]
        exact Nat.one_le_iff_ne_zero.mpr (by decide)
      · rw [Function.update_of_ne hi]
        exact h.refcnt_le i

/-- The array has room for one more while some slot is not on the stack. -/
theorem Represented.top_lt (h : p.Represented size) (hidx : idx < size)
    (hheld : (p.pool idx).refcnt ≠ 0) : p.freeTop + 1 ≤ size - 1 := by
  have hnodup : (idx :: p.freeList).Nodup :=
    List.nodup_cons.mpr ⟨fun hmem => hheld ((h.mem_iff idx).mp hmem).2, h.nodup⟩
  have hsub : idx :: p.freeList ⊆ List.range size := by
    refine List.cons_subset.mpr ⟨List.mem_range.mpr hidx, fun i hi => ?_⟩
    exact List.mem_range.mpr ((h.mem_iff i).mp hi).1
  have hlen := (List.subperm_of_subset hnodup hsub).length_le
  rw [List.length_cons, List.length_range, freeList, List.length_map, List.length_range] at hlen
  omega

/-- A release of a held slot pushes it back when its count reaches zero, and counts down otherwise.
-/
theorem Represented.release (h : p.Represented size) (hidx : idx < size) :
    (p.actrustJobRelease size lock idx).2.Represented size := by
  unfold actrustJobRelease
  cases lock with
  | error e => exact h
  | ok _ =>
    simp only
    -- A free slot is refused; one outside the array cannot come from the caller; the last reference
    -- is pushed.
    split_ifs with hzero hlast hout
    · exact h
    · exact absurd hidx (not_lt.mpr hout)
    · have hge := h.top_ge
      refine ⟨?_, h.top_lt hidx hzero, ?_, fun i => ?_, fun i => ?_⟩
      · show -1 ≤ p.freeTop + 1
        omega
      · -- The slot was held, so it is not on the stack it is pushed on.
        rw [freeList_push hge, List.nodup_append_comm, List.singleton_append, List.nodup_cons]
        exact ⟨fun hmem => hzero ((h.mem_iff idx).mp hmem).2, h.nodup⟩
      · rw [freeList_push hge, List.mem_append, List.mem_singleton, h.mem_iff]
        show _ ↔ i < size ∧ (Function.update p.pool idx _ i).refcnt = 0
        by_cases hi : i = idx
        · rw [hi, Function.update_self]
          exact iff_of_true (.inr rfl) ⟨hidx, rfl⟩
        · rw [Function.update_of_ne hi]
          exact or_iff_left hi
      · show (Function.update p.pool idx _ i).refcnt ≤ refcntMax
        by_cases hi : i = idx
        · rw [hi, Function.update_self]
          exact Nat.zero_le _
        · rw [Function.update_of_ne hi]
          exact h.refcnt_le i
    · exact h.update hzero hlast ((Nat.sub_le _ _).trans (h.refcnt_le idx))

/-- A retain stays within the largest count. -/
theorem Represented.retain (h : p.Represented size) :
    (p.actrustJobRetain lock idx).2.Represented size := by
  unfold actrustJobRetain
  cases lock with
  | error e => exact h
  | ok _ =>
    simp only
    split_ifs with hzero hmax
    · exact h
    · exact h
    · refine h.update hzero (Nat.succ_ne_zero _) ?_
      exact Nat.lt_of_le_of_ne (h.refcnt_le idx) hmax

/-- An allocation keeps it, also when it fails. -/
theorem Represented.alloc_snd (h : p.Represented size) :
    (p.actrustJobAlloc lock).2.Represented size := by
  cases ha : p.actrustJobAlloc lock with
  | mk answer p' =>
    cases answer with
    | ok idx => exact (h.alloc ha).2.2
    | error e =>
      -- A failing allocation leaves the arrays alone.
      have hsame : p' = p := by
        unfold actrustJobAlloc at ha
        cases lock with
        | error e => cases ha; rfl
        | ok _ =>
          simp only at ha
          split_ifs at ha
          · cases ha; rfl
          · cases ha
      rw [hsame]
      exact h

/-- A free job is neither retained nor released. -/
theorem actrustJobRetain_free (lock : Except Err Unit) (h : (p.pool idx).refcnt = 0) :
    ∃ e, p.actrustJobRetain lock idx = (.error e, p) := by
  cases lock with
  | error e => exact ⟨e, rfl⟩
  | ok _ => exact ⟨_, if_pos h⟩

/-- A count at its largest is not raised; the call says so. -/
theorem actrustJobRetain_max (lock : Except Err Unit) (h : (p.pool idx).refcnt = refcntMax) :
    ∃ e, p.actrustJobRetain lock idx = (.error e, p) := by
  cases lock with
  | error e => exact ⟨e, rfl⟩
  | ok _ =>
    refine ⟨coreErr .noResource, (if_neg ?_).trans (if_pos h)⟩
    rw [h]
    decide

/-- A free slot is not released again; the call says so. -/
theorem actrustJobRelease_free (lock : Except Err Unit) (h : (p.pool idx).refcnt = 0) :
    ∃ e, p.actrustJobRelease size lock idx = (.error e, p) := by
  cases lock with
  | error e => exact ⟨e, rfl⟩
  | ok _ => exact ⟨_, if_pos h⟩

/-! ### The stack as a list -/

/-- The pool whose stack is a list. -/
def toJobPool (p : JobPoolArrays) : JobPool := ⟨p.pool, p.freeList.reverse⟩

/-- The arrays of a new pool read as a new pool. -/
theorem toJobPool_init (size : ℕ) :
    (actrustJobPoolInit size).toJobPool = Core.actrustJobPoolInit size := by
  have hid : (actrustJobPoolInit size).freeIndices = id := rfl
  have htop : ((actrustJobPoolInit size).freeTop + 1).toNat = size := by
    show ((size : ℤ) - 1 + 1).toNat = size
    omega
  unfold toJobPool freeList
  rw [hid, List.map_id, htop]
  rfl

/-- The caller fills in what it allocates the job for. -/
-- Popping the stack is taking the head of the free list, which is the stack from its top down.
theorem toJobPool_alloc (request : Request) (ha : p.actrustJobAlloc lock = (.ok idx, p')) :
    Core.actrustJobAlloc p.toJobPool request = .ok (idx,
      { pool := Function.update p'.pool idx ⟨request, 1⟩
        freeIndices := p'.toJobPool.freeIndices }) := by
  unfold actrustJobAlloc at ha
  cases lock with
  | error e => cases ha
  | ok _ =>
    simp only at ha
    split_ifs at ha with htop
    · cases ha
    have hlist := freeList_of_top (not_lt.mp htop)
    cases ha
    unfold toJobPool
    rw [hlist, List.reverse_append, List.reverse_singleton, List.singleton_append,
      Function.update_idem]
    rfl

/-- A release of the arrays reads as a release of the pool. -/
theorem toJobPool_release (h : p.Represented size)
    (hr : p.actrustJobRelease size lock idx = (.ok (), p')) :
    Core.actrustJobRelease p.toJobPool idx = .ok p'.toJobPool := by
  unfold actrustJobRelease at hr
  cases lock with
  | error e => cases hr
  | ok _ =>
    simp only at hr
    unfold Core.actrustJobRelease
    show (if (p.pool idx).refcnt = 0 then _ else if (p.pool idx).refcnt - 1 = 0 then _ else _) = _
    -- The three answers of the arrays: refused, last reference, one fewer.
    split_ifs at hr with hzero hlast hout
    · cases hr
    · cases hr
    · cases hr
      rw [if_neg hzero, if_pos hlast]
      unfold toJobPool
      rw [freeList_push h.top_ge, List.reverse_append, List.reverse_singleton,
        List.singleton_append]
    · cases hr
      rw [if_neg hzero, if_neg hlast]
      rfl

end Lemmas

end JobPoolArrays

/-! ### The queue, with its lock -/

/-- `actrust_job_queue_enqueue`. -/
def jobQueueEnqueue (q : JobQueue) (lock unlock semPost : Except Err Unit) (idx : ℕ) :
    Except Err Unit × JobQueue :=
  match lock with
  | .error e => (.error e, q)
  | .ok _ =>
    if q.closed then (.error (coreErr .badState), q)
    else if q.ring.count ≥ q.ring.depth then
      match unlock with
      | .error e => (.error e, q)
      | .ok _ => (.error (coreErr .queueFull), q)
    else
      match semPost with
      | .error e => (.error e, q)
      | .ok _ => (.ok (), { q with ring := q.ring.push idx, semItems := q.semItems + 1 })

/-- `actrust_job_queue_dequeue` up to its wait. -/
def jobQueueDequeueEnter (q : JobQueue) (lock : Except Err Unit) : Except Err Unit × JobQueue :=
  match lock with
  | .error e => (.error e, q)
  | .ok _ =>
    match jobQueueEnter q with
    | .error e => (.error e, q)
    | .ok q => (.ok (), q)

/-- The rest of it behind its wait: what it returns, and the job that it hands out. -/
def jobQueueDequeueLeave (q : JobQueue) (semWait lock unlock semPost : Except Err Unit) :
    Except Err Unit × Option ℕ × JobQueue :=
  match semWait with
  | .error e =>
    match lock with
    | .error lockErr => (.error lockErr, none, q)
    | .ok _ => (.error (jobQueueGiveUp q e).1, none, (jobQueueGiveUp q e).2)
  | .ok _ =>
    let q := { q with semItems := q.semItems - 1 }
    match lock with
    | .error e =>
      -- the item is given back, if that works
      let q := { q with waiterCount := q.waiterCount - 1 }
      match semPost with
      | .error _ => (.error e, none, q)
      | .ok _ => (.error e, none, { q with semItems := q.semItems + 1 })
    | .ok _ =>
      match jobQueueTake q with
      | (.error e, q) =>
        match unlock with
        | .error unlockErr => (.error unlockErr, none, q)
        | .ok _ => (.error e, none, q)
      | (.ok idx, q) => (unlock, some idx, q)

section Queue

variable {q q' : JobQueue} {lock unlock semPost semWait : Except Err Unit} {idx : ℕ}

/-- An enqueue that is turned down leaves the queue alone; any other appends its job. -/
theorem jobQueueEnqueue_cases (q : JobQueue) (lock unlock semPost : Except Err Unit) (idx : ℕ) :
    (∃ e, jobQueueEnqueue q lock unlock semPost idx = (.error e, q)) ∨
      q.ring.count < q.ring.depth ∧ jobQueueEnqueue q lock unlock semPost idx =
        (.ok (), { q with ring := q.ring.push idx, semItems := q.semItems + 1 }) := by
  -- Every answer but the last leaves the queue alone.
  unfold jobQueueEnqueue
  cases lock with
  | error e => exact .inl ⟨e, rfl⟩
  | ok _ =>
    simp only
    split_ifs with hclosed hfull
    · exact .inl ⟨_, rfl⟩
    · cases unlock with
      | error e => exact .inl ⟨e, rfl⟩
      | ok _ => exact .inl ⟨_, rfl⟩
    · cases semPost with
      | error e => exact .inl ⟨e, rfl⟩
      | ok _ => exact .inr ⟨not_le.mp hfull, rfl⟩

/-- The entry check of a dequeue leaves the ring alone. -/
theorem jobQueueDequeueEnter_ring (q : JobQueue) (lock : Except Err Unit) :
    (jobQueueDequeueEnter q lock).2.ring = q.ring := by
  unfold jobQueueDequeueEnter jobQueueEnter
  cases lock with
  | error e => rfl
  | ok _ =>
    simp only
    split_ifs <;> rfl

/-- A dequeue hands out nothing and leaves the ring, or hands out the oldest job. -/
theorem jobQueueDequeueLeave_cases (q : JobQueue) (semWait lock unlock semPost : Except Err Unit) :
    (jobQueueDequeueLeave q semWait lock unlock semPost).2.1 = none ∧
        (jobQueueDequeueLeave q semWait lock unlock semPost).2.2.ring = q.ring ∨
      q.ring.count ≠ 0 ∧
        (jobQueueDequeueLeave q semWait lock unlock semPost).2.1 = some (q.ring.buf q.ring.head) ∧
        (jobQueueDequeueLeave q semWait lock unlock semPost).2.2.ring = q.ring.pop := by
  -- The index is taken in one branch alone, where the count is not zero.
  unfold jobQueueDequeueLeave
  cases semWait with
  | error e => cases lock <;> exact .inl ⟨rfl, rfl⟩
  | ok _ =>
    cases lock with
    | error e => cases semPost <;> exact .inl ⟨rfl, rfl⟩
    | ok _ =>
      dsimp only
      by_cases hcount : q.ring.count = 0
      · have htake : jobQueueTake { q with semItems := q.semItems - 1 } = _ := if_pos hcount
        rw [htake]
        cases unlock <;> exact .inl ⟨rfl, rfl⟩
      · have htake : jobQueueTake { q with semItems := q.semItems - 1 } = _ := if_neg hcount
        rw [htake]
        exact .inr ⟨hcount, rfl, rfl⟩

end Queue

/-! ### Any calls in any order -/

/-- A pool, and a queue of pointers to its slots. -/
structure JobCenter where
  pool : JobPoolArrays
  queue : JobQueue

/-- A pool and a queue as `actrust_job_pool_init` and `actrust_job_queue_init` leave them. -/
def JobCenter.init (size depth : ℕ) : JobCenter where
  pool := .actrustJobPoolInit size
  queue := actrustJobQueueInit depth

/-- A section of a call, with the answers of the lock and the semaphore. -/
inductive JobCall (size : ℕ) where
  | alloc (lock : Except Err Unit)
  | retain (lock : Except Err Unit) (idx : Fin size)
  | release (lock : Except Err Unit) (idx : Fin size)
  | enqueue (lock unlock semPost : Except Err Unit) (idx : Fin size)
  | dequeueEnter (lock : Except Err Unit)
  | dequeueLeave (semWait lock unlock semPost : Except Err Unit)
  | close

/-- What a section returns, and the job that it hands out. -/
structure JobAnswer where
  err : Except Err Unit
  job : Option ℕ

variable {size depth : ℕ}

/-- One call on either of them. -/
def JobCenter.step (s : JobCenter) : JobCall size → JobAnswer × JobCenter
  | .alloc lock =>
    match s.pool.actrustJobAlloc lock with
    | (.error e, pool) => (⟨.error e, none⟩, { s with pool })
    | (.ok idx, pool) => (⟨.ok (), some idx⟩, { s with pool })
  | .retain lock idx =>
    let (err, pool) := s.pool.actrustJobRetain lock idx
    (⟨err, none⟩, { s with pool })
  | .release lock idx =>
    let (err, pool) := s.pool.actrustJobRelease size lock idx
    (⟨err, none⟩, { s with pool })
  | .enqueue lock unlock semPost idx =>
    let (err, queue) := jobQueueEnqueue s.queue lock unlock semPost idx
    (⟨err, none⟩, { s with queue })
  | .dequeueEnter lock =>
    let (err, queue) := jobQueueDequeueEnter s.queue lock
    (⟨err, none⟩, { s with queue })
  | .dequeueLeave semWait lock unlock semPost =>
    let (err, job, queue) := jobQueueDequeueLeave s.queue semWait lock unlock semPost
    (⟨err, job⟩, { s with queue })
  | .close => (⟨.ok (), none⟩, { s with queue := actrustJobQueueClose s.queue })

/-- A job goes through the ring. -/
inductive Passage where
  | enters (idx : ℕ)
  | leaves (idx : ℕ)

/-- An enqueue that succeeds, and a dequeue that hands out a job. -/
def JobCenter.passes (s : JobCenter) (call : JobCall size) : List Passage :=
  match call, (s.step call).1 with
  | .enqueue _ _ _ idx, ⟨.ok _, _⟩ => [.enters idx]
  | .dequeueLeave .., ⟨_, some idx⟩ => [.leaves idx]
  | _, _ => []

/-- The indices that went into the ring, in order. -/
def entered (past : List Passage) : List ℕ :=
  past.filterMap fun | .enters idx => some idx | .leaves _ => none

/-- The indices that came out of it, in order. -/
def left (past : List Passage) : List ℕ :=
  past.filterMap fun | .enters _ => none | .leaves idx => some idx

/-- What the arrays and the ring are at any time: two representations of the same slots, and what
has entered and not left. -/
structure JobCenter.Kept (size : ℕ) (past : List Passage) (s : JobCenter) : Prop where
  pool : s.pool.Represented size
  ring : s.queue.ring.WellFormed
  order : entered past = left past ++ s.queue.ring.toList

/-- An index more that went in. -/
theorem entered_enters (past : List Passage) (idx : ℕ) :
    entered (past ++ [.enters idx]) = entered past ++ [idx] := List.filterMap_append

/-- One that leaves changes nothing of what went in. -/
theorem entered_leaves (past : List Passage) (idx : ℕ) :
    entered (past ++ [.leaves idx]) = entered past :=
  List.filterMap_append.trans (List.append_nil _)

/-- One that enters changes nothing of what came out. -/
theorem left_enters (past : List Passage) (idx : ℕ) :
    left (past ++ [.enters idx]) = left past :=
  List.filterMap_append.trans (List.append_nil _)

/-- An index more that came out. -/
theorem left_leaves (past : List Passage) (idx : ℕ) :
    left (past ++ [.leaves idx]) = left past ++ [idx] := List.filterMap_append

namespace JobCenter.Kept

variable {past : List Passage} {s : JobCenter}

/-- Nothing has passed yet. -/
theorem init (hdepth : 0 < depth) : (JobCenter.init size depth).Kept size [] where
  pool := .init size
  ring := Fifo.wellFormed_empty _ hdepth
  order := rfl

/-- A step on the pool passes nothing through the ring. -/
theorem withPool (h : s.Kept size past) {pool : JobPoolArrays} (hpool : pool.Represented size) :
    { s with pool }.Kept size past :=
  ⟨hpool, h.ring, h.order⟩

/-- A call that leaves the ring alone passes nothing through it. -/
theorem withQueue (h : s.Kept size past) {queue : JobQueue} (hring : queue.ring = s.queue.ring) :
    { s with queue }.Kept size past where
  pool := h.pool
  ring := by
    show queue.ring.WellFormed
    rw [hring]
    exact h.ring
  order := by
    show _ = _ ++ queue.ring.toList
    rw [hring]
    exact h.order

/-- An enqueue passes its index, or nothing. -/
theorem enqueue (h : s.Kept size past) (lock unlock semPost : Except Err Unit) (idx : Fin size) :
    (s.step (.enqueue lock unlock semPost idx)).2.Kept size
      (past ++ s.passes (.enqueue lock unlock semPost idx)) := by
  simp only [JobCenter.passes, JobCenter.step]
  rcases jobQueueEnqueue_cases s.queue lock unlock semPost idx with ⟨e, he⟩ | ⟨hroom, hok⟩
  · simp only [he, List.append_nil]
    exact h.withQueue rfl
  · simp only [hok]
    refine ⟨h.pool, h.ring.push hroom idx, ?_⟩
    rw [entered_enters, left_enters, h.order]
    show _ = _ ++ (s.queue.ring.push idx).toList
    rw [h.ring.toList_push hroom, List.append_assoc]

/-- A dequeue takes the oldest index, or nothing. -/
theorem dequeueLeave (h : s.Kept size past) (semWait lock unlock semPost : Except Err Unit) :
    (s.step (.dequeueLeave semWait lock unlock semPost : JobCall size)).2.Kept size
      (past ++ s.passes (.dequeueLeave semWait lock unlock semPost : JobCall size)) := by
  simp only [JobCenter.passes, JobCenter.step]
  rcases jobQueueDequeueLeave_cases s.queue semWait lock unlock semPost with
    ⟨hjob, hring⟩ | ⟨hsome, hjob, hring⟩
  · simp only [hjob, List.append_nil]
    exact h.withQueue hring
  · -- What went in is what came out and the ring, so the head of the ring moves over.
    simp only [hjob]
    refine ⟨h.pool, ?_, ?_⟩
    · show Fifo.WellFormed _
      rw [hring]
      exact h.ring.pop hsome
    · rw [entered_leaves, left_leaves, h.order, h.ring.toList_pop hsome]
      show _ = _ ++ Fifo.toList _
      rw [hring, List.append_assoc]
      rfl

/-- Every section keeps the arrays and the ring. -/
theorem step (h : s.Kept size past) (call : JobCall size) :
    (s.step call).2.Kept size (past ++ s.passes call) := by
  have hnone {s' : JobCenter} (h' : s'.Kept size past) : s'.Kept size (past ++ []) := by
    rwa [List.append_nil]
  -- The calls on the pool leave the ring alone, the calls on the queue the pool.
  cases call with
  | alloc lock =>
    refine hnone ?_
    have hpool : (s.pool.actrustJobAlloc lock).2.Represented size := h.pool.alloc_snd
    simp only [JobCenter.step]
    split
    · next he => rw [he] at hpool; exact h.withPool hpool
    · next he => rw [he] at hpool; exact h.withPool hpool
  | retain lock idx => exact hnone (h.withPool h.pool.retain)
  | release lock idx => exact hnone (h.withPool (h.pool.release idx.isLt))
  | enqueue lock unlock semPost idx => exact h.enqueue lock unlock semPost idx
  | dequeueEnter lock => exact hnone (h.withQueue (jobQueueDequeueEnter_ring _ lock))
  | dequeueLeave semWait lock unlock semPost => exact h.dequeueLeave semWait lock unlock semPost
  | close =>
    refine hnone (h.withQueue ?_)
    unfold actrustJobQueueClose
    split <;> rfl

end JobCenter.Kept

/-- What the sections do in a state. -/
structure JobCenter.Sound (size : ℕ) (s : JobCenter) : Prop where
  /-- A job that is handed out has no references. -/
  alloc : ∀ lock idx pool, s.pool.actrustJobAlloc lock = (.ok idx, pool) →
    idx < size ∧ (s.pool.pool idx).refcnt = 0
  /-- Nothing happens to a free slot, nor to one that has all its references. -/
  retain : ∀ lock idx, (s.pool.pool idx).refcnt = 0 ∨
      (s.pool.pool idx).refcnt = JobPoolArrays.refcntMax →
    ∃ e, s.pool.actrustJobRetain lock idx = (.error e, s.pool)
  release : ∀ lock idx, (s.pool.pool idx).refcnt = 0 →
    ∃ e, s.pool.actrustJobRelease size lock idx = (.error e, s.pool)
  /-- An enqueue that is turned down leaves everything as it is. -/
  enqueue : ∀ lock unlock semPost (idx : Fin size) e,
    (s.step (.enqueue lock unlock semPost idx)).1.err = .error e →
      (s.step (.enqueue lock unlock semPost idx)).2 = s

/-- What is kept is enough for the answers of the next call. -/
theorem JobCenter.Kept.sound {past : List Passage} {s : JobCenter} (h : s.Kept size past) :
    s.Sound size where
  alloc lock idx pool ha := ⟨(h.pool.alloc ha).1, (h.pool.alloc ha).2.1⟩
  retain lock idx hfree := by
    rcases hfree with hfree | hmax
    · exact JobPoolArrays.actrustJobRetain_free lock hfree
    · exact JobPoolArrays.actrustJobRetain_max lock hmax
  release lock idx hfree := JobPoolArrays.actrustJobRelease_free lock hfree
  enqueue lock unlock semPost idx e he := by
    simp only [JobCenter.step] at he ⊢
    rcases jobQueueEnqueue_cases s.queue lock unlock semPost idx with ⟨e', hsame⟩ | ⟨-, hok⟩
    · rw [hsame]
    · rw [hok] at he
      cases he

/-- In every state that any calls lead to, the stack and the reference counts agree, the ring is in
order, and calls that are turned down change nothing. -/
theorem job_calls_keep (size : ℕ) (hdepth : 0 < depth) (calls : List (JobCall size)) :
    (run JobCenter.step calls (.init size depth)).2.Kept size
        (history JobCenter.step JobCenter.passes calls (.init size depth)) ∧
      (run JobCenter.step calls (.init size depth)).2.Sound size := by
  have hkept := history_invariant (I := fun past (s : JobCenter) => s.Kept size past)
    (fun past s call h => h.step call) calls (JobCenter.Kept.init hdepth)
  exact ⟨hkept, hkept.sound⟩

/-- A pool of two slots and a queue of one place. -/
def crowdedRun : List (JobCall 2) :=
  [.alloc (.ok ()), .alloc (.ok ()), .alloc (.ok ()), .enqueue (.ok ()) (.ok ()) (.ok ()) 1,
    .enqueue (.ok ()) (.ok ()) (.ok ()) 0, .release (.ok ()) 0, .release (.ok ()) 0,
    .dequeueEnter (.ok ()), .dequeueLeave (.ok ()) (.ok ()) (.ok ()) (.ok ()), .alloc (.ok ())]

/-- The slot that is released first is handed out again. -/
theorem job_calls_keep_crowded :
    (run JobCenter.step crowdedRun (.init 2 1)).1.map (·.job) =
        [some 1, some 0, none, none, none, none, none, none, some 1, some 0] ∧
      (run JobCenter.step crowdedRun (.init 2 1)).2.Kept 2
        (history JobCenter.step JobCenter.passes crowdedRun (.init 2 1)) ∧
      (run JobCenter.step crowdedRun (.init 2 1)).2.Sound 2 :=
  ⟨rfl, job_calls_keep 2 Nat.one_pos crowdedRun⟩

end TrustSdk.Core
