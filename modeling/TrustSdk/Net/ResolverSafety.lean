import Mathlib.Tactic.Common
import TrustSdk.Net.Resolver

/-!
# A resolution frees its context once

Whatever the system answers and however the parties interleave, a context is used only while it is
allocated and freed by one party, at most one resolution is inside of the gate, and a caller that
gets a text gets what `getaddrinfo` has answered for its name (`resolver_safe`).

* `Owned` — who may use the context, by the place of the caller;
* `Answered` — what the context holds was answered to this resolution;
* `holds` — the resolution is inside of the gate, by its caller or by its worker.
-/

namespace TrustSdk.Net

open Machine

@[simp] theorem DnsCtx.resolved_completed (ctx : DnsCtx) (answer : GaiAnswer) :
    (ctx.resolved answer).completed = ctx.completed := by
  unfold resolved
  split
  · split_ifs <;> rfl
  · rfl

@[simp] theorem DnsCtx.resolved_detached (ctx : DnsCtx) (answer : GaiAnswer) :
    (ctx.resolved answer).detached = ctx.detached := by
  unfold resolved
  split
  · split_ifs <;> rfl
  · rfl

@[simp] theorem DnsCtx.resolved_host (ctx : DnsCtx) (answer : GaiAnswer) :
    (ctx.resolved answer).host = ctx.host := by
  unfold resolved
  split
  · split_ifs <;> rfl
  · rfl

/-- The worker is through with the context. -/
def DnsWorkerPc.Through : DnsWorkerPc → Prop
  | .releasing | .ended => True
  | _ => False

namespace DnsResolve

variable {env : DnsEnv} {gate : DnsGate} {r : DnsResolve} {ctx : DnsCtx}

/-! ### Who owns the context -/

/-- The context is not there any more, or not yet. -/
structure Without (r : DnsResolve) : Prop where
  cell : ∀ ctx, r.cell ≠ .live ctx
  worker : r.worker = .absent ∨ r.worker.Through

/-- The context is the caller's: no worker has been started. -/
structure Private (r : DnsResolve) (ctx : DnsCtx) : Prop where
  cell : r.cell = .live ctx
  completed : ctx.completed = false
  detached : ctx.detached = false
  worker : r.worker = .absent
  thread : r.thread = .none

/-- The caller has to see to the context, and the worker may use it until it is completed. -/
structure Shared (r : DnsResolve) (ctx : DnsCtx) : Prop where
  cell : r.cell = .live ctx
  detached : ctx.detached = false
  thread : r.thread = .joinable
  worker : (r.worker = .resolving ∨ r.worker = .completing) ∧ ctx.completed = false ∨
    r.worker.Through

/-- The worker has to see to the context. -/
structure Handed (r : DnsResolve) (ctx : DnsCtx) : Prop where
  cell : r.cell = .live ctx
  detached : ctx.detached = true
  thread : r.thread = .detached
  worker : r.worker ≠ .absent

/-- The worker is through, and the caller frees the context. -/
structure Inherited (r : DnsResolve) (ctx : DnsCtx) : Prop where
  cell : r.cell = .live ctx
  worker : r.worker.Through

/-- What a caller has of the context. -/
inductive Share where
  | nothing
  | mine
  | common
  /-- A common context, with a worker that is through. -/
  | completed
  /-- A context that is the caller's again, with a worker that has ended, -/
  | joined
  /-- or one that is through. -/
  | inherited
  | left
  deriving DecidableEq

/-- What the share of a caller says of the call. -/
def Share.Of (r : DnsResolve) : Share → Prop
  | .nothing => r.Without ∧ r.worker = .absent ∧ r.thread = .none
  | .mine => ∃ ctx, r.Private ctx
  | .common => ∃ ctx, r.Shared ctx
  | .completed => ∃ ctx, r.Shared ctx ∧ r.worker.Through
  | .joined => ∃ ctx, r.Inherited ctx ∧ r.worker = .ended
  | .inherited => ∃ ctx, r.Inherited ctx
  -- a join that fails leaves a common context behind
  | .left => r.Without ∨ (∃ ctx, r.Handed ctx) ∨ ∃ ctx, r.Shared ctx

end DnsResolve

/-- The share of a caller where it stands. -/
def DnsCallerPc.share : DnsCallerPc → DnsResolve.Share
  | .entering | .starting | .allocating | .aborting _ false => .nothing
  | .allocatingHost | .initialisingLock | .initialisingCond | .creating => .mine
  | .aborting _ true | .discarding _ => .mine
  | .waiting | .sleeping | .transferring _ | .joining (some _) => .common
  | .joining none => .completed
  | .copying => .joined
  | .freeing _ => .inherited
  | .returned _ => .left

namespace DnsResolve

variable {env : DnsEnv} {gate : DnsGate} {r : DnsResolve} {ctx : DnsCtx}

/-- Nothing was misused, and the caller has its share. -/
def Owned (r : DnsResolve) : Prop := r.fault = false ∧ r.caller.share.Of r

/-! ### Steps of the worker -/

/-- A step of the worker leaves the caller. -/
theorem workerStep_caller (env : DnsEnv) (gate : DnsGate) (r : DnsResolve) :
    (r.workerStep env gate).2.caller = r.caller := by
  unfold workerStep free access
  repeat' split
  all_goals rfl

variable (env gate) in
/-- A step of the worker while the caller has to see to the context. -/
theorem Shared.worker_step (h : r.Shared ctx) : ∃ ctx', (r.workerStep env gate).2.Shared ctx' ∧
    (r.workerStep env gate).2.fault = r.fault ∧
    (r.worker.Through → (r.workerStep env gate).2.worker.Through) := by
  obtain ⟨hcell, hdetached, hthread, hworker⟩ := h
  cases hw : r.worker with
  -- A worker that has not begun, or frees, contradicts the shared context.
  | absent => simp [hw, DnsWorkerPc.Through] at hworker
  | freeing => simp [hw, DnsWorkerPc.Through] at hworker
  -- The answer is written into the context that both still hold.
  | resolving =>
    have hcompleted : ctx.completed = false := by simpa [hw, DnsWorkerPc.Through] using hworker
    have hstep : (r.workerStep env gate).2 =
        { r with cell := .live (ctx.resolved (env.lookup (ctx.host.getD [])))
                 worker := .completing } := by
      simp only [workerStep, hw, access, hcell]
    rw [hstep]
    exact ⟨_, ⟨rfl, (ctx.resolved_detached _).trans hdetached, hthread,
      .inl ⟨.inr rfl, (ctx.resolved_completed _).trans hcompleted⟩⟩, rfl, False.elim⟩
  | completing =>
    -- Without the lock the worker completes nothing and only goes.
    by_cases hlock : env.ctxLock = false
    · have hstep : (r.workerStep env gate).2 = { r with worker := .releasing } := by
        simp only [workerStep, hw, access, hcell, if_pos hlock]
      rw [hstep]
      exact ⟨ctx, ⟨hcell, hdetached, hthread, .inr trivial⟩, rfl, False.elim⟩
    · -- nobody has detached the context, so it is left to the caller
      have hstep : (r.workerStep env gate).2 =
          { r with cell := .live { ctx with completed := true }, worker := .releasing } := by
        simp only [workerStep, hw, access, hcell, if_neg hlock, hdetached, Bool.false_eq_true,
          if_false]
      rw [hstep]
      exact ⟨_, ⟨rfl, hdetached, hthread, .inr trivial⟩, rfl, False.elim⟩
  | releasing =>
    have hstep : (r.workerStep env gate).2 = { r with worker := .ended } := by
      simp only [workerStep, hw]
    rw [hstep]
    exact ⟨ctx, ⟨hcell, hdetached, hthread, .inr trivial⟩, rfl, fun _ => trivial⟩
  | ended =>
    have hstep : (r.workerStep env gate).2 = r := by simp only [workerStep, hw]
    rw [hstep]
    exact ⟨ctx, ⟨hcell, hdetached, hthread, hworker⟩, rfl, fun _ => hw ▸ trivial⟩

variable (env gate) in
/-- The worker frees the context that has been left to it, once. -/
theorem Handed.worker_step (h : r.Handed ctx) :
    ((r.workerStep env gate).2.Without ∨ ∃ ctx', (r.workerStep env gate).2.Handed ctx') ∧
      (r.workerStep env gate).2.fault = r.fault := by
  -- The caller is gone, so the worker alone reads and frees the context.
  obtain ⟨hcell, hdetached, hthread, hworker⟩ := h
  -- a worker that owns the context frees it at the end; the caller does not come back to it
  cases hw : r.worker with
  | absent => exact absurd hw hworker
  | resolving =>
    have hstep : (r.workerStep env gate).2 =
        { r with cell := .live (ctx.resolved (env.lookup (ctx.host.getD [])))
                 worker := .completing } := by
      simp only [workerStep, hw, access, hcell]
    rw [hstep]
    exact ⟨.inr ⟨_, ⟨rfl, (ctx.resolved_detached _).trans hdetached, hthread, by rintro ⟨⟩⟩⟩, rfl⟩
  | completing =>
    -- Without the lock nobody frees the context: it is left behind, though never touched again.
    by_cases hlock : env.ctxLock = false
    · have hstep : (r.workerStep env gate).2 = { r with worker := .releasing } := by
        simp only [workerStep, hw, access, hcell, if_pos hlock]
      rw [hstep]
      exact ⟨.inr ⟨ctx, ⟨hcell, hdetached, hthread, by rintro ⟨⟩⟩⟩, rfl⟩
    · -- The mark says detached, so the worker frees the context itself.
      have hstep : (r.workerStep env gate).2 =
          { r with cell := .live { ctx with completed := true }, worker := .freeing } := by
        simp only [workerStep, hw, access, hcell, if_neg hlock, hdetached, if_true]
      rw [hstep]
      exact ⟨.inr ⟨_, ⟨rfl, hdetached, hthread, by rintro ⟨⟩⟩⟩, rfl⟩
  -- The context is freed once, by its only owner.
  | freeing =>
    have hstep : (r.workerStep env gate).2 = { r with cell := .freed, worker := .releasing } := by
      simp only [workerStep, hw, free, access, hcell]
    rw [hstep]
    exact ⟨.inl ⟨by rintro _ ⟨⟩, .inr trivial⟩, rfl⟩
  | releasing =>
    have hstep : (r.workerStep env gate).2 = { r with worker := .ended } := by
      simp only [workerStep, hw]
    rw [hstep]
    exact ⟨.inr ⟨ctx, ⟨hcell, hdetached, hthread, by rintro ⟨⟩⟩⟩, rfl⟩
  | ended =>
    have hstep : (r.workerStep env gate).2 = r := by simp only [workerStep, hw]
    rw [hstep]
    exact ⟨.inr ⟨ctx, ⟨hcell, hdetached, hthread, hworker⟩⟩, rfl⟩

variable (env gate) in
/-- A worker that is absent or through leaves everything but its own place as it is. -/
theorem idle_worker_step (h : r.worker = .absent ∨ r.worker.Through) :
    ∃ worker, (r.workerStep env gate).2 = { r with worker := worker } ∧
      (r.worker = .absent → worker = .absent) ∧ (r.worker = .ended → worker = .ended) ∧
      (r.worker.Through → worker.Through) := by
  cases hw : r.worker with
  | absent =>
    have hstep : (r.workerStep env gate).2 = r := by simp only [workerStep, hw]
    exact ⟨.absent, hw ▸ hstep, fun _ => rfl, by rintro ⟨⟩, id⟩
  | releasing =>
    refine ⟨.ended, ?_, by rintro ⟨⟩, fun _ => rfl, fun _ => trivial⟩
    simp only [workerStep, hw]
  | ended =>
    have hstep : (r.workerStep env gate).2 = r := by simp only [workerStep, hw]
    exact ⟨.ended, hw ▸ hstep, by rintro ⟨⟩, fun _ => rfl, id⟩
  | _ => simp [hw, DnsWorkerPc.Through] at h

variable (env gate) in
/-- The share survives a step of the worker. -/
theorem Share.worker_step {share : Share} (h : share.Of r) :
    share.Of (r.workerStep env gate).2 ∧ (r.workerStep env gate).2.fault = r.fault := by
  -- without a context the worker is idle; with a common one it works on it; an inherited one it
  -- does not touch
  cases share with
  | nothing =>
    obtain ⟨hwithout, habsent, hthread⟩ := h
    obtain ⟨worker, hstep, hkeeps, -, -⟩ :=
      idle_worker_step env gate (.inl habsent)
    rw [hstep]
    exact ⟨⟨⟨hwithout.cell, .inl (hkeeps habsent)⟩, hkeeps habsent, hthread⟩, rfl⟩
  | mine =>
    obtain ⟨ctx, hcell, hcompleted, hdetached, habsent, hthread⟩ := h
    obtain ⟨worker, hstep, hkeeps, -, -⟩ :=
      idle_worker_step env gate (.inl habsent)
    rw [hstep]
    exact ⟨⟨ctx, hcell, hcompleted, hdetached, hkeeps habsent, hthread⟩, rfl⟩
  | common =>
    obtain ⟨ctx, hshared⟩ := h
    obtain ⟨ctx', hshared', hfault, -⟩ := hshared.worker_step env gate
    exact ⟨⟨ctx', hshared'⟩, hfault⟩
  | completed =>
    obtain ⟨ctx, hshared, hthrough⟩ := h
    obtain ⟨ctx', hshared', hfault, hthrough'⟩ := hshared.worker_step env gate
    exact ⟨⟨ctx', hshared', hthrough' hthrough⟩, hfault⟩
  | joined =>
    obtain ⟨ctx, ⟨hcell, hthrough⟩, hended⟩ := h
    obtain ⟨worker, hstep, -, hkeeps, hthrough'⟩ :=
      idle_worker_step env gate (.inr hthrough)
    rw [hstep]
    exact ⟨⟨ctx, ⟨hcell, hthrough' hthrough⟩, hkeeps hended⟩, rfl⟩
  | inherited =>
    obtain ⟨ctx, hcell, hthrough⟩ := h
    obtain ⟨worker, hstep, -, -, hthrough'⟩ :=
      idle_worker_step env gate (.inr hthrough)
    rw [hstep]
    exact ⟨⟨ctx, hcell, hthrough' hthrough⟩, rfl⟩
  | left =>
    rcases h with hwithout | ⟨ctx, hhanded⟩ | ⟨ctx, hshared⟩
    · obtain ⟨worker, hstep, habsent, -, hthrough⟩ :=
        idle_worker_step env gate hwithout.worker
      rw [hstep]
      exact ⟨.inl ⟨hwithout.cell, hwithout.worker.imp habsent hthrough⟩, rfl⟩
    · obtain ⟨hnext, hfault⟩ := hhanded.worker_step env gate
      exact ⟨hnext.imp_right .inl, hfault⟩
    · obtain ⟨ctx', hshared', hfault, -⟩ := hshared.worker_step env gate
      exact ⟨.inr (.inr ⟨ctx', hshared'⟩), hfault⟩

/-- A step of the worker keeps what the caller owns. -/
theorem Owned.worker_step (h : r.Owned) : (r.workerStep env gate).2.Owned := by
  obtain ⟨hshare, hfault⟩ := Share.worker_step env gate h.2
  exact ⟨hfault.trans h.1, (workerStep_caller env gate r).symm ▸ hshare⟩

/-! ### Steps of the caller -/

/-- A step that moves only the caller, to a place with the same share. -/
theorem Owned.moves (h : r.Owned) {caller : DnsCallerPc} (hshare : caller.share.Of r) :
    Owned { r with caller := caller } := by
  -- where the caller stands matters by its share only
  refine ⟨h.1, ?_⟩
  show caller.share.Of { r with caller := caller }
  cases hs : caller.share <;> rw [hs] at hshare
  · obtain ⟨⟨hcell, hworker⟩, habsent, hthread⟩ := hshare
    exact ⟨⟨hcell, hworker⟩, habsent, hthread⟩
  · obtain ⟨ctx, hcell, hcompleted, hdetached, habsent, hthread⟩ := hshare
    exact ⟨ctx, hcell, hcompleted, hdetached, habsent, hthread⟩
  · obtain ⟨ctx, hcell, hdetached, hthread, hworker⟩ := hshare
    exact ⟨ctx, hcell, hdetached, hthread, hworker⟩
  · obtain ⟨ctx, ⟨hcell, hdetached, hthread, hworker⟩, hthrough⟩ := hshare
    exact ⟨ctx, ⟨hcell, hdetached, hthread, hworker⟩, hthrough⟩
  · obtain ⟨ctx, ⟨hcell, hthrough⟩, hended⟩ := hshare
    exact ⟨ctx, ⟨hcell, hthrough⟩, hended⟩
  · obtain ⟨ctx, hcell, hthrough⟩ := hshare
    exact ⟨ctx, hcell, hthrough⟩
  · rcases hshare with ⟨hcell, hworker⟩ | ⟨ctx, hcell, hdetached, hthread, hworker⟩ |
      ⟨ctx, hcell, hdetached, hthread, hworker⟩
    · exact .inl ⟨hcell, hworker⟩
    · exact .inr (.inl ⟨ctx, hcell, hdetached, hthread, hworker⟩)
    · exact .inr (.inr ⟨ctx, hcell, hdetached, hthread, hworker⟩)

/-- A live context is accessed. -/
theorem access_eq (h : r.cell = .live ctx) (f : DnsCtx → DnsResolve) : r.access f = f ctx := by
  rw [access, h]

/-- A joinable thread is settled. -/
theorem settle_eq (h : r.thread = .joinable) (thread : DnsThread)
    (f : DnsResolve → DnsResolve) : r.settle thread f = f { r with thread := thread } := by
  rw [settle, if_pos h]

/-- A completed context is one whose worker is through. -/
theorem Shared.through (h : r.Shared ctx) (hcompleted : ctx.completed = true) :
    r.worker.Through := by
  rcases h.worker with ⟨-, hfalse⟩ | hthrough
  · exact Bool.noConfusion (hfalse.symm.trans hcompleted)
  · exact hthrough

/-- Looking at the deadline keeps what is owned. -/
theorem Owned.checkDeadline (h : r.Owned) (hshared : r.Shared ctx)
    (hcompleted : ctx.completed = true) : (r.checkDeadline env).Owned := by
  unfold DnsResolve.checkDeadline
  split
  · exact h.moves ⟨ctx, hshared⟩
  · exact h.moves ⟨ctx, hshared, hshared.through hcompleted⟩

/-- The caller writes into a context of its own. -/
theorem Owned.writes (h : r.Owned) (hmine : r.Private ctx) {ctx' : DnsCtx}
    (hsame : ctx'.completed = ctx.completed ∧ ctx'.detached = ctx.detached)
    {caller : DnsCallerPc} (hcaller : caller.share = .mine) :
    Owned { r with cell := .live ctx', caller := caller } := by
  refine ⟨h.1, ?_⟩
  show caller.share.Of _
  rw [hcaller]
  exact ⟨ctx', rfl, hsame.1.trans hmine.completed, hsame.2.trans hmine.detached, hmine.worker,
    hmine.thread⟩

/-- A step of the caller keeps it, and changes hands where the source does. -/
theorem Owned.caller_step (h : r.Owned) : (r.callerStep env gate).2.Owned := by
  have hshare := h.2
  unfold callerStep
  cases hcaller : r.caller with
  | entering =>
    -- Refused by arguments, lock or gate, nothing has been allocated; else the caller goes on.
    rw [hcaller] at hshare
    dsimp only
    split_ifs
    · exact h.moves (.inl hshare.1)
    · exact h.moves (.inl hshare.1)
    · exact h.moves (.inl hshare.1)
    · exact h.moves hshare
  | starting =>
    rw [hcaller] at hshare
    dsimp only
    split
    · exact h.moves hshare
    · exact ⟨h.1, ⟨hshare.1.cell, hshare.1.worker⟩, hshare.2⟩
  -- The new context is the caller's alone.
  | allocating =>
    rw [hcaller] at hshare
    dsimp only
    split_ifs
    · exact ⟨h.1, .zero, rfl, rfl, rfl, hshare.2.1, hshare.2.2⟩
    · exact h.moves hshare
  -- Up to the worker's start each write is to a context nobody else knows.
  | allocatingHost =>
    rw [hcaller] at hshare
    obtain ⟨ctx, hmine⟩ := hshare
    dsimp only
    rw [access_eq hmine.cell]
    split_ifs
    · refine h.writes hmine ?_ rfl
      exact ⟨rfl, rfl⟩
    · exact h.moves ⟨ctx, hmine⟩
  | initialisingLock =>
    rw [hcaller] at hshare
    obtain ⟨ctx, hmine⟩ := hshare
    dsimp only
    rw [access_eq hmine.cell]
    split_ifs
    · refine h.writes hmine ?_ rfl
      exact ⟨rfl, rfl⟩
    · exact h.moves ⟨ctx, hmine⟩
  | initialisingCond =>
    rw [hcaller] at hshare
    obtain ⟨ctx, hmine⟩ := hshare
    dsimp only
    rw [access_eq hmine.cell]
    split_ifs
    · refine h.writes hmine ?_ rfl
      exact ⟨rfl, rfl⟩
    · exact h.moves ⟨ctx, hmine⟩
  -- From here the context is shared with the worker that was started.
  | creating =>
    rw [hcaller] at hshare
    obtain ⟨ctx, hmine⟩ := hshare
    dsimp only
    split_ifs
    · exact ⟨h.1, ctx, hmine.cell, hmine.detached, rfl, .inl ⟨.inl rfl, hmine.completed⟩⟩
    · exact h.moves ⟨ctx, hmine⟩
  | aborting e allocated =>
    rw [hcaller] at hshare
    cases allocated with
    | true => exact h.moves hshare
    | false => exact h.moves (.inl hshare.1)
  -- The start failed, so the caller frees what is still its own.
  | discarding e =>
    rw [hcaller] at hshare
    obtain ⟨ctx, hmine⟩ := hshare
    dsimp only
    rw [free, access_eq hmine.cell]
    exact ⟨h.1, .inl ⟨by rintro _ ⟨⟩, .inl hmine.worker⟩⟩
  -- The wait reads the context under its lock, while the worker may write it.
  | waiting =>
    rw [hcaller] at hshare
    obtain ⟨ctx, hshared⟩ := hshare
    dsimp only
    rw [access_eq hshared.cell]
    split_ifs with hlock hcompleted
    · exact h.moves ⟨ctx, hshared⟩
    · exact h.checkDeadline hshared hcompleted
    · exact h.moves ⟨ctx, hshared⟩
  | sleeping =>
    rw [hcaller] at hshare
    obtain ⟨ctx, hshared⟩ := hshare
    dsimp only
    rw [access_eq hshared.cell]
    cases env.wake with
    | woken =>
      dsimp only
      split_ifs with hcompleted
      · exact h.checkDeadline hshared hcompleted
      · exact h
    -- Past the deadline, or with a failed wait, the caller leaves the context to the worker.
    | timedOut => exact h.moves ⟨ctx, hshared⟩
    | failed => exact h.moves ⟨ctx, hshared⟩
  -- The caller joins a worker that has completed, or marks the context and goes.
  | transferring e =>
    rw [hcaller] at hshare
    obtain ⟨ctx, hshared⟩ := hshare
    dsimp only
    rw [access_eq hshared.cell]
    split_ifs with hjoins
    · exact h.moves ⟨ctx, hshared⟩
    · -- the context is marked while the worker has yet to look at the mark
      rw [settle_eq hshared.thread]
      have hworker : r.worker ≠ .absent := by
        rcases hshared.worker with ⟨hworker | hworker, -⟩ | hthrough
        · rw [hworker]
          rintro ⟨⟩
        · rw [hworker]
          rintro ⟨⟩
        · intro habsent
          rw [habsent] at hthrough
          exact hthrough
      exact ⟨h.1, .inr (.inl ⟨_, rfl, rfl, rfl, hworker⟩)⟩
  | joining outcome =>
    rw [hcaller] at hshare
    cases outcome with
    -- Joined on an error: the worker has ended, so the context is the caller's.
    | some e =>
      obtain ⟨ctx, hshared⟩ := hshare
      dsimp only
      split_ifs with hjoin hended
      · exact h.moves (.inr (.inr ⟨ctx, hshared⟩))
      · rw [settle_eq hshared.thread]
        exact ⟨h.1, ctx, hshared.cell, hended ▸ trivial⟩
      · exact h
    -- Joined on an answer, which the worker wrote before it ended.
    | none =>
      obtain ⟨ctx, hshared, hthrough⟩ := hshare
      dsimp only
      split_ifs with hjoin hended
      · exact h.moves ⟨ctx, hshared.cell, hthrough⟩
      · rw [settle_eq hshared.thread]
        exact ⟨h.1, ctx, ⟨hshared.cell, hthrough⟩, hended⟩
      · exact h
  | copying =>
    rw [hcaller] at hshare
    obtain ⟨ctx, hinherited, -⟩ := hshare
    dsimp only
    rw [access_eq hinherited.cell]
    exact h.moves ⟨ctx, hinherited⟩
  -- The caller frees the context it inherited, and nobody else has it.
  | freeing result =>
    rw [hcaller] at hshare
    obtain ⟨ctx, hinherited⟩ := hshare
    dsimp only
    rw [free, access_eq hinherited.cell]
    exact ⟨h.1, .inl ⟨by rintro _ ⟨⟩, .inr hinherited.worker⟩⟩
  | returned result =>
    rw [hcaller] at hshare
    exact h.moves hshare

/-- A step of either keeps it. -/
theorem Owned.step (h : r.Owned) : (r.step env gate).2.Owned := by
  unfold DnsResolve.step
  cases env.party with
  | caller => exact h.caller_step
  | worker => exact h.worker_step

/-- A call that starts owns nothing. -/
theorem owned_enter (request : DnsRequest) : (enter request).Owned :=
  ⟨rfl, ⟨by rintro _ ⟨⟩, .inl rfl⟩, rfl, rfl⟩

/-! ### Inside of the gate -/

end DnsResolve

/-- The caller holds the gate until the worker has it, or the call is aborted. -/
def DnsCallerPc.holds : DnsCallerPc → ℕ
  | .starting | .allocating | .allocatingHost | .initialisingLock | .initialisingCond => 1
  | .creating | .aborting _ _ => 1
  | _ => 0

/-- The worker holds it until it releases it. -/
def DnsWorkerPc.holds : DnsWorkerPc → ℕ
  | .resolving | .completing | .freeing | .releasing => 1
  | _ => 0

namespace DnsResolve

variable {env : DnsEnv} {gate : DnsGate} {r : DnsResolve} {ctx : DnsCtx}

/-- The caller is inside of the gate until it has started the worker, and the worker is to its
end. -/
def holds (r : DnsResolve) : ℕ := r.caller.holds + r.worker.holds

/-- How a step changes the gate and what the resolution has of it. -/
structure Passes (env : DnsEnv) (gate : DnsGate) (r : DnsResolve) (gate' : DnsGate)
    (r' : DnsResolve) : Prop where
  le : r'.holds + gate.active.toNat ≤ r.holds + gate'.active.toNat
  eq : env.gateLock = true → (0 < r.holds → gate.active = true) →
    r'.holds + gate.active.toNat = r.holds + gate'.active.toNat

/-- Nobody passed the gate. -/
theorem Passes.of_eq {r' : DnsResolve} (h : r'.holds = r.holds) : Passes env gate r gate r' :=
  ⟨Nat.le_of_eq (by rw [h]), fun _ _ => by rw [h]⟩

/-- A release of the gate by the party that is inside. -/
theorem Passes.release {r' : DnsResolve} (h : r.holds = r'.holds + 1) :
    Passes env gate r (netDnsResolverRelease env gate) r' := by
  unfold netDnsResolverRelease
  have hle := Bool.toNat_le gate.active
  split_ifs with hlock
  · refine ⟨?_, fun _ hinside => ?_⟩
    · simp only [h, Bool.toNat_false]
      omega
    · rw [hinside (h ▸ Nat.succ_pos _), h]
      rfl
  · exact ⟨by omega, fun hlock' => absurd hlock' hlock⟩

/-- A step of the caller passes the gate at most once. -/
theorem caller_passes (h : r.Owned) :
    Passes env gate r (r.callerStep env gate).1 (r.callerStep env gate).2 := by
  have hshare := h.2
  unfold callerStep
  cases hcaller : r.caller with
  -- Only the call that finds the gate open takes it.
  | entering =>
    dsimp only
    split_ifs with hargs hlock hbusy
    · exact .of_eq (by simp only [holds, hcaller, DnsCallerPc.holds])
    · exact .of_eq (by simp only [holds, hcaller, DnsCallerPc.holds])
    · exact .of_eq (by simp only [holds, hcaller, DnsCallerPc.holds])
    · have hopen : gate.active = false := by simpa using hbusy
      have hadds : holds { r with caller := .starting } + gate.active.toNat = r.holds + 1 := by
        simp only [holds, hcaller, DnsCallerPc.holds, hopen, Bool.toNat_false]
        omega
      exact ⟨Nat.le_of_eq hadds, fun _ _ => hadds⟩
  -- The hold passes from the caller to the worker it starts.
  | creating =>
    rw [hcaller] at hshare
    obtain ⟨ctx, hmine⟩ := hshare
    dsimp only
    split_ifs
    · exact .of_eq (by
        simp only [holds, hcaller, hmine.worker, DnsCallerPc.holds, DnsWorkerPc.holds])
    · exact .of_eq (by simp only [holds, hcaller, DnsCallerPc.holds])
  -- The start failed, so the caller gives the hold back itself.
  | aborting e allocated =>
    refine .release ?_
    have hout : 1 + r.worker.holds = 0 + r.worker.holds + 1 := by omega
    rw [holds, hcaller]
    cases allocated <;> exact hout
  | _ =>
    -- no other step of the caller passes the gate
    dsimp only [access, free, settle, checkDeadline]
    repeat' split
    all_goals exact .of_eq (by simp only [holds, hcaller, DnsCallerPc.holds])

/-- So does a step of the worker. -/
theorem worker_passes : Passes env gate r (r.workerStep env gate).1 (r.workerStep env gate).2 := by
  unfold workerStep
  cases hworker : r.worker with
  | releasing => exact .release (by simp only [holds, hworker, DnsWorkerPc.holds])
  | _ =>
    dsimp only [access, free]
    repeat' split
    all_goals exact .of_eq (by simp only [holds, hworker, DnsWorkerPc.holds])

variable (env gate) in
/-- A step of either. -/
theorem step_passes (h : r.Owned) :
    Passes env gate r (r.step env gate).1 (r.step env gate).2 := by
  unfold DnsResolve.step
  cases env.party with
  | caller => exact caller_passes h
  | worker => exact worker_passes

/-! ### What has been answered -/

variable {past : List (ℕ × CString × GaiAnswer)} {k : ℕ}

/-- `getaddrinfo` has answered this text to the resolution `k`. -/
def Found (past : List (ℕ × CString × GaiAnswer)) (k : ℕ) (request : DnsRequest) (ip : CString) :
    Prop :=
  ∃ host answer, request.host = some host ∧ (k, host, answer) ∈ past ∧ answer.rc = 0 ∧
    answer.address = some (some ip)

/-- What was found stays found. -/
theorem Found.mono {request : DnsRequest} {ip : CString} (h : Found past k request ip)
    (later : List (ℕ × CString × GaiAnswer)) : Found (past ++ later) k request ip := by
  obtain ⟨host, answer, hhost, hmem, hrc, haddress⟩ := h
  exact ⟨host, answer, hhost, List.mem_append_left _ hmem, hrc, haddress⟩

end DnsResolve

/-- The context has its host. -/
def DnsCallerPc.Hosted : DnsCallerPc → Prop
  | .initialisingLock | .initialisingCond | .creating => True
  | _ => False

/-- The resolution has passed the check of its arguments. -/
def DnsCallerPc.Checked : DnsCallerPc → Prop
  | .entering | .returned _ => False
  | _ => True

/-- The address a caller answers, or is about to. -/
def DnsCallerPc.result : DnsCallerPc → Option CString
  | .freeing (.ok ip) | .returned (.ok ip) => some ip
  | _ => none

namespace DnsResolve

variable {env : DnsEnv} {gate : DnsGate} {r : DnsResolve} {ctx : DnsCtx}
  {past : List (ℕ × CString × GaiAnswer)} {k : ℕ}

/-- The answer of a call comes from a lookup of its own host. -/
structure Answered (past : List (ℕ × CString × GaiAnswer)) (k : ℕ) (r : DnsResolve) : Prop where
  checked : r.caller.Checked → ∃ host, r.request.host = some host
  host : ∀ ctx, r.cell = .live ctx → r.caller.Hosted ∨ r.worker ≠ .absent →
    ∃ host, r.request.host = some host ∧ ctx.host = some host
  fresh : ∀ ctx, r.cell = .live ctx → r.worker = .absent ∨ r.worker = .resolving →
    ctx.inetOk = false
  found : ∀ ctx, r.cell = .live ctx → ctx.gaiRc = 0 → ctx.inetOk = true →
    Found past k r.request ctx.ip
  result : ∀ ip, r.caller.result = some ip →
    Found past k r.request ip ∧ ip.length < r.request.ipLen

/-- More lookups change nothing. -/
theorem Answered.mono (h : r.Answered past k) (later : List (ℕ × CString × GaiAnswer)) :
    r.Answered (past ++ later) k where
  checked := h.checked
  host := h.host
  fresh := h.fresh
  found ctx hcell hrc hok := (h.found ctx hcell hrc hok).mono later
  result ip hip := ⟨(h.result ip hip).1.mono later, (h.result ip hip).2⟩

/-- A call that starts has no answer. -/
theorem answered_enter (request : DnsRequest) : (enter request).Answered past k where
  checked := False.elim
  host := by rintro _ ⟨⟩
  fresh := by rintro _ ⟨⟩
  found := by rintro _ ⟨⟩
  result := by rintro _ ⟨⟩

/-- The same context, as far as the answer goes. -/
structure SameAnswer (ctx ctx' : DnsCtx) : Prop where
  host : ctx'.host = ctx.host
  gaiRc : ctx'.gaiRc = ctx.gaiRc
  inetOk : ctx'.inetOk = ctx.inetOk
  ip : ctx'.ip = ctx.ip

/-- A step that writes no answer and no host, and copies none. -/
theorem Answered.moves (h : r.Answered past k) {r' : DnsResolve} (hrequest : r'.request = r.request)
    (hcell : ∀ ctx', r'.cell = .live ctx' → ∃ ctx, r.cell = .live ctx ∧ SameAnswer ctx ctx')
    (hworker : r'.worker = .absent ∨ r'.worker = .resolving →
      r.worker = .absent ∨ r.worker = .resolving)
    (hplace : r'.caller.Hosted ∨ r'.worker ≠ .absent → r.caller.Hosted ∨ r.worker ≠ .absent)
    (hchecked : r'.caller.Checked → r.caller.Checked)
    (hresult : ∀ ip, r'.caller.result = some ip → r.caller.result = some ip) :
    r'.Answered past k where
  checked hcaller := hrequest ▸ h.checked (hchecked hcaller)
  host ctx' hlive hcaller := by
    obtain ⟨ctx, hlive', hsame⟩ := hcell ctx' hlive
    rw [hrequest, hsame.host]
    exact h.host ctx hlive' (hplace hcaller)
  fresh ctx' hlive hfresh := by
    obtain ⟨ctx, hlive', hsame⟩ := hcell ctx' hlive
    rw [hsame.inetOk]
    exact h.fresh ctx hlive' (hworker hfresh)
  found ctx' hlive hrc hok := by
    obtain ⟨ctx, hlive', hsame⟩ := hcell ctx' hlive
    rw [hrequest, hsame.ip]
    exact h.found ctx hlive' (hsame.gaiRc ▸ hrc) (hsame.inetOk ▸ hok)
  result ip hip := hrequest ▸ h.result ip (hresult ip hip)

/-- A step that moves only the caller. -/
theorem Answered.caller_moves (h : r.Answered past k) {caller : DnsCallerPc}
    (hhosted : caller.Hosted → r.caller.Hosted) (hchecked : caller.Checked → r.caller.Checked)
    (hresult : ∀ ip, caller.result = some ip → r.caller.result = some ip) :
    Answered past k { r with caller := caller } :=
  h.moves rfl (fun ctx hcell => ⟨ctx, hcell, rfl, rfl, rfl, rfl⟩) id (Or.imp_left hhosted) hchecked
    hresult

/-- The caller writes into the context, but no answer and no host. -/
theorem Answered.writes (h : r.Answered past k) (hcell : r.cell = .live ctx) {ctx' : DnsCtx}
    (hsame : SameAnswer ctx ctx') {caller : DnsCallerPc} {thread : DnsThread}
    (hhosted : caller.Hosted → r.caller.Hosted) (hchecked : caller.Checked → r.caller.Checked)
    (hresult : ∀ ip, caller.result = some ip → r.caller.result = some ip) :
    Answered past k { r with cell := .live ctx', thread := thread, caller := caller } := by
  refine h.moves rfl ?_ id (Or.imp_left hhosted) hchecked hresult
  rintro _ ⟨⟩
  exact ⟨ctx, hcell, hsame⟩

/-- The context is freed. -/
theorem Answered.frees (h : r.Answered past k) (hcell : r.cell = .live ctx)
    {caller : DnsCallerPc} (hplace : ¬caller.Hosted ∧ ¬caller.Checked)
    (hresult : ∀ ip, caller.result = some ip → r.caller.result = some ip) :
    Answered past k { r.free with caller := caller } := by
  rw [free, access_eq hcell]
  refine h.moves rfl ?_ id (Or.imp_left fun hhosted => absurd hhosted hplace.1)
    (fun hchecked => absurd hchecked hplace.2) hresult
  rintro _ ⟨⟩

/-- What is copied was found. -/
theorem netDnsCopyResult_eq_ok {ipLen : ℕ} {ip : CString}
    (h : netDnsCopyResult ctx ipLen = .ok ip) :
    ctx.gaiRc = 0 ∧ ctx.inetOk = true ∧ ctx.ip = ip ∧ ip.length < ipLen := by
  unfold netDnsCopyResult at h
  split_ifs at h with hfailed hlong
  · cases h
    rw [not_or, not_not, Bool.not_eq_false] at hfailed
    exact ⟨hfailed.1, hfailed.2, rfl, by omega⟩

/-- Looking at the deadline keeps it. -/
theorem Answered.checkDeadline (h : r.Answered past k) (hchecked : r.caller.Checked) :
    (r.checkDeadline env).Answered past k := by
  unfold DnsResolve.checkDeadline
  split
  · exact h.caller_moves False.elim (fun _ => hchecked) (by rintro _ ⟨⟩)
  · exact h.caller_moves False.elim (fun _ => hchecked) (by rintro _ ⟨⟩)

/-- So does a step of the caller. -/
theorem Answered.caller_step (h : r.Answered past k) (howned : r.Owned) :
    (r.callerStep env gate).2.Answered past k := by
  have hshare := howned.2
  -- the arguments are checked first, and the context gets the host before the worker is started
  unfold callerStep
  cases hcaller : r.caller with
  | entering =>
    dsimp only
    split_ifs with hargs
    · exact h.caller_moves False.elim False.elim (by rintro _ ⟨⟩)
    · exact h.caller_moves False.elim False.elim (by rintro _ ⟨⟩)
    · exact h.caller_moves False.elim False.elim (by rintro _ ⟨⟩)
    · -- Past the checks there is a host, and no context yet.
      rw [not_or] at hargs
      rw [hcaller] at hshare
      refine ⟨fun _ => Option.ne_none_iff_exists'.mp hargs.1, fun ctx hcell => ?_, h.fresh, h.found,
        by rintro _ ⟨⟩⟩
      exact absurd hcell (hshare.1.cell ctx)
  | starting =>
    have hchecked : r.caller.Checked := hcaller ▸ trivial
    dsimp only
    split
    · exact h.caller_moves False.elim (fun _ => hchecked) (by rintro _ ⟨⟩)
    · refine h.moves rfl (fun ctx hcell => ⟨ctx, hcell, rfl, rfl, rfl, rfl⟩) id
        (Or.imp_left False.elim) (fun _ => hchecked) (by rintro _ ⟨⟩)
  | allocating =>
    have hchecked : r.caller.Checked := hcaller ▸ trivial
    rw [hcaller] at hshare
    dsimp only
    split_ifs
    · -- The context is fresh: it has neither a host nor an answer.
      refine ⟨fun _ => h.checked hchecked, ?_, ?_, ?_, ?_⟩
      · rintro _ - (hhosted | hworker)
        · exact hhosted.elim
        · exact absurd hshare.2.1 hworker
      · rintro _ ⟨⟩ -
        rfl
      · rintro _ ⟨⟩ - ⟨⟩
      · rintro _ ⟨⟩
    · exact h.caller_moves False.elim (fun _ => hchecked) (by rintro _ ⟨⟩)
  | allocatingHost =>
    have hchecked : r.caller.Checked := hcaller ▸ trivial
    rw [hcaller] at hshare
    obtain ⟨ctx, hmine⟩ := hshare
    obtain ⟨host, hhost⟩ := h.checked hchecked
    dsimp only
    rw [access_eq hmine.cell]
    split_ifs
    · refine ⟨fun _ => ⟨host, hhost⟩, ?_, ?_, ?_, ?_⟩
      · -- The host copied into the context is the one of the request.
        rintro _ ⟨⟩ -
        exact ⟨host, hhost, hhost⟩
      · rintro _ ⟨⟩ hfresh
        exact h.fresh ctx hmine.cell hfresh
      · rintro _ ⟨⟩ hrc hok
        exact h.found ctx hmine.cell hrc hok
      · rintro _ ⟨⟩
    · exact h.caller_moves False.elim (fun _ => hchecked) (by rintro _ ⟨⟩)
  -- Lock and condition are no part of the answer.
  | initialisingLock =>
    have hchecked : r.caller.Checked := hcaller ▸ trivial
    rw [hcaller] at hshare
    obtain ⟨ctx, hmine⟩ := hshare
    dsimp only
    rw [access_eq hmine.cell]
    split_ifs
    · refine h.writes hmine.cell ?_ (fun _ => hcaller ▸ trivial) (fun _ => hchecked) ?_
      · exact ⟨rfl, rfl, rfl, rfl⟩
      · rintro _ ⟨⟩
    · exact h.caller_moves False.elim (fun _ => hchecked) (by rintro _ ⟨⟩)
  | initialisingCond =>
    have hchecked : r.caller.Checked := hcaller ▸ trivial
    rw [hcaller] at hshare
    obtain ⟨ctx, hmine⟩ := hshare
    dsimp only
    rw [access_eq hmine.cell]
    split_ifs
    · refine h.writes hmine.cell ?_ (fun _ => hcaller ▸ trivial) (fun _ => hchecked) ?_
      · exact ⟨rfl, rfl, rfl, rfl⟩
      · rintro _ ⟨⟩
    · exact h.caller_moves False.elim (fun _ => hchecked) (by rintro _ ⟨⟩)
  | creating =>
    have hchecked : r.caller.Checked := hcaller ▸ trivial
    rw [hcaller] at hshare
    obtain ⟨ctx, hmine⟩ := hshare
    dsimp only
    split_ifs
    · -- The worker starts with the context that has the host.
      exact h.moves rfl (fun ctx hcell => ⟨ctx, hcell, rfl, rfl, rfl, rfl⟩)
        (fun _ => .inl hmine.worker) (fun _ => .inl (hcaller ▸ trivial)) (fun _ => hchecked)
        (by rintro _ ⟨⟩)
    · exact h.caller_moves False.elim (fun _ => hchecked) (by rintro _ ⟨⟩)
  | aborting e allocated =>
    have hchecked : r.caller.Checked := hcaller ▸ trivial
    cases allocated with
    | true => exact h.caller_moves False.elim (fun _ => hchecked) (by rintro _ ⟨⟩)
    | false => exact h.caller_moves False.elim (fun _ => hchecked) (by rintro _ ⟨⟩)
  -- A context that is freed promises nothing any more.
  | discarding e =>
    rw [hcaller] at hshare
    obtain ⟨ctx, hmine⟩ := hshare
    exact h.frees hmine.cell ⟨id, id⟩ (by rintro _ ⟨⟩)
  | waiting =>
    have hchecked : r.caller.Checked := hcaller ▸ trivial
    rw [hcaller] at hshare
    obtain ⟨ctx, hshared⟩ := hshare
    dsimp only
    rw [access_eq hshared.cell]
    split_ifs
    · exact h.caller_moves False.elim (fun _ => hchecked) (by rintro _ ⟨⟩)
    · -- The deadline decides where the caller goes, not what the context holds.
      exact h.checkDeadline hchecked
    · exact h.caller_moves False.elim (fun _ => hchecked) (by rintro _ ⟨⟩)
  | sleeping =>
    have hchecked : r.caller.Checked := hcaller ▸ trivial
    rw [hcaller] at hshare
    obtain ⟨ctx, hshared⟩ := hshare
    dsimp only
    rw [access_eq hshared.cell]
    cases env.wake with
    | woken =>
      dsimp only
      split_ifs
      · exact h.checkDeadline hchecked
      · exact h
    | timedOut => exact h.caller_moves False.elim (fun _ => hchecked) (by rintro _ ⟨⟩)
    | failed => exact h.caller_moves False.elim (fun _ => hchecked) (by rintro _ ⟨⟩)
  | transferring e =>
    have hchecked : r.caller.Checked := hcaller ▸ trivial
    rw [hcaller] at hshare
    obtain ⟨ctx, hshared⟩ := hshare
    dsimp only
    rw [access_eq hshared.cell]
    split_ifs
    · exact h.caller_moves False.elim (fun _ => hchecked) (by rintro _ ⟨⟩)
    · -- The mark is written for the worker; host and answer stay.
      rw [settle_eq hshared.thread]
      refine h.writes hshared.cell ?_ False.elim False.elim ?_
      · exact ⟨rfl, rfl, rfl, rfl⟩
      · rintro _ ⟨⟩
  | joining outcome =>
    have hchecked : r.caller.Checked := hcaller ▸ trivial
    have hthread : r.thread = .joinable := by
      rw [hcaller] at hshare
      cases outcome with
      | some e =>
        obtain ⟨ctx, hshared⟩ := hshare
        exact hshared.thread
      | none =>
        obtain ⟨ctx, hshared, -⟩ := hshare
        exact hshared.thread
    dsimp only
    -- The join reads nothing of the context.
    rw [settle_eq hthread]
    split_ifs
    · cases outcome <;> exact h.caller_moves False.elim (fun _ => hchecked) (by rintro _ ⟨⟩)
    · refine h.moves rfl (fun ctx hcell => ⟨ctx, hcell, rfl, rfl, rfl, rfl⟩) id ?_
        (fun _ => hchecked) ?_
      · cases outcome <;> exact Or.imp_left False.elim
      · cases outcome <;> rintro _ ⟨⟩
    · exact h
  | copying =>
    have hchecked : r.caller.Checked := hcaller ▸ trivial
    rw [hcaller] at hshare
    obtain ⟨ctx, hinherited, -⟩ := hshare
    dsimp only
    rw [access_eq hinherited.cell]
    -- The answer handed out is the text of the context, as long as the caller has room.
    refine ⟨fun _ => h.checked hchecked, fun ctx hcell hplace => ?_, h.fresh, h.found,
      fun ip hip => ?_⟩
    · exact h.host ctx hcell (hplace.imp_left False.elim)
    · cases hcopy : netDnsCopyResult ctx r.request.ipLen with
      | error e =>
        rw [hcopy] at hip
        cases hip
      | ok text =>
        rw [hcopy] at hip
        cases hip
        obtain ⟨hrc, hok, rfl, hlength⟩ := netDnsCopyResult_eq_ok hcopy
        exact ⟨h.found ctx hinherited.cell hrc hok, hlength⟩
  -- The result is already the caller's own; the context may go.
  | freeing result =>
    rw [hcaller] at hshare
    obtain ⟨ctx, hinherited⟩ := hshare
    refine h.frees hinherited.cell ⟨id, id⟩ fun ip hip => ?_
    rw [hcaller]
    cases result with
    | error e => cases hip
    | ok text => exact hip
  | returned result =>
    refine h.caller_moves False.elim False.elim fun ip hip => ?_
    rw [hcaller]
    exact hip

/-- A step of a worker that has resolved, or not begun to. -/
theorem Answered.worker_moves (h : r.Answered past k) {r' : DnsResolve}
    (hrequest : r'.request = r.request) (hcaller : r'.caller = r.caller)
    (hcell : ∀ ctx', r'.cell = .live ctx' → ∃ ctx, r.cell = .live ctx ∧ SameAnswer ctx ctx')
    (hworker : r'.worker = .absent ∨ r'.worker = .resolving →
      r.worker = .absent ∨ r.worker = .resolving)
    (hstarted : r'.worker ≠ .absent → r.worker ≠ .absent) : r'.Answered past k :=
  h.moves hrequest hcell hworker (Or.imp (fun hhosted => hcaller ▸ hhosted) hstarted)
    (fun hchecked => hcaller ▸ hchecked) (fun _ hip => hcaller ▸ hip)

/-- So does a step of the worker, which makes the lookup. -/
theorem Answered.worker_step (h : r.Answered past k) (hparty : env.party = .worker) :
    (r.workerStep env gate).2.Answered (past ++ r.answer k env) k := by
  have hmono := h.mono (r.answer k env)
  have hsame : ∀ ctx', r.cell = .live ctx' → ∃ ctx, r.cell = .live ctx ∧ SameAnswer ctx ctx' :=
    fun ctx hcell => ⟨ctx, hcell, rfl, rfl, rfl, rfl⟩
  unfold workerStep
  cases hworker : r.worker with
  | resolving =>
    dsimp only [access]
    split
    · -- The worker looks up the host of its context, which is the request's.
      rename_i ctx hcell
      obtain ⟨host, hrequest, hhost⟩ := h.host ctx hcell (.inr (by rw [hworker]; rintro ⟨⟩))
      have hanswer : r.answer k env = [(k, host, env.lookup host)] := by
        simp only [answer, hparty, hworker, hcell, hhost, Option.getD_some]
      refine ⟨hmono.checked, ?_, ?_, ?_, hmono.result⟩
      · rintro _ ⟨⟩ -
        exact ⟨host, hrequest, (ctx.resolved_host _).trans hhost⟩
      · -- Behind the lookup the context is no longer fresh.
        rintro _ - (⟨⟨⟩⟩ | ⟨⟨⟩⟩)
      · rintro _ ⟨⟩ hrc hok
        rw [hhost] at hrc hok ⊢
        -- no text was there before, so the one that is there now is the answer
        have hnone := h.fresh ctx hcell (.inr hworker)
        dsimp only [Option.getD_some] at hrc hok ⊢
        refine ⟨host, env.lookup host, hrequest,
          List.mem_append_right _ (hanswer ▸ List.mem_cons_self), ?_⟩
        unfold DnsCtx.resolved at hrc hok ⊢
        cases haddress : (env.lookup host).address with
        | none =>
          rw [haddress] at hok
          exact Bool.noConfusion (hnone.symm.trans hok)
        | some text =>
          rw [haddress] at hrc hok
          -- The answer is of this lookup exactly where its code says that it went well.
          dsimp only at hrc hok ⊢
          split_ifs at hrc hok ⊢ with hzero
          · obtain ⟨ip, rfl⟩ := Option.isSome_iff_exists.mp hok
            exact ⟨hzero, rfl⟩
          · exact Bool.noConfusion (hnone.symm.trans hok)
    · exact hmono.worker_moves rfl rfl hsame id id
  | completing =>
    have hstarted : r.worker ≠ .absent := by rw [hworker]; rintro ⟨⟩
    dsimp only [access]
    split
    · -- Whatever the worker marks, host and answer stay.
      rename_i ctx hcell
      split_ifs
      · exact hmono.worker_moves rfl rfl hsame (by rintro (⟨⟨⟩⟩ | ⟨⟨⟩⟩)) fun _ => hstarted
      · refine hmono.worker_moves rfl rfl ?_ (by rintro (⟨⟨⟩⟩ | ⟨⟨⟩⟩)) fun _ => hstarted
        rintro _ ⟨⟩
        exact ⟨ctx, hcell, rfl, rfl, rfl, rfl⟩
      · refine hmono.worker_moves rfl rfl ?_ (by rintro (⟨⟨⟩⟩ | ⟨⟨⟩⟩)) fun _ => hstarted
        rintro _ ⟨⟩
        exact ⟨ctx, hcell, rfl, rfl, rfl, rfl⟩
    · exact hmono.worker_moves rfl rfl hsame id id
  -- The worker frees the context, which then promises nothing.
  | freeing =>
    have hstarted : r.worker ≠ .absent := by rw [hworker]; rintro ⟨⟩
    dsimp only [free, access]
    split
    · refine hmono.worker_moves rfl rfl ?_ (by rintro (⟨⟨⟩⟩ | ⟨⟨⟩⟩)) fun _ => hstarted
      rintro _ ⟨⟩
    · exact hmono.worker_moves rfl rfl hsame (by rintro (⟨⟨⟩⟩ | ⟨⟨⟩⟩)) fun _ => hstarted
  | releasing =>
    have hstarted : r.worker ≠ .absent := by rw [hworker]; rintro ⟨⟩
    exact hmono.worker_moves rfl rfl hsame (by rintro (⟨⟨⟩⟩ | ⟨⟨⟩⟩)) fun _ => hstarted
  | absent => exact hmono
  | ended => exact hmono

end DnsResolve

/-! ### Every run -/

namespace DnsSystem

open DnsResolve

variable {s : DnsSystem} {past : List (ℕ × CString × GaiAnswer)}

/-- What holds in every state, with the answers so far. -/
structure Sound (past : List (ℕ × CString × GaiAnswer)) (s : DnsSystem) : Prop where
  owned : ∀ r ∈ s.calls, r.Owned
  gate : Threads.total DnsResolve.holds s.calls ≤ s.shared.active.toNat
  answered : ∀ (k : ℕ) (r : DnsResolve), s.calls[k]? = some r → r.Answered past k

/-- The lookups of a step. -/
theorem answers_advance {k : ℕ} {env : DnsEnv} {r : DnsResolve} (hk : s.calls[k]? = some r) :
    s.answers (.advance k env) = r.answer k env := by
  simp only [answers, hk]

/-- A call that starts. -/
theorem Sound.start (h : Sound past s) (request : DnsRequest) :
    Sound past ⟨s.shared, s.calls ++ [enter request]⟩ where
  owned r hr := by
    rcases List.mem_append.mp hr with hr | hr
    · exact h.owned r hr
    · rw [List.mem_singleton.mp hr]
      exact owned_enter request
  gate := by
    have hout : (enter request).holds = 0 := rfl
    rw [Threads.total_snoc, hout]
    exact h.gate
  answered k r hk := by
    rcases Nat.lt_or_ge k s.calls.length with hlt | hge
    · rw [List.getElem?_append_left hlt] at hk
      exact h.answered k r hk
    · rw [List.getElem?_append_right hge] at hk
      rw [List.mem_singleton.mp (List.mem_of_getElem? hk)]
      exact answered_enter request

/-- A step of either. -/
theorem Answered.step {k : ℕ} {r : DnsResolve} (h : r.Answered past k) (howned : r.Owned)
    (env : DnsEnv) (gate : DnsGate) :
    (r.step env gate).2.Answered (past ++ r.answer k env) k := by
  unfold DnsResolve.step
  cases hparty : env.party with
  | caller => exact (h.caller_step howned).mono _
  | worker => exact h.worker_step hparty

/-- A step of one call. -/
theorem Sound.advance (h : Sound past s) {k : ℕ} {env : DnsEnv} {r : DnsResolve}
    (hk : s.calls[k]? = some r) : Sound (past ++ r.answer k env)
      ⟨(r.step env s.shared).1, s.calls.set k (r.step env s.shared).2⟩ where
  owned r' hr' := by
    rcases List.mem_or_eq_of_mem_set hr' with hr' | rfl
    · exact h.owned r' hr'
    · exact (h.owned r (List.mem_of_getElem? hk)).step
  gate := by
    have hset := Threads.total_set hk DnsResolve.holds (r.step env s.shared).2
    -- a call passes the gate only when nobody holds it
    have hpasses := (step_passes env s.shared
      (h.owned r (List.mem_of_getElem? hk))).le
    have hgate := h.gate
    show Threads.total DnsResolve.holds (s.calls.set k (r.step env s.shared).2) ≤
      (r.step env s.shared).1.active.toNat
    omega
  answered j r' hj := by
    by_cases hjk : k = j
    · subst hjk
      obtain ⟨hlt, -⟩ := List.getElem?_eq_some_iff.mp hk
      rw [List.getElem?_set_self hlt, Option.some_inj] at hj
      subst hj
      exact Answered.step (h.answered k r hk) (h.owned r (List.mem_of_getElem? hk)) env s.shared
    · rw [List.getElem?_set_ne hjk] at hj
      exact (h.answered j r' hj).mono _

/-- A step of the system. -/
theorem Sound.step (h : Sound past s) (a : DnsAction) :
    Sound (past ++ s.answers a) (s.step a).2 := by
  rcases Threads.step_cases DnsResolve.enter DnsResolve.step s a with
    ⟨request, rfl, hstep⟩ | ⟨hacting, hstep⟩ | ⟨k, env, r, rfl, hk, -, hstep⟩
  · rw [DnsSystem.step, hstep, show s.answers (.start request) = [] from rfl, List.append_nil]
    exact h.start request
  · rw [DnsSystem.step, hstep]
    exact ⟨h.owned, h.gate, fun k r hk => (h.answered k r hk).mono _⟩
  · rw [DnsSystem.step, hstep, answers_advance hk]
    exact h.advance hk

/-- Nothing was asked yet. -/
theorem sound_initial : Sound [] initial where
  owned := by rintro _ ⟨⟩
  gate := Nat.le_refl 0
  answered := by rintro _ _ ⟨⟩

/-- After every run. -/
theorem sound_run (actions : List DnsAction) :
    Sound (history DnsSystem.step answers actions initial) (run DnsSystem.step actions initial).2 :=
  history_invariant (I := Sound) (fun _ _ a h => h.step a) actions sound_initial

/-- Whatever the system answers and however the parties interleave: no context is used or freed when
it is not allocated and no thread settled twice, at most one resolution is inside of the gate, and
a text that is returned fits the buffer and was answered to this resolution for its own name. -/
theorem resolver_safe (actions : List DnsAction) :
    (∀ r ∈ (run DnsSystem.step actions initial).2.calls, r.fault = false) ∧
    Threads.total DnsResolve.holds (run DnsSystem.step actions initial).2.calls ≤ 1 ∧
    ∀ (k : ℕ) (r : DnsResolve) (ip : CString),
      (run DnsSystem.step actions initial).2.calls[k]? = some r → r.caller = .returned (.ok ip) →
      Found (history DnsSystem.step answers actions initial) k r.request ip ∧
        ip.length < r.request.ipLen := by
  have hsound := sound_run actions
  refine ⟨fun r hr => (hsound.owned r hr).1, hsound.gate.trans (Bool.toNat_le _),
    fun k r ip hk hreturned => (hsound.answered k r hk).result ip ?_⟩
  rw [hreturned]
  rfl

end DnsSystem

end TrustSdk.Net
