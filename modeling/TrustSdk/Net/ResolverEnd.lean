import TrustSdk.Lib.Progress
import TrustSdk.Net.ResolverSafety

/-!
# A resolution comes to its end and leaves nothing behind

When no lock and no join fails, the gate is active exactly as long as a resolution is inside of it,
a resolution whose parties have ended has freed its context and settled its thread, and from every
state the parties can be brought to their ends (`resolver_ends`).
-/

namespace TrustSdk.Net

open Machine

namespace DnsResolve

variable {env : DnsEnv} {gate : DnsGate} {r : DnsResolve} {ctx : DnsCtx}

/-- The locks and the join succeed. -/
structure Reliable (env : DnsEnv) : Prop where
  gateLock : env.gateLock = true
  ctxLock : env.ctxLock = true
  join : env.join = true

instance (env : DnsEnv) : Decidable (Reliable env) :=
  decidable_of_iff (env.gateLock = true ∧ env.ctxLock = true ∧ env.join = true)
    ⟨fun h => ⟨h.1, h.2.1, h.2.2⟩, fun h => ⟨h.gateLock, h.ctxLock, h.join⟩⟩

/-- The caller has returned, and there is no worker or it has ended. -/
def Over (r : DnsResolve) : Prop :=
  (∃ result, r.caller = .returned result) ∧ (r.worker = .absent ∨ r.worker = .ended)

/-- Nothing of the resolution is left. -/
def Clean (r : DnsResolve) : Prop := (∀ ctx, r.cell ≠ .live ctx) ∧ r.thread ≠ .joinable

/-- What is kept as long as the locks and the join succeed. -/
structure Tidy (r : DnsResolve) : Prop where
  completed : ∀ ctx, r.cell = .live ctx → r.worker.Through →
    ctx.completed = true ∧ ctx.detached = false
  joined : r.caller.share = .joined ∨ r.caller.share = .inherited → r.thread = .joined
  left : r.caller.share = .left → r.thread ≠ .joinable

/-- A call that starts is tidy. -/
theorem tidy_enter (request : DnsRequest) : (enter request).Tidy where
  completed := by rintro _ ⟨⟩
  joined := by rintro (⟨⟨⟩⟩ | ⟨⟨⟩⟩)
  left := by rintro ⟨⟩

/-- What is over has left nothing behind. -/
theorem Tidy.clean (h : r.Tidy) (howned : r.Owned) (hover : r.Over) : r.Clean := by
  obtain ⟨⟨result, hreturned⟩, hworker⟩ := hover
  have hshare := howned.2
  have hthread := h.left (by rw [hreturned]; rfl)
  rw [hreturned] at hshare
  refine ⟨fun ctx hcell => ?_, hthread⟩
  rcases hshare with hwithout | ⟨ctx', hhanded⟩ | ⟨ctx', hshared⟩
  · exact hwithout.cell ctx hcell
  · -- the worker has ended without having freed the context, so nobody had detached it
    have hended : r.worker.Through := by
      rw [hworker.resolve_left hhanded.worker]
      trivial
    have hdetached := (h.completed ctx' hhanded.cell hended).2
    exact Bool.noConfusion (hdetached.symm.trans hhanded.detached)
  · exact hthread hshared.thread

/-- A step of the caller that does not touch the context or the thread. -/
theorem Tidy.moves (h : r.Tidy) {caller : DnsCallerPc}
    (hshare : caller.share ≠ .joined ∧ caller.share ≠ .inherited ∨ r.thread = .joined)
    (hleft : caller.share ≠ .left ∨ r.thread ≠ .joinable) :
    Tidy { r with caller := caller } where
  completed := h.completed
  joined hplace := by
    rcases hshare with ⟨hjoined, hinherited⟩ | hthread
    · exact absurd hplace (not_or.mpr ⟨hjoined, hinherited⟩)
    · exact hthread
  left hplace := hleft.resolve_left (not_not.mpr hplace)

/-- Looking at the deadline keeps it so. -/
theorem Tidy.checkDeadline (h : r.Tidy) : (r.checkDeadline env).Tidy := by
  unfold DnsResolve.checkDeadline
  split
  · exact h.moves (.inl ⟨by rintro ⟨⟩, by rintro ⟨⟩⟩) (.inl (by rintro ⟨⟩))
  · exact h.moves (.inl ⟨by rintro ⟨⟩, by rintro ⟨⟩⟩) (.inl (by rintro ⟨⟩))

/-- A caller without a worker, behind its step. -/
theorem tidy_alone {r' : DnsResolve} (hworker : r'.worker = .absent)
    (hshare : r'.caller.share ≠ .joined ∧ r'.caller.share ≠ .inherited)
    (hthread : r'.thread = .none) : r'.Tidy where
  completed _ _ hthrough := by
    rw [hworker] at hthrough
    exact hthrough.elim
  joined hplace := absurd hplace (not_or.mpr hshare)
  left _ := by
    rw [hthread]
    rintro ⟨⟩

/-- So does a step of the caller when nothing fails. -/
theorem Tidy.caller_step (h : r.Tidy) (howned : r.Owned) (hreliable : Reliable env) :
    (r.callerStep env gate).2.Tidy := by
  have hshare := howned.2
  unfold callerStep
  cases hcaller : r.caller with
  -- Before the context is made there is no worker to be tidied up after.
  | entering =>
    rw [hcaller] at hshare
    obtain ⟨-, habsent, hthread⟩ := hshare
    dsimp only
    split_ifs
    all_goals exact tidy_alone habsent ⟨by rintro ⟨⟩, by rintro ⟨⟩⟩ hthread
  | starting =>
    rw [hcaller] at hshare
    obtain ⟨-, habsent, hthread⟩ := hshare
    dsimp only
    split
    all_goals exact tidy_alone habsent ⟨by rintro ⟨⟩, by rintro ⟨⟩⟩ hthread
  | allocating =>
    rw [hcaller] at hshare
    obtain ⟨-, habsent, hthread⟩ := hshare
    dsimp only
    split_ifs
    all_goals exact tidy_alone habsent ⟨by rintro ⟨⟩, by rintro ⟨⟩⟩ hthread
  -- The context is the caller's alone, and still no worker runs.
  | allocatingHost =>
    rw [hcaller] at hshare
    obtain ⟨ctx, hmine⟩ := hshare
    dsimp only
    rw [access_eq hmine.cell]
    split_ifs
    all_goals exact tidy_alone hmine.worker ⟨by rintro ⟨⟩, by rintro ⟨⟩⟩ hmine.thread
  | initialisingLock =>
    rw [hcaller] at hshare
    obtain ⟨ctx, hmine⟩ := hshare
    dsimp only
    rw [access_eq hmine.cell]
    split_ifs
    all_goals exact tidy_alone hmine.worker ⟨by rintro ⟨⟩, by rintro ⟨⟩⟩ hmine.thread
  | initialisingCond =>
    rw [hcaller] at hshare
    obtain ⟨ctx, hmine⟩ := hshare
    dsimp only
    rw [access_eq hmine.cell]
    split_ifs
    all_goals exact tidy_alone hmine.worker ⟨by rintro ⟨⟩, by rintro ⟨⟩⟩ hmine.thread
  | creating =>
    rw [hcaller] at hshare
    obtain ⟨ctx, hmine⟩ := hshare
    dsimp only
    split_ifs
    · -- The worker has been started, so it is neither absent nor through.
      exact ⟨fun _ _ => False.elim, by rintro (⟨⟨⟩⟩ | ⟨⟨⟩⟩), by rintro ⟨⟩⟩
    · exact tidy_alone hmine.worker ⟨by rintro ⟨⟩, by rintro ⟨⟩⟩ hmine.thread
  | aborting e allocated =>
    rw [hcaller] at hshare
    cases allocated with
    | true =>
      obtain ⟨ctx, hmine⟩ := hshare
      exact tidy_alone hmine.worker ⟨by rintro ⟨⟩, by rintro ⟨⟩⟩ hmine.thread
    -- Nothing was allocated, so nothing is freed.
    | false => exact tidy_alone hshare.2.1 ⟨by rintro ⟨⟩, by rintro ⟨⟩⟩ hshare.2.2
  | discarding e =>
    rw [hcaller] at hshare
    obtain ⟨ctx, hmine⟩ := hshare
    dsimp only
    rw [free, access_eq hmine.cell]
    exact tidy_alone hmine.worker ⟨by rintro ⟨⟩, by rintro ⟨⟩⟩ hmine.thread
  -- The wait leaves worker and thread alone.
  | waiting =>
    rw [hcaller] at hshare
    obtain ⟨ctx, hshared⟩ := hshare
    dsimp only
    rw [access_eq hshared.cell]
    split_ifs
    · exact h.moves (.inl ⟨by rintro ⟨⟩, by rintro ⟨⟩⟩) (.inl (by rintro ⟨⟩))
    · exact h.checkDeadline
    · exact h.moves (.inl ⟨by rintro ⟨⟩, by rintro ⟨⟩⟩) (.inl (by rintro ⟨⟩))
  | sleeping =>
    rw [hcaller] at hshare
    obtain ⟨ctx, hshared⟩ := hshare
    dsimp only
    rw [access_eq hshared.cell]
    cases env.wake with
    | woken =>
      dsimp only
      split_ifs
      · exact h.checkDeadline
      · exact h
    | timedOut => exact h.moves (.inl ⟨by rintro ⟨⟩, by rintro ⟨⟩⟩) (.inl (by rintro ⟨⟩))
    | failed => exact h.moves (.inl ⟨by rintro ⟨⟩, by rintro ⟨⟩⟩) (.inl (by rintro ⟨⟩))
  | transferring e =>
    rw [hcaller] at hshare
    obtain ⟨ctx, hshared⟩ := hshare
    dsimp only
    rw [access_eq hshared.cell]
    split_ifs with hjoins
    · exact h.moves (.inl ⟨by rintro ⟨⟩, by rintro ⟨⟩⟩) (.inl (by rintro ⟨⟩))
    · -- The thread is detached along with the mark, so nobody has to join it.
      rw [settle_eq hshared.thread]
      refine ⟨fun _ _ hthrough => ?_, by rintro (⟨⟨⟩⟩ | ⟨⟨⟩⟩), by rintro - ⟨⟩⟩
      -- a worker that is through has completed the context, and is joined instead
      exact absurd (.inr (.inl (h.completed ctx hshared.cell hthrough).1)) hjoins
  | joining outcome =>
    have hthread : r.thread = .joinable := by
      rw [hcaller] at hshare
      cases outcome with
      | some e =>
        obtain ⟨ctx, hshared⟩ := hshare
        exact hshared.thread
      | none =>
        obtain ⟨ctx, hshared, -⟩ := hshare
        exact hshared.thread
    dsimp only
    -- A reliable join succeeds, and it returns once the worker has ended.
    rw [settle_eq hthread, if_neg (by rw [hreliable.join]; rintro ⟨⟩)]
    split_ifs
    · refine ⟨h.completed, fun _ => rfl, ?_⟩
      cases outcome <;> rintro ⟨⟩
    · exact h
  | copying =>
    -- Only a joined caller copies the answer.
    have hjoined := h.joined (.inl (by rw [hcaller]; rfl))
    rw [hcaller] at hshare
    obtain ⟨ctx, hinherited, -⟩ := hshare
    dsimp only
    rw [access_eq hinherited.cell]
    exact h.moves (.inr hjoined) (.inl (by rintro ⟨⟩))
  | freeing result =>
    have hjoined := h.joined (.inr (by rw [hcaller]; rfl))
    rw [hcaller] at hshare
    obtain ⟨ctx, hinherited⟩ := hshare
    dsimp only
    rw [free, access_eq hinherited.cell]
    -- The context is gone, and the thread was joined before.
    refine ⟨by rintro _ ⟨⟩, by rintro (⟨⟨⟩⟩ | ⟨⟨⟩⟩), fun _ => ?_⟩
    rw [hjoined]
    rintro ⟨⟩
  | returned result =>
    have hleft := h.left (by rw [hcaller]; rfl)
    exact h.moves (.inl ⟨by rintro ⟨⟩, by rintro ⟨⟩⟩) (.inr hleft)

/-- A step of the worker leaves the caller and the thread as they are. -/
theorem Tidy.worker_moves (h : r.Tidy) {r' : DnsResolve} (hcaller : r'.caller = r.caller)
    (hthread : r'.thread = r.thread) (hcompleted : ∀ ctx, r'.cell = .live ctx →
      r'.worker.Through → ctx.completed = true ∧ ctx.detached = false) : r'.Tidy where
  completed := hcompleted
  joined hplace := hthread ▸ h.joined (hcaller ▸ hplace)
  left hplace := hthread ▸ h.left (hcaller ▸ hplace)

/-- So does a step of the worker. -/
theorem Tidy.worker_step (h : r.Tidy) (hreliable : Reliable env) :
    (r.workerStep env gate).2.Tidy := by
  unfold workerStep
  -- where the worker stands decides; a context that is gone is not looked at
  cases hworker : r.worker with
  | absent => exact h
  | resolving =>
    dsimp only [access]
    split
    · -- The worker goes on to complete what it resolved.
      exact h.worker_moves rfl rfl fun _ _ => False.elim
    · refine h.worker_moves rfl rfl fun _ _ hthrough => ?_
      rw [hworker] at hthrough
      exact hthrough.elim
  | completing =>
    dsimp only [access]
    split
    · rename_i ctx hcell
      -- A reliable lock is taken, so the context is marked one way or the other.
      rw [if_neg (by rw [hreliable.ctxLock]; rintro ⟨⟩)]
      refine h.worker_moves rfl rfl ?_
      rintro _ ⟨⟩ hthrough
      refine ⟨rfl, ?_⟩
      cases hdetached : ctx.detached with
      | false => rfl
      | true =>
        rw [hdetached] at hthrough
        exact hthrough.elim
    · -- A context that is gone was never this worker's to complete.
      refine h.worker_moves rfl rfl fun _ _ hthrough => ?_
      rw [hworker] at hthrough
      exact hthrough.elim
  | freeing =>
    dsimp only [free, access]
    split
    · exact h.worker_moves rfl rfl (by rintro _ ⟨⟩)
    · rename_i hnone
      exact h.worker_moves rfl rfl fun ctx hcell _ => absurd hcell (hnone ctx)
  -- At its end the worker has completed the context it is through with.
  | releasing =>
    refine h.worker_moves rfl rfl fun ctx hcell _ => h.completed ctx hcell ?_
    rw [hworker]
    trivial
  | ended => exact h

/-- A step of either. -/
theorem Tidy.step (h : r.Tidy) (howned : r.Owned) (hreliable : Reliable env) :
    (r.step env gate).2.Tidy := by
  unfold DnsResolve.step
  cases env.party with
  | caller => exact h.caller_step howned hreliable
  | worker => exact h.worker_step hreliable

end DnsResolve

/-! ### Coming to an end -/

/-- The steps that the caller has before it at most, those of the worker it starts included. -/
def DnsCallerPc.rank : DnsCallerPc → ℕ
  | .entering => 17
  | .starting => 16
  | .allocating => 15
  | .allocatingHost => 14
  | .initialisingLock => 13
  | .initialisingCond => 12
  | .creating => 11
  | .waiting => 6
  | .sleeping => 5
  | .transferring _ => 4
  | .joining _ => 3
  | .copying => 2
  | .aborting _ _ => 2
  | .discarding _ => 1
  | .freeing _ => 1
  | .returned _ => 0

/-- How many steps the worker still has. -/
def DnsWorkerPc.rank : DnsWorkerPc → ℕ
  | .resolving => 4
  | .completing => 3
  | .freeing => 2
  | .releasing => 1
  | .absent | .ended => 0

namespace DnsResolve

variable {env : DnsEnv} {gate : DnsGate} {r : DnsResolve} {ctx : DnsCtx}

/-- How many steps the call still has. -/
def rank (r : DnsResolve) : ℕ := r.caller.rank + r.worker.rank

/-- A worker that has something left to do can do it. -/
theorem Owned.worker_rank (h : r.Owned) (habsent : r.worker ≠ .absent)
    (hended : r.worker ≠ .ended) : (r.workerStep env gate).2.rank < r.rank := by
  -- a worker that is not through still has its context, whoever owns it besides
  have hlive : ¬r.worker.Through → ∃ ctx, r.cell = .live ctx := by
    intro hthrough
    have hshare := h.2
    -- By what the caller has: in each case but the first the worker's context is there.
    cases hs : r.caller.share with
    | nothing =>
      rw [hs] at hshare
      exact absurd hshare.2.1 habsent
    | mine =>
      rw [hs] at hshare
      obtain ⟨ctx, hmine⟩ := hshare
      exact ⟨ctx, hmine.cell⟩
    | common =>
      rw [hs] at hshare
      obtain ⟨ctx, hshared⟩ := hshare
      exact ⟨ctx, hshared.cell⟩
    | completed =>
      rw [hs] at hshare
      obtain ⟨ctx, hshared, -⟩ := hshare
      exact ⟨ctx, hshared.cell⟩
    | joined =>
      rw [hs] at hshare
      obtain ⟨ctx, hinherited, -⟩ := hshare
      exact ⟨ctx, hinherited.cell⟩
    | inherited =>
      rw [hs] at hshare
      obtain ⟨ctx, hinherited⟩ := hshare
      exact ⟨ctx, hinherited.cell⟩
    | left =>
      rw [hs] at hshare
      rcases hshare with hwithout | ⟨ctx, hhanded⟩ | ⟨ctx, hshared⟩
      · exact absurd (hwithout.worker.resolve_left habsent) hthrough
      · exact ⟨ctx, hhanded.cell⟩
      · exact ⟨ctx, hshared.cell⟩
  unfold workerStep
  cases hworker : r.worker with
  | absent => exact absurd hworker habsent
  | ended => exact absurd hworker hended
  -- Each step of the worker is one nearer to its end, whatever it answers.
  | releasing =>
    simp only [rank, hworker, DnsWorkerPc.rank]
    omega
  | resolving =>
    obtain ⟨ctx, hcell⟩ := hlive (by rw [hworker]; exact id)
    simp only [access_eq hcell, rank, hworker, DnsWorkerPc.rank]
    omega
  | completing =>
    obtain ⟨ctx, hcell⟩ := hlive (by rw [hworker]; exact id)
    dsimp only
    rw [access_eq hcell]
    split_ifs
    all_goals
      simp only [rank, hworker, DnsWorkerPc.rank]
      omega
  | freeing =>
    obtain ⟨ctx, hcell⟩ := hlive (by rw [hworker]; exact id)
    simp only [free, access_eq hcell, rank, hworker, DnsWorkerPc.rank]
    omega

/-- Where the context is shared the worker was started. -/
theorem Shared.started (h : r.Shared ctx) : r.worker ≠ .absent := by
  intro habsent
  rcases h.worker with ⟨hworker | hworker, -⟩ | hthrough
  · cases hworker.symm.trans habsent
  · cases hworker.symm.trans habsent
  · rw [habsent] at hthrough
    exact hthrough

/-- Looking at the deadline leads on. -/
theorem checkDeadline_rank (h : 4 < r.caller.rank) : (r.checkDeadline env).rank < r.rank := by
  unfold DnsResolve.checkDeadline
  split
  · exact Nat.add_lt_add_right h _
  · exact Nat.add_lt_add_right (Nat.lt_of_succ_lt h) _

/-- A caller that has no worker to wait for can go on, once its wait is timed out. -/
theorem Owned.caller_rank (h : r.Owned) (hworker : r.worker = .absent ∨ r.worker = .ended)
    (hreliable : Reliable env) (hwake : env.wake = .timedOut)
    (hgoes : ∀ result, r.caller ≠ .returned result) : (r.callerStep env gate).2.rank < r.rank := by
  have hshare := h.2
  -- the worker has no steps left, so the rank is the caller's
  have hnone : r.worker.rank = 0 := by
    rcases hworker with hworker | hworker <;> rw [hworker] <;> rfl
  unfold callerStep
  cases hcaller : r.caller with
  -- Each branch of a section leads further, to an error or to the next.
  | entering =>
    dsimp only
    split_ifs
    all_goals
      simp only [rank, hcaller, DnsCallerPc.rank]
      omega
  | starting =>
    dsimp only
    split
    all_goals
      simp only [rank, hcaller, DnsCallerPc.rank]
      omega
  | allocating =>
    dsimp only
    split_ifs
    all_goals
      simp only [rank, hcaller, DnsCallerPc.rank]
      omega
  | creating =>
    dsimp only
    split_ifs
    all_goals
      simp only [rank, hcaller, DnsCallerPc.rank, DnsWorkerPc.rank]
      omega
  -- An abort leads to the return, or to freeing first.
  | aborting e allocated =>
    cases allocated
    all_goals
      simp only [rank, hcaller, DnsCallerPc.rank, Bool.false_eq_true, if_true, if_false]
      omega
  | returned result => exact absurd hcaller (hgoes result)
  | allocatingHost =>
    rw [hcaller] at hshare
    obtain ⟨ctx, hmine⟩ := hshare
    dsimp only
    rw [access_eq hmine.cell]
    split_ifs
    all_goals
      simp only [rank, hcaller, DnsCallerPc.rank]
      omega
  | initialisingLock =>
    rw [hcaller] at hshare
    obtain ⟨ctx, hmine⟩ := hshare
    dsimp only
    rw [access_eq hmine.cell]
    split_ifs
    all_goals
      simp only [rank, hcaller, DnsCallerPc.rank]
      omega
  | initialisingCond =>
    rw [hcaller] at hshare
    obtain ⟨ctx, hmine⟩ := hshare
    dsimp only
    rw [access_eq hmine.cell]
    split_ifs
    all_goals
      simp only [rank, hcaller, DnsCallerPc.rank]
      omega
  | discarding e =>
    rw [hcaller] at hshare
    obtain ⟨ctx, hmine⟩ := hshare
    simp only [free, access_eq hmine.cell, rank, hcaller, DnsCallerPc.rank]
    omega
  | waiting =>
    rw [hcaller] at hshare
    obtain ⟨ctx, hshared⟩ := hshare
    dsimp only
    rw [access_eq hshared.cell]
    split_ifs
    · simp only [rank, hcaller, DnsCallerPc.rank]
      omega
    · -- The deadline sends the caller on or to sleep, and sleeping is further.
      exact checkDeadline_rank (by rw [hcaller]; decide)
    · simp only [rank, hcaller, DnsCallerPc.rank]
      omega
  | sleeping =>
    rw [hcaller] at hshare
    obtain ⟨ctx, hshared⟩ := hshare
    -- The wait times out, so the caller does not sleep again.
    simp only [access_eq hshared.cell, hwake, rank, hcaller, DnsCallerPc.rank]
    omega
  | transferring e =>
    rw [hcaller] at hshare
    obtain ⟨ctx, hshared⟩ := hshare
    dsimp only
    -- The caller leaves for its return or for the join.
    rw [access_eq hshared.cell, settle_eq hshared.thread]
    split_ifs
    all_goals
      simp only [rank, hcaller, DnsCallerPc.rank]
      omega
  | joining outcome =>
    have hshared : ∃ ctx, r.Shared ctx := by
      rw [hcaller] at hshare
      cases outcome with
      | some e => exact hshare
      | none =>
        obtain ⟨ctx, hshared, -⟩ := hshare
        exact ⟨ctx, hshared⟩
    obtain ⟨ctx, hshared⟩ := hshared
    dsimp only
    -- The worker has ended, so the join does not wait.
    rw [settle_eq hshared.thread, if_neg (by rw [hreliable.join]; rintro ⟨⟩),
      if_pos (hworker.resolve_left hshared.started)]
    cases outcome
    all_goals
      simp only [rank, hcaller, DnsCallerPc.rank]
      omega
  | copying =>
    rw [hcaller] at hshare
    obtain ⟨ctx, hinherited, -⟩ := hshare
    simp only [access_eq hinherited.cell, rank, hcaller, DnsCallerPc.rank]
    omega
  | freeing result =>
    rw [hcaller] at hshare
    obtain ⟨ctx, hinherited⟩ := hshare
    simp only [free, access_eq hinherited.cell, rank, hcaller, DnsCallerPc.rank]
    omega

/-- A call that is under way can go on, with nothing failing. -/
theorem Owned.goes_on (h : r.Owned) (hunder : ¬r.Over) : ∃ env, Reliable env ∧
    ∀ gate, (r.step env gate).2.rank < r.rank := by
  let ahead (party : DnsParty) : DnsEnv :=
    ⟨party, true, true, some .zero, true, true, true, .timedOut, true, true, fun _ => ⟨0, none⟩⟩
  by_cases hworker : r.worker = .absent ∨ r.worker = .ended
  · refine ⟨ahead .caller, ⟨rfl, rfl, rfl⟩, fun gate => ?_⟩
    exact h.caller_rank hworker ⟨rfl, rfl, rfl⟩ rfl fun result hreturned =>
      hunder ⟨⟨result, hreturned⟩, hworker⟩
  · rw [not_or] at hworker
    exact ⟨ahead .worker, ⟨rfl, rfl, rfl⟩, fun gate => h.worker_rank hworker.1 hworker.2⟩

end DnsResolve

/-! ### Every run -/

namespace DnsSystem

open DnsResolve

variable {s : DnsSystem}

/-- A step in which the locks and the join succeed, if it takes any. -/
def Reliable (_ : DnsSystem) : DnsAction → Prop
  | .start _ => True
  | .advance _ env => DnsResolve.Reliable env

instance (s : DnsSystem) : DecidablePred s.Reliable
  | .start _ => inferInstanceAs (Decidable True)
  | .advance _ env => inferInstanceAs (Decidable (DnsResolve.Reliable env))

/-- A step of a resolution that has been started. -/
def GoesOn (_ : DnsSystem) : DnsAction → Prop
  | .start _ => False
  | .advance _ env => DnsResolve.Reliable env

/-- The steps that all resolutions have before them at most. -/
def rank (s : DnsSystem) : ℕ := Threads.total DnsResolve.rank s.calls

/-- What holds of the system when nothing fails. -/
structure Kept (s : DnsSystem) : Prop where
  owned : ∀ r ∈ s.calls, r.Owned
  tidy : ∀ r ∈ s.calls, r.Tidy
  gate : Threads.total DnsResolve.holds s.calls = s.shared.active.toNat

/-- It holds before the first call. -/
theorem kept_initial : Kept initial where
  owned := by rintro _ ⟨⟩
  tidy := by rintro _ ⟨⟩
  gate := rfl

/-- A call that starts keeps it. -/
theorem Kept.start (h : s.Kept) (request : DnsRequest) :
    Kept ⟨s.shared, s.calls ++ [enter request]⟩ where
  owned r hr := by
    rcases List.mem_append.mp hr with hr | hr
    · exact h.owned r hr
    · rw [List.mem_singleton.mp hr]
      exact owned_enter request
  tidy r hr := by
    rcases List.mem_append.mp hr with hr | hr
    · exact h.tidy r hr
    · rw [List.mem_singleton.mp hr]
      exact tidy_enter request
  gate := by
    have hout : (enter request).holds = 0 := rfl
    rw [Threads.total_snoc, hout]
    exact h.gate

/-- A step of a call keeps it. -/
theorem Kept.advance (h : s.Kept) {k : ℕ} {env : DnsEnv} {r : DnsResolve}
    (hk : s.calls[k]? = some r) (hreliable : DnsResolve.Reliable env) :
    Kept ⟨(r.step env s.shared).1, s.calls.set k (r.step env s.shared).2⟩ where
  owned r' hr' := by
    rcases List.mem_or_eq_of_mem_set hr' with hr' | rfl
    · exact h.owned r' hr'
    · exact (h.owned r (List.mem_of_getElem? hk)).step
  tidy r' hr' := by
    rcases List.mem_or_eq_of_mem_set hr' with hr' | rfl
    · exact h.tidy r' hr'
    · exact (h.tidy r (List.mem_of_getElem? hk)).step (h.owned r (List.mem_of_getElem? hk))
        hreliable
  gate := by
    have hset := Threads.total_set hk DnsResolve.holds (r.step env s.shared).2
    have hone := Threads.le_total hk DnsResolve.holds
    -- the gate counts the calls that hold it, and this one passes it or does not
    have hgate := h.gate
    have hpasses := (step_passes env s.shared
      (h.owned r (List.mem_of_getElem? hk))).eq hreliable.gateLock fun hinside => by
        by_contra hclosed
        rw [Bool.not_eq_true] at hclosed
        rw [hclosed, Bool.toNat_false] at hgate
        omega
    show Threads.total DnsResolve.holds (s.calls.set k (r.step env s.shared).2) =
      (r.step env s.shared).1.active.toNat
    omega

/-- A step of the system keeps it. -/
theorem Kept.step (h : s.Kept) {a : DnsAction} (hreliable : s.Reliable a) :
    (s.step a).2.Kept := by
  rcases Threads.step_cases DnsResolve.enter DnsResolve.step s a with
    ⟨request, rfl, hstep⟩ | ⟨-, hstep⟩ | ⟨k, env, r, rfl, hk, -, hstep⟩
  · rw [DnsSystem.step, hstep]
    exact h.start request
  · rw [DnsSystem.step, hstep]
    exact h
  · rw [DnsSystem.step, hstep]
    exact h.advance hk hreliable

/-- As long as a resolution is not over, a step of it brings its rank down. -/
theorem Kept.nearer (h : s.Kept) (hunder : ¬∀ r ∈ s.calls, r.Over) :
    ∃ a, s.GoesOn a ∧ (s.step a).2.Kept ∧ (s.step a).2.rank < s.rank := by
  push Not at hunder
  obtain ⟨r, hr, hunder⟩ := hunder
  obtain ⟨k, hk⟩ := List.mem_iff_getElem?.mp hr
  obtain ⟨env, hreliable, hrank⟩ := (h.owned r hr).goes_on hunder
  refine ⟨.advance k env, hreliable, h.step (a := .advance k env) hreliable, ?_⟩
  have hset := Threads.total_set hk DnsResolve.rank (r.step env s.shared).2
  have hlt := hrank s.shared
  rw [DnsSystem.step, Threads.step_advance hk]
  show Threads.total DnsResolve.rank (s.calls.set k (r.step env s.shared).2) <
    Threads.total DnsResolve.rank s.calls
  omega

/-- From there all calls come to their end, and nothing fails on the way. -/
theorem Kept.ends (h : s.Kept) : ∃ later, later.length ≤ s.rank ∧
    Meets DnsSystem.step GoesOn later s ∧ (run DnsSystem.step later s).2.Kept ∧
    ∀ r ∈ (run DnsSystem.step later s).2.calls, r.Over :=
  exists_run_of_rank (G := fun s => ∀ r ∈ s.calls, r.Over) (fun _ => Kept.nearer) h

/-- What is over leaves the gate open. -/
theorem Kept.open_of_over (h : s.Kept) (hover : ∀ r ∈ s.calls, r.Over) :
    s.shared.active = false := by
  have hnone : Threads.total DnsResolve.holds s.calls = 0 := by
    refine Threads.total_eq_zero.mpr fun r hr => ?_
    obtain ⟨⟨result, hreturned⟩, hworker⟩ := hover r hr
    rw [DnsResolve.holds, hreturned]
    rcases hworker with hworker | hworker <;> rw [hworker] <;> rfl
  have hgate := h.gate
  rw [hnone] at hgate
  exact Bool.toNat_eq_zero.mp hgate.symm

/-- When no lock and no join fails, a resolution that is over has left nothing behind, the gate is
active as long as one is inside, and from every state they all come to their ends, within as many
steps as they have before them. -/
theorem resolver_ends {actions : List DnsAction}
    (h : Meets DnsSystem.step Reliable actions initial) :
    (∀ r ∈ (run DnsSystem.step actions initial).2.calls, r.Over → r.Clean) ∧
    Threads.total DnsResolve.holds (run DnsSystem.step actions initial).2.calls =
      (run DnsSystem.step actions initial).2.shared.active.toNat ∧
    ∃ later, later.length ≤ (run DnsSystem.step actions initial).2.rank ∧
      Meets DnsSystem.step GoesOn later (run DnsSystem.step actions initial).2 ∧
      (∀ r ∈ (run DnsSystem.step (actions ++ later) initial).2.calls, r.Over ∧ r.Clean) ∧
      (run DnsSystem.step (actions ++ later) initial).2.shared.active = false := by
  have hkept := run_invariant (I := Kept) (fun _ _ hs hok => hs.step hok) kept_initial h
  refine ⟨fun r hr hover => (hkept.tidy r hr).clean (hkept.owned r hr) hover, hkept.gate, ?_⟩
  obtain ⟨later, hlength, hmeets, hkept', hover⟩ := hkept.ends
  refine ⟨later, hlength, hmeets, ?_⟩
  rw [run_append]
  exact ⟨fun r hr => ⟨hover r hr, (hkept'.tidy r hr).clean (hkept'.owned r hr) (hover r hr)⟩,
    hkept'.open_of_over hover⟩

/-- A step with all answers in order, but for how the wait comes back. -/
def working (party : DnsParty) (wake : DnsWake) : DnsEnv :=
  ⟨party, true, true, some .zero, true, true, true, wake, true, true,
    fun _ => ⟨0, some (some [49, 46, 50, 46, 51, 46, 52])⟩⟩

/-- A caller gives up while its worker has yet to resolve, and a second one is refused. -/
def abandonedRun : List DnsAction :=
  [.start ⟨some [97], true, 16, 100⟩, .start ⟨some [98], true, 16, 0⟩] ++
    List.replicate 10 (.advance 0 (working .caller .timedOut)) ++
    [.advance 1 (working .caller .timedOut)]

/-- A call that timed out, and its worker still resolving. -/
theorem resolver_ends_abandoned :
    (run DnsSystem.step abandonedRun initial).2.calls.map (fun r => (r.caller, r.worker)) =
        [(.returned (.error .timeout), .resolving), (.returned (.error .busy), .absent)] ∧
      ∃ later, (∀ r ∈ (run DnsSystem.step (abandonedRun ++ later) initial).2.calls,
        r.Over ∧ r.Clean) := by
  have hreliable : Meets DnsSystem.step Reliable abandonedRun initial := by decide +kernel
  obtain ⟨-, -, later, -, -, hclean, -⟩ := resolver_ends hreliable
  exact ⟨by decide +kernel, later, hclean⟩

end DnsSystem

end TrustSdk.Net
