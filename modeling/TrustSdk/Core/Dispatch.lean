import TrustSdk.Core.Teardown
import TrustSdk.Lib.Machine

/-!
# The sections of the service, and every step

What an operation does with the session depends on the order in which jobs wait: a CONNECT that is
executed outside of a session has none of the jobs of a session behind it (`Sessions.connects`), and
a DISCONNECT that succeeds has no CONNECT behind it (`Sessions.disconnects`).

`Inv.step` puts the sections of all threads together.
-/

namespace TrustSdk.Core.Service

open RingBuffer

section ServiceTask

variable {config : CoreConfig} {c : CoreSystem}

/-- A service that is not stopped has its task and its lock, and no deinit has come past it. -/
theorem CoreSystem.Control.serving (h : c.Control) (hservice : c.service ≠ .stopped) :
    c.serviceTask = true ∧ c.lock = true ∧ c.deinitPhase = .job := by
  have htask : c.serviceTask = true := by
    by_contra hn
    exact hservice (h.stopped (Bool.eq_false_iff.mpr hn))
  refine ⟨htask, ?_, ?_⟩
  · by_contra hn
    have := (h.unlocked (Bool.eq_false_iff.mpr hn)).2.1
    cases htask.symm.trans this
  · by_contra hn
    cases htask.symm.trans (h.phase hn).2.1

/-- The service has no job in hand. -/
def ServicePc.Empty : ServicePc → Prop
  | .dequeuing => True
  | .waiting => True
  | .taking => True
  | .exited => True
  | _ => False

/-- Such a service has no slot and no request. -/
theorem ServicePc.Empty.lists {pc : ServicePc} (h : pc.Empty) :
    pc.working = [] ∧ pc.done = [] ∧ pc.called = [] ∧ pc ≠ .stopped ∧
      ∀ idx, pc ≠ .registering idx := by
  cases pc <;> first | exact h.elim | exact ⟨rfl, rfl, rfl, nofun, nofun⟩

/-- While the service runs and has nothing served, no deinit is done. -/
theorem CoreSystem.Inv.not_deinitDone (h : c.Inv config) (hrun : c.service ≠ .stopped)
    (hexited : c.service ≠ .exited) (hserved : c.served = []) : ¬c.DeinitDone := by
  intro hdone
  -- One that is done has ended the service, or has its DEINIT in it.
  rcases (h.done hdone).2 with hs | hs | ⟨request, hmem, -⟩
  · exact hrun hs
  · exact hexited hs
  · rw [hserved] at hmem
    cases hmem

/-- On the way to the next job. -/
theorem CoreSystem.Inv.waits (h : c.Inv config) {pc : ServicePc} (hpc : c.service.Empty)
    (hpc' : pc.Empty) (hdone : c.service ≠ .exited) {q : JobQueue}
    (hring : q.ring = c.jobQueue.ring) (hclosed : q.closed = c.jobQueue.closed)
    (hwaiters : q.waiterCount = pc.waiters) (hitems : q.semItems + pc.woken = q.ring.count)
    (result : Except Err Unit) :
    CoreSystem.Inv config { c with jobQueue := q, serviceResult := result, service := pc } ∧
      c.Moves { c with jobQueue := q, serviceResult := result, service := pc } := by
  -- There is nothing in the service before or after, so the lists of requests stay.
  obtain ⟨hworking, hd, hcalled, hrun, -⟩ := hpc.lists
  obtain ⟨hworking', hd', hcalled', hrun', hregistering⟩ := hpc'.lists
  obtain ⟨htask, -, -⟩ := h.serving hrun
  -- The requests that wait are those of the ring, which stays.
  have hwaiting : c.jobPool.requests (pc.working ++ q.ring.toList) = c.waiting := by
    unfold waiting queued
    rw [hworking, hworking', hring]
  have hserved : c.served = [] := by
    unfold served
    rw [hd, hcalled]
    rfl
  have hserved' : c.jobPool.requests pc.done ++ pc.called = [] := by
    rw [hd', hcalled']
    rfl
  have hundone : ¬c.DeinitDone := h.not_deinitDone hrun hdone hserved
  refine ⟨⟨?_, ?_, ?_, ?_⟩, .stay hwaiting (hserved'.trans hserved.symm) rfl rfl rfl⟩
  · -- The stock: only the service's own share of the slots is written anew.
    exact { h.toStock with
      accounted := by
        have := h.accounted
        rw [held, queuedOrServed, hworking, hd] at this
        show c.jobPool.Accounted _ (c.api.slots ++ (c.deinit.slots ++
          (pc.done ++ (pc.working ++ q.ring.toList))))
        rw [hworking', hd', hring]
        exact this
      ring := by
        show q.ring.WellFormed
        rw [hring]
        exact h.ring
      depth := by
        show q.ring.depth = _
        rw [hring]
        exact h.depth
      waiters := hwaiters
      items := hitems }
  · -- The control: the service still runs, and the ring says what it said of phase and lock.
    exact { h.toControl with
      stopped := fun hs => Bool.noConfusion (htask.symm.trans hs)
      task := fun _ => hrun'
      unlocked := by
        show c.lock = false → _ ∧ _ ∧ _ ∧ _ ∧ q.ring.count = 0
        rw [hring]
        exact h.unlocked
      drained := by
        show _ → q.ring.count = 0
        rw [hring]
        exact h.drained
      opened := by
        show _ → _ → q.closed = false
        rw [hclosed]
        exact h.opened }
  · -- The place of each request: what was unserved is unserved, and nothing was served.
    exact {
      init := by
        intro r hr hi
        obtain ⟨hs, hw⟩ := h.init r (hwaiting ▸ hr) hi
        exact ⟨hs, hwaiting.trans hw⟩
      quiet := by
        intro htask hbefore r hr
        refine h.quiet htask hbefore r ?_
        have hmem : r ∈ (c.jobPool.requests pc.done ++ pc.called) ++
          c.jobPool.requests (pc.working ++ q.ring.toList) := hr
        rwa [hserved', hwaiting, ← hserved] at hmem
      ran := by
        show ∀ r ∈ c.jobPool.requests pc.done ++ pc.called, _
        rw [hserved']
        rintro _ ⟨⟩
      done := fun hdeinit => absurd hdeinit hundone }
  · -- The sessions speak of what waits, and none of it moved.
    exact h.toSessions.congr hwaiting rfl rfl rfl fun idx hidx => absurd hidx (hregistering idx)

/-- A job is taken. -/
theorem CoreSystem.Inv.takes (h : c.Inv config) (hservice : c.service = .taking) :
    ∃ q, jobQueueTake c.jobQueue = (.ok (c.jobQueue.ring.buf c.jobQueue.ring.head), q) ∧
      CoreSystem.Inv config { c with
        jobQueue := q, service := .running (c.jobQueue.ring.buf c.jobQueue.ring.head) } ∧
      c.Moves { c with
        jobQueue := q, service := .running (c.jobQueue.ring.buf c.jobQueue.ring.head) } := by
  have hitems := h.items
  have hwaiters := h.waiters
  have hheld := h.accounted
  rw [hservice] at hitems hwaiters
  -- The token that was taken stands for a job, so the ring is not empty.
  have hsome : c.jobQueue.ring.count ≠ 0 := by
    rw [← hitems]
    rintro ⟨⟩
  have hpop := h.ring.toList_pop hsome
  obtain ⟨htask, hlock, hphase⟩ := h.serving (by rw [hservice]; rintro ⟨⟩)
  rw [held, queuedOrServed, hservice, queued, hpop] at hheld
  -- A service that is taking has neither a finished job nor a callback to make.
  have hserved : c.served = [] := by
    unfold served
    rw [hservice]
    rfl
  -- The job comes off the ring into the service: the head of the waiting requests stays their head.
  have hwaiting : c.waiting = c.jobPool.requests
      ([c.jobQueue.ring.buf c.jobQueue.ring.head] ++ c.jobQueue.ring.pop.toList) := by
    unfold waiting queued
    rw [hservice, hpop]
    rfl
  have hundone : ¬c.DeinitDone :=
    h.not_deinitDone (by simp [hservice]) (by simp [hservice]) hserved
  refine ⟨{ c.jobQueue with ring := c.jobQueue.ring.pop, waiterCount := 0 }, ?_, ⟨?_, ?_, ?_, ?_⟩,
    .stay hwaiting.symm hserved.symm rfl rfl rfl⟩
  · unfold jobQueueTake
    dsimp only
    rw [if_neg hsome, hwaiters]
    rfl
  · -- The pop takes the head, and the token already taken was the one for it.
    exact { h.toStock with
      accounted := hheld
      ring := h.ring.pop hsome
      waiters := rfl
      items := by
        show c.jobQueue.semItems + 0 = c.jobQueue.ring.count - 1
        have : c.jobQueue.semItems + 1 = c.jobQueue.ring.count := hitems
        omega }
  · exact { h.toControl with
      stopped := fun hs => Bool.noConfusion (htask.symm.trans hs)
      task := by rintro _ ⟨⟩
      unlocked := fun hunlocked => Bool.noConfusion (hlock.symm.trans hunlocked)
      drained := fun hdrained => by
        rcases hdrained with hp | hp <;> cases hphase.symm.trans hp }
  · exact {
      init := by
        intro r hr hi
        obtain ⟨hs, hw⟩ := h.init r (hwaiting.symm ▸ hr) hi
        exact ⟨hs, hwaiting.symm.trans hw⟩
      quiet := by
        intro htask hbefore r hr
        refine h.quiet htask hbefore r ?_
        rw [hserved, hwaiting]
        exact hr
      ran := by rintro _ ⟨⟩
      done := fun hdeinit => absurd hdeinit hundone }
  · exact h.toSessions.congr hwaiting.symm rfl rfl rfl (by rintro _ ⟨⟩)

/-- A job that is executed while it waits at the head. -/
theorem CoreSystem.waiting_executed (c : CoreSystem) {idx : ℕ} (hworking : c.service.working = [idx])
    (r : OpsResult) :
    c.waiting = (c.jobPool.pool idx).request :: (c.executed idx r).waiting := by
  unfold waiting
  rw [hworking]
  rfl

/-- An operation has returned: the job that waits first is executed. -/
theorem CoreSystem.Inv.executed (h : c.Inv config) (hapi : c.api = .idle) {idx : ℕ}
    (hworking : c.service.working = [idx]) {r : OpsResult}
    (hdeinit : (c.jobPool.pool idx).request.type = .deinit → r.state = some .deinit)
    (hsessions : (c.executed idx r).Sessions) :
    (c.executed idx r).Inv config ∧ c.Moves (c.executed idx r) := by
  -- One slot in the service means that it is running or registering.
  have hlists : c.service.done = [] ∧ c.service.called = [] ∧ c.service ≠ .stopped ∧
      c.service ≠ .exited ∧ c.service.waiters = 0 ∧ c.service.woken = 0 := by
    cases hservice : c.service <;> rw [hservice] at hworking <;>
      first
        | (cases hworking; done)
        | exact ⟨rfl, rfl, (by rintro ⟨⟩), (by rintro ⟨⟩), rfl, rfl⟩
  obtain ⟨hd, hcalled, hrun, hexited, hzero, hwoken⟩ := hlists
  obtain ⟨htask, hlock, hphase⟩ := h.serving hrun
  have hheld := h.accounted
  have hitems := h.items
  have hwaiters := h.waiters
  -- The slot was running and is now completing: held by the service both times.
  rw [held, queuedOrServed, hd, hworking] at hheld
  rw [hwoken] at hitems
  rw [hzero] at hwaiters
  have hwaiting := c.waiting_executed hworking r
  have hserved : c.served = [] := by
    unfold served
    rw [hd, hcalled]
    rfl
  -- The request executed is the head of those waiting, now served.
  have hserved' : (c.executed idx r).served = [(c.jobPool.pool idx).request] := rfl
  -- With the service in a job that is not yet served, no deinit is done.
  have hundone : ¬c.DeinitDone := h.not_deinitDone hrun hexited hserved
  refine ⟨⟨?_, ?_, ?_, hsessions⟩, .execute _ hwaiting hserved hserved' rfl rfl rfl⟩
  · exact { h.toStock with accounted := hheld, waiters := hwaiters, items := hitems }
  · -- The completion and the result are the service's own; the phase is INITIALIZED throughout.
    exact { h.toControl with
      stopped := fun hs => Bool.noConfusion (htask.symm.trans hs)
      task := by rintro _ ⟨⟩
      unlocked := fun hunlocked => Bool.noConfusion (hlock.symm.trans hunlocked)
      admitted := by
        intro request pc hr
        cases hapi.symm.trans hr
      phase := fun hne => absurd hphase hne }
  · exact {
      -- A waiting INIT waits alone, so none is left behind the one that runs.
      init := by
        intro request hr hi
        have hone := (h.init request (hwaiting ▸ List.mem_cons_of_mem _ hr) hi).2
        rw [hwaiting] at hone
        have hnil := (List.cons.inj hone).2
        rw [hnil] at hr
        cases hr
      -- The request was waiting before, and `quiet` spoke of it there.
      quiet := by
        intro htask hbefore request hr
        refine h.quiet htask hbefore request ?_
        rw [hserved, hwaiting]
        rw [hserved'] at hr
        exact hr
      -- Only a DEINIT asks something of the state, and `hdeinit` has what it leaves.
      ran := by
        rw [hserved']
        intro request hr htype
        rw [List.mem_singleton.mp hr] at htype
        show r.state.getD c.state = .deinit
        rw [hdeinit htype]
        rfl
      done := fun hdone => absurd hdone hundone }

/-! ### What the operations do with the session -/

/-- No state is set, and a client that is DISCONNECTED stays so. -/
theorem CoreSystem.Sessions.stays (h : c.Sessions) {idx : ℕ}
    (hworking : c.service.working = [idx]) {r : OpsResult} (hstate : r.state = none)
    (hmqtt : c.contexts.mqtt = .disconnected → r.contexts.mqtt = .disconnected) :
    (c.executed idx r).Sessions := by
  have hwaiting := c.waiting_executed hworking r
  -- The handler answered without a state, so the core keeps the one it had.
  have hsame : (c.executed idx r).state = c.state := by
    show r.state.getD c.state = c.state
    rw [hstate]
    rfl
  -- A job less waits, so what holds of all that wait still holds.
  have hmem : ∀ request ∈ (c.executed idx r).waiting, request ∈ c.waiting := by
    rw [hwaiting]
    exact fun request => List.mem_cons_of_mem _
  constructor
  · -- Outside a session: the order of jobs is that of a shorter queue.
    intro hidle
    unfold InSession at hidle
    rw [hsame] at hidle
    have := h.apart hidle
    rw [hwaiting] at this
    exact this.of_cons
  · -- A DISCONNECT that waits still finds the client down, since the handler left it down.
    intro hidle request hr htype
    unfold InSession at hidle
    rw [hsame] at hidle
    exact hmqtt (h.refused hidle request (hmem request hr) htype)
  · -- Inside one: again the order of a shorter queue.
    intro hs
    unfold InSession at hs
    rw [hsame] at hs
    have := h.session hs
    rw [hwaiting] at this
    exact this.of_cons
  · -- With a deinit pending the jobs allowed are fewer, not more.
    intro hp
    unfold InSession
    rw [hsame]
    exact (h.pending hp).imp_right fun ⟨hs, hnone⟩ =>
      ⟨hs, fun request hr => hnone request (hmem request hr)⟩
  · nofun

/-- A CONNECT that waits first has none of the jobs of a session behind it, unless there is one. -/
theorem CoreSystem.Sessions.connects (h : c.Sessions) {idx : ℕ}
    (hworking : c.service.working = [idx])
    (htype : (c.jobPool.pool idx).request.type = .connect) (env : ConnectEnv) :
    (c.executed idx (coreOpsConnect env c.contexts)).Sessions := by
  have hwaiting := c.waiting_executed hworking (coreOpsConnect env c.contexts)
  -- Outside a session no job of a session waits behind a CONNECT.
  have hafter : ¬c.InSession →
      ∀ r ∈ (c.executed idx (coreOpsConnect env c.contexts)).waiting, ¬OfSession r.type := by
    intro hidle r hr
    have := h.apart hidle
    rw [hwaiting] at this
    exact List.rel_of_pairwise_cons this hr htype
  -- Behind a CONNECT no second one waits behind a DISCONNECT.
  have hsession : (c.executed idx (coreOpsConnect env c.contexts)).waiting.Pairwise
      fun r r' => r.type = .disconnect → r'.type ≠ .connect := by
    by_cases hs : c.InSession
    · have := h.session hs
      rw [hwaiting] at this
      exact this.of_cons
    · refine List.pairwise_of_forall_mem_list fun r hr r' _ hdisconnect => ?_
      have := hafter hs r hr
      rw [hdisconnect] at this
      exact absurd trivial this
  -- A pending deinit lets no job of a session wait, this one included.
  have hpending : c.deinitPending = true →
      ∀ r ∈ (c.executed idx (coreOpsConnect env c.contexts)).waiting, ¬OfSession r.type := by
    intro hp r hr
    rcases h.pending hp with hs | ⟨-, hnone⟩
    · exact hafter (by rintro (hx | hx) <;> cases hs.symm.trans hx) r hr
    · exact hnone r (hwaiting ▸ List.mem_cons_of_mem _ hr)
  -- CONNECT sets a session's state, or leaves it alone.
  rcases coreOpsConnect_state c.contexts env with hstate | hstate
  · have hsame : (c.executed idx (coreOpsConnect env c.contexts)).state = c.state := by
      show (coreOpsConnect env c.contexts).state.getD c.state = c.state
      rw [hstate]
      rfl
    -- Where the state stays the four parts speak of the queue without its head.
    constructor
    · intro hidle
      unfold InSession at hidle
      rw [hsame] at hidle
      have := h.apart hidle
      rw [hwaiting] at this
      exact this.of_cons
    · intro hidle r hr hdisconnect
      unfold InSession at hidle
      rw [hsame] at hidle
      have := hafter hidle r hr
      rw [hdisconnect] at this
      exact absurd trivial this
    · exact fun _ => hsession
    · intro hp
      unfold InSession
      rw [hsame]
      exact (h.pending hp).imp_right fun ⟨hs, _⟩ => ⟨hs, hpending hp⟩
    · nofun
  · -- Where CONNECT opened a session, the parts about the time outside are void.
    have hin : (c.executed idx (coreOpsConnect env c.contexts)).InSession := by
      show (coreOpsConnect env c.contexts).state.getD c.state = _ ∨
        (coreOpsConnect env c.contexts).state.getD c.state = _
      rcases hstate with hstate | hstate <;> rw [hstate]
      · exact .inr rfl
      · exact .inl rfl
    exact ⟨fun hidle => absurd hin hidle, fun hidle => absurd hin hidle, fun _ => hsession,
      fun hp => .inr ⟨hin, hpending hp⟩, nofun⟩

/-- A DISCONNECT that succeeds ends a session, and no CONNECT waits behind it. -/
theorem CoreSystem.Sessions.disconnects (h : c.Sessions) {idx : ℕ}
    (hworking : c.service.working = [idx])
    (htype : (c.jobPool.pool idx).request.type = .disconnect) (env : LeaveEnv) :
    (c.executed idx (coreOpsDisconnect env c.contexts)).Sessions := by
  have hwaiting := c.waiting_executed hworking (coreOpsDisconnect env c.contexts)
  -- A DISCONNECT sets READY only over a connected client, which means in a session.
  rcases coreOpsDisconnect_state c.contexts env with ⟨hstate, hmqtt⟩ | ⟨hstate, hbefore, hmqtt⟩
  · exact h.stays hworking hstate hmqtt
  · have hfirst : (c.jobPool.pool idx).request ∈ c.waiting := hwaiting ▸ List.mem_cons_self
    have hin : c.InSession := by
      by_contra hidle
      have := h.refused hidle _ hfirst htype
      cases hbefore.symm.trans this
    have hready : (c.executed idx (coreOpsDisconnect env c.contexts)).state = .ready := by
      show (coreOpsDisconnect env c.contexts).state.getD c.state = .ready
      rw [hstate]
      rfl
    constructor
    · -- READY is no session, but no CONNECT waits behind this DISCONNECT.
      intro _
      refine List.pairwise_of_forall_mem_list fun r hr r' _ hconnect => ?_
      have := h.session hin
      rw [hwaiting] at this
      exact absurd hconnect (List.rel_of_pairwise_cons this hr htype)
    · exact fun _ _ _ _ => hmqtt
    · rintro (hs | hs) <;> cases hready.symm.trans hs
    · intro hp
      rcases h.pending hp with hs | ⟨-, hnone⟩
      · rcases hin with hx | hx <;> cases hs.symm.trans hx
      · have := hnone _ hfirst
        rw [htype] at this
        exact absurd trivial this
    · nofun

/-- An INIT waits alone. -/
theorem CoreSystem.Inv.initialises (h : c.Inv config) {idx : ℕ}
    (hworking : c.service.working = [idx])
    (htype : (c.jobPool.pool idx).request.type = .init) (env : InitEnv) :
    (c.executed idx (coreOpsInit env c.contexts)).Sessions := by
  have hwaiting := c.waiting_executed hworking (coreOpsInit env c.contexts)
  obtain ⟨hinit, hone⟩ := h.init _ (hwaiting ▸ List.mem_cons_self) htype
  -- INIT is the only job that waits while the core is INITING.
  have hnil : (c.executed idx (coreOpsInit env c.contexts)).waiting = [] := by
    rw [hwaiting] at hone
    exact (List.cons.inj hone).2
  have hout : ¬(c.executed idx (coreOpsInit env c.contexts)).InSession := by
    show ¬((coreOpsInit env c.contexts).state.getD c.state = _ ∨
      (coreOpsInit env c.contexts).state.getD c.state = _)
    rcases coreOpsInit_state c.contexts env with hs | hs <;> rw [hs] <;>
      rintro (hx | hx) <;> cases hx
  constructor
  · rw [hnil]
    exact fun _ => .nil
  · rw [hnil]
    exact fun _ => nofun
  · exact fun hs => absurd hs hout
  · exact fun hp => absurd hinit (h.not_initing hp)
  · nofun

/-- A registration is committed in the state in which it has begun. -/
theorem CoreSystem.Sessions.registers (h : c.Sessions) {idx : ℕ}
    (hservice : c.service = .registering idx) (env : RegisterEnv) :
    (c.executed idx (coreOpsRegister env c.contexts)).Sessions := by
  have hworking : c.service.working = [idx] := by
    rw [hservice]
    rfl
  have hwaiting := c.waiting_executed hworking (coreOpsRegister env c.contexts)
  obtain ⟨hresult, hmqtt⟩ := coreOpsRegister_state c.contexts env
  -- REGISTER stays in the session, in which it began.
  rcases hresult with hstate | hstate
  · exact h.stays hworking hstate fun hclosed => hmqtt.trans hclosed
  · have hin : c.InSession := .inl (h.registering idx hservice).1
    have hin' : (c.executed idx (coreOpsRegister env c.contexts)).InSession := by
      refine .inr ?_
      show (coreOpsRegister env c.contexts).state.getD c.state = _
      rw [hstate]
      rfl
    refine ⟨fun hidle => absurd hin' hidle, fun hidle => absurd hin' hidle, fun _ => ?_,
      fun hp => .inr ⟨hin', ?_⟩, nofun⟩
    · have := h.session hin
      rw [hwaiting] at this
      exact this.of_cons
    · intro r hr
      rcases h.pending hp with hs | ⟨-, hnone⟩
      · rcases hin with hx | hx <;> cases hs.symm.trans hx
      · exact hnone r (hwaiting ▸ List.mem_cons_of_mem _ hr)

/-- A DEINIT that waits is pending. -/
theorem CoreSystem.Inv.deinits (h : c.Inv config) {idx : ℕ}
    (hworking : c.service.working = [idx]) (hrun : c.service ≠ .stopped)
    (htype : (c.jobPool.pool idx).request.type = .deinit) (env : DeinitOpEnv) :
    (c.executed idx (coreOpsDeinit env c.contexts)).Sessions := by
  have hwaiting := c.waiting_executed hworking (coreOpsDeinit env c.contexts)
  obtain ⟨hstate, hmqtt⟩ := coreOpsDeinit_state c.contexts env
  have hfirst : (c.jobPool.pool idx).request ∈ c.waiting := hwaiting ▸ List.mem_cons_self
  have hmem : ∀ r ∈ (c.executed idx (coreOpsDeinit env c.contexts)).waiting, r ∈ c.waiting := by
    rw [hwaiting]
    exact fun r => List.mem_cons_of_mem _
  -- A DEINIT in the queue means that one is pending.
  have hpending : c.deinitPending = true := by
    by_contra hn
    exact h.quiet (h.serving hrun).1 (.inl (Bool.eq_false_iff.mpr hn)) _
      (List.mem_append_right _ hfirst) htype
  have hdeinit : (c.executed idx (coreOpsDeinit env c.contexts)).state = .deinit := by
    show (coreOpsDeinit env c.contexts).state.getD c.state = _
    rw [hstate]
    rfl
  -- DEINIT is no session, so the order behind a CONNECT is what is left to keep.
  constructor
  · intro _
    rcases h.pending hpending with hs | ⟨-, hnone⟩
    · have := h.apart (by rintro (hx | hx) <;> cases hs.symm.trans hx)
      rw [hwaiting] at this
      exact this.of_cons
    · exact List.pairwise_of_forall_mem_list fun _ _ r' hr' _ => hnone r' (hmem r' hr')
  · intro _ r hr hdisconnect
    rcases h.pending hpending with hs | ⟨-, hnone⟩
    · have hclosed := h.refused (by rintro (hx | hx) <;> cases hs.symm.trans hx) r (hmem r hr)
        hdisconnect
      exact hmqtt hclosed
    · have := hnone r (hmem r hr)
      rw [hdisconnect] at this
      exact absurd trivial this
  · rintro (hs | hs) <;> cases hdeinit.symm.trans hs
  · exact fun _ => .inl hdeinit
  · nofun

/-- The operation of a job keeps the invariant, by the type of the job. -/
theorem CoreSystem.Inv.dispatchJob (h : c.Inv config) (hapi : c.api = .idle) {idx : ℕ}
    (hservice : c.service = .running idx) (env : ServiceEnv) :
    (c.dispatchJob env idx).Inv config ∧ c.Moves (c.dispatchJob env idx) := by
  -- The slot in execution is the head of the waiting requests.
  have hworking : c.service.working = [idx] := by
    rw [hservice]
    rfl
  have hrun : c.service ≠ .stopped := by
    rw [hservice]
    rintro ⟨⟩
  unfold CoreSystem.dispatchJob
  -- By the type of the request; each handler has its own lemma about the sessions.
  split
  next htype =>
    exact h.executed hapi hworking (fun hd => by cases htype.symm.trans hd)
      (h.initialises hworking htype env.init)
  next htype =>
    exact h.executed hapi hworking (fun hd => by cases htype.symm.trans hd)
      (h.connects hworking htype env.connect)
  next htype =>
    exact h.executed hapi hworking (fun hd => by cases htype.symm.trans hd)
      (h.disconnects hworking htype env.disconnect)
  next htype =>
    -- REGISTER outside READY is refused at once; in READY the service goes on to register.
    split_ifs with hstate
    · exact h.executed hapi hworking (fun hd => by cases htype.symm.trans hd)
        (h.stays hworking rfl id)
    · rw [Decidable.not_not] at hstate
      -- The job stays in execution, at another point: every list of requests stays.
      have hheld := h.accounted
      have hitems := h.items
      have hwaiters := h.waiters
      rw [held, queuedOrServed, hservice] at hheld
      rw [hservice] at hitems hwaiters
      have hwaiting : c.jobPool.requests ((ServicePc.registering idx).working ++ c.queued)
          = c.waiting := by
        unfold waiting
        rw [hservice]
        rfl
      have hserved : c.served = [] := by
        unfold served
        rw [hservice]
        rfl
      refine ⟨⟨?_, ?_, ?_, ?_⟩, .stay hwaiting hserved.symm rfl rfl rfl⟩
      · exact { h.toStock with accounted := hheld, waiters := hwaiters, items := hitems }
      · exact { h.toControl with
          stopped := fun hs => Bool.noConfusion ((h.serving hrun).1.symm.trans hs)
          task := by rintro _ ⟨⟩ }
      · exact {
          init := by
            intro r hr hi
            obtain ⟨hs, hw⟩ := h.init r (hwaiting ▸ hr) hi
            exact ⟨hs, hwaiting.trans hw⟩
          quiet := by
            intro htask hbefore r hr
            refine h.quiet htask hbefore r ?_
            rw [hserved, ← hwaiting]
            exact hr
          ran := by rintro _ ⟨⟩
          -- No deinit is done while the service is in a REGISTER.
          done := fun hdone =>
            absurd hdone (h.not_deinitDone hrun (by simp [hservice]) hserved) }
      · refine h.toSessions.congr hwaiting rfl rfl rfl fun idx' hidx => ?_
        cases hidx
        exact ⟨hstate, htype⟩
  next htype =>
    exact h.executed hapi hworking (fun hd => by cases htype.symm.trans hd)
      (h.stays hworking rfl id)
  -- DEINIT alone sets the state the finished deinit relies on.
  next htype =>
    exact h.executed hapi hworking (fun _ => (coreOpsDeinit_state c.contexts env.deinit).1)
      (h.deinits hworking hrun htype env.deinit)
  next htype =>
    exact h.executed hapi hworking (fun hd => by cases htype.symm.trans hd)
      (h.stays hworking rfl id)

/-! ### Behind a job -/

/-- The completion of a job, where a DEINIT records its result. -/
theorem CoreSystem.Inv.completeJob (h : c.Inv config) {idx : ℕ} {result : Except Err Unit}
    (hservice : c.service = .completing idx result) :
    (c.completeJob idx result).Inv config ∧ c.Moves (c.completeJob idx result) := by
  have hrun : c.service ≠ .stopped := by
    rw [hservice]
    rintro ⟨⟩
  obtain ⟨htask, hlock, hphase⟩ := h.serving hrun
  -- The slot is completing and will be released: the service holds it all along.
  have hheld := h.accounted
  have hitems := h.items
  have hwaiters := h.waiters
  rw [held, queuedOrServed, hservice] at hheld
  rw [hservice] at hitems hwaiters
  have hwaiting : (c.completeJob idx result).waiting = c.waiting := by
    unfold waiting
    rw [hservice]
    rfl
  have hserved : c.served = [(c.jobPool.pool idx).request] :=
    c.served_of_done (by rw [hservice]; rfl) (by rw [hservice]; rfl)
  have hserved' : (c.completeJob idx result).served = c.served := by
    rw [hserved]
    rfl
  -- Only a DEINIT writes the result that makes a deinit done.
  have hsame : (c.jobPool.pool idx).request.type ≠ .deinit →
      ((c.completeJob idx result).DeinitDone ↔ c.DeinitDone) := by
    intro htype
    unfold DeinitDone CoreSystem.completeJob
    simp only [htype, decide_false, Bool.false_eq_true, if_false]
  refine ⟨⟨?_, ?_, ?_, ?_⟩, .stay hwaiting hserved' rfl rfl rfl⟩
  · exact { h.toStock with accounted := hheld, waiters := hwaiters, items := hitems }
  · exact { h.toControl with
      stopped := fun hs => Bool.noConfusion (htask.symm.trans hs)
      task := by rintro _ ⟨⟩
      attempting := by
        show (c.completeJob idx result).Attempting c.deinit
        have hat := h.attempting
        by_cases htype : (c.jobPool.pool idx).request.type = .deinit
        · -- the attempt has posted its job
          have hposted : ¬c.deinit.BeforePost := fun hbefore =>
            h.quiet htask (.inr hbefore) _
              (List.mem_append_left _ (hserved ▸ List.mem_singleton_self _)) htype
          cases hd : c.deinit with
          | idle => trivial
          | posting request previous start pc =>
            rw [hd] at hposted
            exact absurd trivial hposted
          | starting previous =>
            rw [hd] at hat
            cases htask.symm.trans hat.2.2.2
          | restoring previous =>
            rw [hd] at hposted
            exact absurd trivial hposted
          | joining => exact hphase
          | finishing =>
            rw [hd] at hat
            exact hat
        · -- Any other job leaves the attempt with the fact it had.
          cases hd : c.deinit with
          | idle => trivial
          | posting request previous start pc =>
            rw [hd] at hat
            exact ⟨hat.1, hat.2.1, fun hx => hat.2.2.1 ((hsame htype).mp hx), hat.2.2.2⟩
          | starting previous =>
            rw [hd] at hat
            cases htask.symm.trans hat.2.2.2
          | restoring previous =>
            rw [hd] at hat
            exact ⟨hat.1, hat.2.1, fun hx => hat.2.2 ((hsame htype).mp hx)⟩
          | joining => exact hphase
          | finishing =>
            rw [hd] at hat
            exact hat }
  · exact {
      init := by
        rw [hwaiting]
        exact h.init
      quiet := by
        intro htask hbefore
        rw [hserved', hwaiting]
        exact h.quiet htask hbefore
      ran := by
        rw [hserved']
        exact h.ran
      -- A DEINIT that completes is itself served, which is what `DeinitDone` asks for.
      done := by
        intro hdone
        rw [hserved']
        by_cases htype : (c.jobPool.pool idx).request.type = .deinit
        · have hmem : (c.jobPool.pool idx).request ∈ c.served :=
            hserved ▸ List.mem_singleton_self _
          exact ⟨h.ran _ hmem htype, .inr (.inr ⟨_, hmem, htype⟩)⟩
        · obtain ⟨hstate, hs | hs | hx⟩ := h.done ((hsame htype).mp hdone)
          · exact absurd hs hrun
          · cases hservice.symm.trans hs
          · exact ⟨hstate, .inr (.inr hx)⟩ }
  · exact h.toSessions.congr hwaiting rfl rfl rfl (by rintro _ ⟨⟩)

/-- The release of a job's slot, from which the callback is called. -/
theorem CoreSystem.Inv.releaseJob (h : c.Inv config) {idx : ℕ}
    (hservice : c.service = .releasing idx) :
    (c.releaseJob idx).Inv config ∧ c.Moves (c.releaseJob idx) := by
  have hrun : c.service ≠ .stopped := by
    rw [hservice]
    rintro ⟨⟩
  obtain ⟨htask, hlock, -⟩ := h.serving hrun
  have hcallback := h.callback hlock
  have hheld := h.accounted
  have hitems := h.items
  have hwaiters := h.waiters
  rw [held, queuedOrServed, hservice] at hheld
  rw [hservice] at hitems hwaiters
  -- The slot is taken out of the middle of those held.
  have hfirst : (c.api.slots ++ (c.deinit.slots ++ ([idx] ++ ([] ++ c.queued)))).Perm
      (idx :: (c.api.slots ++ (c.deinit.slots ++ ([] ++ ([] ++ c.queued))))) := by
    have h1 : (c.deinit.slots ++ ([idx] ++ ([] ++ c.queued))).Perm
        (idx :: (c.deinit.slots ++ ([] ++ ([] ++ c.queued)))) := List.perm_middle
    exact (h1.append_left _).trans List.perm_middle
  obtain ⟨p', hrelease, hp', hsame⟩ := (hheld.congr hfirst).release
  -- The slots of the other requests keep their contents through the release.
  have hwaiting : (c.releaseJob idx).waiting = c.waiting := by
    unfold CoreSystem.releaseJob waiting
    rw [hrelease, hcallback, hservice]
    exact JobPool.requests_congr fun i hi =>
      hsame i (List.mem_append_right _ (List.mem_append_right _ hi))
  have hserved : c.served = [(c.jobPool.pool idx).request] :=
    c.served_of_done (by rw [hservice]; rfl) (by rw [hservice]; rfl)
  have hserved' : (c.releaseJob idx).served = c.served := by
    unfold CoreSystem.releaseJob
    rw [hserved, hcallback]
    rfl
  have hinv : (c.releaseJob idx).Inv config := by
    refine ⟨?_, ?_, ?_, ?_⟩
    · unfold CoreSystem.releaseJob
      rw [hrelease, hcallback]
      exact { h.toStock with
        accounted := hp'
        waiters := hwaiters
        items := hitems
        -- A call in its post keeps its request in its own slot, which is not the one freed.
        api := by
          have hcarries := h.toStock.api
          show c.api.Carries p'
          cases hapi : c.api with
          | idle => trivial
          | posting request pc =>
            rw [hapi] at hcarries hsame
            cases pc with
            | enqueuing i =>
              show (p'.pool i).request = request
              rw [hsame i (List.mem_append_left _ List.mem_cons_self)]
              exact hcarries
            | _ => trivial
        -- The attempt of a deinit likewise.
        deinit := by
          have hcarries := h.toStock.deinit
          show c.deinit.Carries p'
          cases hd : c.deinit with
          | posting request previous start pc =>
            rw [hd] at hcarries hsame
            refine ⟨hcarries.1, ?_⟩
            cases pc with
            | enqueuing i =>
              show (p'.pool i).request = request
              rw [hsame i (List.mem_append_right _ (List.mem_append_left _ List.mem_cons_self))]
              exact hcarries.2
            | _ => trivial
          | _ => trivial }
    · -- Behind the release the callback is called, since one is installed.
      exact { h.toControl with
        stopped := fun hs => Bool.noConfusion (htask.symm.trans hs)
        task := by
          intro _
          unfold CoreSystem.releaseJob
          rw [hcallback]
          rintro ⟨⟩ }
    · -- The request is served before and after, first in its slot and then in hand.
      exact {
        init := by
          rw [hwaiting]
          exact h.init
        quiet := by
          intro htask hbefore
          rw [hserved', hwaiting]
          exact h.quiet htask hbefore
        ran := by
          rw [hserved']
          exact h.ran
        done := by
          intro hdone
          rw [hserved']
          obtain ⟨hstate, hs | hs | hx⟩ := h.done hdone
          · exact absurd hs hrun
          · cases hservice.symm.trans hs
          · exact ⟨hstate, .inr (.inr hx)⟩ }
    · refine h.toSessions.congr hwaiting rfl rfl rfl ?_
      unfold CoreSystem.releaseJob
      rw [hcallback]
      rintro _ ⟨⟩
  exact ⟨hinv, .stay hwaiting hserved' rfl rfl rfl⟩

/-- Behind a callback the service waits for its next job, or has exited. -/
theorem ServicePc.next_lists (type : JobType) :
    (ServicePc.next type).Empty ∧ (ServicePc.next type).waiters = 0 ∧
      (ServicePc.next type).woken = 0 ∧ (type = .deinit → ServicePc.next type = .exited) := by
  unfold next
  split_ifs with htype
  · exact ⟨trivial, rfl, rfl, fun _ => rfl⟩
  · exact ⟨trivial, rfl, rfl, fun hx => absurd hx htype⟩

/-- The callback returns. -/
theorem CoreSystem.Inv.calls (h : c.Inv config) {request : Request}
    (hservice : c.service = .calling request) (env : ServiceEnv) :
    (c.serviceStep env).Inv config ∧ c.Moves (c.serviceStep env) := by
  have hrun : c.service ≠ .stopped := by
    rw [hservice]
    rintro ⟨⟩
  obtain ⟨htask, -, -⟩ := h.serving hrun
  -- The service goes on with an empty hand, or exits behind a DEINIT.
  obtain ⟨hempty, hzero, hwoken, hexit⟩ := ServicePc.next_lists request.type
  obtain ⟨hworking, hdone, hcalled, hrun', hregistering⟩ := hempty.lists
  have hheld := h.accounted
  have hitems := h.items
  have hwaiters := h.waiters
  rw [held, queuedOrServed, hservice] at hheld
  rw [hservice] at hitems hwaiters
  -- What waits stays where it is; what was served is given up with its callback.
  have hwaiting : c.jobPool.requests ((ServicePc.next request.type).working ++ c.queued)
      = c.waiting := by
    unfold waiting
    rw [hworking, hservice]
    rfl
  have hserved : c.served = [request] := by
    unfold served
    rw [hservice]
    rfl
  have hserved' : c.jobPool.requests (ServicePc.next request.type).done
      ++ (ServicePc.next request.type).called = [] := by
    rw [hdone, hcalled]
    rfl
  unfold CoreSystem.serviceStep
  rw [hservice]
  dsimp only
  refine ⟨⟨?_, ?_, ?_, ?_⟩, .call request hwaiting hserved hserved' rfl rfl rfl⟩
  · exact { h.toStock with
      accounted := by
        show c.jobPool.Accounted _ (c.api.slots ++ (c.deinit.slots ++
          ((ServicePc.next request.type).done ++ ((ServicePc.next request.type).working ++
            c.queued))))
        rw [hdone, hworking]
        exact hheld
      waiters := hwaiters.trans hzero.symm
      items := by
        show c.jobQueue.semItems + (ServicePc.next request.type).woken = _
        rw [hwoken]
        exact hitems }
  · exact { h.toControl with
      stopped := fun hs => Bool.noConfusion (htask.symm.trans hs)
      task := fun _ => hrun' }
  · exact {
      init := by
        intro r hr hi
        obtain ⟨hs, hw⟩ := h.init r (hwaiting ▸ hr) hi
        exact ⟨hs, hwaiting.trans hw⟩
      quiet := by
        intro htask hbefore r hr
        refine h.quiet htask hbefore r (List.mem_append_right _ ?_)
        have hmem : r ∈ (c.jobPool.requests (ServicePc.next request.type).done
            ++ (ServicePc.next request.type).called)
          ++ c.jobPool.requests ((ServicePc.next request.type).working ++ c.queued) := hr
        rwa [hserved', hwaiting] at hmem
      ran := by
        show ∀ r ∈ c.jobPool.requests (ServicePc.next request.type).done
          ++ (ServicePc.next request.type).called, _
        rw [hserved']
        rintro _ ⟨⟩
      -- Behind the callback of DEINIT the service exits, and the deinit stays done.
      done := by
        intro hd
        obtain ⟨hstate, hs | hs | ⟨r, hr, htype⟩⟩ := h.done hd
        · exact absurd hs hrun
        · cases hservice.symm.trans hs
        · rw [hserved] at hr
          rw [List.mem_singleton.mp hr] at htype
          exact ⟨hstate, .inr (.inl (hexit htype))⟩ }
  · exact h.toSessions.congr hwaiting rfl rfl rfl fun idx hidx => absurd hidx (hregistering idx)

/-- A section of the service keeps the invariant. -/
theorem CoreSystem.Inv.serviceStep (h : c.Inv config)
    (hapi : c.service.Locks → c.api = .idle) (env : ServiceEnv) :
    (c.serviceStep env).Inv config ∧ c.Moves (c.serviceStep env) := by
  have hitems := h.items
  have hwaiters := h.waiters
  -- By where the service is; its own lemma has each section that moves a job.
  cases hservice : c.service with
  | stopped =>
    unfold CoreSystem.serviceStep
    rw [hservice]
    exact ⟨h, .stay rfl rfl rfl rfl rfl⟩
  | exited =>
    unfold CoreSystem.serviceStep
    rw [hservice]
    exact ⟨h, .stay rfl rfl rfl rfl rfl⟩
  -- The section of the entry: a job is there, or the service registers as a waiter.
  | dequeuing =>
    rw [hservice] at hitems hwaiters
    have hempty : c.service.Empty := by
      rw [hservice]
      trivial
    have hexited : c.service ≠ .exited := by
      rw [hservice]
      nofun
    unfold CoreSystem.serviceStep jobQueueEnter
    rw [hservice]
    dsimp only
    split_ifs
    · refine h.waits hempty ?_ hexited ?_ ?_ ?_ ?_ c.serviceResult
      · trivial
      · rfl
      · rfl
      · exact hwaiters
      · exact hitems
    · refine h.waits hempty ?_ hexited ?_ ?_ ?_ ?_ c.serviceResult
      · trivial
      · rfl
      · rfl
      · show c.jobQueue.waiterCount + 1 = 1
        rw [hwaiters]
        rfl
      · exact hitems
  -- The wait: it fails, or goes on sleeping, or takes a token.
  | waiting =>
    rw [hservice] at hitems hwaiters
    have hempty : c.service.Empty := by
      rw [hservice]
      trivial
    have hexited : c.service ≠ .exited := by
      rw [hservice]
      nofun
    unfold CoreSystem.serviceStep
    rw [hservice]
    dsimp only
    split
    -- A wait that fails takes the waiter back out of the count.
    next e =>
      refine h.waits hempty ?_ hexited ?_ ?_ ?_ ?_ _
      · trivial
      · rfl
      · rfl
      · show c.jobQueue.waiterCount - 1 = 0
        rw [hwaiters]
        rfl
      · exact hitems
    next => exact ⟨h, .stay rfl rfl rfl rfl rfl⟩
    -- A token taken: the job it stands for is still in the ring.
    next n hn =>
      rw [hn] at hitems
      refine h.waits hempty ?_ hexited ?_ ?_ ?_ ?_ c.serviceResult
      · trivial
      · rfl
      · rfl
      · exact hwaiters
      · exact hitems
  | taking =>
    obtain ⟨q, htake, hinv, hmoves⟩ := h.takes hservice
    unfold CoreSystem.serviceStep
    rw [hservice]
    dsimp only
    rw [htake]
    exact ⟨hinv, hmoves⟩
  | running idx =>
    unfold CoreSystem.serviceStep
    rw [hservice]
    exact h.dispatchJob (hapi (by rw [hservice]; trivial)) hservice env
  | registering idx =>
    have htype := (h.registering idx hservice).2
    unfold CoreSystem.serviceStep
    rw [hservice]
    exact h.executed (hapi (by rw [hservice]; trivial)) (by rw [hservice]; rfl)
      (fun hd => by cases htype.symm.trans hd) (h.registers hservice env.register)
  | completing idx result =>
    unfold CoreSystem.serviceStep
    rw [hservice]
    exact h.completeJob hservice
  | releasing idx =>
    unfold CoreSystem.serviceStep
    rw [hservice]
    exact h.releaseJob hservice
  | calling request => exact h.calls hservice env

/-! ### Runs -/

/-- Every step keeps the invariants, and moves the jobs. -/
theorem CoreSystem.Inv.step (h : c.Inv config) (action : CoreAction) :
    (c.step config action).2.Inv config ∧ c.Moves (c.step config action).2 := by
  have hstay : c.Inv config ∧ c.Moves c := ⟨h, .stay rfl rfl rfl rfl rfl⟩
  cases action with
  | setCallback =>
    dsimp only [CoreSystem.step]
    split_ifs
    · exact ⟨h.setCallback, .stay rfl rfl rfl rfl rfl⟩
    · exact hstay
  | init env =>
    dsimp only [CoreSystem.step]
    split_ifs with hapi
    · exact h.actrustInit hapi env
    · exact hstay
  | call type =>
    dsimp only [CoreSystem.step]
    split_ifs with hapi
    · exact h.submit hapi type
    · exact hstay
  | api env => exact h.apiStep env
  | deinit =>
    dsimp only [CoreSystem.step]
    split_ifs with hapi
    · exact h.actrustDeinit hapi
    · exact hstay
  | deinitStep env =>
    dsimp only [CoreSystem.step]
    split_ifs
    · exact hstay
    · exact h.deinitStep env
  | service env =>
    dsimp only [CoreSystem.step]
    split_ifs with hlocked
    · exact hstay
    · exact h.serviceStep (fun hl => by_contra fun hn => hlocked ⟨hl, hn⟩) env
  -- What the client does by itself can only help a DISCONNECT that waits.
  | mqtt event =>
    refine ⟨⟨{ h.toStock with }, { h.toControl with },
      h.toPlaced.congr rfl rfl rfl rfl id fun htask hq => ⟨htask, hq⟩, ?_⟩,
      .stay rfl rfl rfl rfl rfl⟩
    -- a client that is DISCONNECTED does nothing by itself
    refine { h.toSessions with refused := fun hidle r hr htype => ?_ }
    show c.contexts.mqtt.after event = .disconnected
    rw [h.refused hidle r hr htype]
    cases event <;> rfl

/-- A core that was not initialised. -/
theorem CoreSystem.inv_initial (config : CoreConfig) : (initial config).Inv config where
  accounted := JobPool.Accounted.init config.jobPoolSize
  ring := Fifo.wellFormed_empty _ (by have := config.jobQueueCapacity_range.1; omega)
  depth := rfl
  waiters := rfl
  items := rfl
  api := trivial
  deinit := trivial
  stopped _ := rfl
  task := nofun
  unlocked _ := ⟨rfl, rfl, rfl, rfl, rfl⟩
  callback := nofun
  admitted := nofun
  attempt hne := absurd rfl hne
  attempting := trivial
  phase hne := absurd rfl hne
  drained := nofun
  opened := nofun
  init := nofun
  quiet := nofun
  ran := nofun
  done hd := Bool.noConfusion hd.1
  apart _ := .nil
  refused _ := nofun
  session _ := .nil
  pending := nofun
  registering := nofun

end ServiceTask

end TrustSdk.Core.Service
