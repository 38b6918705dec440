import TrustSdk.Core.Accounting

/-!
# The sections of `actrust_deinit`

Each of them keeps the invariants and moves the jobs as `CoreSystem.Moves` says. A deinit that
begins finds the core READY or INIT_FAILED, hence no other pending (`Inv.deinitNew`); one that gives
up restores that state (`Inv.deinitRestoring`).
-/

namespace TrustSdk.Core.Service

open RingBuffer

section Deinit

variable {config : CoreConfig} {c : CoreSystem}

/-- Where an attempt begins: it posts, waits for a job that is there, or goes on behind it. -/
theorem CoreSystem.attempt_cases (c : CoreSystem) (new : Bool) (previous : CoreState)
    (request : Request) :
    c.attempt new previous request
        = .posting request previous (decide (c.serviceTask = false)) .allocating ∧
      c.deinitPhase = .job ∧ (new = true ∨ c.serviceTask = false ∧ ¬c.DeinitDone) ∨
    c.attempt new previous request = .joining ∧ c.deinitPhase = .job ∨
    c.attempt new previous request = .finishing ∧ c.deinitPhase ≠ .job := by
  -- An attempt posts in the phase of the job alone, and only with no result to read.
  unfold attempt
  split_ifs with hphase hsubmit
  · refine .inl ⟨rfl, hphase, hsubmit.imp_right ?_⟩
    rintro ⟨htask, hjob⟩
    refine ⟨htask, fun hdone => ?_⟩
    rcases hjob with hjob | hjob
    · rw [hdone.1] at hjob
      cases hjob
    · rw [hdone.2] at hjob
      cases hjob
  · exact .inr (.inl ⟨rfl, hphase⟩)
  · exact .inr (.inr ⟨rfl, hphase⟩)

/-- A deinit that begins. -/
theorem CoreSystem.Inv.deinitNew (h : c.Inv config) (hapi : c.api = .idle)
    (hlock : c.lock = true) (hfinalizing : c.deinitFinalizing = false)
    (hstate : c.state = .ready ∨ c.state = .initFailed) {request : Request}
    (htype : request.type = .deinit) (l : CoreLog) :
    CoreSystem.Inv config
      { c with
        deinitPending := true
        deinitFinalizing := true
        deinitJobDone := false
        deinitResult := .ok ()
        deinitPhase := .job
        state := .deinit
        deinit := .posting request c.state (decide (c.serviceTask = false)) .allocating
        log := l } := by
  -- No attempt is under way, since none is finalizing.
  have hidle : c.deinit = .idle := by
    by_contra hne
    rw [(h.attempt hne).2.2] at hfinalizing
    cases hfinalizing
  -- READY and INIT_FAILED are no session and no deinit.
  have hnot : c.state ≠ .deinit ∧ ¬c.InSession := by
    unfold InSession
    rcases hstate with hs | hs <;> rw [hs] <;> exact ⟨(by rintro ⟨⟩), by rintro (hx | hx) <;> cases hx⟩
  have hpending : c.deinitPending = false := by
    by_contra hp
    rcases h.pending (Bool.not_eq_false _ ▸ hp) with hs | ⟨hs, -⟩
    · exact hnot.1 hs
    · exact hnot.2 hs
  have hphase : c.deinitPhase = .job := by
    by_contra hne
    exact hnot.1 (h.phase hne).2.2
  -- An INIT waits in INITING alone, and a served DEINIT leaves the state DEINIT.
  have hinit : ∀ r ∈ c.waiting, r.type ≠ .init := by
    intro r hr hi
    have := (h.init r hr hi).1
    rcases hstate with hs | hs <;> cases hs.symm.trans this
  have hran : ∀ r ∈ c.served, r.type ≠ .deinit := fun r hr hd => hnot.1 (h.ran r hr hd)
  refine ⟨?_, ?_, ?_, ?_⟩
  · -- The attempt begins without a slot; it allocates in its next section.
    exact { h.toStock with
      accounted := by
        have := h.accounted
        rw [held, hidle] at this
        exact this
      deinit := ⟨htype, trivial⟩ }
  · exact { h.toControl with
      unlocked := fun hunlocked => Bool.noConfusion (hlock.symm.trans hunlocked)
      admitted := by
        -- No call is posting, so none has been admitted under the old state.
        intro r pc hr
        cases hapi.symm.trans hr
      attempt := fun _ => ⟨hlock, rfl, rfl⟩
      attempting := ⟨rfl, hstate, fun hd => Bool.noConfusion hd.1, rfl⟩
      phase := fun hne => absurd rfl hne
      drained := by rintro (hx | hx) <;> cases hx
      opened := fun _ _ => h.opened hlock hphase }
  · -- No deinit was pending, so no DEINIT is in the service or the queue.
    exact {
      init := fun r hr hi => absurd hi (hinit r hr)
      quiet := fun htask _ => h.quiet htask (.inl hpending)
      ran := fun r hr hd => absurd hd (hran r hr)
      done := fun hd => Bool.noConfusion hd.1 }
  · -- The order of jobs was that of no session, and it stays.
    exact {
      apart := fun _ => h.apart hnot.2
      refused := fun _ => h.refused hnot.2
      session := by rintro (hs | hs) <;> cases hs
      pending := fun _ => .inl rfl
      registering := by
        intro idx hidx
        exact absurd (.inl (h.registering idx hidx).1) hnot.2 }

/-- A deinit that is pending is gone on with. -/
theorem CoreSystem.Inv.deinitAgain (h : c.Inv config) (hlock : c.lock = true)
    (hfinalizing : c.deinitFinalizing = false) (hpending : c.deinitPending = true)
    {request : Request} (htype : request.type = .deinit) (l : CoreLog) :
    CoreSystem.Inv config
      { c with
        deinitFinalizing := true
        deinit := c.attempt false .ready request
        log := l } := by
  have hidle : c.deinit = .idle := by
    by_contra hne
    rw [(h.attempt hne).2.2] at hfinalizing
    cases hfinalizing
  have hheld := h.accounted
  rw [held, hidle] at hheld
  -- The attempt posts, waits, or goes on, as `attempt` decides.
  rcases c.attempt_cases false .ready request with ⟨ha, hphase, hnew⟩ | ⟨ha, hphase⟩ | ⟨ha, hphase⟩
  · -- It posts again, which it does only where no service is left.
    obtain ⟨htask, hdone⟩ := hnew.resolve_left (by rintro ⟨⟩)
    rw [ha]
    refine ⟨?_, ?_, ?_, ?_⟩
    · exact { h.toStock with accounted := hheld, deinit := ⟨htype, trivial⟩ }
    · exact { h.toControl with
        attempt := fun _ => ⟨hlock, hpending, rfl⟩
        attempting := ⟨hphase, .inl rfl, hdone, rfl⟩ }
    · exact { h.toPlaced with
        quiet := fun htask' => Bool.noConfusion (htask.symm.trans htask') }
    · exact h.toSessions.congr rfl rfl rfl rfl h.registering
  · -- It waits for the job that an earlier attempt posted.
    rw [ha]
    refine ⟨?_, ?_, ?_, ?_⟩
    · exact { h.toStock with accounted := hheld, deinit := trivial }
    · exact { h.toControl with
        attempt := fun _ => ⟨hlock, hpending, rfl⟩
        attempting := hphase }
    · exact { h.toPlaced with
        quiet := fun htask hbefore => h.quiet htask (hbefore.imp_right False.elim) }
    · exact h.toSessions.congr rfl rfl rfl rfl h.registering
  · -- The job has succeeded: it goes on with the phase it failed in.
    rw [ha]
    refine ⟨?_, ?_, ?_, ?_⟩
    · exact { h.toStock with accounted := hheld, deinit := trivial }
    · exact { h.toControl with
        attempt := fun _ => ⟨hlock, hpending, rfl⟩
        attempting := ⟨(h.phase hphase).2.1, hphase⟩ }
    · exact { h.toPlaced with
        quiet := fun htask hbefore => h.quiet htask (hbefore.imp_right False.elim) }
    · exact h.toSessions.congr rfl rfl rfl rfl h.registering

/-- `actrust_deinit` keeps the invariant. -/
theorem CoreSystem.Inv.actrustDeinit (h : c.Inv config) (hapi : c.api = .idle) :
    (actrustDeinit c).Inv config ∧ c.Moves (actrustDeinit c) := by
  unfold Service.actrustDeinit
  dsimp only
  split_ifs with hrefused hnew hrefused'
  · exact ⟨h.log _, .stay rfl rfl rfl rfl rfl⟩
  · simp only [not_or, Bool.not_eq_true, Bool.not_eq_false] at hrefused
    refine ⟨?_, .stay rfl rfl rfl rfl rfl⟩
    exact h.deinitNew hapi hrefused.1 hrefused.2.2 hnew rfl _
  · exact ⟨h.log _, .stay rfl rfl rfl rfl rfl⟩
  · simp only [not_or, Bool.not_eq_true, Bool.not_eq_false] at hrefused hrefused'
    refine ⟨?_, .stay rfl rfl rfl rfl rfl⟩
    exact h.deinitAgain hrefused.1 hrefused.2.2 hrefused'.2 rfl _

/-- No call is admitted meanwhile. -/
theorem CoreSystem.Inv.api_idle (h : c.Inv config) (hne : c.deinit ≠ .idle) : c.api = .idle := by
  cases hapi : c.api with
  | idle => rfl
  | posting request pc =>
    have hpending := (h.attempt hne).2.1
    rw [(h.admitted request pc hapi).2.1] at hpending
    cases hpending

/-- A DEINIT is queued. -/
theorem CoreSystem.Sessions.push_deinit {c' : CoreSystem} {request : Request} (h : c.Sessions)
    (htype : request.type = .deinit) (hwaiting : c'.waiting = c.waiting ++ [request])
    (hstate : c'.state = c.state)
    (hmqtt : c'.contexts.mqtt = c.contexts.mqtt)
    (hpending : c'.deinitPending = c.deinitPending)
    (hregistering : ∀ idx, c'.service = .registering idx → c'.state = .unregistered ∧
      (c'.jobPool.pool idx).request.type = .register) : c'.Sessions where
  -- A DEINIT is no job of a session, so it may stand behind any of them.
  apart hidle := by
    unfold InSession at hidle
    rw [hstate] at hidle
    rw [hwaiting, List.pairwise_append]
    refine ⟨h.apart hidle, List.pairwise_singleton _ _, ?_⟩
    intro r _ r' hr' _
    rw [List.mem_singleton.mp hr', htype]
    exact id
  refused hidle := by
    unfold InSession at hidle
    rw [hstate] at hidle
    intro r hr hdisconnect
    rw [hwaiting] at hr
    rw [hmqtt]
    rcases List.mem_append.mp hr with hr | hr
    · exact h.refused hidle r hr hdisconnect
    · rw [List.mem_singleton.mp hr, htype] at hdisconnect
      cases hdisconnect
  -- In one: behind a DISCONNECT comes no CONNECT.
  session hsession := by
    unfold InSession at hsession
    rw [hstate] at hsession
    rw [hwaiting, List.pairwise_append]
    refine ⟨h.session hsession, List.pairwise_singleton _ _, ?_⟩
    intro r _ r' hr' _
    rw [List.mem_singleton.mp hr', htype]
    nofun
  -- What a pending deinit lets wait are no jobs of a session.
  pending hp := by
    unfold InSession
    rw [hpending] at hp
    rw [hstate, hwaiting]
    refine (h.pending hp).imp_right fun ⟨hs, hnone⟩ => ⟨hs, ?_⟩
    intro r hr
    rcases List.mem_append.mp hr with hr | hr
    · exact hnone r hr
    · rw [List.mem_singleton.mp hr, htype]
      exact id
  registering := hregistering

/-- While a deinit is pending the core is not INITING. -/
theorem CoreSystem.Sessions.not_initing (h : c.Sessions) (hpending : c.deinitPending = true) :
    c.state ≠ .initing := by
  intro hs
  rcases h.pending hpending with hd | ⟨hd | hd, -⟩ <;> cases hs.symm.trans hd

/-- A section in which the deinit posts its job. -/
theorem CoreSystem.Inv.deinitPosting (h : c.Inv config) (env : DeinitEnv) {request : Request}
    {previous : CoreState} {start : Bool} {pc : PostPc}
    (hd : c.deinit = .posting request previous start pc) :
    (c.deinitStep env).Inv config ∧ c.Moves (c.deinitStep env) := by
  have hne : c.deinit ≠ .idle := by
    rw [hd]
    rintro ⟨⟩
  obtain ⟨hlock, hpending, hfinalizing⟩ := h.attempt hne
  -- The deinit has the lock, so no other call is posting.
  have hapi := h.api_idle hne
  have hat := h.attempting
  have hcarries := h.toStock.deinit
  have hheld := h.accounted
  rw [hd] at hat hcarries
  rw [held, hapi, hd] at hheld
  obtain ⟨hphase, hprevious, hdone, hstart⟩ := hat
  obtain ⟨htype, hcarries⟩ := hcarries
  -- What a section of the post does is `corePostJob_posted`; the rest is generalised.
  have hposted := corePostJob_posted (q := c.jobQueue) env.post hheld hcarries
  have hbefore : c.deinit.BeforePost := by
    rw [hd]
    trivial
  unfold CoreSystem.deinitStep
  rw [hd]
  dsimp only
  generalize corePostJob env.post request c.jobPool c.jobQueue pc = out at hposted
  -- Next section, failed, or posted: only the last moves a request.
  cases hposted with
  | @next pc' p' hp hc hsame =>
    dsimp only
    refine ⟨⟨h.toStock.repost ?_ ?_ ?_ _, ?_, ?_, ?_⟩, ?_⟩
    · rw [hapi]
      exact hp
    · rw [hapi]
      trivial
    · -- The slot carries the request it was allocated for.
      exact ⟨htype, hc⟩
    · exact { h.toControl with
        attempt := fun _ => ⟨hlock, hpending, hfinalizing⟩
        attempting := ⟨hphase, hprevious, hdone, hstart⟩ }
    · exact h.toPlaced.congr (waiting_congr rfl rfl hsame) (served_congr rfl hsame) rfl rfl id
        fun htask _ => ⟨htask, .inr hbefore⟩
    · exact h.toSessions.congr (waiting_congr rfl rfl hsame) rfl rfl rfl
        (h.registering_congr rfl rfl hsame)
    · exact .stay (waiting_congr rfl rfl hsame) (served_congr rfl hsame) rfl rfl rfl
  -- The slot went back to the pool; the state is restored in the next section.
  | @failed e p' hp hsame =>
    dsimp only
    refine ⟨⟨h.toStock.repost ?_ ?_ ?_ _, ?_, ?_, ?_⟩, ?_⟩
    · rw [hapi]
      exact hp
    · rw [hapi]
      trivial
    · trivial
    · exact { h.toControl with
        attempt := fun _ => ⟨hlock, hpending, hfinalizing⟩
        attempting := ⟨hphase, hprevious, hdone⟩ }
    · exact h.toPlaced.congr (waiting_congr rfl rfl hsame) (served_congr rfl hsame) rfl rfl id
        fun htask _ => ⟨htask, .inr hbefore⟩
    · exact h.toSessions.congr (waiting_congr rfl rfl hsame) rfl rfl rfl
        (h.registering_congr rfl rfl hsame)
    · exact .stay (waiting_congr rfl rfl hsame) (served_congr rfl hsame) rfl rfl rfl
  -- The job is in the ring, and its slot is the queue's now.
  | @posted idx hp hr hopen hroom =>
    have hpush := h.ring.toList_push hroom idx
    have hinit : request.type ≠ .init := by
      rw [htype]
      rintro ⟨⟩
    have hslots : (if start then DeinitPc.starting previous else .joining).slots = [] := by
      cases start <;> rfl
    have hafter : ¬(if start then DeinitPc.starting previous else .joining).BeforePost := by
      cases start <;> exact id
    dsimp only
    refine ⟨⟨?_, ?_, ?_, ?_⟩, ?_⟩
    · have hstock := h.toStock.push hp hroom hslots (by cases start <;> trivial)
        (c.log.enqueue request)
      exact { hstock with
        accounted := by
          have := hstock.accounted
          rw [held, hslots] at this ⊢
          show c.jobPool.Accounted _ (c.api.slots ++ _)
          rw [hapi]
          exact this
        api := by
          show c.api.Carries _
          rw [hapi]
          trivial }
    · -- The attempt goes on to start the service, or to wait for the one there is.
      exact { h.toControl with
        unlocked := fun hunlocked => Bool.noConfusion (hlock.symm.trans hunlocked)
        attempt := fun _ => ⟨hlock, hpending, hfinalizing⟩
        attempting := by
          cases start with
          | false => exact hphase
          | true => exact ⟨hphase, hprevious, hdone, of_decide_eq_true hstart.symm⟩
        drained := fun hdrained => by
          rcases hdrained with hp | hp <;> cases hphase.symm.trans hp }
    · -- The DEINIT itself is what `quiet` may find from now on.
      exact h.toPlaced.push hinit (h.not_initing hpending) (waiting_push rfl rfl hpush hr)
        (served_congr rfl fun _ _ => rfl) rfl rfl id
        fun _ hquiet => hquiet.elim
          (fun hp => Bool.noConfusion (hpending.symm.trans hp)) fun hb => absurd hb hafter
    · exact h.toSessions.push_deinit htype (waiting_push rfl rfl hpush hr) rfl rfl rfl
        (h.registering_congr rfl rfl fun _ _ => rfl)
    · exact .enqueue request (waiting_push rfl rfl hpush hr) (served_congr rfl fun _ _ => rfl)
        rfl rfl rfl

/-- What `core_drain_pending_jobs` leaves when nobody else uses the queue. -/
structure Drained (size : ℕ) (p : JobPool) (q : JobQueue) (p' : JobPool) (q' : JobQueue) : Prop where
  accounted : p'.Accounted size q'.ring.toList
  ring : q'.ring.WellFormed
  depth : q'.ring.depth = q.ring.depth
  waiters : q'.waiterCount = q.waiterCount
  items : q'.semItems = q'.ring.count
  closed : q'.closed = q.closed
  requests : p'.requests q'.ring.toList <:+ p.requests q.ring.toList

/-- Nothing is drained. -/
theorem Drained.refl {size : ℕ} {p : JobPool} {q : JobQueue}
    (hp : p.Accounted size q.ring.toList) (hr : q.ring.WellFormed)
    (hi : q.semItems = q.ring.count) : Drained size p q p q :=
  ⟨hp, hr, rfl, rfl, hi, rfl, List.suffix_rfl⟩

/-- The drain gives each job it takes back to the pool. -/
theorem coreDrainPendingJobs_drained {size : ℕ} (answers : List (Except Err Unit)) {p : JobPool}
    {q : JobQueue} (hp : p.Accounted size q.ring.toList) (hr : q.ring.WellFormed)
    (hi : q.semItems = q.ring.count) :
    Drained size p q (coreDrainPendingJobs p q answers).1 (coreDrainPendingJobs p q answers).2 := by
  -- By induction on the answers: the ring shortens by its head at each success.
  induction answers generalizing p q with
  | nil => exact .refl hp hr hi
  | cons semWait answers ih =>
    cases semWait with
    | error e => exact .refl hp hr hi
    | ok _ =>
      cases hcount : q.ring.count with
      | zero =>
        unfold coreDrainPendingJobs
        rw [hi, hcount]
        exact .refl hp hr hi
      -- The slot at the head is held, so its release succeeds.
      | succ n =>
        have hsome : q.ring.count ≠ 0 := by
          rw [hcount]
          nofun
        have hpop := hr.toList_pop hsome
        have htake : jobQueueTake { q with waiterCount := q.waiterCount + 1 }
            = (.ok (q.ring.buf q.ring.head), { q with ring := q.ring.pop }) := by
          unfold jobQueueTake
          dsimp only
          rw [if_neg hsome]
          rfl
        rw [hpop] at hp
        obtain ⟨p', hrelease, hp', hsame⟩ := hp.release
        have hstep : coreDrainPendingJobs p q (.ok () :: answers)
            = coreDrainPendingJobs p' { q with ring := q.ring.pop, semItems := n } answers := by
          conv_lhs => unfold coreDrainPendingJobs
          rw [htake, hi, hcount]
          dsimp only
          rw [hrelease]
        have hi' : n = q.ring.pop.count := by
          show n = q.ring.count - 1
          omega
        have hrest := ih (q := { q with ring := q.ring.pop, semItems := n }) hp' (hr.pop hsome) hi'
        rw [hstep]
        refine ⟨hrest.accounted, hrest.ring, hrest.depth, hrest.waiters, hrest.items,
          hrest.closed, hrest.requests.trans ?_⟩
        rw [JobPool.requests_congr hsame, hpop]
        exact List.suffix_cons _ _

/-- A queue is drained behind a service that is not there. -/
theorem CoreSystem.Inv.drainQueue (h : c.Inv config) (hne : c.deinit ≠ .idle)
    (htask : c.serviceTask = false) {q : JobQueue} (hring : q.ring = c.jobQueue.ring)
    (hwaiters : q.waiterCount = c.jobQueue.waiterCount)
    (hclosed : c.deinitPhase = .job → q.closed = c.jobQueue.closed) {p' : JobPool}
    {q' : JobQueue} (hdrained : Drained config.jobPoolSize c.jobPool q p' q') {d : DeinitPc}
    (hslots : d.slots = []) (hcarries : d.Carries p') (hattempting : c.Attempting d)
    (hphase : c.deinitPhase = .job ∨ c.deinitPhase = .queue) :
    CoreSystem.Inv config { c with jobPool := p', jobQueue := q', deinit := d } ∧
      c.Moves { c with jobPool := p', jobQueue := q', deinit := d } := by
  -- The deinit has the lock, so no call posts while it drains.
  obtain ⟨hlock, hpending, hfinalizing⟩ := h.attempt hne
  have hapi := h.api_idle hne
  have hstopped := h.stopped htask
  -- Without a service all that waits is in the ring, so the drain is a suffix of it.
  have hwaiting : c.waiting = c.jobPool.requests q.ring.toList := by
    unfold waiting queued
    rw [hstopped, hring]
    rfl
  have hwaiting' : CoreSystem.waiting { c with jobPool := p', jobQueue := q', deinit := d }
      = p'.requests q'.ring.toList := by
    show p'.requests (c.service.working ++ q'.ring.toList) = _
    rw [hstopped]
    rfl
  have hsuffix : CoreSystem.waiting { c with jobPool := p', jobQueue := q', deinit := d }
      <:+ c.waiting := by
    rw [hwaiting, hwaiting']
    exact hdrained.requests
  have hserved : CoreSystem.served { c with jobPool := p', jobQueue := q', deinit := d } = [] := by
    show p'.requests c.service.done ++ c.service.called = []
    rw [hstopped]
    rfl
  refine ⟨⟨?_, ?_, ?_, ?_⟩, ?_⟩
  · -- The slots drained went back to the pool; those left are still in the ring.
    exact {
      accounted := by
        show p'.Accounted _ (c.api.slots ++ (d.slots ++
          (c.service.done ++ (c.service.working ++ q'.ring.toList))))
        rw [hapi, hslots, hstopped]
        exact hdrained.accounted
      ring := hdrained.ring
      depth := by
        show q'.ring.depth = _
        rw [hdrained.depth, hring, h.depth]
      waiters := by
        show q'.waiterCount = c.service.waiters
        rw [hdrained.waiters, hwaiters, h.waiters]
      items := by
        show q'.semItems + c.service.woken = q'.ring.count
        rw [hdrained.items, hstopped]
        rfl
      api := by
        show c.api.Carries _
        rw [hapi]
        trivial
      deinit := hcarries }
  · -- The drain opens or closes nothing: the phase decides that.
    exact { h.toControl with
      unlocked := fun hunlocked => Bool.noConfusion (hlock.symm.trans hunlocked)
      attempt := fun _ => ⟨hlock, hpending, hfinalizing⟩
      attempting := hattempting
      drained := by
        show c.deinitPhase = .pool ∨ c.deinitPhase = .lock → _
        rcases hphase with hp | hp <;> rw [hp] <;> rintro (hx | hx) <;> cases hx
      opened := by
        intro _ hjob
        show q'.closed = false
        rw [hdrained.closed, hclosed hjob]
        exact h.opened hlock hjob }
  · -- A request that is left was there before, so its field still speaks of it.
    exact {
      init := fun r hr hi => absurd (h.init r (hsuffix.subset hr) hi).1 (h.not_initing hpending)
      quiet := fun htask' => Bool.noConfusion (htask.symm.trans htask')
      ran := by
        rw [hserved]
        nofun
      done := fun hdone => ⟨(h.done hdone).1, .inl hstopped⟩ }
  · -- The order of a suffix is that of the whole.
    exact {
      apart := fun hidle => (h.apart hidle).sublist hsuffix.sublist
      refused := fun hidle r hr => h.refused hidle r (hsuffix.subset hr)
      session := fun hs => (h.session hs).sublist hsuffix.sublist
      pending := fun hp => (h.pending hp).imp_right fun ⟨hs, hnone⟩ =>
        ⟨hs, fun r hr => hnone r (hsuffix.subset hr)⟩
      registering := by
        intro idx hidx
        cases hstopped.symm.trans hidx }
  · -- Nothing was served and nothing is: the requests drained are given up.
    refine .drop hsuffix ?_ hstopped rfl rfl rfl
    rw [hserved, h.served_nil htask]

/-- The service is started behind the post, or what was queued is drained. -/
theorem CoreSystem.Inv.deinitStarting (h : c.Inv config) (env : DeinitEnv)
    {previous : CoreState} (hd : c.deinit = .starting previous) :
    (c.deinitStep env).Inv config ∧ c.Moves (c.deinitStep env) := by
  have hne : c.deinit ≠ .idle := by
    rw [hd]
    rintro ⟨⟩
  obtain ⟨hlock, hpending, hfinalizing⟩ := h.attempt hne
  have hapi := h.api_idle hne
  have hat := h.attempting
  have hheld := h.accounted
  have hitems := h.items
  rw [hd] at hat
  obtain ⟨hphase, hprevious, hdone, htask⟩ := hat
  have hstopped := h.stopped htask
  rw [held, hapi, hd, queuedOrServed, hstopped] at hheld
  rw [hstopped] at hitems
  unfold CoreSystem.deinitStep
  rw [hd]
  dsimp only
  -- A start that fails leaves the job to the drain.
  cases env.serviceStart with
  | error e =>
    exact h.drainQueue hne htask rfl rfl (fun _ => rfl)
      (coreDrainPendingJobs_drained env.drain hheld h.ring hitems) rfl trivial
      ⟨hphase, hprevious, hdone⟩ (.inl hphase)
  -- The new service is before its first dequeue, with nothing in hand.
  | ok _ =>
    have hwaiting : c.jobPool.requests (ServicePc.dequeuing.working ++ c.queued) = c.waiting := by
      unfold waiting
      rw [hstopped]
      rfl
    have hserved : c.jobPool.requests ServicePc.dequeuing.done ++ ServicePc.dequeuing.called
        = c.served := by
      unfold served
      rw [hstopped]
      rfl
    refine ⟨⟨?_, ?_, ?_, ?_⟩, .stay hwaiting hserved rfl rfl rfl⟩
    · exact { h.toStock with
        accounted := by
          show c.jobPool.Accounted _ (c.api.slots ++ ([] ++ ([] ++ ([] ++ c.queued))))
          rw [hapi]
          exact hheld
        waiters := by
          have := h.waiters
          rw [hstopped] at this
          exact this
        items := hitems
        deinit := trivial }
    · -- The attempt now waits for its job.
      exact { h.toControl with
        stopped := by rintro ⟨⟩
        task := by rintro _ ⟨⟩
        unlocked := fun hunlocked => Bool.noConfusion (hlock.symm.trans hunlocked)
        attempt := fun _ => ⟨hlock, hpending, hfinalizing⟩
        attempting := hphase
        phase := fun hne => absurd hphase hne }
    · -- No other request was made since the attempt began.
      exact {
        init := fun r hr hi => absurd (h.init r (hwaiting ▸ hr) hi).1 (h.not_initing hpending)
        quiet := by
          rintro _ (hp | hb)
          · exact Bool.noConfusion (hpending.symm.trans hp)
          · exact hb.elim
        ran := by rintro _ ⟨⟩
        done := fun hd => absurd hd hdone }
    · exact h.toSessions.congr hwaiting rfl rfl rfl (by rintro _ ⟨⟩)

/-- The attempt ends, and the deinit stays pending. -/
theorem CoreSystem.Inv.clearFinalizing (h : c.Inv config) (hslots : c.deinit.slots = []) :
    (coreDeinitClearFinalizing c).Inv config := by
  -- Only the flags of the attempt change.
  refine ⟨?_, ?_, ?_, ?_⟩
  · exact { h.toStock with
      accounted := by
        have := h.accounted
        rw [held, hslots] at this
        exact this
      deinit := trivial }
  · exact { h.toControl with
      attempt := fun hne => absurd rfl hne
      attempting := trivial }
  · exact { h.toPlaced with
      quiet := fun htask hbefore => h.quiet htask (hbefore.imp_right False.elim) }
  · exact h.toSessions.congr rfl rfl rfl rfl h.registering

/-- The attempt gives up and restores the state it found. -/
theorem CoreSystem.Inv.deinitRestoring (h : c.Inv config) {previous : CoreState}
    (hd : c.deinit = .restoring previous) :
    (coreDeinitRestoreState c previous).Inv config ∧
      c.Moves (coreDeinitRestoreState c previous) := by
  have hne : c.deinit ≠ .idle := by
    rw [hd]
    rintro ⟨⟩
  obtain ⟨hlock, hpending, -⟩ := h.attempt hne
  have hapi := h.api_idle hne
  have hat := h.attempting
  rw [hd] at hat
  obtain ⟨hphase, hprevious, -⟩ := hat
  have hbefore : c.deinit.BeforePost := by
    rw [hd]
    trivial
  -- The state is READY or INIT_FAILED, so no session begins here.
  have hidle : ¬(coreDeinitRestoreState c previous).InSession := by
    rintro (hs | hs) <;> rcases hprevious with hp | hp <;> cases hp.symm.trans hs
  -- No DEINIT has been served, since the attempt had not posted its job.
  have hserved : ∀ r ∈ c.served, r.type ≠ .deinit := by
    intro r hr
    cases htask : c.serviceTask with
    | true => exact h.quiet htask (.inr hbefore) r (List.mem_append_left _ hr)
    | false =>
      rw [h.served_nil htask] at hr
      cases hr
  refine ⟨⟨?_, ?_, ?_, ?_⟩, .stay rfl rfl rfl rfl rfl⟩
  · exact { h.toStock with
      accounted := by
        have := h.accounted
        rw [held, hd] at this
        exact this
      deinit := trivial }
  · exact { h.toControl with
      unlocked := fun hunlocked => Bool.noConfusion (hlock.symm.trans hunlocked)
      admitted := by
        intro r pc hr
        cases hapi.symm.trans hr
      attempt := fun hne => absurd rfl hne
      attempting := trivial
      phase := fun hne => absurd rfl hne
      drained := by rintro (hx | hx) <;> cases hx
      opened := fun _ _ => h.opened hlock hphase }
  · -- The attempt is over, and what it relied on holds without it.
    exact {
      init := fun r hr hi => absurd (h.init r hr hi).1 (h.not_initing hpending)
      quiet := fun htask _ => h.quiet htask (.inr hbefore)
      ran := fun r hr hdeinit => absurd hdeinit (hserved r hr)
      done := fun hdone => Bool.noConfusion hdone.1 }
  · exact {
      -- A pending deinit let no job of a session wait, so the old state finds none.
      apart := by
        intro _
        rcases h.pending hpending with hs | ⟨-, hnone⟩
        · exact h.apart (by rintro (hx | hx) <;> cases hs.symm.trans hx)
        · exact List.pairwise_of_forall_mem_list fun _ _ r' hr' _ => hnone r' hr'
      refused := by
        intro _ r hr hdisconnect
        rcases h.pending hpending with hs | ⟨-, hnone⟩
        · exact h.refused (by rintro (hx | hx) <;> cases hs.symm.trans hx) r hr hdisconnect
        · have := hnone r hr
          rw [hdisconnect] at this
          exact absurd trivial this
      session := fun hs => absurd hs hidle
      pending := by rintro ⟨⟩
      -- A REGISTER in execution would have been such a job.
      registering := by
        intro idx hidx
        obtain ⟨hstate, htype⟩ := h.registering idx hidx
        rcases h.pending hpending with hs | ⟨-, hnone⟩
        · cases hs.symm.trans hstate
        · have hservice : c.service = .registering idx := hidx
          have := hnone _ (c.mem_waiting (by rw [hservice]; rfl))
          rw [htype] at this
          exact absurd trivial this }

/-- The look at the deinit job, behind the service. -/
theorem CoreSystem.Inv.checkDeinitJob (h : c.Inv config) (hd : c.deinit = .joining)
    (htask : c.serviceTask = false) :
    c.checkDeinitJob.Inv config ∧ c.Moves c.checkDeinitJob := by
  have hne : c.deinit ≠ .idle := by
    rw [hd]
    rintro ⟨⟩
  obtain ⟨hlock, hpending, hfinalizing⟩ := h.attempt hne
  have hslots : c.deinit.slots = [] := by
    rw [hd]
    rfl
  unfold CoreSystem.checkDeinitJob
  split_ifs with hjob
  · -- The job is not done: the attempt gives up and stays pending.
    exact ⟨h.clearFinalizing hslots, .stay rfl rfl rfl rfl rfl⟩
  · split
    · -- The job failed: the attempt gives up, and a retry posts a new one.
      exact ⟨h.clearFinalizing hslots, .stay rfl rfl rfl rfl rfl⟩
    next hresult =>
      -- The job is done and has succeeded, so the later phases may begin.
      have hdone : c.DeinitDone := ⟨Bool.not_eq_false _ ▸ hjob, by rw [hresult]; rfl⟩
      refine ⟨⟨?_, ?_, ?_, ?_⟩, .stay rfl rfl rfl rfl rfl⟩
      · exact { h.toStock with
          accounted := by
            have := h.accounted
            rw [held, hd] at this
            exact this
          deinit := trivial }
      · exact { h.toControl with
          unlocked := fun hunlocked => Bool.noConfusion (hlock.symm.trans hunlocked)
          attempt := fun _ => ⟨hlock, hpending, hfinalizing⟩
          attempting := ⟨htask, (by rintro ⟨⟩)⟩
          phase := fun _ => ⟨hpending, htask, (h.done hdone).1⟩
          drained := by rintro (hx | hx) <;> cases hx
          opened := by rintro _ ⟨⟩ }
      · exact { h.toPlaced with
          quiet := fun htask' => Bool.noConfusion (htask.symm.trans htask') }
      · exact h.toSessions.congr rfl rfl rfl rfl h.registering

/-- The check looks at the flags only. -/
theorem CoreSystem.checkDeinitJob_lists (c : CoreSystem) :
    c.checkDeinitJob.waiting = c.waiting ∧ c.checkDeinitJob.served = c.served ∧
      c.checkDeinitJob.log = c.log := by
  unfold checkDeinitJob
  split_ifs
  · exact ⟨rfl, rfl, rfl⟩
  · split <;> exact ⟨rfl, rfl, rfl⟩

/-- The service has ended, and has been joined. -/
theorem CoreSystem.Inv.joined (h : c.Inv config) (hd : c.deinit = .joining)
    (hexited : c.service = .exited) :
    CoreSystem.Inv config { c with serviceTask := false, service := .stopped } ∧
      c.Moves { c with serviceTask := false, service := .stopped } := by
  -- The service has exited, so nothing of it is left to hand over.
  have hat := h.attempting
  have hheld := h.accounted
  have hitems := h.items
  have hwaiters := h.waiters
  rw [hd] at hat
  rw [held, queuedOrServed, hexited] at hheld
  rw [hexited] at hitems hwaiters
  have hlock : c.lock = true := (h.attempt (by rw [hd]; rintro ⟨⟩)).1
  have hwaiting : c.jobPool.requests (ServicePc.stopped.working ++ c.queued) = c.waiting := by
    unfold waiting
    rw [hexited]
    rfl
  have hserved : c.jobPool.requests ServicePc.stopped.done ++ ServicePc.stopped.called
      = c.served := by
    unfold served
    rw [hexited]
    rfl
  refine ⟨⟨?_, ?_, ?_, ?_⟩, .stay hwaiting hserved rfl rfl rfl⟩
  · exact { h.toStock with accounted := hheld, waiters := hwaiters, items := hitems }
  · -- The task is joined; whether the job succeeded is looked at next.
    exact { h.toControl with
      stopped := fun _ => rfl
      task := by rintro ⟨⟩
      unlocked := fun hunlocked => Bool.noConfusion (hlock.symm.trans hunlocked)
      attempting := by
        show CoreSystem.Attempting _ c.deinit
        rw [hd]
        exact hat
      phase := fun hne => absurd hat hne }
  · exact {
      init := fun r hr hi => by
        obtain ⟨hs, hw⟩ := h.init r (hwaiting ▸ hr) hi
        exact ⟨hs, hwaiting.trans hw⟩
      quiet := by rintro ⟨⟩
      ran := by rintro _ ⟨⟩
      done := fun hdone => ⟨(h.done hdone).1, .inl rfl⟩ }
  · exact h.toSessions.congr hwaiting rfl rfl rfl (by rintro _ ⟨⟩)

/-- A step that moves nothing may follow. -/
theorem CoreSystem.Moves.stays {c' c'' : CoreSystem}
    (h : c.Moves c') (hw : c''.waiting = c'.waiting) (hs : c''.served = c'.served)
    (hl : c''.log = c'.log) : c.Moves c'' := by
  -- The lists and the log are those of the step before.
  cases h with
  | stay h1 h2 h3 h4 h5 =>
    exact .stay (hw.trans h1) (hs.trans h2) (by rw [hl, h3]) (by rw [hl, h4]) (by rw [hl, h5])
  | enqueue r h1 h2 h3 h4 h5 =>
    exact .enqueue r (hw.trans h1) (hs.trans h2) (by rw [hl, h3]) (by rw [hl, h4]) (by rw [hl, h5])
  | execute r h1 h2 h3 h4 h5 h6 =>
    exact .execute r (h1.trans (by rw [hw])) h2 (hs.trans h3) (by rw [hl, h4]) (by rw [hl, h5])
      (by rw [hl, h6])
  | call r h1 h2 h3 h4 h5 h6 =>
    exact .call r (hw.trans h1) h2 (hs.trans h3) (by rw [hl, h4]) (by rw [hl, h5]) (by rw [hl, h6])
  | drop h1 h2 h3 h4 h5 h6 =>
    exact .drop (hw ▸ h1) (hs.trans h2) h3 (by rw [hl, h4]) (by rw [hl, h5]) (by rw [hl, h6])

/-- A section in which the deinit waits for the service. -/
theorem CoreSystem.Inv.deinitJoining (h : c.Inv config) (join : Except Err Unit)
    (hd : c.deinit = .joining) :
    (c.joinService join).Inv config ∧ c.Moves (c.joinService join) := by
  have hslots : c.deinit.slots = [] := by
    rw [hd]
    rfl
  unfold CoreSystem.joinService
  -- The task is gone, or has to be joined.
  split_ifs with htask
  · exact h.checkDeinitJob hd htask
  · cases join with
    | error e => exact ⟨h.clearFinalizing hslots, .stay rfl rfl rfl rfl rfl⟩
    | ok _ =>
      cases hservice : c.service with
      | exited =>
        obtain ⟨hjoined, hmoves⟩ := h.joined hd hservice
        dsimp only
        split
        · exact ⟨hjoined.clearFinalizing hslots, hmoves.stays rfl rfl rfl⟩
        · obtain ⟨hinv, -⟩ := hjoined.checkDeinitJob hd rfl
          obtain ⟨hwaiting, hserved, hlog⟩ :=
            checkDeinitJob_lists { c with serviceTask := false, service := .stopped }
          exact ⟨hinv, hmoves.stays hwaiting hserved hlog⟩
      | _ => exact ⟨h, .stay rfl rfl rfl rfl rfl⟩

/-- A later phase is entered with an empty queue. -/
theorem CoreSystem.Inv.toPhase (h : c.Inv config) (hd : c.deinit = .finishing)
    (hcount : c.jobQueue.ring.count = 0) {phase : DeinitPhase} (hphase : phase ≠ .job) :
    CoreSystem.Inv config { c with deinitPhase := phase } := by
  have hat := h.attempting
  rw [hd] at hat
  -- The phase alone changes.
  refine ⟨{ h.toStock with }, ?_, h.toPlaced.congr rfl rfl rfl rfl id fun htask hq => ⟨htask, hq⟩,
    h.toSessions.congr rfl rfl rfl rfl h.registering⟩
  exact { h.toControl with
    unlocked := by
      intro hunlocked
      have hlock := (h.attempt (by rw [hd]; nofun)).1
      exact Bool.noConfusion (hlock.symm.trans hunlocked)
    attempting := by
      show CoreSystem.Attempting _ c.deinit
      rw [hd]
      exact ⟨hat.1, hphase⟩
    phase := fun _ => h.phase hat.2
    drained := fun _ => hcount
    opened := fun _ hjob => absurd hjob hphase }

/-- `finishLock`: the lock goes, and with it the core. -/
theorem CoreSystem.Inv.finishLock (h : c.Inv config) (hd : c.deinit = .finishing)
    (hcount : c.jobQueue.ring.count = 0) (env : FinishEnv) :
    (c.finishLock env).Inv config ∧ c.Moves (c.finishLock env) := by
  have hne : c.deinit ≠ .idle := by
    rw [hd]
    rintro ⟨⟩
  have hslots : c.deinit.slots = [] := by
    rw [hd]
    rfl
  have hat := h.attempting
  rw [hd] at hat
  have htask := hat.1
  have hstopped := h.stopped htask
  -- The ring is empty and there is no service, so no request is left.
  have hwaiting := h.waiting_nil htask hcount
  have hserved := h.served_nil htask
  unfold CoreSystem.finishLock
  cases env.lockDestroy with
  -- The mutex stays: the phase is kept for the retry.
  | error e =>
    refine ⟨?_, .stay rfl rfl rfl rfl rfl⟩
    have hphase : CoreSystem.Inv config { c with deinitPhase := .lock } :=
      h.toPhase hd hcount (by rintro ⟨⟩)
    exact hphase.clearFinalizing hslots
  -- The core is UNINIT: no lock, no task, nothing pending.
  | ok _ =>
    refine ⟨⟨?_, ?_, ?_, ?_⟩, .stay rfl rfl rfl rfl rfl⟩
    · exact { h.toStock with
        accounted := by
          have := h.accounted
          rw [held, hd] at this
          exact this
        deinit := trivial }
    · exact { h.toControl with
        unlocked := fun _ => ⟨rfl, htask, rfl, rfl, hcount⟩
        callback := by rintro ⟨⟩
        admitted := by
          intro r pc hr
          cases (h.api_idle hne).symm.trans hr
        attempt := fun hne => absurd rfl hne
        attempting := trivial
        phase := fun hne => absurd rfl hne
        drained := by rintro (hx | hx) <;> cases hx
        opened := by rintro ⟨⟩ }
    · exact {
        init := by
          show ∀ r ∈ c.waiting, _
          rw [hwaiting]
          rintro _ ⟨⟩
        quiet := fun htask' => Bool.noConfusion (htask.symm.trans htask')
        ran := by
          show ∀ r ∈ c.served, _
          rw [hserved]
          rintro _ ⟨⟩
        done := fun hdone => Bool.noConfusion hdone.1 }
    · exact {
        apart := by
          show _ → c.waiting.Pairwise _
          rw [hwaiting]
          exact fun _ => .nil
        refused := by
          show _ → ∀ r ∈ c.waiting, _
          rw [hwaiting]
          rintro _ _ ⟨⟩
        session := by rintro (hs | hs) <;> cases hs
        pending := by rintro ⟨⟩
        registering := by
          intro idx hidx
          cases hstopped.symm.trans hidx }

/-- `finishPool`. -/
theorem CoreSystem.Inv.finishPool (h : c.Inv config) (hd : c.deinit = .finishing)
    (hcount : c.jobQueue.ring.count = 0) (env : FinishEnv) :
    (c.finishPool env).Inv config ∧ c.Moves (c.finishPool env) := by
  have hslots : c.deinit.slots = [] := by
    rw [hd]
    rfl
  unfold CoreSystem.finishPool
  cases env.poolDeinit with
  | error e =>
    refine ⟨?_, .stay rfl rfl rfl rfl rfl⟩
    have hphase : CoreSystem.Inv config { c with deinitPhase := .pool } :=
      h.toPhase hd hcount nofun
    exact hphase.clearFinalizing hslots
  | ok _ => exact h.finishLock hd hcount env

/-- The end of `actrust_deinit` looks at no job. -/
theorem CoreSystem.finishPool_lists (c : CoreSystem) (env : FinishEnv) :
    (c.finishPool env).waiting = c.waiting ∧ (c.finishPool env).served = c.served ∧
      (c.finishPool env).log = c.log := by
  unfold finishPool
  cases env.poolDeinit with
  | error e => exact ⟨rfl, rfl, rfl⟩
  | ok _ =>
    dsimp only
    unfold finishLock
    cases env.lockDestroy <;> exact ⟨rfl, rfl, rfl⟩

/-- `finishQueue`: what is queued is drained, and then the ring has to be empty. -/
theorem CoreSystem.Inv.finishQueue (h : c.Inv config) (hd : c.deinit = .finishing)
    (hphase : c.deinitPhase = .queue) (env : FinishEnv) :
    (c.finishQueue env).Inv config ∧ c.Moves (c.finishQueue env) := by
  have hne : c.deinit ≠ .idle := by
    rw [hd]
    nofun
  have hslots : c.deinit.slots = [] := by
    rw [hd]
    rfl
  -- The service has been joined, so it holds neither a slot nor a token.
  have hat := h.attempting
  have hheld := h.accounted
  have hitems := h.items
  have hwaiters := h.waiters
  rw [hd] at hat
  have hstopped := h.stopped hat.1
  rw [held, h.api_idle hne, hd, queuedOrServed, hstopped] at hheld
  rw [hstopped] at hitems hwaiters
  -- nobody waits, so nobody is woken
  have hclose : (actrustJobQueueClose c.jobQueue).ring = c.jobQueue.ring ∧
      (actrustJobQueueClose c.jobQueue).waiterCount = c.jobQueue.waiterCount ∧
      (actrustJobQueueClose c.jobQueue).semItems = c.jobQueue.semItems := by
    unfold actrustJobQueueClose
    split_ifs
    · exact ⟨rfl, rfl, rfl⟩
    · exact ⟨rfl, rfl, by rw [hwaiters]; rfl⟩
  unfold CoreSystem.finishQueue
  cases env.close with
  -- A queue that cannot be closed leaves the phase where it is.
  | error e => exact ⟨h.clearFinalizing hslots, .stay rfl rfl rfl rfl rfl⟩
  | ok _ =>
    dsimp only
    -- The drain of the closed queue, with the tokens as many as the jobs.
    have hdrained : Drained config.jobPoolSize c.jobPool (actrustJobQueueClose c.jobQueue) _ _ :=
      coreDrainPendingJobs_drained env.drain (by rw [hclose.1]; exact hheld)
        (by rw [hclose.1]; exact h.ring) (by rw [hclose.1, hclose.2.2]; exact hitems)
    generalize coreDrainPendingJobs c.jobPool (actrustJobQueueClose c.jobQueue) env.drain = out
      at hdrained
    have hdrain : CoreSystem.Inv config
          { c with jobPool := out.1, jobQueue := out.2, deinit := .finishing } ∧
        c.Moves { c with jobPool := out.1, jobQueue := out.2, deinit := .finishing } :=
      h.drainQueue hne hat.1 hclose.1 hclose.2.1 (fun hjob => by cases hphase.symm.trans hjob)
        hdrained rfl trivial hat (.inr hphase)
    rw [← hd] at hdrain
    obtain ⟨hinv, hmoves⟩ := hdrain
    split
    · -- The queue still has jobs or waiters: the attempt gives up in this phase.
      exact ⟨hinv.clearFinalizing hslots, hmoves.stays rfl rfl rfl⟩
    · exact ⟨hinv.clearFinalizing hslots, hmoves.stays rfl rfl rfl⟩
    -- The queue was found empty, so the pool is next.
    next hcheck _ =>
      have hcount : out.2.ring.count = 0 := by
        unfold actrustJobQueueDeinit at hcheck
        split_ifs at hcheck with hready
        exact hready.2.1
      obtain ⟨hinv', -⟩ := hinv.finishPool hd hcount env
      obtain ⟨hwaiting, hserved, hlog⟩ :=
        finishPool_lists { c with jobPool := out.1, jobQueue := out.2 } env
      exact ⟨hinv', hmoves.stays hwaiting hserved hlog⟩

/-- The later phases, from the one the deinit has reached. -/
theorem CoreSystem.Inv.finishDeinit (h : c.Inv config) (hd : c.deinit = .finishing)
    (env : FinishEnv) :
    (c.finishDeinit env).Inv config ∧ c.Moves (c.finishDeinit env) := by
  have hat := h.attempting
  rw [hd] at hat
  unfold CoreSystem.finishDeinit
  split
  next hphase => exact absurd hphase hat.2
  next hphase => exact h.finishQueue hd hphase env
  next hphase => exact h.finishPool hd (h.drained (.inl hphase)) env
  next hphase => exact h.finishLock hd (h.drained (.inr hphase)) env

/-- A section of `actrust_deinit` keeps the invariant. -/
theorem CoreSystem.Inv.deinitStep (h : c.Inv config) (env : DeinitEnv) :
    (c.deinitStep env).Inv config ∧ c.Moves (c.deinitStep env) := by
  cases hd : c.deinit with
  | idle =>
    unfold CoreSystem.deinitStep
    rw [hd]
    exact ⟨h, .stay rfl rfl rfl rfl rfl⟩
  | posting request previous start pc => exact h.deinitPosting env hd
  | starting previous => exact h.deinitStarting env hd
  | restoring previous =>
    unfold CoreSystem.deinitStep
    rw [hd]
    exact h.deinitRestoring hd
  | joining =>
    unfold CoreSystem.deinitStep
    rw [hd]
    exact h.deinitJoining env.join hd
  | finishing =>
    unfold CoreSystem.deinitStep
    rw [hd]
    exact h.finishDeinit hd env.finish

end Deinit

end TrustSdk.Core.Service
