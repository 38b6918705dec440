import TrustSdk.Core.Dispatch

/-!
# Whether the service is there

A core that is READY, UNREGISTERED or REGISTERED, and whose deinit is not pending, should have a
service that runs and an open queue, and the contexts that its jobs work with.

A deinit whose job has failed has ended the service, and has released a part of the contexts. When
it is tried again and its job cannot be posted, or the service cannot be started,
`core_deinit_restore_state` restores READY all the same (`not_service_available`).

`Dependable` is the condition that no step meets this, and that the service does not end because it
cannot wait. In every run of such steps the property holds (`service_available`). The invariant is
`Serviced`: a DEINIT is the last of the jobs, so the service ends with an empty queue.
-/

namespace TrustSdk.Core.Service

open RingBuffer Machine

/-! ### The property and the condition -/

/-- READY, UNREGISTERED or REGISTERED. -/
def CoreSystem.Serving (c : CoreSystem) : Prop := c.state = .ready ∨ c.InSession

/-- The task of the service runs. -/
def CoreSystem.Running (c : CoreSystem) : Prop :=
  c.serviceTask = true ∧ c.service ≠ .stopped ∧ c.service ≠ .exited

/-- The jobs that are posted for a call of the API other than `actrust_init`, `actrust_deinit`. -/
def Called (type : JobType) : Prop := type = .connect ∨ OfSession type

/-- The service, the queue and the contexts are there, and no job that has been accepted waits
without them. -/
structure CoreSystem.Available (c : CoreSystem) : Prop where
  serving : c.Serving → c.deinitPending = false →
    c.Running ∧ c.jobQueue.closed = false ∧ c.contexts.Live
  accepted : ∀ request ∈ c.waiting, Called request.type → c.Running ∧ c.contexts.Live

/-- The attempt has found no service. -/
def DeinitPc.Starts : DeinitPc → Prop
  | .posting _ _ start _ => start = true
  | .starting _ => True
  | _ => False

/-- The wait of the service succeeds, and an attempt that has found no service can post its job and
start one. -/
def CoreSystem.Dependable (c : CoreSystem) : CoreAction → Prop
  | .service env => env.semWait = .ok ()
  | .deinitStep env => c.deinit.Starts → env.post.semPost = .ok () ∧ env.serviceStart = .ok ()
  | _ => True

instance : DecidablePred DeinitPc.Starts
  | .posting _ _ start _ => inferInstanceAs (Decidable (start = true))
  | .starting _ => .isTrue trivial
  | .idle | .restoring _ | .joining | .finishing => .isFalse id

instance (c : CoreSystem) (action : CoreAction) : Decidable (c.Dependable action) := by
  cases action <;> unfold CoreSystem.Dependable <;> infer_instance

/-! ### The invariant -/

/-- The invariant: where the service is needed, it is there or about to be started. -/
structure CoreSystem.Serviced (c : CoreSystem) : Prop where
  up : c.lock = true →
    (c.deinitPending = false ∨ c.deinit.BeforePost ∧ ¬c.deinit.Starts) →
    c.serviceTask = true ∧ c.service ≠ .exited
  last : ∀ request ∈ (c.served ++ c.waiting).dropLast, request.type ≠ .deinit
  exited : c.service = .exited → c.waiting = []
  stopped : c.serviceTask = false → c.waiting = [] ∨
    ∃ request previous, c.deinit = .starting previous ∧ c.waiting = [request] ∧
      request.type = .deinit
  starts : ∀ request previous pc, c.deinit = .posting request previous true pc →
    ∀ idx e, pc ≠ .releasing idx e
  live : c.Serving → c.contexts.Live
  jobs : ∀ request ∈ c.waiting, Called request.type → c.contexts.Live
  previous : ((∃ request pc, c.deinit = .posting request .ready false pc) ∨
    c.deinit = .restoring .ready) → c.contexts.Live

section Steps

variable {config : CoreConfig} {c c' : CoreSystem}

/-- No job yet. -/
theorem CoreSystem.initial_lists (config : CoreConfig) :
    (initial config).waiting = [] ∧ (initial config).served = [] := ⟨rfl, rfl⟩

/-- Nothing is promised of an UNINIT core. -/
theorem CoreSystem.serviced_initial (config : CoreConfig) : (initial config).Serviced := by
  obtain ⟨hwaiting, hserved⟩ := initial_lists config
  exact {
    up := fun hlock => Bool.noConfusion hlock
    last := by
      rw [hwaiting, hserved]
      nofun
    exited := nofun
    stopped := fun _ => .inl hwaiting
    starts := by
      intro request previous pc hd
      cases hd
    live := by rintro (hs | hs | hs) <;> cases hs
    jobs := by
      rw [hwaiting]
      nofun
    previous := by rintro (⟨_, _, hd⟩ | hd) <;> cases hd }

/-- A list that is shorter at its front is so without its last element. -/
theorem dropLast_subset {s w w' : List Request} (h : w' <:+ w) :
    (s ++ w').dropLast ⊆ (s ++ w).dropLast := by
  obtain ⟨t, rfl⟩ := h
  -- By whether anything is left of the tail.
  rcases List.eq_nil_or_concat w' with rfl | ⟨l, a, rfl⟩
  · rw [List.append_nil, List.append_nil]
    rcases List.eq_nil_or_concat t with rfl | ⟨t, b, rfl⟩
    · rw [List.append_nil]
      exact List.Subset.refl _
    · rw [List.concat_eq_append, ← List.append_assoc, List.dropLast_concat]
      exact fun r hr => List.mem_append_left _ (List.dropLast_subset _ hr)
  · rw [List.concat_eq_append, ← List.append_assoc, ← List.append_assoc, ← List.append_assoc,
      List.dropLast_concat, List.dropLast_concat]
    intro r hr
    rcases List.mem_append.mp hr with hr | hr
    · exact List.mem_append_left _ (List.mem_append_left _ hr)
    · exact List.mem_append_right _ hr

/-- A step that neither queues a job nor ends one. -/
-- Each field reads the parts that are equal; the lists have only lost requests.
theorem CoreSystem.Serviced.congr (h : c.Serviced) (hwaiting : c'.waiting <:+ c.waiting)
    (hserved : c'.served = c.served) (hlock : c'.lock = c.lock) (hstate : c'.state = c.state)
    (hpending : c'.deinitPending = c.deinitPending) (hcontexts : c'.contexts.Live ↔ c.contexts.Live)
    (hdeinit : c'.deinit = c.deinit) (htask : c'.serviceTask = c.serviceTask)
    (hservice : c'.service = .exited → c.service = .exited) : c'.Serviced where
  up hl hp := by
    rw [hlock] at hl
    rw [hpending, hdeinit] at hp
    rw [htask]
    exact ⟨(h.up hl hp).1, fun hs => (h.up hl hp).2 (hservice hs)⟩
  -- Fewer wait, so fewer stand before the last.
  last r hr := by
    rw [hserved] at hr
    exact h.last r (dropLast_subset hwaiting hr)
  exited hs := by
    rw [h.exited (hservice hs)] at hwaiting
    exact List.suffix_nil.mp hwaiting
  -- The one DEINIT an attempt left for the service it starts may go, but nothing comes.
  stopped hs := by
    rw [htask] at hs
    rw [hdeinit]
    rcases h.stopped hs with hnil | ⟨r, previous, hd, hone, htype⟩
    · rw [hnil] at hwaiting
      exact .inl (List.suffix_nil.mp hwaiting)
    · rw [hone] at hwaiting
      rcases List.suffix_cons_iff.mp hwaiting with hsame | hnil
      · exact .inr ⟨r, previous, hd, hsame, htype⟩
      · exact .inl (List.suffix_nil.mp hnil)
  starts := by
    rw [hdeinit]
    exact h.starts
  -- State and contexts are read by the last three fields alone.
  live := by
    unfold Serving InSession
    rw [hstate, hcontexts]
    exact h.live
  jobs := by
    rw [hcontexts]
    exact fun r hr => h.jobs r (hwaiting.subset hr)
  previous := by
    rw [hdeinit, hcontexts]
    exact h.previous

/-- No job is posted: the attempt has posted its job, or there is none. -/
def DeinitPc.Posted : DeinitPc → Prop
  | .idle => True
  | .joining => True
  | .finishing => True
  | _ => False

/-- A deinit stays pending that waits for the service. -/
theorem CoreSystem.Serviced.settle (h : c.Serviced) (hwaiting : c'.waiting <:+ c.waiting)
    (hserved : c'.served = c.served) (hstate : c'.state = c.state)
    (hcontexts : c'.contexts = c.contexts) (hservice : c'.service = .exited → c.service = .exited)
    (hpending : c'.lock = true → c'.deinitPending = true) (hd : c'.deinit.Posted)
    (hstopped : c'.serviceTask = false → c.waiting = []) : c'.Serviced where
  -- The attempt has posted, so it is not among those that may still give up.
  up hl hp := by
    rcases hp with hp | ⟨hbefore, -⟩
    · exact Bool.noConfusion (hp.symm.trans (hpending hl))
    · cases hdeinit : c'.deinit <;> rw [hdeinit] at hd hbefore <;>
        first | exact hd.elim | exact hbefore.elim
  last r hr := by
    rw [hserved] at hr
    exact h.last r (dropLast_subset hwaiting hr)
  exited hs := by
    rw [h.exited (hservice hs)] at hwaiting
    exact List.suffix_nil.mp hwaiting
  stopped hs := by
    rw [hstopped hs] at hwaiting
    exact .inl (List.suffix_nil.mp hwaiting)
  -- An attempt that has posted does not start a service any more.
  starts request previous pc hpost := by
    rw [hpost] at hd
    exact hd.elim
  live := by
    unfold Serving InSession
    rw [hstate, hcontexts]
    exact h.live
  jobs := by
    rw [hcontexts]
    exact fun r hr => h.jobs r (hwaiting.subset hr)
  previous hp := by
    rcases hp with ⟨_, _, hx⟩ | hx <;> rw [hx] at hd <;> exact hd.elim

/-- A list is not itself with an element more. -/
theorem ne_concat (l : List Request) (r : Request) : l ≠ l ++ [r] :=
  fun hl => nomatch List.self_eq_append_right.mp hl

/-- The lists stand still when the log does, unless a queue is drained. -/
theorem CoreSystem.Moves.of_log (h : c.Moves c') (henqueued : c'.log.enqueued = c.log.enqueued)
    (hexecuted : c'.log.executed = c.log.executed)
    (hcallbacks : c'.log.callbacks = c.log.callbacks) :
    c'.waiting <:+ c.waiting ∧ c'.served = c.served := by
  cases h with
  | stay h1 h2 => exact ⟨h1 ▸ List.suffix_rfl, h2⟩
  | enqueue r _ _ h3 => exact absurd (henqueued.symm.trans h3) (ne_concat _ r)
  | execute r _ _ _ _ h5 => exact absurd (hexecuted.symm.trans h5) (ne_concat _ r)
  | call r _ _ _ _ _ h6 => exact absurd (hcallbacks.symm.trans h6) (ne_concat _ r)
  | drop h1 h2 h3 => exact ⟨h1, h2⟩

/-- An action that queues a request appends it to those waiting. -/
theorem CoreSystem.Moves.of_enqueue {request : Request} (h : c.Moves c')
    (henqueued : c'.log.enqueued = c.log.enqueued ++ [request]) :
    c'.waiting = c.waiting ++ [request] ∧ c'.served = c.served := by
  cases h with
  | stay _ _ h3 => exact absurd (h3.symm.trans henqueued) (ne_concat _ _)
  | enqueue r h1 h2 h3 =>
    have hr : r = request :=
      List.singleton_inj.mp (List.append_cancel_left (h3.symm.trans henqueued))
    exact ⟨hr ▸ h1, h2⟩
  | execute r _ _ _ h4 => exact absurd (h4.symm.trans henqueued) (ne_concat _ _)
  | call r _ _ _ h4 => exact absurd (h4.symm.trans henqueued) (ne_concat _ _)
  | drop _ _ _ h4 => exact absurd (h4.symm.trans henqueued) (ne_concat _ _)

/-- A job is queued with a service that runs, or as the first one. -/
-- The request is last in the list, and the fields about the attempt are given.
theorem CoreSystem.Serviced.push (h : c.Serviced) {request : Request}
    -- Nothing before the new job is a DEINIT, so it may itself be one.
    (hwaiting : c'.waiting = c.waiting ++ [request]) (hserved : c'.served = c.served)
    (hnone : ∀ r ∈ c.served ++ c.waiting, r.type ≠ .deinit)
    (hup : c'.lock = true →
      (c'.deinitPending = false ∨ c'.deinit.BeforePost ∧ ¬c'.deinit.Starts) →
      c'.serviceTask = true ∧ c'.service ≠ .exited)
    (hexited : c'.service ≠ .exited)
    (hstopped : c'.serviceTask = false → c.waiting = [] ∧ request.type = .deinit ∧
      ∃ previous, c'.deinit = .starting previous)
    (hstarts : ∀ request previous pc, c'.deinit = .posting request previous true pc →
      ∀ idx e, pc ≠ .releasing idx e)
    (hstate : c'.state = c.state) (hcontexts : c'.contexts = c.contexts)
    (hrequest : Called request.type → c.contexts.Live)
    (hprevious : ((∃ request pc, c'.deinit = .posting request .ready false pc) ∨
      c'.deinit = .restoring .ready) → c.contexts.Live) : c'.Serviced where
  up := hup
  last := by
    rw [hserved, hwaiting, ← List.append_assoc, List.dropLast_concat]
    exact hnone
  exited hs := absurd hs hexited
  -- Without a service the new job is the DEINIT whose attempt starts one.
  stopped htask := by
    obtain ⟨hnil, htype, previous, hd⟩ := hstopped htask
    rw [hwaiting, hnil]
    exact .inr ⟨request, previous, hd, rfl, htype⟩
  starts := hstarts
  live := by
    unfold Serving InSession
    rw [hstate, hcontexts]
    exact h.live
  -- The new job finds the contexts live, and the older ones did already.
  jobs := by
    rw [hwaiting, hcontexts]
    intro r hr hcalled
    rcases List.mem_append.mp hr with hr | hr
    · exact h.jobs r hr hcalled
    · rw [List.mem_singleton.mp hr] at hcalled
      exact hrequest hcalled
  previous := by
    rw [hcontexts]
    exact hprevious

/-! ### Calls -/

/-- A call changes the pool, the queue and the log. -/
theorem CoreSystem.apiStep_frame (c : CoreSystem) (env : PostEnv) :
    ∃ p q a l, c.apiStep env = { c with jobPool := p, jobQueue := q, api := a, log := l } ∧
      (l.enqueued = c.log.enqueued ∨ ∃ request pc, c.api = .posting request pc ∧
        l.enqueued = c.log.enqueued ++ [request]) ∧
      l.executed = c.log.executed ∧ l.callbacks = c.log.callbacks := by
  unfold apiStep
  split
  · exact ⟨_, _, _, _, rfl, .inl rfl, rfl, rfl⟩
  next request pc hapi =>
    split
    · exact ⟨_, _, _, _, rfl, .inl rfl, rfl, rfl⟩
    · exact ⟨_, _, _, _, rfl, .inl rfl, rfl, rfl⟩
    · exact ⟨_, _, _, _, rfl, .inr ⟨request, pc, hapi, rfl⟩, rfl, rfl⟩

/-- What is admitted is the job of a call. -/
theorem coreAdmits_called {type : JobType} {state : CoreState}
    (h : coreAdmits type state = true) : Called type :=
  (coreAdmits_cases h).imp And.left And.left

/-- A section of a call's post: the job it queues has its service and its contexts. -/
theorem CoreSystem.Serviced.apiStep (h : c.Serviced) (hinv : c.Inv config) (env : PostEnv) :
    (c.apiStep env).Serviced := by
  obtain ⟨-, hmoves⟩ := hinv.apiStep env
  obtain ⟨p, q, a, l, heq, henqueued, hexecuted, hcallbacks⟩ := c.apiStep_frame env
  rw [heq] at hmoves ⊢
  -- The log tells whether a job was queued.
  rcases henqueued with hsame | ⟨request, pc, hapi, hnew⟩
  · obtain ⟨hwaiting, hserved⟩ := hmoves.of_log hsame hexecuted hcallbacks
    exact h.congr hwaiting hserved rfl rfl rfl .rfl rfl rfl id
  · obtain ⟨hwaiting, hserved⟩ := hmoves.of_enqueue hnew
    obtain ⟨hlock, hpending, hadmits⟩ := hinv.admitted request pc hapi
    obtain ⟨htask, hexited⟩ := h.up hlock (.inl hpending)
    have hlive : c.contexts.Live := by
      refine h.live ?_
      -- Admitted means READY or a session, where the contexts are there.
      rcases coreAdmits_cases hadmits with ⟨-, hs⟩ | ⟨-, hs⟩
      · exact .inl hs
      · exact .inr hs
    exact h.push hwaiting hserved (hinv.quiet htask (.inl hpending)) h.up hexited
      (fun hs => Bool.noConfusion (htask.symm.trans hs)) h.starts rfl rfl (fun _ => hlive) h.previous

/-- A call begins, or is rejected. -/
theorem CoreSystem.Serviced.submit (h : c.Serviced) (type : JobType) :
    (c.submit type).Serviced := by
  unfold CoreSystem.submit
  dsimp only
  split_ifs <;> exact h.congr List.suffix_rfl rfl rfl rfl rfl .rfl rfl rfl id

/-- `actrust_init` starts with a service of its own. -/
theorem CoreSystem.Serviced.actrustInit (h : c.Serviced) (hinv : c.Inv config)
    (hapi : c.api = .idle) (env : StartCoreEnv) : (actrustInit config env c).Serviced := by
  obtain ⟨-, hmoves⟩ := hinv.actrustInit hapi env
  unfold Service.actrustInit at hmoves ⊢
  dsimp only at hmoves ⊢
  split_ifs at hmoves ⊢ with hrefused
  · exact h.congr List.suffix_rfl rfl rfl rfl rfl .rfl rfl rfl id
  · -- Only an UNINIT core is initialized: no service, nothing queued, no attempt.
    simp only [not_or, Bool.not_eq_true, Bool.not_eq_false] at hrefused
    obtain ⟨hlock, -, -⟩ := hrefused
    obtain ⟨-, htask, -, -, hcount⟩ := hinv.unlocked hlock
    cases hjobs : initJobs config env ⟨.init, c.log.nextCall⟩ with
    | error e => exact h.congr List.suffix_rfl rfl rfl rfl rfl .rfl rfl rfl id
    | ok out =>
      rw [hjobs] at hmoves
      -- The core was UNINIT, so the INIT is the only request.
      obtain ⟨p, q⟩ := out
      obtain ⟨hwaiting, hserved⟩ :=
        @CoreSystem.Moves.of_enqueue c _ ⟨.init, c.log.nextCall⟩ hmoves rfl
      rw [hinv.waiting_nil htask hcount] at hwaiting
      rw [hinv.served_nil htask] at hserved
      have hdeinit : c.deinit = .idle := by
        by_contra hne
        rw [(hinv.attempt hne).1] at hlock
        cases hlock
      -- INIT asks nothing of the contexts, so the fields about them are void.
      exact {
        up := fun _ _ => ⟨rfl, nofun⟩
        last := by
          rw [hserved, hwaiting]
          nofun
        exited := nofun
        stopped := nofun
        starts := by
          intro request previous pc hd
          cases hdeinit.symm.trans hd
        live := by rintro (hs | hs | hs) <;> cases hs
        jobs := by
          rw [hwaiting]
          intro r hr hcalled
          rw [List.mem_singleton.mp hr] at hcalled
          rcases hcalled with hc | hc <;> cases hc
        previous := by
          rintro (⟨_, _, hd⟩ | hd) <;> cases hdeinit.symm.trans hd }

/-! ### Deinit -/

/-- `actrust_deinit` begins where there is a service, or goes on. -/
theorem CoreSystem.Serviced.actrustDeinit (h : c.Serviced) (hinv : c.Inv config) :
    (actrustDeinit c).Serviced := by
  unfold Service.actrustDeinit
  dsimp only
  split_ifs with hrefused hnew hrefused'
  · exact h.congr List.suffix_rfl rfl rfl rfl rfl .rfl rfl rfl id
  · simp only [not_or, Bool.not_eq_true, Bool.not_eq_false] at hrefused
    obtain ⟨hlock, -, -⟩ := hrefused
    -- In READY or INIT_FAILED no deinit is pending.
    have hpending : c.deinitPending = false := by
      by_contra hp
      rcases hinv.pending (Bool.not_eq_false _ ▸ hp) with hs | ⟨hs | hs, -⟩ <;>
        rcases hnew with hn | hn <;> cases hn.symm.trans hs
    obtain ⟨htask, hexited⟩ := h.up hlock (.inl hpending)
    exact {
      up := fun _ _ => ⟨htask, hexited⟩
      last := h.last
      exited := h.exited
      stopped := fun hs => Bool.noConfusion (htask.symm.trans hs)
      starts := by
        intro request previous pc hd idx e hpc
        injection hd with _ _ _ halloc
        cases halloc.trans hpc
      -- The state is DEINITING, which serves no call.
      live := by rintro (hs | hs | hs) <;> cases hs
      jobs := h.jobs
      -- The READY that may be restored had its contexts live.
      previous := by
        rintro (⟨request, pc, hd⟩ | hd)
        · injection hd with _ hready
          exact h.live (.inl hready)
        · cases hd }
  · exact h.congr List.suffix_rfl rfl rfl rfl rfl .rfl rfl rfl id
  · -- A retried deinit: it posts again, waits for its job, or goes on with the end.
    simp only [not_or, Bool.not_eq_true, Bool.not_eq_false] at hrefused hrefused'
    have hidle : c.deinit = .idle := by
      by_contra hne
      rw [(hinv.attempt hne).2.2] at hrefused
      cases hrefused.2.2
    have hstopped : c.serviceTask = false → c.waiting = [] := fun hs =>
      (h.stopped hs).resolve_right fun ⟨_, _, hd, _⟩ => by cases hidle.symm.trans hd
    have hpending : ¬c.deinitPending = false := fun hp =>
      Bool.noConfusion (hp.symm.trans hrefused'.2)
    rcases c.attempt_cases false .ready ⟨.deinit, c.log.nextCall⟩ with
      ⟨ha, -, hnew⟩ | ⟨ha, -⟩ | ⟨ha, -⟩
    · -- The attempt posts again only where no service is left, and then it starts one.
      obtain ⟨htask, -⟩ := hnew.resolve_left nofun
      rw [ha, htask]
      exact {
        up := by
          rintro _ (hp | ⟨-, hstarts⟩)
          · exact absurd hp hpending
          · exact absurd rfl hstarts
        last := h.last
        exited := h.exited
        stopped := fun _ => .inl (hstopped htask)
        starts := by
          intro request previous pc hd idx e hpc
          injection hd with _ _ _ halloc
          cases halloc.trans hpc
        live := h.live
        jobs := h.jobs
        previous := by
          rintro (⟨request, pc, hd⟩ | hd)
          · injection hd with _ _ hstart
            cases hstart
          · cases hd }
    · -- Where the service still runs, the attempt waits for it or goes on with the end.
      rw [ha]
      exact h.settle List.suffix_rfl rfl rfl rfl id (fun _ => hrefused'.2) trivial hstopped
    · rw [ha]
      exact h.settle List.suffix_rfl rfl rfl rfl id (fun _ => hrefused'.2) trivial hstopped

/-- Without a service an attempt can post its job. -/
theorem corePostJob_starts {env : PostEnv} (hinv : c.Inv config) {request : Request}
    {previous : CoreState} {start : Bool} {pc : PostPc}
    (hd : c.deinit = .posting request previous start pc) (htask : c.serviceTask = false)
    (hwaiting : c.waiting = []) (hpc : ∀ idx e, pc ≠ .releasing idx e)
    (hsem : env.semPost = .ok ()) :
    (∃ idx p, corePostJob env request c.jobPool c.jobQueue pc
      = (.next (.enqueuing idx), p, c.jobQueue)) ∨
    ∃ q, corePostJob env request c.jobPool c.jobQueue pc = (.returned (.ok ()), c.jobPool, q) := by
  have hne : c.deinit ≠ .idle := by
    rw [hd]
    nofun
  have hat := hinv.attempting
  have hcarries := hinv.toStock.deinit
  have hheld := hinv.accounted
  rw [hd] at hat hcarries
  have hqueued : c.queued = [] := by
    unfold CoreSystem.waiting JobPool.requests at hwaiting
    rw [hinv.stopped htask] at hwaiting
    exact List.map_eq_nil_iff.mp hwaiting
  -- The first section takes a free slot, as there is no job; the second finds room in an empty
  -- ring.
  cases pc with
  | allocating =>
    rw [CoreSystem.held, hinv.api_idle hne, hd, CoreSystem.queuedOrServed, hinv.stopped htask, hqueued] at hheld
    have hsize := config.jobPoolSize_range.1
    obtain ⟨idx, p, halloc⟩ := JobPool.Accounted.exists_alloc hheld (by omega) request
    refine .inl ⟨idx, p, ?_⟩
    dsimp only [corePostJob]
    rw [halloc]
  | enqueuing idx =>
    have hopen := hinv.opened (hinv.attempt hne).1 hat.1
    have hcount : c.jobQueue.ring.count = 0 := Fifo.toList_eq_nil.mp hqueued
    have hcapacity := config.jobQueueCapacity_range.1
    have henqueue : actrustJobQueueEnqueue c.jobQueue (.ok ()) idx = .ok
        { c.jobQueue with
          ring := c.jobQueue.ring.push idx, semItems := c.jobQueue.semItems + 1 } := by
      unfold actrustJobQueueEnqueue
      rw [if_neg (by rw [hopen]; exact Bool.false_ne_true), hcount, hinv.depth,
        if_neg (by omega)]
    refine .inr ⟨{ c.jobQueue with
      ring := c.jobQueue.ring.push idx, semItems := c.jobQueue.semItems + 1 }, ?_⟩
    dsimp only [corePostJob]
    rw [hcarries.1, hsem, henqueue]
    rfl
  | releasing idx e => exact absurd rfl (hpc idx e)

/-- A section in which a deinit posts its job. -/
theorem CoreSystem.Serviced.deinitPosting (h : c.Serviced) (hinv : c.Inv config)
    {env : DeinitEnv} {request : Request} {previous : CoreState} {start : Bool} {pc : PostPc}
    (hd : c.deinit = .posting request previous start pc)
    (hsem : start = true → env.post.semPost = .ok ()) : (c.deinitStep env).Serviced := by
  have hne : c.deinit ≠ .idle := by
    rw [hd]
    nofun
  -- An attempt under way holds the lock and is pending.
  obtain ⟨hlock, hpending, -⟩ := hinv.attempt hne
  have hpending' : ¬c.deinitPending = false := fun hp => Bool.noConfusion (hp.symm.trans hpending)
  have hat := hinv.attempting
  have htype := hinv.toStock.deinit
  rw [hd] at hat htype
  obtain ⟨-, -, -, hstart⟩ := hat
  obtain ⟨-, hmoves⟩ := hinv.deinitPosting env hd
  unfold CoreSystem.deinitStep at hmoves ⊢
  rw [hd] at hmoves ⊢
  dsimp only at hmoves ⊢
  -- Without a service the post succeeds; with one it may give up, and the service is still there.
  cases start with
  | true =>
    -- It starts a service, so none runs and nothing waits.
    have htask : c.serviceTask = false := of_decide_eq_true hstart.symm
    have hwaiting : c.waiting = [] := (h.stopped htask).resolve_right fun ⟨_, _, hx, _⟩ => by
      cases hd.symm.trans hx
    have hserved := hinv.served_nil htask
    have hstopped := hinv.stopped htask
    rcases corePostJob_starts hinv hd htask hwaiting (h.starts _ _ _ hd) (hsem rfl) with
      ⟨idx, p, hpost⟩ | ⟨q, hpost⟩
    · -- The post goes on; nothing has been queued yet.
      rw [hpost] at hmoves ⊢
      obtain ⟨hwaiting', hserved'⟩ := hmoves.of_log rfl rfl rfl
      rw [hwaiting, List.suffix_nil] at hwaiting'
      rw [hserved] at hserved'
      exact {
        up := by
          rintro _ (hp | ⟨-, hstarts⟩)
          · exact absurd hp hpending'
          · exact absurd rfl hstarts
        last := by
          rw [hserved', hwaiting']
          nofun
        exited := fun _ => hwaiting'
        stopped := fun _ => .inl hwaiting'
        starts := by
          intro request previous pc hpc idx e he
          injection hpc with _ _ _ hpc
          cases hpc.trans he
        live := h.live
        jobs := by
          rw [hwaiting']
          nofun
        previous := by
          rintro (⟨_, _, hx⟩ | hx)
          · injection hx with _ _ hstart
            cases hstart
          · cases hx }
    · -- The DEINIT is queued and the next section starts its service.
      rw [hpost] at hmoves ⊢
      obtain ⟨hwaiting', hserved'⟩ := hmoves.of_enqueue rfl
      refine h.push hwaiting' hserved' ?_ ?_ ?_ ?_ ?_ rfl rfl ?_ ?_
      · rw [hserved, hwaiting]
        nofun
      · rintro _ (hp | ⟨hbefore, -⟩)
        · exact absurd hp hpending'
        · exact hbefore.elim
      · show c.service ≠ .exited
        rw [hstopped]
        nofun
      · exact fun _ => ⟨hwaiting, htype.1, previous, rfl⟩
      · intro request previous pc hx
        cases hx
      · rw [htype.1]
        rintro (hx | hx) <;> cases hx
      · rintro (⟨_, _, hx⟩ | hx) <;> cases hx
  | false =>
    -- It starts no service, so there is one, which `up` has.
    have hbefore : c.deinit.BeforePost ∧ ¬c.deinit.Starts := by
      rw [hd]
      exact ⟨trivial, Bool.false_ne_true⟩
    obtain ⟨htask, hexited⟩ := h.up hlock (.inr hbefore)
    have hquiet := hinv.quiet htask (.inr hbefore.1)
    have hlive : previous = .ready → c.contexts.Live := by
      rintro rfl
      exact h.previous (.inl ⟨request, pc, hd⟩)
    generalize corePostJob env.post request c.jobPool c.jobQueue pc = out at hmoves ⊢
    obtain ⟨pc' | result, p, q⟩ := out
    · -- The post goes on, in the pool or the queue.
      obtain ⟨hwaiting, hserved⟩ := hmoves.of_log rfl rfl rfl
      exact {
        up := fun _ _ => ⟨htask, hexited⟩
        last := fun r hr => h.last r (dropLast_subset hwaiting (hserved ▸ hr))
        exited := fun hs => absurd hs hexited
        stopped := fun hs => Bool.noConfusion (htask.symm.trans hs)
        starts := by
          intro request previous pc hx
          cases hx
        live := h.live
        jobs := fun r hr => h.jobs r (hwaiting.subset hr)
        previous := by
          rintro (⟨_, _, hx⟩ | hx)
          · injection hx with _ hprevious
            exact hlive hprevious
          · cases hx }
    · cases result with
      -- The post failed: the old state is restored, and the service goes on as it was.
      | error e =>
        obtain ⟨hwaiting, hserved⟩ := hmoves.of_log rfl rfl rfl
        exact {
          up := fun _ _ => ⟨htask, hexited⟩
          last := fun r hr => h.last r (dropLast_subset hwaiting (hserved ▸ hr))
          exited := fun hs => absurd hs hexited
          stopped := fun hs => Bool.noConfusion (htask.symm.trans hs)
          starts := by
            intro request previous pc hx
            cases hx
          live := h.live
          jobs := fun r hr => h.jobs r (hwaiting.subset hr)
          previous := by
            rintro (⟨_, _, hx⟩ | hx)
            · cases hx
            · injection hx with hprevious
              exact hlive hprevious }
      -- The DEINIT is queued behind jobs of which none is one.
      | ok _ =>
        obtain ⟨hwaiting, hserved⟩ := hmoves.of_enqueue rfl
        refine h.push hwaiting hserved hquiet ?_ hexited ?_ ?_ rfl rfl ?_ ?_
        · exact fun _ _ => ⟨htask, hexited⟩
        · exact fun hs => Bool.noConfusion (htask.symm.trans hs)
        · intro request previous pc hx
          cases hx
        · rw [htype.1]
          rintro (hx | hx) <;> cases hx
        · rintro (⟨_, _, hx⟩ | hx) <;> cases hx

/-- The last section of a deinit: it stays pending, or the core is UNINIT. -/
theorem CoreSystem.finishDeinit_frame (c : CoreSystem) (env : FinishEnv) :
    (c.finishDeinit env).serviceTask = c.serviceTask ∧
    (c.finishDeinit env).service = c.service ∧
    (c.finishDeinit env).contexts = c.contexts ∧
    (c.finishDeinit env).deinit = .idle ∧
    (c.finishDeinit env).log = c.log ∧
    ((c.finishDeinit env).lock = c.lock ∧ (c.finishDeinit env).state = c.state ∧
        (c.finishDeinit env).deinitPending = c.deinitPending ∨
      (c.finishDeinit env).lock = false ∧ (c.finishDeinit env).state = .uninit ∧
        (c.finishDeinit env).deinitPending = false) := by
  -- The last section either keeps the lock and the state, or takes both away.
  have hlock : ∀ c : CoreSystem, (c.finishLock env).serviceTask = c.serviceTask ∧
      (c.finishLock env).service = c.service ∧ (c.finishLock env).contexts = c.contexts ∧
      (c.finishLock env).deinit = .idle ∧ (c.finishLock env).log = c.log ∧
      ((c.finishLock env).lock = c.lock ∧ (c.finishLock env).state = c.state ∧
          (c.finishLock env).deinitPending = c.deinitPending ∨
        (c.finishLock env).lock = false ∧ (c.finishLock env).state = .uninit ∧
          (c.finishLock env).deinitPending = false) := by
    -- The phases are followed backwards, from the lock to the queue.
    intro c
    unfold finishLock
    split
    · exact ⟨rfl, rfl, rfl, rfl, rfl, .inl ⟨rfl, rfl, rfl⟩⟩
    · exact ⟨rfl, rfl, rfl, rfl, rfl, .inr ⟨rfl, rfl, rfl⟩⟩
  have hpool : ∀ c : CoreSystem, (c.finishPool env).serviceTask = c.serviceTask ∧
      (c.finishPool env).service = c.service ∧ (c.finishPool env).contexts = c.contexts ∧
      (c.finishPool env).deinit = .idle ∧ (c.finishPool env).log = c.log ∧
      ((c.finishPool env).lock = c.lock ∧ (c.finishPool env).state = c.state ∧
          (c.finishPool env).deinitPending = c.deinitPending ∨
        (c.finishPool env).lock = false ∧ (c.finishPool env).state = .uninit ∧
          (c.finishPool env).deinitPending = false) := by
    intro c
    unfold finishPool
    split
    · exact ⟨rfl, rfl, rfl, rfl, rfl, .inl ⟨rfl, rfl, rfl⟩⟩
    · exact hlock c
  -- From the phase the attempt left off in; a failing one leaves it there.
  unfold finishDeinit
  split
  · exact ⟨rfl, rfl, rfl, rfl, rfl, .inl ⟨rfl, rfl, rfl⟩⟩
  · unfold finishQueue
    split
    · exact ⟨rfl, rfl, rfl, rfl, rfl, .inl ⟨rfl, rfl, rfl⟩⟩
    · dsimp only
      split
      · exact ⟨rfl, rfl, rfl, rfl, rfl, .inl ⟨rfl, rfl, rfl⟩⟩
      · exact ⟨rfl, rfl, rfl, rfl, rfl, .inl ⟨rfl, rfl, rfl⟩⟩
      · exact hpool _
  · exact hpool c
  · exact hlock c

/-- The later phases of a deinit: the core ends in UNINIT, or stays as it is. -/
theorem CoreSystem.Serviced.finishDeinit (h : c.Serviced) (hinv : c.Inv config)
    (hd : c.deinit = .finishing) (env : FinishEnv) : (c.finishDeinit env).Serviced := by
  have hat := hinv.attempting
  have hpending := (hinv.attempt (by rw [hd]; nofun)).2.1
  rw [hd] at hat
  -- At its end the service is gone and has left nothing in the queue.
  have htask := hat.1
  have hwaiting : c.waiting = [] := (h.stopped htask).resolve_right fun ⟨_, _, hx, _⟩ => by
    cases hd.symm.trans hx
  obtain ⟨-, hmoves⟩ := hinv.finishDeinit hd env
  obtain ⟨htask', hservice, hcontexts, hidle, hlog, hend⟩ := c.finishDeinit_frame env
  obtain ⟨hwaiting', hserved'⟩ := hmoves.of_log (by rw [hlog]) (by rw [hlog]) (by rw [hlog])
  -- It has come to its end, or goes on in the next attempt.
  rcases hend with ⟨-, hstate, hpending'⟩ | ⟨hlock, hstate, -⟩
  · exact h.settle hwaiting' hserved' hstate hcontexts (fun hs => hservice.symm.trans hs)
      (fun _ => hpending'.trans hpending) (by rw [hidle]; trivial) fun _ => hwaiting
  · -- The core is UNINIT again, which promises nothing.
    rw [hwaiting, List.suffix_nil] at hwaiting'
    rw [hinv.served_nil htask] at hserved'
    exact {
      up := fun hl => Bool.noConfusion (hlock.symm.trans hl)
      last := by
        rw [hserved', hwaiting']
        nofun
      exited := fun _ => hwaiting'
      stopped := fun _ => .inl hwaiting'
      starts := by
        intro request previous pc hx
        cases hidle.symm.trans hx
      live := by rintro (hs | hs | hs) <;> cases hstate.symm.trans hs
      jobs := by
        rw [hwaiting']
        nofun
      previous := by rintro (⟨_, _, hx⟩ | hx) <;> cases hidle.symm.trans hx }

/-- The look at the deinit's result, with no job left. -/
theorem CoreSystem.Serviced.checkDeinitJob (h : c.Serviced) (hpending : c.deinitPending = true)
    (hwaiting : c.waiting = []) : c.checkDeinitJob.Serviced := by
  unfold CoreSystem.checkDeinitJob
  split_ifs
  · exact h.settle List.suffix_rfl rfl rfl rfl id (fun _ => hpending) trivial fun _ => hwaiting
  · split
    · exact h.settle List.suffix_rfl rfl rfl rfl id (fun _ => hpending) trivial fun _ => hwaiting
    · exact h.settle List.suffix_rfl rfl rfl rfl id (fun _ => hpending) trivial fun _ => hwaiting

/-- The wait of a deinit for the service. -/
theorem CoreSystem.Serviced.joinService (h : c.Serviced) (hinv : c.Inv config)
    (hd : c.deinit = .joining) (join : Except Err Unit) : (c.joinService join).Serviced := by
  have hpending := (hinv.attempt (by rw [hd]; nofun)).2.1
  have hstopped : c.serviceTask = false → c.waiting = [] := fun hs =>
    (h.stopped hs).resolve_right fun ⟨_, _, hx, _⟩ => by cases hd.symm.trans hx
  unfold CoreSystem.joinService
  split_ifs with htask
  · exact h.checkDeinitJob hpending (hstopped htask)
  · -- The service still runs, has exited, or has nothing to join.
    split
    · exact h.settle List.suffix_rfl rfl rfl rfl id (fun _ => hpending) trivial hstopped
    next hservice =>
      have hwaiting := h.exited hservice
      obtain ⟨-, hmoves⟩ := hinv.joined hd hservice
      obtain ⟨hwaiting', hserved'⟩ := hmoves.of_log rfl rfl rfl
      have hjoined : CoreSystem.Serviced { c with serviceTask := false, service := .stopped } := by
        refine h.settle hwaiting' hserved' rfl rfl ?_ (fun _ => hpending) ?_ fun _ => hwaiting
        · nofun
        · show c.deinit.Posted
          rw [hd]
          trivial
      rw [hwaiting, List.suffix_nil] at hwaiting'
      dsimp only
      split
      · exact hjoined.settle List.suffix_rfl rfl rfl rfl id (fun _ => hpending) trivial
          fun _ => hwaiting'
      · exact hjoined.checkDeinitJob hpending hwaiting'
    · exact h

/-- A section of `actrust_deinit`. -/
theorem CoreSystem.Serviced.deinitStep (h : c.Serviced) (hinv : c.Inv config) {env : DeinitEnv}
    (hdep : c.Dependable (.deinitStep env)) : (c.deinitStep env).Serviced := by
  obtain ⟨-, hmoves⟩ := hinv.deinitStep env
  cases hd : c.deinit with
  | idle =>
    unfold CoreSystem.deinitStep
    rw [hd]
    exact h
  | posting request previous start pc =>
    -- An attempt that has found no service depends on its post.
    refine h.deinitPosting hinv hd fun hstart => ?_
    rw [hstart] at hd
    exact (hdep (by rw [hd]; exact rfl)).1
  -- The start succeeds, so a service is there for the job.
  | starting previous =>
    have hstart := (hdep (by rw [hd]; trivial)).2
    have hpending := (hinv.attempt (by rw [hd]; nofun)).2.1
    unfold CoreSystem.deinitStep at hmoves ⊢
    rw [hd, hstart] at hmoves ⊢
    obtain ⟨hwaiting, hserved⟩ := hmoves.of_log rfl rfl rfl
    refine h.settle hwaiting hserved rfl rfl ?_ (fun _ => hpending) trivial ?_
    · nofun
    · nofun
  -- The attempt gives up, and the service it found goes on.
  | restoring previous =>
    have hbefore : c.deinit.BeforePost ∧ ¬c.deinit.Starts := by
      rw [hd]
      exact ⟨trivial, id⟩
    have hlock := (hinv.attempt (by rw [hd]; nofun)).1
    obtain ⟨htask, hexited⟩ := h.up hlock (.inr hbefore)
    have hat := hinv.attempting
    rw [hd] at hat
    unfold CoreSystem.deinitStep
    rw [hd]
    exact {
      up := fun _ _ => ⟨htask, hexited⟩
      last := h.last
      exited := h.exited
      stopped := fun hs => Bool.noConfusion (htask.symm.trans hs)
      starts := by
        intro request previous pc hx
        cases hx
      live := by
        rcases hat.2.1 with hp | hp
        · exact fun _ => h.previous (.inr (hp ▸ hd))
        · rintro (hs | hs | hs) <;> cases hp.symm.trans hs
      jobs := h.jobs
      previous := by rintro (⟨_, _, hx⟩ | hx) <;> cases hx }
  | joining =>
    unfold CoreSystem.deinitStep
    rw [hd]
    exact h.joinService hinv hd env.join
  | finishing =>
    unfold CoreSystem.deinitStep
    rw [hd]
    exact h.finishDeinit hinv hd env.finish

/-! ### The service -/

/-- A job is executed: the contexts stay initialised, unless it is the last of all. -/
theorem CoreSystem.Serviced.executed (h : c.Serviced) (hinv : c.Inv config) {idx : ℕ}
    (hworking : c.service.working = [idx]) {r : OpsResult}
    (hserved : c.served = []) (hrun : c.service ≠ .stopped)
    (hlive : (c.executed idx r).Serving → r.contexts.Live)
    (hkeeps : (c.contexts.Live → r.contexts.Live) ∨
      (c.executed idx r).waiting = [] ∧ ¬c.deinit.BeforePost) : (c.executed idx r).Serviced := by
  obtain ⟨htask, -, -⟩ := hinv.serving hrun
  have hwaiting := c.waiting_executed hworking r
  have hserved' : (c.executed idx r).served = [(c.jobPool.pool idx).request] := rfl
  -- The job executed is the head of those waiting, so the last one is still last.
  exact {
    -- The service that executes the job goes on to its completion.
    up := fun hl hp => ⟨htask, nofun⟩
    last := by
      intro request hr
      refine h.last request ?_
      rw [hserved, hwaiting]
      rw [hserved'] at hr
      exact hr
    exited := nofun
    stopped := fun hs => Bool.noConfusion (htask.symm.trans hs)
    starts := h.starts
    live := hlive
    -- Either the contexts stay live, or no job is left to need them.
    jobs := by
      intro request hr hcalled
      rcases hkeeps with hk | ⟨hnil, -⟩
      · exact hk (h.jobs request (hwaiting ▸ List.mem_cons_of_mem _ hr) hcalled)
      · rw [hnil] at hr
        cases hr
    -- An attempt before its post relies on them as well, unless there is none.
    previous := by
      intro hp
      rcases hkeeps with hk | ⟨-, hnot⟩
      · exact hk (h.previous hp)
      · refine absurd ?_ hnot
        rcases hp with ⟨_, _, hx⟩ | hx <;> rw [show c.deinit = _ from hx] <;> trivial }

/-- A job of a call is executed. -/
theorem CoreSystem.Serviced.executedCalled (h : c.Serviced) (hinv : c.Inv config) {idx : ℕ}
    (hworking : c.service.working = [idx]) {r : OpsResult}
    (hserved : c.served = []) (hrun : c.service ≠ .stopped)
    (hkeeps : c.contexts.Live → r.contexts.Live)
    (htype : Called (c.jobPool.pool idx).request.type ∨ r.state = none) :
    (c.executed idx r).Serviced := by
  refine h.executed hinv hworking hserved hrun (fun hs => hkeeps ?_) (.inl hkeeps)
  rcases htype with htype | hstate
  · exact h.jobs _ (c.waiting_executed hworking r ▸ List.mem_cons_self) htype
  · refine h.live ?_
    unfold Serving InSession at hs ⊢
    rw [show (c.executed idx r).state = r.state.getD c.state from rfl, hstate] at hs
    exact hs

/-- The operation of a job keeps it: INIT makes the contexts, DEINIT is the last job. -/
theorem CoreSystem.Serviced.dispatchJob (h : c.Serviced) (hinv : c.Inv config) {idx : ℕ}
    (hservice : c.service = .running idx) (hapi : c.api = .idle) (env : ServiceEnv) :
    (c.dispatchJob env idx).Serviced := by
  have hworking : c.service.working = [idx] := by
    rw [hservice]
    rfl
  have hrun : c.service ≠ .stopped := by
    rw [hservice]
    nofun
  have hserved : c.served = [] := by
    unfold CoreSystem.served
    rw [hservice]
    rfl
  obtain ⟨-, hmoves⟩ := hinv.dispatchJob hapi hservice env
  unfold CoreSystem.dispatchJob at hmoves ⊢
  split at hmoves
  next htype =>
    -- INIT waits alone, and no deinit begins while the core is INITING.
    have hwaiting := c.waiting_executed hworking (coreOpsInit env.init c.contexts)
    obtain ⟨hstate, hone⟩ := hinv.init _ (hwaiting ▸ List.mem_cons_self) htype
    rw [hwaiting] at hone
    refine h.executed hinv hworking hserved hrun ?_ (.inr ⟨(List.cons.inj hone).2, ?_⟩)
    · intro hs
      rcases coreOpsInit_state c.contexts env.init with hr | hr
      · exact coreOpsInit_live env.init hr
      · unfold Serving InSession at hs
        rw [show (c.executed idx (coreOpsInit env.init c.contexts)).state
          = (coreOpsInit env.init c.contexts).state.getD c.state from rfl, hr] at hs
        rcases hs with hx | hx | hx <;> cases hx
    · intro hbefore
      have hne : c.deinit ≠ .idle := by
        intro hidle
        rw [hidle] at hbefore
        exact hbefore
      exact hinv.not_initing (hinv.attempt hne).2.1 hstate
  -- A CONNECT was admitted, so its contexts were live and the handler keeps them so.
  next htype =>
    exact h.executedCalled hinv hworking hserved hrun (coreOpsConnect_live env.connect)
      (.inl (.inl htype))
  next htype =>
    exact h.executedCalled hinv hworking hserved hrun (coreOpsDisconnect_live env.disconnect)
      (.inl (.inr (by rw [htype]; trivial)))
  -- A REGISTER goes on to its own section, or is refused.
  next htype =>
    split_ifs at hmoves ⊢
    · exact h.executedCalled hinv hworking hserved hrun id (.inr rfl)
    · obtain ⟨hwaiting, hserved'⟩ := hmoves.of_log rfl rfl rfl
      exact h.congr hwaiting hserved' rfl rfl rfl .rfl rfl rfl nofun
  next htype => exact h.executedCalled hinv hworking hserved hrun id (.inr rfl)
  next htype =>
    -- DEINIT takes the contexts down, but is the last job and no attempt is before its post.
    have hwaiting := c.waiting_executed hworking (coreOpsDeinit env.deinit c.contexts)
    have hfirst : (c.jobPool.pool idx).request ∈ c.waiting := hwaiting ▸ List.mem_cons_self
    obtain ⟨hstate, -⟩ := coreOpsDeinit_state c.contexts env.deinit
    refine h.executed hinv hworking hserved hrun ?_ (.inr ⟨?_, ?_⟩)
    · intro hs
      unfold Serving InSession at hs
      rw [show (c.executed idx (coreOpsDeinit env.deinit c.contexts)).state
        = (coreOpsDeinit env.deinit c.contexts).state.getD c.state from rfl, hstate] at hs
      rcases hs with hx | hx | hx <;> cases hx
    · -- no job waits behind it
      by_contra hne
      refine h.last (c.jobPool.pool idx).request ?_ htype
      rw [hserved, hwaiting, List.nil_append, List.dropLast_cons_of_ne_nil hne]
      exact List.mem_cons_self
    · intro hbefore
      exact hinv.quiet (hinv.serving hrun).1 (.inr hbefore) _ (List.mem_append_right _ hfirst) htype
  next htype => exact h.executedCalled hinv hworking hserved hrun id (.inr rfl)

/-- An action that makes a callback takes it from the job served. -/
theorem CoreSystem.Moves.of_call {request : Request} (h : c.Moves c')
    (hcallbacks : c'.log.callbacks = c.log.callbacks ++ [request]) :
    c'.waiting = c.waiting ∧ c'.served = [] := by
  cases h with
  | stay _ _ _ _ h5 => exact absurd (h5.symm.trans hcallbacks) (ne_concat _ _)
  | enqueue r _ _ _ _ h5 => exact absurd (h5.symm.trans hcallbacks) (ne_concat _ _)
  | execute r _ _ _ _ _ h6 => exact absurd (h6.symm.trans hcallbacks) (ne_concat _ _)
  | call r h1 _ h3 => exact ⟨h1, h3⟩
  | drop _ _ _ _ _ h6 => exact absurd (h6.symm.trans hcallbacks) (ne_concat _ _)

/-- The callback returns; behind a DEINIT the service ends, with nothing in its queue. -/
theorem CoreSystem.Serviced.calls (h : c.Serviced) (hinv : c.Inv config) {request : Request}
    (hservice : c.service = .calling request) (env : ServiceEnv) : (c.serviceStep env).Serviced := by
  have hserved : c.served = [request] := by
    unfold CoreSystem.served
    rw [hservice]
    rfl
  -- Only a DEINIT ends the service.
  have hexit : ServicePc.next request.type = .exited → request.type = .deinit := by
    unfold ServicePc.next
    split_ifs with htype
    · exact fun _ => htype
    · nofun
  -- The job served is gone from the list; the waiting ones are untouched.
  have htask := (hinv.serving (by rw [hservice]; nofun)).1
  have hlast := h.last
  rw [hserved] at hlast
  obtain ⟨-, hmoves⟩ := hinv.calls hservice env
  unfold CoreSystem.serviceStep at hmoves ⊢
  rw [hservice] at hmoves ⊢
  dsimp only at hmoves ⊢
  obtain ⟨hwaiting, hserved'⟩ := hmoves.of_call rfl
  exact {
    -- Behind a DEINIT the service ends, and that is pending.
    up := by
      intro hlock hp
      refine ⟨htask, fun hs => ?_⟩
      refine hinv.quiet htask (hp.imp_right And.left) request ?_ (hexit hs)
      rw [hserved]
      exact List.mem_cons_self
    -- What stands before the last waiting job stood before it with the served one as well.
    last := by
      rw [hserved', hwaiting]
      intro r hr
      refine hlast r ?_
      rw [List.singleton_append, List.dropLast_cons_of_ne_nil]
      · exact List.mem_cons_of_mem _ hr
      · rintro hnil
        rw [hnil] at hr
        cases hr
    -- The service ends only behind the last job.
    exited := by
      intro hs
      rw [hwaiting]
      by_contra hne
      refine hlast request ?_ (hexit hs)
      rw [List.singleton_append, List.dropLast_cons_of_ne_nil hne]
      exact List.mem_cons_self
    stopped := fun hs => Bool.noConfusion (htask.symm.trans hs)
    starts := h.starts
    live := h.live
    jobs := by
      rw [hwaiting]
      exact h.jobs
    previous := h.previous }

/-- A section of the service. -/
theorem CoreSystem.Serviced.serviceStep (h : c.Serviced) (hinv : c.Inv config)
    (hapi : c.service.Locks → c.api = .idle) {env : ServiceEnv} (hdep : env.semWait = .ok ()) :
    (c.serviceStep env).Serviced := by
  obtain ⟨-, hmoves⟩ := hinv.serviceStep hapi env
  -- By where it is; it sleeps only with the token that the invariant promises.
  cases hservice : c.service with
  | stopped =>
    unfold CoreSystem.serviceStep
    rw [hservice]
    exact h
  | exited =>
    unfold CoreSystem.serviceStep
    rw [hservice]
    exact h
  | dequeuing =>
    -- The queue is open while the service runs, so its entry registers a waiter.
    obtain ⟨-, hlock, hphase⟩ := hinv.serving (by rw [hservice]; nofun)
    have hopen := hinv.opened hlock hphase
    have henter : jobQueueEnter c.jobQueue
        = .ok { c.jobQueue with waiterCount := c.jobQueue.waiterCount + 1 } := by
      unfold jobQueueEnter
      rw [if_neg fun hc => Bool.noConfusion (hopen.symm.trans hc.1)]
    unfold CoreSystem.serviceStep at hmoves ⊢
    rw [hservice] at hmoves ⊢
    dsimp only at hmoves ⊢
    rw [henter] at hmoves ⊢
    obtain ⟨hwaiting, hserved⟩ := hmoves.of_log rfl rfl rfl
    exact h.congr hwaiting hserved rfl rfl rfl .rfl rfl rfl nofun
  | waiting =>
    unfold CoreSystem.serviceStep at hmoves ⊢
    rw [hservice, hdep] at hmoves ⊢
    dsimp only at hmoves ⊢
    -- Without a token it sleeps on.
    cases hitems : c.jobQueue.semItems with
    | zero => exact h
    | succ n =>
      rw [hitems] at hmoves
      obtain ⟨hwaiting, hserved⟩ := hmoves.of_log rfl rfl rfl
      exact h.congr hwaiting hserved rfl rfl rfl .rfl rfl rfl nofun
  | taking =>
    obtain ⟨q, htake, -⟩ := hinv.takes hservice
    unfold CoreSystem.serviceStep at hmoves ⊢
    rw [hservice] at hmoves ⊢
    dsimp only at hmoves ⊢
    rw [htake] at hmoves ⊢
    obtain ⟨hwaiting, hserved⟩ := hmoves.of_log rfl rfl rfl
    exact h.congr hwaiting hserved rfl rfl rfl .rfl rfl rfl nofun
  | running idx =>
    unfold CoreSystem.serviceStep
    rw [hservice]
    exact h.dispatchJob hinv hservice (hapi (by rw [hservice]; trivial)) env
  | registering idx =>
    have htype := (hinv.registering idx hservice).2
    unfold CoreSystem.serviceStep
    rw [hservice]
    exact h.executedCalled hinv (by rw [hservice]; rfl)
      (by unfold CoreSystem.served; rw [hservice]; rfl) (by rw [hservice]; nofun)
      (coreOpsRegister_live env.register) (.inl (.inr (by rw [htype]; trivial)))
  | completing idx result =>
    unfold CoreSystem.serviceStep at hmoves ⊢
    rw [hservice] at hmoves ⊢
    obtain ⟨hwaiting, hserved⟩ := hmoves.of_log rfl rfl rfl
    exact h.congr hwaiting hserved rfl rfl rfl .rfl rfl rfl nofun
  | releasing idx =>
    -- A callback is installed, so the released job goes on to it.
    have hcallback := hinv.callback (hinv.serving (by rw [hservice]; nofun)).2.1
    unfold CoreSystem.serviceStep at hmoves ⊢
    rw [hservice] at hmoves ⊢
    obtain ⟨hwaiting, hserved⟩ := hmoves.of_log rfl rfl rfl
    refine h.congr hwaiting hserved rfl rfl rfl .rfl rfl rfl ?_
    show (if c.callback = true then _ else _) = _ → _
    rw [hcallback]
    nofun
  | calling request => exact h.calls hinv hservice env

/-- Every action keeps it. -/
theorem CoreSystem.Serviced.step (h : c.Serviced) (hinv : c.Inv config) {action : CoreAction}
    (hdep : c.Dependable action) : (c.step config action).2.Serviced := by
  cases action with
  | setCallback =>
    dsimp only [CoreSystem.step]
    split_ifs
    · exact h.congr List.suffix_rfl rfl rfl rfl rfl .rfl rfl rfl id
    · exact h
  | init env =>
    dsimp only [CoreSystem.step]
    split_ifs with hapi
    · exact h.actrustInit hinv hapi env
    · exact h
  | call type =>
    dsimp only [CoreSystem.step]
    split_ifs
    · exact h.submit type
    · exact h
  | api env => exact h.apiStep hinv env
  | deinit =>
    dsimp only [CoreSystem.step]
    split_ifs
    · exact h.actrustDeinit hinv
    · exact h
  | deinitStep env =>
    dsimp only [CoreSystem.step]
    split_ifs
    · exact h
    · exact h.deinitStep hinv hdep
  | service env =>
    dsimp only [CoreSystem.step]
    split_ifs with hblocked
    · exact h
    · refine h.serviceStep hinv (fun hlocks => ?_) hdep
      by_contra hapi
      exact hblocked ⟨hlocks, hapi⟩
  | mqtt event =>
    -- The link of the client is no part of a live context.
    refine h.congr List.suffix_rfl rfl rfl rfl rfl ⟨fun hl => ?_, fun hl => ?_⟩ rfl rfl id
    · exact ⟨hl.crypto, hl.ntp, hl.cloud⟩
    · exact ⟨hl.crypto, hl.ntp, hl.cloud⟩

/-! ### Availability -/

/-- A job that waits for its contexts has a running service. -/
theorem CoreSystem.Serviced.running (h : c.Serviced) (hinv : c.Inv config) {request : Request}
    (hr : request ∈ c.waiting) (hcalled : Called request.type) : c.Running := by
  have hne : c.waiting ≠ [] := List.ne_nil_of_mem hr
  have htask : c.serviceTask = true := by
    by_contra hn
    rcases h.stopped (Bool.eq_false_iff.mpr hn) with hnil | ⟨r, _, -, hone, htype⟩
    · exact hne hnil
    · rw [hone, List.mem_singleton] at hr
      rw [hr, htype] at hcalled
      rcases hcalled with hx | hx <;> cases hx
  exact ⟨htask, hinv.task htask, fun hs => hne (h.exited hs)⟩

/-- The invariant gives the property. -/
theorem CoreSystem.Serviced.available (h : c.Serviced) (hinv : c.Inv config) : c.Available where
  serving hs hpending := by
    have hlock : c.lock = true := by
      by_contra hn
      have huninit := (hinv.unlocked (Bool.eq_false_iff.mpr hn)).1
      rcases hs with hs | hs | hs <;> cases huninit.symm.trans hs
    have hphase : c.deinitPhase = .job := by
      by_contra hn
      exact Bool.noConfusion (hpending.symm.trans (hinv.phase hn).1)
    obtain ⟨htask, hexited⟩ := h.up hlock (.inl hpending)
    exact ⟨⟨htask, hinv.task htask, hexited⟩, hinv.opened hlock hphase, h.live hs⟩
  accepted r hr hcalled := ⟨h.running hinv hr hcalled, h.jobs r hr hcalled⟩

end Steps

/-- **In every run of steps that the service can depend on, it is there for a core that is READY or
in a session.** -/
theorem service_available (config : CoreConfig) (actions : List CoreAction)
    (h : Meets (CoreSystem.step config) CoreSystem.Dependable actions (.initial config)) :
    Always (CoreSystem.step config) CoreSystem.Available actions (.initial config) := by
  refine always_of_invariant (I := fun c => c.Inv config ∧ c.Serviced) ?_ ?_ ?_ h
  · rintro c action ⟨hinv, hserviced⟩ hdep
    exact ⟨(hinv.step action).1, hserviced.step hinv hdep⟩
  · rintro c ⟨hinv, hserviced⟩
    exact hserviced.available hinv
  · exact ⟨CoreSystem.inv_initial config, CoreSystem.serviced_initial config⟩

/-- The pool and the queue hold two jobs. -/
def twoJobs : CoreConfig := ⟨2, 2, by decide, by decide⟩

/-- A deinit whose job fails at the NTP context, with the cloud context gone, up to its retry. -/
def failedDeinit : List CoreAction :=
  let failing := { ServiceEnv.works.deinit with ntpDeinit := .error ⟨.adapterSystem, .hwFailure⟩ }
  initRun ++ [.deinit, .deinitStep .works, .deinitStep .works] ++
    List.replicate 7 (.service { ServiceEnv.works with deinit := failing }) ++
    [.deinitStep .works, .deinit]

/-- A deinit whose job fails at the cloud context: it is tried again, its job is posted again, and
the deinit ends. -/
def retriedDeinit : List CoreAction :=
  let failing :=
    { ServiceEnv.works.deinit with cloudDeinit := .error ⟨.cloud, .cloudDeinitFailed⟩ }
  initRun ++ [.deinit, .deinitStep .works, .deinitStep .works] ++
    List.replicate 7 (.service { ServiceEnv.works with deinit := failing }) ++
    [.deinitStep .works, .deinit] ++ List.replicate 3 (.deinitStep .works) ++
    List.replicate 7 (.service .works) ++ [.deinitStep .works, .deinitStep .works]

/-- A deinit whose first attempt fails, and its second. -/
theorem service_available_retried :
    (Machine.run (CoreSystem.step twoJobs) retriedDeinit (.initial twoJobs)).2.state = .uninit ∧
      Always (CoreSystem.step twoJobs) CoreSystem.Available retriedDeinit (.initial twoJobs) :=
  ⟨by decide +kernel, service_available twoJobs retriedDeinit (by decide +kernel)⟩

/-- Its semaphore cannot be posted when it is retried: the core is READY without a service and
without its cloud context. -/
theorem not_service_available :
    ¬ ∀ config actions,
      Always (CoreSystem.step config) CoreSystem.Available actions (.initial config) := by
  intro h
  let refused : DeinitEnv := { DeinitEnv.works with post.semPost := .error (coreErr .badState) }
  -- The first attempt has ended the service, and the second cannot post its job.
  let actions := failedDeinit ++ List.replicate 4 (.deinitStep refused)
  have hlast := (h twoJobs actions).last
  have hready : (Machine.run (CoreSystem.step twoJobs) actions (.initial twoJobs)).2.state
      = .ready := by
    decide +kernel
  have hpending : (Machine.run (CoreSystem.step twoJobs) actions
      (.initial twoJobs)).2.deinitPending = false := by
    decide +kernel
  have htask : (Machine.run (CoreSystem.step twoJobs) actions
      (.initial twoJobs)).2.serviceTask = false := by
    decide +kernel
  exact Bool.noConfusion
    (htask.symm.trans (hlast.serving (.inl hready) hpending).1.1)

end TrustSdk.Core.Service
