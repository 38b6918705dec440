import TrustSdk.Core.Delivery

/-!
# How far a job and a deinit have come

`CoreSystem.Inv` says what the flags of the core rule out. `Staged` is the other direction, what they
promise: a core that is INITING has its INIT to execute, one that is in DEINIT has its deinit
pending, and a deinit that has posted its job has it executed or waiting. When nothing waits any more
(`Staged.rests`) the core is thus in a state in which a call is admitted.
-/

namespace TrustSdk.Core.Service

open Machine

/-- A DEINIT is among these jobs. -/
def HasDeinit (requests : List Request) : Prop := ∃ request ∈ requests, request.type = .deinit

/-- The service is about to note the result of a job. -/
def ServicePc.Completes (pc : ServicePc) : Prop := ∃ idx result, pc = .completing idx result

/-- Where a core stands between two of its calls. -/
structure CoreSystem.Staged (c : CoreSystem) : Prop where
  uninit : c.lock = true → c.state ≠ .uninit
  initing : c.state = .initing → ∃ request ∈ c.waiting, request.type = .init
  deinit : c.state = .deinit → c.deinitPending = true
  done : c.deinitJobDone = true → c.deinitPending = true
  /-- An attempt is under way. -/
  finalizing : c.deinitFinalizing = true → c.deinit ≠ .idle
  /-- The callback is called for a job. -/
  calling : c.callbackActive = true → c.served ≠ []
  starting : ∀ previous, c.deinit = .starting previous → HasDeinit c.waiting
  /-- A deinit that has posted its job waits for it, or knows its result. -/
  posted : c.deinitPending = true → c.deinit.BeforePost ∨ c.deinitJobDone = true ∨
    HasDeinit c.waiting ∨ c.service.Completes ∧ HasDeinit c.served
  /-- Behind a DEINIT the service ends, unless another one has been posted. -/
  ended : c.deinitJobDone = true → c.service = .stopped ∨ c.service = .exited ∨
    HasDeinit (c.served ++ c.waiting)
  /-- It has left the core in DEINIT, and only another one can follow it. -/
  left : c.deinitJobDone = true →
    c.state = .deinit ∧ ∀ request ∈ c.waiting, request.type = .deinit

section Stages

variable {config : CoreConfig} {c c' : CoreSystem} {l l' : List Request}

/-- A longer list has it as well. -/
theorem HasDeinit.mono (h : HasDeinit l) (hsub : l ⊆ l') : HasDeinit l' := by
  obtain ⟨request, hr, htype⟩ := h
  exact ⟨request, hsub hr, htype⟩

/-- Without a job there is no DEINIT. -/
theorem not_hasDeinit_nil : ¬HasDeinit [] := by
  rintro ⟨request, hr, -⟩
  cases hr

/-- One that is queued is there. -/
theorem hasDeinit_concat {request : Request} (htype : request.type = .deinit) (l : List Request) :
    HasDeinit (l ++ [request]) :=
  ⟨request, List.mem_append_right _ (List.mem_singleton_self _), htype⟩

/-- The two lists are what the log says: where it does not grow, they are left alone. -/
theorem CoreSystem.Ledger.lists_eq (h : c.Ledger) (h' : c'.Ledger)
    (henqueued : c'.log.enqueued = c.log.enqueued) (hexecuted : c'.log.executed = c.log.executed)
    (hcallbacks : c'.log.callbacks = c.log.callbacks) :
    c'.served = c.served ∧ c'.waiting = c.waiting := by
  constructor
  · have hserved := h'.callbacks
    rw [hexecuted, hcallbacks, h.callbacks] at hserved
    exact (List.append_cancel_left hserved).symm
  · have hwaiting := h'.executed
    rw [henqueued, hexecuted, h.executed] at hwaiting
    exact (List.append_cancel_left hwaiting).symm

/-! ### Steps that leave the flags alone -/

/-- The service neither notes a result nor ends. -/
def ServicePc.Goes (pc : ServicePc) : Prop := pc ≠ .stopped ∧ pc ≠ .exited ∧ ¬pc.Completes

/-- A service in another section completes nothing. -/
theorem ServicePc.not_completes {pc : ServicePc} (h : ∀ idx result, pc ≠ .completing idx result) :
    ¬pc.Completes := by
  rintro ⟨idx, result, hpc⟩
  exact h idx result hpc

/-- Without a deinit none is done. -/
theorem CoreSystem.Staged.not_done (h : c.Staged) (hpending : c.deinitPending = false) :
    c.deinitJobDone = false := by
  by_contra hdone
  have hpending' := h.done (Bool.not_eq_false _ ▸ hdone)
  exact Bool.noConfusion (hpending.symm.trans hpending')

/-- A step that may take the attempt to a point before its post. A job is queued behind no DEINIT
that has been executed. -/
theorem CoreSystem.Staged.frame (h : c.Staged) (hlock : c'.lock = c.lock)
    (hstate : c'.state = c.state) (hpending : c'.deinitPending = c.deinitPending)
    (hdone : c'.deinitJobDone = c.deinitJobDone)
    (hfinalizing : c'.deinitFinalizing = true → c'.deinit ≠ .idle)
    (hactive : c'.callbackActive = c.callbackActive)
    (hdeinit : c'.deinit = c.deinit ∨ c'.deinit.BeforePost)
    (hservice : c'.service = c.service ∨ c.service.Goes) (hserved : c'.served = c.served)
    (hwaiting : c'.waiting = c.waiting ∨ c.deinitJobDone = false ∧ c.waiting ⊆ c'.waiting) :
    c'.Staged := by
  -- The waiting requests only grow, and only while no deinit job is noted as done.
  have hsub : c.waiting ⊆ c'.waiting := by
    rcases hwaiting with hsame | ⟨-, hgrows⟩
    · rw [hsame]
      exact List.Subset.refl _
    · exact hgrows
  -- Field by field, each over the parts that are equal.
  exact {
    uninit := by
      intro hl
      rw [hstate]
      exact h.uninit (hlock.symm.trans hl)
    initing := by
      intro hs
      obtain ⟨request, hr, htype⟩ := h.initing (hstate.symm.trans hs)
      exact ⟨request, hsub hr, htype⟩
    deinit := fun hs => hpending.trans (h.deinit (hstate.symm.trans hs))
    done := fun hd => hpending.trans (h.done (hdone.symm.trans hd))
    finalizing := hfinalizing
    calling := by
      intro ha
      rw [hserved]
      exact h.calling (hactive.symm.trans ha)
    -- Either the attempt is the one it was, or it is before its post and starts no service.
    starting := by
      intro previous hs
      rcases hdeinit with hsame | hbefore
      · exact (h.starting previous (hsame.symm.trans hs)).mono hsub
      · rw [hs] at hbefore
        exact hbefore.elim
    -- The job of a pending deinit is wherever it was, the queue included.
    posted := by
      intro hp
      rcases hdeinit with hsame | hbefore
      · rw [hsame, hdone, hserved]
        rcases h.posted (hpending.symm.trans hp) with hb | hd | hw | ⟨hcompletes, hs⟩
        · exact .inl hb
        · exact .inr (.inl hd)
        · exact .inr (.inr (.inl (hw.mono hsub)))
        · -- A service that goes on is not in a completion, so the note could only be the old one.
          refine .inr (.inr (.inr ⟨?_, hs⟩))
          rcases hservice with hsame | hgoes
          · rw [hsame]
            exact hcompletes
          · exact absurd hcompletes hgoes.2.2
      · exact .inl hbefore
    -- Behind a finished job the service ends or still holds the DEINIT.
    ended := by
      intro hd
      have hlists : c.served ++ c.waiting ⊆ c'.served ++ c'.waiting := by
        rw [hserved]
        exact List.append_subset.mpr ⟨List.subset_append_left _ _,
          List.Subset.trans hsub (List.subset_append_right _ _)⟩
      rcases h.ended (hdone.symm.trans hd) with hs | hs | hw
      · rcases hservice with hsame | hgoes
        · exact .inl (hsame.trans hs)
        · exact absurd hs hgoes.1
      · rcases hservice with hsame | hgoes
        · exact .inr (.inl (hsame.trans hs))
        · exact absurd hs hgoes.2.1
      · exact .inr (.inr (hw.mono hlists))
    -- Behind a finished job the queue does not grow.
    left := by
      intro hd
      have hd' : c.deinitJobDone = true := hdone.symm.trans hd
      rcases hwaiting with hsame | ⟨hnot, -⟩
      · rw [hstate, hsame]
        exact h.left hd'
      · exact Bool.noConfusion (hnot.symm.trans hd') }

/-- An attempt that has posted its job goes on, or gives up. -/
theorem CoreSystem.Staged.settle (h : c.Staged) (hlock : c'.lock = c.lock)
    (hstate : c'.state = c.state) (hpending : c'.deinitPending = c.deinitPending)
    (hdone : c'.deinitJobDone = c.deinitJobDone) (hactive : c'.callbackActive = c.callbackActive)
    (hservice : c'.service = c.service ∨ c.service = .exited ∧ c'.service = .stopped)
    (hserved : c'.served = c.served) (hwaiting : c'.waiting = c.waiting)
    (hbefore : ¬c.deinit.BeforePost) (hposted : c'.deinit.Posted)
    (hfinalizing : c'.deinitFinalizing = true → c'.deinit ≠ .idle) : c'.Staged where
  -- The attempt is past its post: it looks for the job in the queue, in the service or as done.
  uninit hl := by
    rw [hstate]
    exact h.uninit (hlock.symm.trans hl)
  initing hs := by
    rw [hwaiting]
    exact h.initing (hstate.symm.trans hs)
  deinit hs := hpending.trans (h.deinit (hstate.symm.trans hs))
  done hd := hpending.trans (h.done (hdone.symm.trans hd))
  finalizing := hfinalizing
  calling ha := by
    rw [hserved]
    exact h.calling (hactive.symm.trans ha)
  starting previous hs := by
    rw [hs] at hposted
    exact hposted.elim
  posted hp := by
    rw [hdone, hserved, hwaiting]
    rcases h.posted (hpending.symm.trans hp) with hb | hd | hw | ⟨hcompletes, hs⟩
    · exact absurd hb hbefore
    · exact .inr (.inl hd)
    · exact .inr (.inr (.inl hw))
    · refine .inr (.inr (.inr ⟨?_, hs⟩))
      rcases hservice with hsame | ⟨hexited, -⟩
      · rw [hsame]
        exact hcompletes
      · -- a service that has ended notes no result
        rw [hexited] at hcompletes
        obtain ⟨_, _, hx⟩ := hcompletes
        cases hx
  -- A service that has been joined has ended, which is the first case.
  ended hd := by
    rw [hserved, hwaiting]
    rcases hservice with hsame | ⟨-, hstopped⟩
    · rw [hsame]
      exact h.ended (hdone.symm.trans hd)
    · exact .inl hstopped
  left hd := by
    rw [hstate, hwaiting]
    exact h.left (hdone.symm.trans hd)

/-! ### Calls -/

/-- `actrust_init`. -/
theorem CoreSystem.Staged.actrustInit (h : c.Staged) (hinv : c.Inv config)
    (hapi : c.api = .idle) (env : StartCoreEnv) : (actrustInit config env c).Staged := by
  obtain ⟨-, hmoves⟩ := hinv.actrustInit hapi env
  unfold Service.actrustInit at hmoves ⊢
  dsimp only at hmoves ⊢
  -- Refused, nothing changes; else the jobs are made anew.
  split_ifs at hmoves ⊢ with hrefused
  · exact h.frame rfl rfl rfl rfl h.finalizing rfl (.inl rfl) (.inl rfl) rfl (.inl rfl)
  · simp only [not_or, Bool.not_eq_true, Bool.not_eq_false] at hrefused
    -- Unlocked means that no service runs and nothing is queued or pending.
    obtain ⟨hlock, -, -⟩ := hrefused
    obtain ⟨-, htask, hpending, -, hcount⟩ := hinv.unlocked hlock
    cases hjobs : initJobs config env ⟨.init, c.log.nextCall⟩ with
    | error e => exact h.frame rfl rfl rfl rfl h.finalizing rfl (.inl rfl) (.inl rfl) rfl (.inl rfl)
    | ok out =>
      rw [hjobs] at hmoves
      obtain ⟨p, q⟩ := out
      obtain ⟨hwaiting, -⟩ := @CoreSystem.Moves.of_enqueue c _ ⟨.init, c.log.nextCall⟩ hmoves rfl
      rw [hinv.waiting_nil htask hcount] at hwaiting
      have hdone := h.not_done hpending
      have hdeinit : c.deinit = .idle := by
        by_contra hne
        rw [(hinv.attempt hne).1] at hlock
        cases hlock
      -- The INIT that was posted is the only request.
      exact {
        -- The state is INITING with its INIT queued; no other field has anything to say.
        uninit := by rintro _ ⟨⟩
        initing := by
          intro _
          rw [hwaiting]
          exact ⟨_, List.mem_cons_self, rfl⟩
        deinit := by rintro ⟨⟩
        done := fun hd => Bool.noConfusion (hdone.symm.trans hd)
        finalizing := h.finalizing
        calling := fun ha => absurd (hinv.served_nil htask) (h.calling ha)
        starting := by
          intro previous hs
          cases hdeinit.symm.trans hs
        posted := fun hp => Bool.noConfusion (hpending.symm.trans hp)
        ended := fun hd => Bool.noConfusion (hdone.symm.trans hd)
        left := fun hd => Bool.noConfusion (hdone.symm.trans hd) }

/-- A call begins, or is rejected. -/
theorem CoreSystem.Staged.submit (h : c.Staged) (type : JobType) : (c.submit type).Staged := by
  unfold CoreSystem.submit
  dsimp only
  split_ifs
  · exact h.frame rfl rfl rfl rfl h.finalizing rfl (.inl rfl) (.inl rfl) rfl (.inl rfl)
  · exact h.frame rfl rfl rfl rfl h.finalizing rfl (.inl rfl) (.inl rfl) rfl (.inl rfl)

/-- A call is admitted while no deinit is pending, and so while none has been executed. -/
-- No deinit is done while calls are admitted, so a job more is no harm.
theorem CoreSystem.Staged.apiStep (h : c.Staged) (hinv : c.Inv config) (hledger : c.Ledger)
    {env : PostEnv} (hledger' : (c.apiStep env).Ledger) : (c.apiStep env).Staged := by
  obtain ⟨-, hmoves⟩ := hinv.apiStep env
  obtain ⟨p, q, a, l, heq, henqueued, hexecuted, hcallbacks⟩ := c.apiStep_frame env
  rw [heq] at hmoves hledger' ⊢
  rcases henqueued with hsame | ⟨request, pc, hapi, hnew⟩
  · obtain ⟨hserved, hwaiting⟩ := hledger.lists_eq hledger' hsame hexecuted hcallbacks
    exact h.frame rfl rfl rfl rfl h.finalizing rfl (.inl rfl) (.inl rfl) hserved (.inl hwaiting)
  · obtain ⟨hwaiting, hserved⟩ := hmoves.of_enqueue hnew
    have hdone := h.not_done (hinv.admitted request pc hapi).2.1
    refine h.frame rfl rfl rfl rfl h.finalizing rfl (.inl rfl) (.inl rfl) hserved
      (.inr ⟨hdone, ?_⟩)
    rw [hwaiting]
    exact List.subset_append_left _ _

/-! ### Deinit -/

/-- `actrust_deinit`. -/
theorem CoreSystem.Staged.actrustDeinit (h : c.Staged) (hinv : c.Inv config) :
    (actrustDeinit c).Staged := by
  unfold Service.actrustDeinit
  dsimp only
  split_ifs with hrefused hnew hrefused'
  · exact h.frame rfl rfl rfl rfl h.finalizing rfl (.inl rfl) (.inl rfl) rfl (.inl rfl)
  · -- A new deinit: it posts next.
    simp only [not_or, Bool.not_eq_true, Bool.not_eq_false] at hrefused
    obtain ⟨-, hactive, -⟩ := hrefused
    exact {
      uninit := by rintro _ ⟨⟩
      initing := by rintro ⟨⟩
      deinit := fun _ => rfl
      done := by rintro ⟨⟩
      finalizing := by rintro _ ⟨⟩
      calling := fun ha => Bool.noConfusion (hactive.symm.trans ha)
      starting := by rintro previous ⟨⟩
      posted := fun _ => .inl trivial
      ended := by rintro ⟨⟩
      left := by rintro ⟨⟩ }
  · exact h.frame rfl rfl rfl rfl h.finalizing rfl (.inl rfl) (.inl rfl) rfl (.inl rfl)
  · -- Another attempt of a deinit that has come past its post.
    simp only [not_or, Bool.not_eq_true, Bool.not_eq_false] at hrefused hrefused'
    have hidle : c.deinit = .idle := by
      by_contra hne
      rw [(hinv.attempt hne).2.2] at hrefused
      cases hrefused.2.2
    have hbefore : ¬c.deinit.BeforePost := by
      rw [hidle]
      exact id
    rcases c.attempt_cases false .ready ⟨.deinit, c.log.nextCall⟩ with
      ⟨ha, -, -⟩ | ⟨ha, -⟩ | ⟨ha, -⟩
    · rw [ha]
      exact h.frame rfl rfl rfl rfl (by rintro _ ⟨⟩) rfl (.inr trivial) (.inl rfl) rfl (.inl rfl)
    · rw [ha]
      exact h.settle rfl rfl rfl rfl rfl (.inl rfl) rfl rfl hbefore trivial (by rintro _ ⟨⟩)
    · rw [ha]
      exact h.settle rfl rfl rfl rfl rfl (.inl rfl) rfl rfl hbefore trivial (by rintro _ ⟨⟩)

/-- An attempt has posted its job. -/
theorem CoreSystem.Staged.push (h : c.Staged) (hlock : c'.lock = c.lock)
    (hstate : c'.state = c.state) (hpending : c'.deinitPending = c.deinitPending)
    (hdone : c'.deinitJobDone = c.deinitJobDone) (hactive : c'.callbackActive = c.callbackActive)
    (hserved : c'.served = c.served) {request : Request}
    (htype : request.type = .deinit) (hwaiting : c'.waiting = c.waiting ++ [request])
    (hfinalizing : c'.deinit ≠ .idle) : c'.Staged := by
  -- The job is in the queue, which is what most of the fields ask for.
  have hdeinit : HasDeinit c'.waiting := by
    rw [hwaiting]
    exact hasDeinit_concat htype _
  exact {
    -- What holds of the old queue holds of the longer one.
    uninit := by
      intro hl
      rw [hstate]
      exact h.uninit (hlock.symm.trans hl)
    initing := by
      intro hs
      obtain ⟨r, hr, hinit⟩ := h.initing (hstate.symm.trans hs)
      rw [hwaiting]
      exact ⟨r, List.mem_append_left _ hr, hinit⟩
    deinit := fun hs => hpending.trans (h.deinit (hstate.symm.trans hs))
    done := fun hd => hpending.trans (h.done (hdone.symm.trans hd))
    finalizing := fun _ => hfinalizing
    calling := by
      intro ha
      rw [hserved]
      exact h.calling (hactive.symm.trans ha)
    starting := fun _ _ => hdeinit
    posted := fun _ => .inr (.inr (.inl hdeinit))
    ended := fun _ => .inr (.inr (hdeinit.mono (List.subset_append_right _ _)))
    -- A job behind a finished deinit may only be another DEINIT.
    left := by
      intro hd
      obtain ⟨hs, hall⟩ := h.left (hdone.symm.trans hd)
      refine ⟨hstate.trans hs, fun r hr => ?_⟩
      rw [hwaiting] at hr
      rcases List.mem_append.mp hr with hr | hr
      · exact hall r hr
      · rw [List.mem_singleton.mp hr]
        exact htype }

/-- A section in which the deinit posts its job. -/
theorem CoreSystem.Staged.deinitPosting (h : c.Staged) (hinv : c.Inv config) (hledger : c.Ledger)
    {env : DeinitEnv} (hledger' : (c.deinitStep env).Ledger) {request : Request}
    {previous : CoreState} {start : Bool} {pc : PostPc}
    (hd : c.deinit = .posting request previous start pc) : (c.deinitStep env).Staged := by
  have htype := hinv.toStock.deinit
  rw [hd] at htype
  obtain ⟨-, hmoves⟩ := hinv.deinitPosting env hd
  unfold CoreSystem.deinitStep at hmoves hledger' ⊢
  rw [hd] at hmoves hledger' ⊢
  dsimp only at hmoves hledger' ⊢
  generalize corePostJob env.post request c.jobPool c.jobQueue pc = out at hmoves hledger' ⊢
  obtain ⟨pc' | result, p, q⟩ := out
  · obtain ⟨hserved, hwaiting⟩ := hledger.lists_eq hledger' rfl rfl rfl
    exact h.frame rfl rfl rfl rfl (by rintro _ ⟨⟩) rfl (.inr trivial) (.inl rfl) hserved
      (.inl hwaiting)
  · cases result with
    | error e =>
      obtain ⟨hserved, hwaiting⟩ := hledger.lists_eq hledger' rfl rfl rfl
      exact h.frame rfl rfl rfl rfl (by rintro _ ⟨⟩) rfl (.inr trivial) (.inl rfl) hserved
        (.inl hwaiting)
    | ok _ =>
      obtain ⟨hwaiting, hserved⟩ := hmoves.of_enqueue rfl
      refine h.push rfl rfl rfl rfl rfl hserved htype.1 hwaiting ?_
      cases start <;> rintro ⟨⟩

/-- What `core_service_stop` and the section behind it leave alone. -/
theorem CoreSystem.joinService_flags (c : CoreSystem) (join : Except Err Unit)
    (hd : c.deinit = .joining) :
    (c.joinService join).state = c.state ∧ (c.joinService join).deinitJobDone = c.deinitJobDone ∧
      (c.joinService join).callbackActive = c.callbackActive ∧
      ((c.joinService join).deinitFinalizing = true → (c.joinService join).deinit ≠ .idle) := by
  have hcheck : ∀ c : CoreSystem, c.checkDeinitJob.state = c.state ∧
      c.checkDeinitJob.deinitJobDone = c.deinitJobDone ∧
      c.checkDeinitJob.callbackActive = c.callbackActive ∧
      (c.checkDeinitJob.deinitFinalizing = true → c.checkDeinitJob.deinit ≠ .idle) := by
    intro c
    unfold checkDeinitJob
    split_ifs
    · exact ⟨rfl, rfl, rfl, by rintro ⟨⟩⟩
    · split
      · exact ⟨rfl, rfl, rfl, by rintro ⟨⟩⟩
      · exact ⟨rfl, rfl, rfl, by rintro _ ⟨⟩⟩
  -- The task is gone, has exited and is joined, or still runs.
  unfold joinService
  split_ifs
  · exact hcheck c
  · split
    · exact ⟨rfl, rfl, rfl, by rintro ⟨⟩⟩
    · dsimp only
      split
      · exact ⟨rfl, rfl, rfl, by rintro ⟨⟩⟩
      · exact hcheck { c with serviceTask := false, service := .stopped }
    · refine ⟨rfl, rfl, rfl, fun _ => ?_⟩
      rw [hd]
      rintro ⟨⟩

/-- The attempt is over: the deinit stays as it is, or nothing is left of it. -/
structure CoreSystem.Over (c c' : CoreSystem) : Prop where
  active : c'.callbackActive = c.callbackActive
  finalizing : c'.deinitFinalizing = false
  done : c'.lock = c.lock ∧ c'.deinitJobDone = c.deinitJobDone ∨
    c'.lock = false ∧ c'.deinitJobDone = false

/-- An attempt that ends. -/
theorem CoreSystem.clearFinalizing_over (c : CoreSystem) :
    c.Over (coreDeinitClearFinalizing c) := ⟨rfl, rfl, .inl ⟨rfl, rfl⟩⟩

/-- The later phases of a deinit end the attempt, or the core. -/
theorem CoreSystem.finishDeinit_over (c : CoreSystem) (env : FinishEnv)
    (hphase : c.deinitPhase ≠ .job) : c.Over (c.finishDeinit env) := by
  -- Each part of the deinit's end either stops with a failure or goes on to the next.
  have hlock : ∀ c : CoreSystem, c.Over (c.finishLock env) := by
    intro c
    unfold finishLock
    split
    · exact ⟨rfl, rfl, .inl ⟨rfl, rfl⟩⟩
    · exact ⟨rfl, rfl, .inr ⟨rfl, rfl⟩⟩
  have hpool : ∀ c : CoreSystem, c.Over (c.finishPool env) := by
    intro c
    unfold finishPool
    split
    · exact ⟨rfl, rfl, .inl ⟨rfl, rfl⟩⟩
    · exact hlock c
  unfold finishDeinit
  split
  next hjob => exact absurd hjob hphase
  · -- The queue first: it has to be closed and empty before the pool goes.
    unfold finishQueue
    split
    · exact c.clearFinalizing_over
    · dsimp only
      generalize coreDrainPendingJobs c.jobPool (actrustJobQueueClose c.jobQueue) env.drain = out
      have hover : CoreSystem.Over { c with jobPool := out.1, jobQueue := out.2 }
          (CoreSystem.finishPool env { c with jobPool := out.1, jobQueue := out.2 }) := hpool _
      split
      · exact ⟨rfl, rfl, .inl ⟨rfl, rfl⟩⟩
      · exact ⟨rfl, rfl, .inl ⟨rfl, rfl⟩⟩
      · exact ⟨hover.active, hover.finalizing, hover.done⟩
  · exact hpool c
  · exact hlock c

/-- The later phases, from the one reached. -/
theorem CoreSystem.Staged.finishDeinit (h : c.Staged) (hinv : c.Inv config) (hserviced : c.Serviced)
    (hd : c.deinit = .finishing) (env : FinishEnv) : (c.finishDeinit env).Staged := by
  -- The deinit is in its last part: the service is gone and with it what was queued.
  obtain ⟨hlock, -, -⟩ := hinv.attempt (by rw [hd]; rintro ⟨⟩)
  have hat := hinv.attempting
  rw [hd] at hat
  have hwaiting : c.waiting = [] := (hserviced.stopped hat.1).resolve_right <| by
    rintro ⟨_, _, hx, -⟩
    cases hd.symm.trans hx
  obtain ⟨-, hmoves⟩ := hinv.finishDeinit hd env
  obtain ⟨-, hservice, -, hidle, hlog, hend⟩ := c.finishDeinit_frame env
  obtain ⟨hactive, hfinalizing, hover⟩ := c.finishDeinit_over env hat.2
  obtain ⟨hsuffix, hserved⟩ := hmoves.of_log (by rw [hlog]) (by rw [hlog]) (by rw [hlog])
  rw [hwaiting, List.suffix_nil] at hsuffix
  -- An attempt at its end no longer finalizes.
  have hnot : (c.finishDeinit env).deinitFinalizing = true →
      (c.finishDeinit env).deinit ≠ .idle := fun hf =>
    Bool.noConfusion (hfinalizing.symm.trans hf)
  cases hlock' : (c.finishDeinit env).lock with
  | true =>
    -- the deinit stays pending
    have hfailed : (c.finishDeinit env).deinitJobDone = c.deinitJobDone := by
      rcases hover with ⟨-, hdone⟩ | ⟨hunlocked, -⟩
      · exact hdone
      · exact Bool.noConfusion (hlock'.symm.trans hunlocked)
    rcases hend with ⟨-, hstate, hpending⟩ | ⟨hunlocked, -⟩
    · refine h.settle (hlock'.trans hlock.symm) hstate hpending hfailed hactive (.inl hservice)
        hserved (hsuffix.trans hwaiting.symm) ?_ ?_ hnot
      · rw [hd]
        exact id
      · -- The attempt is over, and a later one starts before its post.
        rw [hidle]
        trivial
    · exact Bool.noConfusion (hlock'.symm.trans hunlocked)
  -- The lock is gone: the core is UNINIT again and nothing is pending.
  | false =>
    have hdone : (c.finishDeinit env).deinitJobDone = false := by
      rcases hover with ⟨hsame, -⟩ | ⟨-, hdone⟩
      · exact Bool.noConfusion (hlock'.symm.trans (hsame.trans hlock))
      · exact hdone
    rcases hend with ⟨hsame, -, -⟩ | ⟨-, hstate, hpending⟩
    · exact Bool.noConfusion (hlock'.symm.trans (hsame.trans hlock))
    · exact {
        uninit := fun hl => Bool.noConfusion (hlock'.symm.trans hl)
        initing := by
          intro hs
          cases hstate.symm.trans hs
        deinit := by
          intro hs
          cases hstate.symm.trans hs
        done := fun hd => Bool.noConfusion (hdone.symm.trans hd)
        finalizing := hnot
        calling := by
          intro ha
          rw [hserved]
          exact h.calling (hactive.symm.trans ha)
        starting := by
          intro previous hs
          cases hidle.symm.trans hs
        posted := fun hp => Bool.noConfusion (hpending.symm.trans hp)
        ended := fun hd => Bool.noConfusion (hdone.symm.trans hd)
        left := fun hd => Bool.noConfusion (hdone.symm.trans hd) }

/-- A section of `actrust_deinit`. -/
theorem CoreSystem.Staged.deinitStep (h : c.Staged) (hkept : c.Kept config) {env : DeinitEnv}
    (hok : c.PrimitivesSucceed (.deinitStep env)) (hledger' : (c.deinitStep env).Ledger) :
    (c.deinitStep env).Staged := by
  have hinv := hkept.inv
  cases hd : c.deinit with
  | idle =>
    unfold CoreSystem.deinitStep
    rw [hd]
    exact h
  | posting request previous start pc => exact h.deinitPosting hinv hkept.ledger hledger' hd
  | starting previous =>
    -- the job has been posted, and the service that executes it is started
    have hdeinit := h.starting previous hd
    unfold CoreSystem.deinitStep at hledger' ⊢
    rw [hd, hok.2] at hledger' ⊢
    obtain ⟨hserved, hwaiting⟩ := hkept.ledger.lists_eq hledger' rfl rfl rfl
    rw [← hwaiting] at hdeinit
    exact {
      uninit := h.uninit
      initing := by
        rw [hwaiting]
        exact h.initing
      deinit := h.deinit
      done := h.done
      finalizing := by rintro _ ⟨⟩
      calling := by
        rw [hserved]
        exact h.calling
      starting := by rintro previous ⟨⟩
      posted := fun _ => .inr (.inr (.inl hdeinit))
      ended := fun _ => .inr (.inr (hdeinit.mono (List.subset_append_right _ _)))
      left := by
        rw [hwaiting]
        exact h.left }
  -- The attempt failed and puts the old state back, which was READY or INIT_FAILED.
  | restoring previous =>
    have hat := hinv.attempting
    rw [hd] at hat
    obtain ⟨-, hprevious, -⟩ := hat
    unfold CoreSystem.deinitStep
    rw [hd]
    exact {
      uninit := by
        intro _ hs
        rcases hprevious with hp | hp <;> cases hp.symm.trans hs
      initing := by
        intro hs
        rcases hprevious with hp | hp <;> cases hp.symm.trans hs
      deinit := by
        intro hs
        rcases hprevious with hp | hp <;> cases hp.symm.trans hs
      done := by rintro ⟨⟩
      finalizing := by rintro ⟨⟩
      calling := h.calling
      starting := by rintro previous ⟨⟩
      posted := by rintro ⟨⟩
      ended := by rintro ⟨⟩
      left := by rintro ⟨⟩ }
  -- The join only waits: state, flags and lists stay.
  | joining =>
    obtain ⟨hlock, hpending, -, hlog, hservice, hposted⟩ := c.joinService_frame env.join hd
    obtain ⟨hstate, hdone, hactive, hfinalizing⟩ := c.joinService_flags env.join hd
    unfold CoreSystem.deinitStep at hledger' ⊢
    rw [hd] at hledger' ⊢
    have hjoined : (c.joinService env.join).Ledger := hledger'
    obtain ⟨hserved, hwaiting⟩ := hkept.ledger.lists_eq hjoined
      (congrArg CoreLog.enqueued hlog) (congrArg CoreLog.executed hlog)
      (congrArg CoreLog.callbacks hlog)
    refine h.settle hlock hstate hpending hdone hactive hservice hserved hwaiting ?_ hposted
      hfinalizing
    rw [hd]
    exact id
  -- The last part, by its own lemma.
  | finishing =>
    unfold CoreSystem.deinitStep
    rw [hd]
    exact h.finishDeinit hinv hkept.serviced hd env.finish

/-! ### The service -/

/-- With a slot in it the service goes on, and calls nothing yet. -/
theorem ServicePc.working_goes {pc : ServicePc} {idx : ℕ} (h : pc.working = [idx]) :
    pc.Goes ∧ pc.done = [] ∧ pc.called = [] := by
  cases pc with
  | running i => exact ⟨⟨nofun, nofun, by rintro ⟨_, _, hx⟩; cases hx⟩, rfl, rfl⟩
  | registering i => exact ⟨⟨nofun, nofun, by rintro ⟨_, _, hx⟩; cases hx⟩, rfl, rfl⟩
  | _ => cases h

/-- A job is executed. -/
theorem CoreSystem.Staged.executed (h : c.Staged) (hinv : c.Inv config) {idx : ℕ}
    (hworking : c.service.working = [idx]) {r : OpsResult}
    (hset : ∀ state, r.state = some state → state ≠ .uninit ∧ state ≠ .initing ∧
      (state = .deinit → (c.jobPool.pool idx).request.type = .deinit))
    (hinit : (c.jobPool.pool idx).request.type = .init → r.state ≠ none)
    (hdeinit : (c.jobPool.pool idx).request.type = .deinit → r.state = some .deinit) :
    (c.executed idx r).Staged := by
  -- A service with a job in execution neither ended nor is in a completion.
  obtain ⟨⟨hstopped, hexited, hcompletes⟩, hdone, hcalled⟩ := ServicePc.working_goes hworking
  obtain ⟨htask, -, -⟩ := hinv.serving hstopped
  have hwaiting := c.waiting_executed hworking r
  have hserved : c.served = [] := by
    unfold CoreSystem.served
    rw [hdone, hcalled]
    rfl
  have hserved' : (c.executed idx r).served = [(c.jobPool.pool idx).request] := rfl
  -- The job executed is the head of those that waited.
  have hfirst : (c.jobPool.pool idx).request ∈ c.waiting := hwaiting ▸ List.mem_cons_self
  have hstate : (c.executed idx r).state = r.state.getD c.state := rfl
  -- A DEINIT that waited either still waits or is the one served now.
  have hlists : HasDeinit c.waiting →
      HasDeinit ((c.executed idx r).served ++ (c.executed idx r).waiting) := by
    rw [hwaiting, hserved']
    exact id
  exact {
    -- A handler never sets UNINIT.
    uninit := by
      intro hl hs
      rw [hstate] at hs
      cases hr : r.state with
      | none =>
        rw [hr] at hs
        exact h.uninit hl hs
      | some state =>
        rw [hr] at hs
        exact (hset state hr).1 hs
    initing := by
      intro hs
      rw [hstate] at hs
      cases hr : r.state with
      | none =>
        -- the INIT is the only job, and sets the state
        rw [hr] at hs
        obtain ⟨request, hmem, htype⟩ := h.initing hs
        obtain ⟨-, hone⟩ := hinv.init request hmem htype
        rw [hone] at hfirst
        rw [← List.mem_singleton.mp hfirst] at htype
        exact absurd hr (hinit htype)
      | some state =>
        rw [hr] at hs
        exact absurd hs (hset state hr).2.1
    -- DEINIT is set by a DEINIT alone, and one that runs was posted by a pending attempt.
    deinit := by
      intro hs
      rw [hstate] at hs
      cases hr : r.state with
      | none =>
        rw [hr] at hs
        exact h.deinit hs
      | some state =>
        rw [hr] at hs
        by_contra hpending
        refine hinv.quiet htask (.inl (Bool.eq_false_iff.mpr hpending)) _ ?_ ((hset state hr).2.2 hs)
        exact List.mem_append_right _ hfirst
    done := h.done
    finalizing := h.finalizing
    calling := by
      rw [hserved']
      rintro _ ⟨⟩
    -- An attempt that starts a service found none, but this one runs.
    starting := by
      intro previous hs
      have hat := hinv.attempting
      rw [show c.deinit = .starting previous from hs] at hat
      exact absurd (hinv.stopped hat.2.2.2) hstopped
    -- The DEINIT is served now, and its completion is the next section.
    posted := by
      intro hp
      rcases h.posted hp with hb | hd | hw | ⟨hnote, -⟩
      · exact .inl hb
      · exact .inr (.inl hd)
      · obtain ⟨request, hmem, htype⟩ := hlists hw
        rcases List.mem_append.mp hmem with hmem | hmem
        · exact .inr (.inr (.inr ⟨⟨idx, r.result, rfl⟩, request, hmem, htype⟩))
        · exact .inr (.inr (.inl ⟨request, hmem, htype⟩))
      · exact absurd hnote hcompletes
    ended := by
      intro hd
      rcases h.ended hd with hs | hs | hw
      · exact absurd hs hstopped
      · exact absurd hs hexited
      · rw [hserved] at hw
        exact .inr (.inr (hlists hw))
    -- The job executed is a DEINIT, like all behind a finished one, so the state is DEINIT again.
    left := by
      intro hd
      obtain ⟨-, hall⟩ := h.left hd
      refine ⟨?_, fun request hr => ?_⟩
      · rw [hstate, hdeinit (hall _ hfirst)]
        rfl
      · exact hall request (hwaiting ▸ List.mem_cons_of_mem _ hr) }

/-- The operation of a job. -/
theorem CoreSystem.Staged.dispatchJob (h : c.Staged) (hinv : c.Inv config) (hledger : c.Ledger)
    {idx : ℕ} (hservice : c.service = .running idx) {env : ServiceEnv}
    (hledger' : (c.dispatchJob env idx).Ledger) : (c.dispatchJob env idx).Staged := by
  have hworking : c.service.working = [idx] := by
    rw [hservice]
    rfl
  -- A job in execution goes on to its completion.
  have hgoes := (ServicePc.working_goes hworking).1
  -- a job that sets no state
  have hkeeps : ∀ r : OpsResult, r.state = none → (c.jobPool.pool idx).request.type ≠ .init →
      (c.jobPool.pool idx).request.type ≠ .deinit → (c.executed idx r).Staged := by
    intro r hr hinit hdeinit
    refine h.executed hinv hworking ?_ (fun hx => absurd hx hinit) fun hx => absurd hx hdeinit
    intro state hs
    cases hr.symm.trans hs
  unfold CoreSystem.dispatchJob at hledger' ⊢
  split at hledger'
  -- INIT sets READY or INIT_FAILED, whatever went wrong in it.
  next htype =>
    refine h.executed hinv hworking ?_ ?_ fun hx => ?_
    · intro state hs
      rcases coreOpsInit_state c.contexts env.init with hr | hr <;> cases hr.symm.trans hs
      · exact ⟨nofun, nofun, nofun⟩
      · exact ⟨nofun, nofun, nofun⟩
    · rcases coreOpsInit_state c.contexts env.init with hr | hr <;> rw [hr] <;> rintro _ ⟨⟩
    · cases htype.symm.trans hx
  -- CONNECT sets REGISTERED or UNREGISTERED, or none.
  next htype =>
    refine h.executed hinv hworking ?_ (fun hx => ?_) fun hx => ?_
    · intro state hs
      rcases coreOpsConnect_state c.contexts env.connect with hr | hr | hr <;>
        cases hr.symm.trans hs
      · exact ⟨nofun, nofun, nofun⟩
      · exact ⟨nofun, nofun, nofun⟩
    · cases htype.symm.trans hx
    · cases htype.symm.trans hx
  -- DISCONNECT sets READY where the client went down, and none otherwise.
  next htype =>
    refine h.executed hinv hworking ?_ (fun hx => ?_) fun hx => ?_
    · intro state hs
      rcases coreOpsDisconnect_state c.contexts env.disconnect with ⟨hr, -⟩ | ⟨hr, -⟩ <;>
        cases hr.symm.trans hs
      exact ⟨nofun, nofun, nofun⟩
    · cases htype.symm.trans hx
    · cases htype.symm.trans hx
  -- REGISTER is refused here, or goes on to the next section.
  next htype =>
    have hinit : (c.jobPool.pool idx).request.type ≠ .init := by
      rw [htype]
      rintro ⟨⟩
    have hdeinit : (c.jobPool.pool idx).request.type ≠ .deinit := by
      rw [htype]
      rintro ⟨⟩
    split_ifs at hledger' ⊢
    · exact hkeeps _ rfl hinit hdeinit
    · obtain ⟨hserved, hwaiting⟩ := hledger.lists_eq hledger' rfl rfl rfl
      exact h.frame rfl rfl rfl rfl h.finalizing rfl (.inl rfl) (.inr hgoes) hserved (.inl hwaiting)
  next htype =>
    refine hkeeps _ rfl ?_ ?_ <;> rw [htype] <;> rintro ⟨⟩
  -- DEINIT sets DEINIT, which is its own state to set.
  next htype =>
    obtain ⟨hstate, -⟩ := coreOpsDeinit_state c.contexts env.deinit
    refine h.executed hinv hworking ?_ (fun hx => ?_) fun _ => hstate
    · intro state hs
      cases hstate.symm.trans hs
      exact ⟨nofun, nofun, fun _ => htype⟩
    · cases htype.symm.trans hx
  next htype =>
    refine hkeeps _ rfl ?_ ?_ <;> rw [htype] <;> rintro ⟨⟩

/-- The result of a DEINIT is noted. -/
theorem CoreSystem.Staged.completeJob (h : c.Staged) (hkept : c.Kept config) {idx : ℕ}
    {result : Except Err Unit} (hservice : c.service = .completing idx result)
    (hledger' : (c.completeJob idx result).Ledger) : (c.completeJob idx result).Staged := by
  have hinv := hkept.inv
  obtain ⟨htask, -, -⟩ := hinv.serving (by rw [hservice]; rintro ⟨⟩)
  -- The completion moves no request; it only writes down a result.
  obtain ⟨hserved, hwaiting⟩ := hkept.ledger.lists_eq hledger' rfl rfl rfl
  have hone : c.served = [(c.jobPool.pool idx).request] :=
    c.served_of_done (by rw [hservice]; rfl) (by rw [hservice]; rfl)
  have hmem : (c.jobPool.pool idx).request ∈ c.served := by
    rw [hone]
    exact List.mem_cons_self
  -- The note of a done deinit is written by a DEINIT, or stands since before.
  have hdone : (c.completeJob idx result).deinitJobDone = true →
      (c.jobPool.pool idx).request.type = .deinit ∨ c.deinitJobDone = true := by
    intro hd
    by_cases htype : (c.jobPool.pool idx).request.type = .deinit
    · exact .inl htype
    · right
      unfold CoreSystem.completeJob at hd
      dsimp only at hd
      rwa [decide_eq_false htype] at hd
  have hnoted : (c.jobPool.pool idx).request.type = .deinit ∨ c.deinitJobDone = true →
      (c.completeJob idx result).deinitJobDone = true := by
    intro hd
    unfold CoreSystem.completeJob
    dsimp only
    by_cases htype : (c.jobPool.pool idx).request.type = .deinit
    · rw [decide_eq_true htype]
      rfl
    · rw [decide_eq_false htype]
      exact hd.resolve_left htype
  exact {
    uninit := h.uninit
    initing := by
      rw [hwaiting]
      exact h.initing
    deinit := h.deinit
    -- A DEINIT that completes belongs to a pending deinit.
    done := by
      intro hd
      rcases hdone hd with htype | hd
      · by_contra hpending
        exact hinv.quiet htask (.inl (Bool.eq_false_iff.mpr hpending)) _
          (List.mem_append_left _ hmem) htype
      · exact h.done hd
    finalizing := h.finalizing
    calling := by
      rw [hserved, hone]
      rintro _ ⟨⟩
    starting := by
      rw [hwaiting]
      exact h.starting
    -- A DEINIT served is what the note is written for.
    posted := by
      intro hp
      rcases h.posted hp with hb | hd | hw | ⟨-, request, hr, htype⟩
      · exact .inl hb
      · exact .inr (.inl (hnoted (.inr hd)))
      · rw [hwaiting]
        exact .inr (.inr (.inl hw))
      · rw [hone] at hr
        rw [List.mem_singleton.mp hr] at htype
        exact .inr (.inl (hnoted (.inl htype)))
    -- The DEINIT is still in the service when its result is written.
    ended := by
      intro hd
      rw [hserved, hwaiting]
      rcases hdone hd with htype | hd
      · exact .inr (.inr ⟨_, List.mem_append_left _ hmem, htype⟩)
      · rcases h.ended hd with hs | hs | hw
        · cases hservice.symm.trans hs
        · cases hservice.symm.trans hs
        · exact .inr (.inr hw)
    -- Behind the DEINIT served nothing waits, and its state is DEINIT.
    left := by
      intro hd
      rw [hwaiting]
      rcases hdone hd with htype | hd
      · refine ⟨hinv.ran _ hmem htype, fun request hr => ?_⟩
        -- nothing waits behind a DEINIT
        refine absurd htype (hkept.serviced.last _ ?_)
        rw [hone, List.singleton_append, List.dropLast_cons_of_ne_nil (List.ne_nil_of_mem hr)]
        exact List.mem_cons_self
      · exact h.left hd }

/-- The callback returns. -/
theorem CoreSystem.Staged.calls (h : c.Staged) (hinv : c.Inv config) {request : Request}
    (hservice : c.service = .calling request) (env : ServiceEnv) : (c.serviceStep env).Staged := by
  -- The callback is called for the one request served.
  have hserved : c.served = [request] := by
    unfold CoreSystem.served
    rw [hservice]
    rfl
  obtain ⟨-, -, -, hexit⟩ := ServicePc.next_lists request.type
  obtain ⟨-, hmoves⟩ := hinv.calls hservice env
  unfold CoreSystem.serviceStep at hmoves ⊢
  rw [hservice] at hmoves ⊢
  dsimp only at hmoves ⊢
  obtain ⟨hwaiting, hserved'⟩ := hmoves.of_call rfl
  exact {
    uninit := h.uninit
    initing := by
      rw [hwaiting]
      exact h.initing
    deinit := h.deinit
    done := h.done
    finalizing := h.finalizing
    calling := by rintro ⟨⟩
    starting := by
      rw [hwaiting]
      exact h.starting
    -- The callback changes where no DEINIT is; the queue keeps those that wait.
    posted := by
      intro hp
      rw [hwaiting]
      rcases h.posted hp with hb | hd | hw | ⟨⟨_, _, hx⟩, -⟩
      · exact .inl hb
      · exact .inr (.inl hd)
      · exact .inr (.inr (.inl hw))
      · cases hservice.symm.trans hx
    -- Where the callback was that of the DEINIT, the service ends.
    ended := by
      intro hd
      rw [hserved', hwaiting]
      rcases h.ended hd with hs | hs | ⟨r, hr, htype⟩
      · cases hservice.symm.trans hs
      · cases hservice.symm.trans hs
      · rw [hserved] at hr
        rcases List.mem_append.mp hr with hr | hr
        · -- it was the callback of the DEINIT
          rw [List.mem_singleton.mp hr] at htype
          exact .inr (.inl (hexit htype))
        · exact .inr (.inr ⟨r, hr, htype⟩)
    left := by
      rw [hwaiting]
      exact h.left }

/-- A section of the service. -/
theorem CoreSystem.Staged.serviceStep (h : c.Staged) (hkept : c.Kept config) {env : ServiceEnv}
    (hok : c.PrimitivesSucceed (.service env)) (hledger' : (c.serviceStep env).Ledger) :
    (c.serviceStep env).Staged := by
  have hinv := hkept.inv
  -- By where it is; what a section does to requests is read off the log.
  cases hservice : c.service with
  | stopped =>
    unfold CoreSystem.serviceStep
    rw [hservice]
    exact h
  | exited =>
    unfold CoreSystem.serviceStep
    rw [hservice]
    exact h
  | dequeuing =>
    -- A service on its way to a job; a job is put nowhere by it.
    have hgoes : c.service.Goes := by
      rw [hservice]
      exact ⟨nofun, nofun, ServicePc.not_completes nofun⟩
    unfold CoreSystem.serviceStep at hledger' ⊢
    rw [hservice] at hledger' ⊢
    dsimp only at hledger' ⊢
    split at hledger'
    · obtain ⟨hserved, hwaiting⟩ := hkept.ledger.lists_eq hledger' rfl rfl rfl
      exact h.frame rfl rfl rfl rfl h.finalizing rfl (.inl rfl) (.inr hgoes) hserved (.inl hwaiting)
    · obtain ⟨hserved, hwaiting⟩ := hkept.ledger.lists_eq hledger' rfl rfl rfl
      exact h.frame rfl rfl rfl rfl h.finalizing rfl (.inl rfl) (.inr hgoes) hserved (.inl hwaiting)
  -- The wait succeeds, so it sleeps on or takes a token.
  | waiting =>
    have hgoes : c.service.Goes := by
      rw [hservice]
      exact ⟨nofun, nofun, ServicePc.not_completes nofun⟩
    unfold CoreSystem.serviceStep at hledger' ⊢
    rw [hservice, show env.semWait = .ok () from hok] at hledger' ⊢
    dsimp only at hledger' ⊢
    cases hitems : c.jobQueue.semItems with
    | zero => exact h
    | succ n =>
      rw [hitems] at hledger'
      obtain ⟨hserved, hwaiting⟩ := hkept.ledger.lists_eq hledger' rfl rfl rfl
      exact h.frame rfl rfl rfl rfl h.finalizing rfl (.inl rfl) (.inr hgoes) hserved (.inl hwaiting)
  -- The token stands for a job, so the take finds one.
  | taking =>
    have hgoes : c.service.Goes := by
      rw [hservice]
      exact ⟨nofun, nofun, ServicePc.not_completes nofun⟩
    obtain ⟨q, htake, -⟩ := hinv.takes hservice
    unfold CoreSystem.serviceStep at hledger' ⊢
    rw [hservice] at hledger' ⊢
    dsimp only at hledger' ⊢
    rw [htake] at hledger' ⊢
    obtain ⟨hserved, hwaiting⟩ := hkept.ledger.lists_eq hledger' rfl rfl rfl
    exact h.frame rfl rfl rfl rfl h.finalizing rfl (.inl rfl) (.inr hgoes) hserved (.inl hwaiting)
  | running idx =>
    unfold CoreSystem.serviceStep at hledger' ⊢
    rw [hservice] at hledger' ⊢
    exact h.dispatchJob hinv hkept.ledger hservice hledger'
  | registering idx =>
    -- REGISTER sets REGISTERED or nothing, and is neither INIT nor DEINIT.
    have htype := (hinv.registering idx hservice).2
    unfold CoreSystem.serviceStep
    rw [hservice]
    refine h.executed hinv (by rw [hservice]; rfl) ?_ (fun hx => ?_) fun hx => ?_
    · intro state hs
      rcases (coreOpsRegister_state c.contexts env.register).1 with hr | hr <;>
        cases hr.symm.trans hs
      exact ⟨nofun, nofun, nofun⟩
    · cases htype.symm.trans hx
    · cases htype.symm.trans hx
  | completing idx result =>
    unfold CoreSystem.serviceStep at hledger' ⊢
    rw [hservice] at hledger' ⊢
    exact h.completeJob hkept hservice hledger'
  | releasing idx =>
    -- The slot goes back to the pool; the request stays in the service's hand.
    have hgoes : c.service.Goes := by
      rw [hservice]
      exact ⟨nofun, nofun, ServicePc.not_completes nofun⟩
    unfold CoreSystem.serviceStep at hledger' ⊢
    rw [hservice] at hledger' ⊢
    have hreleased : (c.releaseJob idx).Ledger := hledger'
    obtain ⟨hserved, hwaiting⟩ := hkept.ledger.lists_eq hreleased rfl rfl rfl
    exact h.frame rfl rfl rfl rfl h.finalizing rfl (.inl rfl) (.inr hgoes) hserved (.inl hwaiting)
  | calling request => exact h.calls hinv hservice env

/-! ### Every state of a run -/

/-- Every action keeps it. -/
theorem CoreSystem.Staged.step (h : c.Staged) (hkept : c.Kept config) {action : CoreAction}
    (hok : c.PrimitivesSucceed action) : (c.step config action).2.Staged := by
  have hledger' := (hkept.step hok).ledger
  cases action with
  | setCallback =>
    dsimp only [CoreSystem.step]
    split_ifs
    · exact h.frame rfl rfl rfl rfl h.finalizing rfl (.inl rfl) (.inl rfl) rfl (.inl rfl)
    · exact h
  | init env =>
    dsimp only [CoreSystem.step]
    split_ifs with hapi
    · exact h.actrustInit hkept.inv hapi env
    · exact h
  | call type =>
    dsimp only [CoreSystem.step]
    split_ifs
    · exact h.submit type
    · exact h
  | api env => exact h.apiStep hkept.inv hkept.ledger hledger'
  | deinit =>
    dsimp only [CoreSystem.step]
    split_ifs
    · exact h.actrustDeinit hkept.inv
    · exact h
  | deinitStep env =>
    dsimp only [CoreSystem.step] at hledger' ⊢
    split_ifs at hledger' ⊢
    · exact h
    · exact h.deinitStep hkept hok hledger'
  | service env =>
    dsimp only [CoreSystem.step] at hledger' ⊢
    split_ifs at hledger' ⊢
    · exact h
    · exact h.serviceStep hkept hok hledger'
  -- What the client does by itself touches none of the flags.
  | mqtt event =>
    exact h.frame rfl rfl rfl rfl h.finalizing rfl (.inl rfl) (.inl rfl) rfl (.inl rfl)

/-- With nothing that waits a pending deinit that has posted its job has it executed, and the service
has ended. -/
theorem CoreSystem.Staged.rests (h : c.Staged) (hpending : c.deinitPending = true)
    (hposted : ¬c.deinit.BeforePost) (hserved : c.served = []) (hwaiting : c.waiting = []) :
    c.deinitJobDone = true ∧ c.state = .deinit ∧ (c.service = .stopped ∨ c.service = .exited) := by
  -- Of the four reasons a deinit may be pending for, only its result is left.
  have hdone : c.deinitJobDone = true := by
    rcases h.posted hpending with hb | hd | hw | ⟨-, hs⟩
    · exact absurd hb hposted
    · exact hd
    · rw [hwaiting] at hw
      exact absurd hw not_hasDeinit_nil
    · rw [hserved] at hs
      exact absurd hs not_hasDeinit_nil
  refine ⟨hdone, (h.left hdone).1, ?_⟩
  rcases h.ended hdone with hs | hs | hw
  · exact .inl hs
  · exact .inr hs
  · rw [hserved, hwaiting] at hw
    exact absurd hw not_hasDeinit_nil

end Stages

end TrustSdk.Core.Service
