import TrustSdk.Core.Leaving
import TrustSdk.Lib.Progress

/-!
# The way out of every state

Where no step closes the MQTT client of a session (`Keeps`) and none leaves the NTP client behind that
it has failed to deinitialise (`Frees`), a DISCONNECT ends the session in every state that is reached,
and from each of them a connect, a disconnect or a deinit can succeed (`session_leavable`).

The states of such runs are `Healthy`. From each the way leads over states in which nothing waits
(`Resting`), which the service comes to by itself (`Healthy.drains`):

* a session is left by a DISCONNECT (`Resting.disconnects`);
* a core that is READY or INIT_FAILED is deinitialised, and one whose deinit is pending goes on with
  it: its job is posted anew where it has failed (`Resting.posts`), the service is joined
  (`Resting.joins`), and what is left is given back (`Healthy.finishes`);
* a core that is UNINIT is initialised.

A core whose NTP client cannot be deinitialised any more never gets out of DEINIT (`Closing.wedged`).
-/

namespace TrustSdk.Core.Service

open RingBuffer Machine

/-! ### The NTP client -/

section Operations

variable (x : CoreContexts)

/-- INIT leaves the flag of the NTP client alone. -/
theorem coreOpsInit_ntpClosing (env : InitEnv) :
    (coreOpsInit env x).contexts.ntpClosing = x.ntpClosing := by
  -- A failing INIT takes down what it made, and leaves the flag.
  have hfail : ∀ x e, (initFailCrypto env x e).contexts.ntpClosing = x.ntpClosing := by
    intro x e
    unfold initFailCrypto
    split
    · rfl
    · split <;> rfl
  -- The key is read, written or made, by a client that is no part of this.
  have hkey : ∀ registered x,
      (corePrepareSigningKey env registered x).2.ntpClosing = x.ntpClosing := by
    intro registered x
    unfold corePrepareSigningKey
    split
    · rfl
    · split_ifs
      · rfl
      · rfl
      · split <;> rfl
  -- The NTP client is made here, but its flag is not.
  have hcontexts : ∀ registered x,
      (initContexts env registered x).contexts.ntpClosing = x.ntpClosing := by
    intro registered x
    have hprepared := hkey registered { x with ntp := true, cloud := true }
    unfold initContexts
    split
    · exact hfail _ _
    · exact hfail _ _
    · generalize corePrepareSigningKey env registered { x with ntp := true, cloud := true } = out
        at hprepared
      obtain ⟨_ | _, x'⟩ := out
      · exact (hfail _ _).trans hprepared
      · dsimp only
        split
        · exact (hfail _ _).trans hprepared
        · exact hprepared
  unfold coreOpsInit
  split
  · rfl
  · rfl
  · split
    · exact hcontexts _ _
    · split_ifs
      · exact hfail _ _
      · exact hcontexts _ _

/-- Leaving a session leaves it alone. -/
theorem coreLeaveSession_ntpClosing (env : LeaveEnv) :
    (coreLeaveSession env x).2.ntpClosing = x.ntpClosing := by
  have hcloud : ∀ (x : CoreContexts) (env : CloudEnv),
      (actrustCloudDisconnect env x).2.ntpClosing = x.ntpClosing := by
    intro x env
    unfold actrustCloudDisconnect
    split_ifs
    · rfl
    · split <;> rfl
  exact hcloud _ _

/-- So does CONNECT, however it ends. -/
theorem coreOpsConnect_ntpClosing (env : ConnectEnv) :
    (coreOpsConnect env x).contexts.ntpClosing = x.ntpClosing := by
  have hcleanup : ∀ x e, (connectCleanup env x e).contexts.ntpClosing = x.ntpClosing :=
    fun x _ => coreLeaveSession_ntpClosing x env.cleanup
  have hconnect : (actrustCloudConnect env.connect x).2.ntpClosing = x.ntpClosing := by
    unfold actrustCloudConnect
    split_ifs
    · rfl
    · split <;> rfl
  -- A connect that fails behind the cloud's cleans up, which is leaving the session.
  unfold coreOpsConnect
  generalize actrustCloudConnect env.connect x = out at hconnect
  obtain ⟨_ | _, x'⟩ := out
  · exact hconnect
  · dsimp only
    split
    · exact (hcleanup _ _).trans hconnect
    · split
      · exact (hcleanup _ _).trans hconnect
      · split
        · exact (hcleanup _ _).trans hconnect
        · unfold connectRegistered
          split_ifs
          · exact hconnect
          · exact (hcleanup _ _).trans hconnect
          · exact hconnect

/-- So does DISCONNECT. -/
theorem coreOpsDisconnect_ntpClosing (env : LeaveEnv) :
    (coreOpsDisconnect env x).contexts.ntpClosing = x.ntpClosing := by
  have hleave := coreLeaveSession_ntpClosing x env
  unfold coreOpsDisconnect
  generalize coreLeaveSession env x = out at hleave
  obtain ⟨_ | _, x'⟩ := out <;> exact hleave

/-- So does REGISTER. -/
theorem coreOpsRegister_ntpClosing (env : RegisterEnv) :
    (coreOpsRegister env x).contexts.ntpClosing = x.ntpClosing := by
  unfold coreOpsRegister
  dsimp only
  split <;> rfl

/-- Releasing succeeds with a release that does, or with nothing there. -/
@[simp] theorem coreRelease_ok (there : Bool) : coreRelease there (.ok ()) = .ok () := by
  cases there <;> rfl

/-- A deinit of the NTP client that succeeds leaves nothing behind. -/
theorem coreOpsDeinit_ntpClosing {env : DeinitOpEnv} (hntp : env.ntpDeinit = .ok ())
    (hclosing : x.ntpClosing = false) :
    (coreOpsDeinit env x).contexts.ntpClosing = false := by
  unfold coreOpsDeinit
  split
  · exact hclosing
  · split
    · exact hclosing
    · dsimp only
      split
      · exact hclosing
      · split
        · exact hclosing
        · split
          next hfails =>
            -- the deinit is let in, and succeeds
            unfold actrustNtpDeinit at hfails
            dsimp only at hfails
            rw [hclosing, if_neg Bool.false_ne_true, hntp, coreRelease_ok] at hfails
            cases hfails
          · split
            · exact hclosing
            · exact hclosing

/-- With every call succeeding and a free NTP client DEINIT succeeds. -/
theorem coreOpsDeinit_works (hclosing : x.ntpClosing = false) :
    (coreOpsDeinit ServiceEnv.works.deinit x).result = .ok () := by
  unfold coreOpsDeinit actrustNtpDeinit
  rw [show ServiceEnv.works.deinit.ntpStop = .works from rfl,
    show ServiceEnv.works.deinit.downlinkStop = .works from rfl, coreWorkerStop_works,
    coreWorkerStop_works]
  simp only [hclosing, ServiceEnv.works, coreRelease_ok, Bool.false_eq_true, if_false]

end Operations

section Steps

variable {config : CoreConfig} {c c' : CoreSystem}

/-- The operation of a job leaves the flag alone unless a DEINIT fails behind it. -/
theorem CoreSystem.dispatchJob_ntpClosing {idx : ℕ} (hservice : c.service = .running idx)
    {env : ServiceEnv} (hfrees : c.Frees (.service env)) (h : c.contexts.ntpClosing = false) :
    (c.dispatchJob env idx).contexts.ntpClosing = false := by
  unfold CoreSystem.dispatchJob
  split
  · exact (coreOpsInit_ntpClosing _ env.init).trans h
  · exact (coreOpsConnect_ntpClosing _ env.connect).trans h
  · exact (coreOpsDisconnect_ntpClosing _ env.disconnect).trans h
  · split_ifs <;> exact h
  · exact h
  next htype =>
    refine coreOpsDeinit_ntpClosing _ (hfrees ?_) h
    rw [hservice]
    exact htype
  · exact h

/-- No other action touches it. -/
theorem CoreSystem.step_ntpClosing (hinv : c.Inv config) {action : CoreAction}
    (hfrees : c.Frees action) (h : c.contexts.ntpClosing = false) :
    (c.step config action).2.contexts.ntpClosing = false := by
  have halters := step_alters hinv action
  generalize (c.step config action).2 = c' at halters
  -- Only the operations of jobs touch the contexts of the NTP client.
  cases halters with
  | stays _ hcontexts _ =>
    rw [hcontexts]
    exact h
  | begins _ _ hcontexts =>
    rw [hcontexts]
    exact h
  | leaves _ _ _ hcontexts =>
    rw [hcontexts]
    exact h
  | moves event _ hcontexts _ =>
    rw [hcontexts]
    exact h
  | runs idx env hservice heq =>
    rw [heq]
    exact dispatchJob_ntpClosing hservice hfrees h
  | registers idx env _ heq =>
    rw [heq]
    exact (coreOpsRegister_ntpClosing _ env.register).trans h

/-! ### The states of a run -/

/-- What holds in the runs of the second half of the theorem. -/
structure CoreSystem.Healthy (config : CoreConfig) (c : CoreSystem) : Prop where
  kept : c.Kept config
  linked : c.Linked
  staged : c.Staged
  /-- The NTP client can be deinitialised. -/
  free : c.contexts.ntpClosing = false

/-- From here a connect, a disconnect or a deinit can succeed. -/
def CoreSystem.Recovers (config : CoreConfig) (c : CoreSystem) : Prop :=
  CanReach (CoreSystem.step config) (fun c => ∃ action, c.Succeeds config action) c

/-- It can where it can after a step. -/
theorem CoreSystem.Recovers.after (action : CoreAction) (hstep : (c.step config action).2 = c')
    (h : c'.Recovers config) : c.Recovers config := by
  refine CanReach.after action ?_
  rw [hstep]
  exact h

/-- Every action that meets the three conditions keeps it. -/
theorem CoreSystem.Healthy.step (h : c.Healthy config) {action : CoreAction}
    (hkeeps : c.Keeps action) (hfrees : c.Frees action) (hok : c.PrimitivesSucceed action) :
    (c.step config action).2.Healthy config where
  kept := h.kept.step hok
  linked := h.linked.step h.kept.inv hkeeps
  staged := h.staged.step h.kept hok
  free := step_ntpClosing h.kept.inv hfrees h.free

/-- With every call of its operations succeeding, the service keeps the client. -/
theorem CoreSystem.Linked.keeps_works (h : c.Linked) : c.Keeps (.service .works) := by
  intro hs
  refine ⟨fun _ => .inl ⟨rfl, rfl, rfl⟩, fun _ => .inl ?_⟩
  unfold ConnectEnv.succeeds
  rw [h.cloud hs]
  rfl

/-- With no call under way the service takes its section. -/
theorem CoreSystem.step_service (config : CoreConfig) (hapi : c.api = .idle) (env : ServiceEnv) :
    (c.step config (.service env)).2 = c.serviceStep env :=
  if_neg fun hblocked => hblocked.2 hapi

/-- With no call under way the deinit takes its section. -/
theorem CoreSystem.step_deinitStep (config : CoreConfig) (hapi : c.api = .idle) (env : DeinitEnv) :
    (c.step config (.deinitStep env)).2 = c.deinitStep env :=
  if_neg fun hblocked => hblocked.2 hapi

/-- With all calls succeeding a section of the service keeps it. -/
theorem CoreSystem.Healthy.serviceStep (h : c.Healthy config) (hapi : c.api = .idle) :
    (c.serviceStep .works).Healthy config := by
  rw [← step_service config hapi]
  exact h.step h.linked.keeps_works (fun _ => rfl) rfl

/-- A section of the deinit leaves the call under way alone. -/
theorem CoreSystem.deinitStep_api (c : CoreSystem) (env : DeinitEnv) :
    (c.deinitStep env).api = c.api := by
  cases hd : c.deinit with
  | idle =>
    unfold deinitStep
    rw [hd]
  | posting request previous start pc =>
    unfold deinitStep
    rw [hd]
    dsimp only
    split <;> rfl
  | starting previous =>
    unfold deinitStep
    rw [hd]
    dsimp only
    split <;> rfl
  | restoring previous =>
    unfold deinitStep
    rw [hd]
    rfl
  | joining =>
    obtain ⟨-, -, hapi, -⟩ := c.joinService_frame env.join hd
    unfold deinitStep
    rw [hd]
    exact hapi
  | finishing =>
    unfold deinitStep
    rw [hd]
    exact c.finishDeinit_api env.finish

/-- With all calls succeeding a section of the deinit keeps it. -/
theorem CoreSystem.Healthy.deinitStep (h : c.Healthy config) (hapi : c.api = .idle) :
    (c.deinitStep .works).Healthy config ∧ (c.deinitStep .works).api = .idle := by
  have hnext := h.step (show c.Keeps (.deinitStep .works) from trivial) trivial ⟨rfl, rfl⟩
  rw [step_deinitStep config hapi] at hnext
  exact ⟨hnext, (c.deinitStep_api .works).trans hapi⟩

/-! ### Nothing waits -/

/-- Every job that has been accepted has been executed and called back. -/
structure CoreSystem.Resting (config : CoreConfig) (c : CoreSystem) : Prop where
  healthy : c.Healthy config
  api : c.api = .idle
  served : c.served = []
  waiting : c.waiting = []

/-- The service executes what waits, and calls back for it: if the rest recovers from what its
sections keep, so does the core. -/
theorem CoreSystem.Healthy.drains {I : CoreSystem → Prop} (h : c.Healthy config)
    (hapi : c.api = .idle) (hI : I c)
    (hstarting : ∀ c, I c → ∀ previous, c.deinit ≠ .starting previous)
    (hstep : ∀ c, c.Healthy config → c.api = .idle → I c →
      c.Recovers config ∨ I (c.serviceStep .works))
    (hrest : ∀ c, c.Resting config → I c → c.Recovers config) : c.Recovers config := by
  have hreach : CanReach (CoreSystem.step config)
      (fun c => c.Recovers config ∨ c.Resting config ∧ I c) c := by
    refine CanReach.of_rank (I := fun c => c.Healthy config ∧ c.api = .idle ∧ I c)
      -- Nine times the jobs left and how far the service is: each section lowers one of the two.
      (fun c => 9 * (c.served ++ c.waiting).length + c.service.rank) ?_ ⟨h, hapi, hI⟩
    rintro c ⟨h, hapi, hI⟩
    by_cases hnil : c.served ++ c.waiting = []
    · -- Nothing is left, so what rests does the rest.
      obtain ⟨hserved, hwaiting⟩ := List.append_eq_nil_iff.mp hnil
      exact .inl (.inr ⟨⟨h, hapi, hserved, hwaiting⟩, hI⟩)
    · rcases hstep c h hapi hI with hrecovers | hI'
      · exact .inl (.inl hrecovers)
      · right
        -- Else the service takes one section more, with answers that go well.
        refine ⟨.service .works, ?_⟩
        rw [step_service config hapi]
        have hnext := h.serviceStep hapi
        obtain ⟨-, -, hapi', -, -, henqueued, -⟩ := c.serviceStep_frame .works
        refine ⟨⟨hnext, hapi'.trans hapi, hI'⟩, ?_⟩
        have hrun : c.Running := by
          rcases h.kept.serviced.attended h.kept.inv hnil with hrun | ⟨previous, hd⟩
          · exact hrun
          · exact absurd hd (hstarting c hI previous)
        -- a section brings the next callback nearer, or makes it
        have hlength := h.kept.ledger.length
        have hlength' := hnext.kept.ledger.length
        have hrank := (c.serviceStep .works).service.rank_le
        rw [henqueued] at hlength'
        have hworks : ServiceEnv.works.semWait = .ok () := rfl
        rcases serviceStep_advances h.kept.inv hnil hworks hrun with
          -- The callback of a job is one job less, whatever point the service is at behind it.
          ⟨hsame, hnearer⟩ | ⟨⟨request, hcalled⟩, -⟩
        · rw [hsame] at hlength'
          omega
        · rw [hcalled, List.length_append, List.length_singleton] at hlength'
          have hpos := c.service.rank_pos
          omega
  refine hreach.trans ?_
  rintro c (hrecovers | ⟨hresting, hI⟩)
  · exact hrecovers
  · exact hrest c hresting hI

/-- The service alone has moved. -/
structure CoreSystem.Beside (c c' : CoreSystem) : Prop where
  lock : c'.lock = c.lock
  pending : c'.deinitPending = c.deinitPending
  deinit : c'.deinit = c.deinit

/-- A section of the service is beside the call and the deinit. -/
theorem CoreSystem.Beside.serviceStep (h : c.Beside c') (env : ServiceEnv) :
    c.Beside (c'.serviceStep env) := by
  obtain ⟨hlock, hpending, -, hdeinit, -⟩ := c'.serviceStep_frame env
  exact ⟨hlock.trans h.lock, hpending.trans h.pending, hdeinit.trans h.deinit⟩

/-- What recovers with nothing that waits recovers. -/
theorem CoreSystem.Healthy.rests (h : c.Healthy config) (hapi : c.api = .idle)
    (hstarting : ∀ previous, c.deinit ≠ .starting previous)
    (hrest : ∀ c' : CoreSystem, c'.Resting config → c.Beside c' → c'.Recovers config) : c.Recovers config := by
  refine h.drains (I := c.Beside) hapi ⟨rfl, rfl, rfl⟩ ?_ ?_ hrest
  · intro c' hbeside previous
    rw [hbeside.deinit]
    exact hstarting previous
  · intro c' _ _ hbeside
    exact .inr (hbeside.serviceStep .works)

/-- The pool and the queue are empty. -/
theorem CoreSystem.Resting.free (h : c.Resting config) (hslots : c.deinit.slots = []) :
    c.jobPool.Accounted config.jobPoolSize [] ∧ c.jobQueue.ring.count = 0 := by
  have hserved := h.served
  have hwaiting := h.waiting
  have hdone : c.service.done = [] := List.map_eq_nil_iff.mp (List.append_eq_nil_iff.mp hserved).1
  obtain ⟨hworking, hqueued⟩ := List.append_eq_nil_iff.mp (List.map_eq_nil_iff.mp hwaiting)
  have hheld := h.healthy.kept.inv.accounted
  rw [held, queuedOrServed, h.api, hslots, hdone, hworking, hqueued] at hheld
  exact ⟨hheld, RingBuffer.Fifo.toList_eq_nil.mp hqueued⟩

/-- A job is posted to an empty queue, with every slot free. -/
theorem corePostJob_works {size : ℕ} {p : JobPool} {q : JobQueue} (hp : p.Accounted size [])
    (hsize : 0 < size) (hcount : q.ring.count = 0) (hdepth : 0 < q.ring.depth)
    (hopen : q.closed = false) (request : Request) :
    ∃ idx p', corePostJob .works request p q .allocating = (.next (.enqueuing idx), p', q) ∧
      corePostJob .works request p' q (.enqueuing idx) = (.returned (.ok ()), p',
        { q with ring := q.ring.push idx, semItems := q.semItems + 1 }) := by
  -- The pool has a slot and the ring room, so neither section is refused.
  obtain ⟨idx, p', halloc⟩ := hp.exists_alloc (by exact hsize) request
  have hcopy : coreCopyParams .works request.type = .ok () := by
    cases request.type <;> rfl
  have henqueue : actrustJobQueueEnqueue q (.ok ()) idx
      = .ok { q with ring := q.ring.push idx, semItems := q.semItems + 1 } := by
    unfold actrustJobQueueEnqueue
    rw [if_neg (by rw [hopen]; exact Bool.false_ne_true), hcount, if_neg (Nat.not_le_of_lt hdepth)]
  refine ⟨idx, p', ?_, ?_⟩
  · dsimp only [corePostJob]
    rw [halloc]
  · dsimp only [corePostJob]
    rw [hcopy]
    dsimp only [PostEnv.works]
    rw [henqueue]

/-! ### The end of a deinit -/

/-- The later phases end with the core, all of their calls succeeding. -/
theorem CoreSystem.finishDeinit_works (hphase : c.deinitPhase ≠ .job)
    (hclosed : c.deinitPhase = .queue → (actrustJobQueueClose c.jobQueue).closed = true ∧
      (actrustJobQueueClose c.jobQueue).ring.count = 0 ∧
      (actrustJobQueueClose c.jobQueue).waiterCount = 0) :
    (c.finishDeinit DeinitEnv.works.finish).lock = false := by
  unfold CoreSystem.finishDeinit
  cases hp : c.deinitPhase with
  | job => exact absurd hp hphase
  | queue =>
    dsimp only
    have hcheck : actrustJobQueueDeinit (actrustJobQueueClose c.jobQueue) = .ok () :=
      if_pos (hclosed hp)
    -- nothing is drained
    have hnone : coreDrainPendingJobs c.jobPool (actrustJobQueueClose c.jobQueue) []
        = (c.jobPool, actrustJobQueueClose c.jobQueue) := rfl
    unfold CoreSystem.finishQueue
    dsimp only [DeinitEnv.works]
    rw [hnone]
    dsimp only
    rw [hcheck]
    rfl
  | pool => rfl
  | lock => rfl

/-- What is left is given back. -/
theorem CoreSystem.Healthy.finishes (h : c.Healthy config) (hapi : c.api = .idle)
    (hd : c.deinit = .finishing) : c.Recovers config := by
  have hinv := h.kept.inv
  -- The deinit is in its last part: the service is gone, and its job has succeeded.
  obtain ⟨hlock, -, -⟩ := hinv.attempt (by rw [hd]; rintro ⟨⟩)
  have hat := hinv.attempting
  rw [hd] at hat
  obtain ⟨htask, hphase⟩ := hat
  have hstopped := hinv.stopped htask
  have hwaiters := hinv.waiters
  rw [hstopped] at hwaiters
  -- the service has taken every job before it ended
  have hwaiting : c.waiting = [] := (h.kept.serviced.stopped htask).resolve_right <| by
    rintro ⟨_, _, hx, -⟩
    cases hd.symm.trans hx
  have hqueued : c.queued = [] := by
    unfold CoreSystem.waiting JobPool.requests at hwaiting
    rw [hstopped] at hwaiting
    exact List.map_eq_nil_iff.mp hwaiting
  have hcount : c.jobQueue.ring.count = 0 := Fifo.toList_eq_nil.mp hqueued
  -- Queue, pool and lock are taken down in the one step, as every call succeeds.
  have hunlocked : (c.deinitStep .works).lock = false := by
    unfold CoreSystem.deinitStep
    rw [hd]
    refine finishDeinit_works hphase fun _ => ?_
    unfold actrustJobQueueClose
    split_ifs with hclosed
    · exact ⟨hclosed, hcount, hwaiters⟩
    · exact ⟨rfl, hcount, hwaiters⟩
  refine CanReach.here ⟨.deinitStep .works, hlock, ?_⟩
  rw [step_deinitStep config hapi]
  exact hunlocked

/-- A deinit that is done goes on to its later phases. -/
theorem CoreSystem.checkDeinitJob_done (h : c.DeinitDone) :
    c.checkDeinitJob.deinit = .finishing := by
  obtain ⟨hdone, hok⟩ := h
  unfold checkDeinitJob
  rw [hdone, if_neg Bool.noConfusion]
  cases hresult : c.deinitResult with
  | ok _ => rfl
  | error e =>
    rw [hresult] at hok
    cases hok

/-- Behind a service that has ended the deinit goes on, or stays pending. -/
theorem CoreSystem.joinService_ends (h : c.serviceTask = false ∨ c.service = .exited) :
    (c.joinService (.ok ())).deinit = .finishing ∨
      (c.joinService (.ok ())).deinit = .idle ∧ (c.joinService (.ok ())).serviceTask = false := by
  -- Without a task the result is looked at; it is there, or the attempt ends.
  have hcheck : ∀ c : CoreSystem, c.serviceTask = false → c.checkDeinitJob.deinit = .finishing ∨
      c.checkDeinitJob.deinit = .idle ∧ c.checkDeinitJob.serviceTask = false := by
    intro c htask
    unfold checkDeinitJob
    split_ifs
    · exact .inr ⟨rfl, htask⟩
    · split
      · exact .inr ⟨rfl, htask⟩
      · exact .inl rfl
  unfold joinService
  split_ifs with htask
  · exact hcheck c htask
  · have hexited := h.resolve_left htask
    rw [hexited]
    dsimp only
    split
    · exact .inr ⟨rfl, rfl⟩
    · exact hcheck _ rfl

/-- A check that lets the attempt go on, or not, leaves the result of the job. -/
theorem CoreSystem.joinService_result (c : CoreSystem) (join : Except Err Unit) :
    (c.joinService join).deinitJobDone = c.deinitJobDone ∧
      (c.joinService join).deinitResult = c.deinitResult := by
  have hcheck : ∀ c : CoreSystem, c.checkDeinitJob.deinitJobDone = c.deinitJobDone ∧
      c.checkDeinitJob.deinitResult = c.deinitResult := by
    intro c
    unfold checkDeinitJob
    split_ifs
    · exact ⟨rfl, rfl⟩
    · split <;> exact ⟨rfl, rfl⟩
  -- The task is gone, has exited and is joined, or still runs.
  unfold joinService
  split_ifs
  · exact hcheck c
  · split
    · exact ⟨rfl, rfl⟩
    · dsimp only
      split
      · exact ⟨rfl, rfl⟩
      · exact hcheck { c with serviceTask := false, service := .stopped }
    · exact ⟨rfl, rfl⟩

/-- The service is joined: the deinit goes on, or stays pending without it. -/
theorem CoreSystem.Resting.joins (h : c.Resting config) (hd : c.deinit = .joining)
    (hpend : ∀ c' : CoreSystem, c'.Resting config → c'.deinit = .idle → c'.deinitPending = true →
      c'.serviceTask = false → (c.DeinitDone → c'.DeinitDone) → c'.Recovers config) :
    c.Recovers config := by
  have hinv := h.healthy.kept.inv
  obtain ⟨-, hpending, -⟩ := hinv.attempt (by rw [hd]; rintro ⟨⟩)
  obtain ⟨-, -, hended⟩ := h.healthy.staged.rests hpending (by rw [hd]; exact id) h.served h.waiting
  -- Nothing waits and nothing is served, so the service has ended by itself.
  have hends : c.serviceTask = false ∨ c.service = .exited := by
    rcases hended with hstopped | hexited
    · left
      by_contra htask
      exact hinv.task (Bool.eq_true_of_not_eq_false htask) hstopped
    · exact .inr hexited
  obtain ⟨hnext, hapi⟩ := h.healthy.deinitStep h.api
  obtain ⟨-, hpending', -, hlog, -⟩ := c.joinService_frame (.ok ()) hd
  obtain ⟨hdone, hresult⟩ := c.joinService_result (.ok ())
  have hstep : c.deinitStep .works = c.joinService (.ok ()) := by
    unfold CoreSystem.deinitStep
    rw [hd]
    rfl
  rw [hstep] at hnext hapi
  refine Recovers.after (.deinitStep .works) ((step_deinitStep config h.api _).trans hstep) ?_
  -- The deinit comes past the service, or gives up without one, and pends.
  rcases joinService_ends hends with hfinishing | ⟨hidle, htask⟩
  · exact hnext.finishes hapi hfinishing
  · obtain ⟨hserved, hwaiting⟩ := h.healthy.kept.ledger.lists_eq hnext.kept.ledger
      (congrArg CoreLog.enqueued hlog) (congrArg CoreLog.executed hlog)
      (congrArg CoreLog.callbacks hlog)
    refine hpend _ ⟨hnext, hapi, hserved.trans h.served, hwaiting.trans h.waiting⟩ hidle
      (hpending'.trans hpending) htask ?_
    unfold DeinitDone
    rw [hdone, hresult]
    exact id

/-! ### A deinit that is tried again -/

/-- The first section of a deinit that is pending. -/
theorem actrustDeinit_again (hlock : c.lock = true) (hactive : c.callbackActive = false)
    (hfinalizing : c.deinitFinalizing = false) (hstate : c.state = .deinit)
    (hpending : c.deinitPending = true) :
    actrustDeinit c = { c with
      deinitFinalizing := true
      deinit := c.attempt false .ready ⟨.deinit, c.log.nextCall⟩
      log := { c.log with nextCall := c.log.nextCall + 1 } } := by
  unfold actrustDeinit
  dsimp only
  rw [hlock, hactive, hfinalizing, hstate, hpending]
  rfl

/-- Where nothing is served no callback is active. -/
theorem CoreSystem.Resting.callback (h : c.Resting config) : c.callbackActive = false := by
  by_contra hactive
  exact h.healthy.staged.calling (Bool.eq_true_of_not_eq_false hactive) h.served

/-- No attempt is under way. -/
theorem CoreSystem.Healthy.finalizing (h : c.Healthy config) (hd : c.deinit = .idle) :
    c.deinitFinalizing = false := by
  by_contra hfinalizing
  exact h.staged.finalizing (Bool.eq_true_of_not_eq_false hfinalizing) hd

/-- Another call of `actrust_deinit` goes on with the deinit that is pending. -/
theorem CoreSystem.Resting.again (h : c.Resting config) (hd : c.deinit = .idle)
    (hpending : c.deinitPending = true)
    (hnext : ∀ c' : CoreSystem, c'.Resting config → c'.serviceTask = c.serviceTask →
      (c.DeinitDone → c'.DeinitDone) →
      c'.deinit = c.attempt false .ready ⟨.deinit, c.log.nextCall⟩ → c'.Recovers config) :
    c.Recovers config := by
  have hinv := h.healthy.kept.inv
  have hlock : c.lock = true := by
    by_contra hunlocked
    have hnot := (hinv.unlocked (Bool.eq_false_iff.mpr hunlocked)).2.2.1
    exact Bool.noConfusion (hnot.symm.trans hpending)
  -- A pending deinit that has posted knows its result when nothing is left of it.
  obtain ⟨-, hstate, -⟩ := h.healthy.staged.rests hpending (by rw [hd]; exact id) h.served h.waiting
  have hagain := actrustDeinit_again hlock h.callback (h.healthy.finalizing hd) hstate hpending
  have hstep : (c.step config .deinit).2 = _ := (if_pos h.api).trans hagain
  have hhealthy := h.healthy.step (show c.Keeps .deinit from trivial) trivial trivial
  rw [hstep] at hhealthy
  refine Recovers.after .deinit hstep (hnext _ ?_ rfl id rfl)
  exact ⟨hhealthy, h.api, h.served, h.waiting⟩

/-- Its job has succeeded, and the service has been joined. -/
theorem CoreSystem.Resting.ends (h : c.Resting config) (hd : c.deinit = .idle)
    (hpending : c.deinitPending = true) (htask : c.serviceTask = false) (hdone : c.DeinitDone) :
    c.Recovers config := by
  -- The attempt cannot post again; it looks at the result, or is past it.
  refine h.again hd hpending fun c' h' htask' hdone' hd' => ?_
  rcases c.attempt_cases false .ready ⟨.deinit, c.log.nextCall⟩ with
    ⟨-, -, hnew⟩ | ⟨ha, -⟩ | ⟨ha, -⟩
  · exact absurd hdone (hnew.resolve_left Bool.false_ne_true).2
  · rw [ha] at hd'
    obtain ⟨hnext, hapi⟩ := h'.healthy.deinitStep h'.api
    have hstep : c'.deinitStep .works = c'.checkDeinitJob := by
      unfold CoreSystem.deinitStep CoreSystem.joinService
      rw [hd']
      exact if_pos (htask'.trans htask)
    rw [hstep] at hnext hapi
    refine Recovers.after (.deinitStep .works) ((step_deinitStep config h'.api _).trans hstep) ?_
    exact hnext.finishes hapi (checkDeinitJob_done (hdone' hdone))
  · rw [ha] at hd'
    exact h'.healthy.finishes h'.api hd'

/-! ### A DEINIT that succeeds -/

/-- The attempt waits for a DEINIT that is executed, or has been, with success. -/
structure CoreSystem.Promised (c : CoreSystem) : Prop where
  joining : c.deinit = .joining
  job : HasDeinit c.waiting ∨
    (∃ idx, c.service = .completing idx (.ok ()) ∧ HasDeinit c.served) ∨
    c.DeinitDone ∧ c.waiting = [] ∧ ¬c.service.Completes

/-- A section between jobs. -/
theorem CoreSystem.Promised.frame (h : c.Promised) (hd : c'.deinit = c.deinit)
    (hdone : c.DeinitDone → c'.DeinitDone) (hwaiting : c'.waiting = c.waiting)
    (hgoes : ¬c.service.Completes) (hgoes' : ¬c'.service.Completes) : c'.Promised where
  joining := hd.trans h.joining
  job := by
    rw [hwaiting]
    rcases h.job with hw | ⟨idx, hservice, -⟩ | ⟨hd, hnil, -⟩
    · exact .inl hw
    · exact absurd ⟨idx, _, hservice⟩ hgoes
    · exact .inr (.inr ⟨hdone hd, hnil, hgoes'⟩)

/-- The operation of a job, the DEINIT or one before it. -/
theorem CoreSystem.Promised.executed (h : c.Promised) {idx : ℕ}
    (hworking : c.service.working = [idx]) {r : OpsResult}
    (hok : (c.jobPool.pool idx).request.type = .deinit → r.result = .ok ()) :
    (c.executed idx r).Promised where
  joining := h.joining
  job := by
    obtain ⟨⟨-, -, hcompletes⟩, -, -⟩ := ServicePc.working_goes hworking
    have hwaiting := c.waiting_executed hworking r
    rcases h.job with ⟨request, hmem, htype⟩ | ⟨i, hservice, -⟩ | ⟨-, hnil, -⟩
    · rw [hwaiting] at hmem
      rcases List.mem_cons.mp hmem with rfl | hmem
      · -- it is the DEINIT
        refine .inr (.inl ⟨idx, ?_, _, List.mem_cons_self, htype⟩)
        show ServicePc.completing idx r.result = _
        rw [hok htype]
      · exact .inl ⟨request, hmem, htype⟩
    · exact absurd ⟨i, _, hservice⟩ hcompletes
    · rw [hwaiting] at hnil
      cases hnil

/-- A section of the service. -/
theorem CoreSystem.Promised.serviceStep (h : c.Promised) (hhealthy : c.Healthy config)
    (hapi : c.api = .idle) : (c.serviceStep .works).Promised := by
  -- The lists of requests are those of the log, before and after.
  have hledger := hhealthy.kept.ledger
  have hledger' := (hhealthy.serviceStep hapi).kept.ledger
  cases hservice : c.service with
  | stopped =>
    unfold CoreSystem.serviceStep
    rw [hservice]
    exact h
  | exited =>
    unfold CoreSystem.serviceStep
    rw [hservice]
    exact h
  -- The sections up to the dispatch leave the DEINIT among those that wait.
  | dequeuing =>
    have hgoes : ¬c.service.Completes := ServicePc.not_completes (by rw [hservice]; rintro _ _ ⟨⟩)
    unfold CoreSystem.serviceStep at hledger' ⊢
    rw [hservice] at hledger' ⊢
    dsimp only at hledger' ⊢
    split at hledger'
    · obtain ⟨-, hwaiting⟩ := hledger.lists_eq hledger' rfl rfl rfl
      exact h.frame rfl id hwaiting hgoes (ServicePc.not_completes (by rintro _ _ ⟨⟩))
    · obtain ⟨-, hwaiting⟩ := hledger.lists_eq hledger' rfl rfl rfl
      exact h.frame rfl id hwaiting hgoes (ServicePc.not_completes (by rintro _ _ ⟨⟩))
  | waiting =>
    have hgoes : ¬c.service.Completes := ServicePc.not_completes (by rw [hservice]; rintro _ _ ⟨⟩)
    unfold CoreSystem.serviceStep at hledger' ⊢
    rw [hservice, show ServiceEnv.works.semWait = .ok () from rfl] at hledger' ⊢
    dsimp only at hledger' ⊢
    cases hitems : c.jobQueue.semItems with
    | zero => exact h
    | succ n =>
      rw [hitems] at hledger'
      obtain ⟨-, hwaiting⟩ := hledger.lists_eq hledger' rfl rfl rfl
      exact h.frame rfl id hwaiting hgoes (ServicePc.not_completes (by rintro _ _ ⟨⟩))
  | taking =>
    have hgoes : ¬c.service.Completes := ServicePc.not_completes (by rw [hservice]; rintro _ _ ⟨⟩)
    obtain ⟨q, htake, -⟩ := hhealthy.kept.inv.takes hservice
    unfold CoreSystem.serviceStep at hledger' ⊢
    rw [hservice] at hledger' ⊢
    dsimp only at hledger' ⊢
    rw [htake] at hledger' ⊢
    obtain ⟨-, hwaiting⟩ := hledger.lists_eq hledger' rfl rfl rfl
    exact h.frame rfl id hwaiting hgoes (ServicePc.not_completes (by rintro _ _ ⟨⟩))
  -- The DEINIT executed goes well, since its NTP client is not closing.
  | running idx =>
    have hworking : c.service.working = [idx] := by
      rw [hservice]
      rfl
    have hgoes := (ServicePc.working_goes hworking).1.2.2
    unfold CoreSystem.serviceStep CoreSystem.dispatchJob at hledger' ⊢
    rw [hservice] at hledger' ⊢
    dsimp only at hledger' ⊢
    split at hledger'
    -- Any other job is executed before it, and it still waits.
    next htype => exact h.executed hworking fun hx => by cases htype.symm.trans hx
    next htype => exact h.executed hworking fun hx => by cases htype.symm.trans hx
    next htype => exact h.executed hworking fun hx => by cases htype.symm.trans hx
    next htype =>
      split_ifs at hledger' ⊢
      · exact h.executed hworking fun hx => by cases htype.symm.trans hx
      · obtain ⟨-, hwaiting⟩ := hledger.lists_eq hledger' rfl rfl rfl
        exact h.frame rfl id hwaiting hgoes (ServicePc.not_completes (by rintro _ _ ⟨⟩))
    next htype => exact h.executed hworking fun hx => by cases htype.symm.trans hx
    next htype => exact h.executed hworking fun _ => coreOpsDeinit_works _ hhealthy.free
    next htype => exact h.executed hworking fun hx => by cases htype.symm.trans hx
  -- A REGISTER is another job as well.
  | registering idx =>
    have htype := (hhealthy.kept.inv.registering idx hservice).2
    unfold CoreSystem.serviceStep
    rw [hservice]
    exact h.executed (by rw [hservice]; rfl) fun hx => by cases htype.symm.trans hx
  | completing idx result =>
    have hserved : c.served = [(c.jobPool.pool idx).request] :=
      c.served_of_done (by rw [hservice]; rfl) (by rw [hservice]; rfl)
    have hgoes' : ¬(c.completeJob idx result).service.Completes :=
      ServicePc.not_completes (by rintro _ _ ⟨⟩)
    unfold CoreSystem.serviceStep at hledger' ⊢
    rw [hservice] at hledger' ⊢
    dsimp only at hledger' ⊢
    have hcompleted : (c.completeJob idx result).Ledger := hledger'
    obtain ⟨-, hwaiting⟩ := hledger.lists_eq hcompleted rfl rfl rfl
    refine ⟨h.joining, ?_⟩
    -- Among the waiting, the one that completes, or done.
    rcases h.job with hw | ⟨i, hcompleting, request, hmem, htype⟩ | ⟨-, -, hnot⟩
    · rw [hwaiting]
      exact .inl hw
    · -- the DEINIT has succeeded, and nothing waits behind it
      have hresult : result = .ok () := by
        rw [hservice] at hcompleting
        injection hcompleting
      rw [hserved] at hmem
      rw [List.mem_singleton.mp hmem] at htype
      refine .inr (.inr ⟨?_, ?_, hgoes'⟩)
      · unfold DeinitDone CoreSystem.completeJob
        dsimp only
        rw [decide_eq_true htype, hresult]
        exact ⟨rfl, rfl⟩
      · -- Nothing stands behind a DEINIT that is served.
        rw [hwaiting]
        by_contra hne
        refine hhealthy.kept.serviced.last (c.jobPool.pool idx).request ?_ htype
        rw [hserved, List.singleton_append, List.dropLast_cons_of_ne_nil hne]
        exact List.mem_cons_self
    · exact absurd ⟨idx, result, hservice⟩ hnot
  -- The slot goes back; what waits is untouched.
  | releasing idx =>
    have hgoes : ¬c.service.Completes := ServicePc.not_completes (by rw [hservice]; rintro _ _ ⟨⟩)
    unfold CoreSystem.serviceStep at hledger' ⊢
    rw [hservice] at hledger' ⊢
    dsimp only at hledger' ⊢
    have hreleased : (c.releaseJob idx).Ledger := hledger'
    obtain ⟨-, hwaiting⟩ := hledger.lists_eq hreleased rfl rfl rfl
    refine h.frame rfl id hwaiting hgoes (ServicePc.not_completes fun i result => ?_)
    unfold CoreSystem.releaseJob ServicePc.next
    dsimp only
    split_ifs <;> rintro ⟨⟩
  -- The callback is made, and the service goes on or ends.
  | calling request =>
    have hgoes : ¬c.service.Completes := ServicePc.not_completes (by rw [hservice]; rintro _ _ ⟨⟩)
    obtain ⟨-, hmoves⟩ := hhealthy.kept.inv.calls hservice .works
    unfold CoreSystem.serviceStep at hmoves ⊢
    rw [hservice] at hmoves ⊢
    dsimp only at hmoves ⊢
    refine h.frame rfl id (hmoves.of_call rfl).1 hgoes (ServicePc.not_completes fun i result => ?_)
    unfold ServicePc.next
    split_ifs <;> rintro ⟨⟩

/-- A deinit whose job will succeed comes to its end. -/
theorem CoreSystem.Promised.recovers (h : c.Promised) (hhealthy : c.Healthy config)
    (hapi : c.api = .idle) : c.Recovers config := by
  -- The service empties its queue; what is left is a DEINIT that is done.
  refine hhealthy.drains (I := CoreSystem.Promised) hapi h ?_ ?_ ?_
  · intro c h previous hd
    cases h.joining.symm.trans hd
  · intro c hhealthy hapi h
    exact .inr (h.serviceStep hhealthy hapi)
  · intro c hresting h
    have hdone : c.DeinitDone := by
      rcases h.job with hw | ⟨-, -, hs⟩ | ⟨hdone, -, -⟩
      · rw [hresting.waiting] at hw
        exact absurd hw not_hasDeinit_nil
      · rw [hresting.served] at hs
        exact absurd hs not_hasDeinit_nil
      · exact hdone
    exact hresting.joins h.joining fun c' hresting' hd hpending htask hdone' =>
      hresting'.ends hd hpending htask (hdone' hdone)

/-! ### A deinit, wherever it is -/

/-- A deinit that is about to post its job posts it, and it will succeed. -/
theorem CoreSystem.Resting.posts (h : c.Resting config) {request : Request} {previous : CoreState}
    {start : Bool} (hd : c.deinit = .posting request previous start .allocating) :
    c.Recovers config := by
  have hinv := h.healthy.kept.inv
  have hat := hinv.attempting
  have htype := hinv.toStock.deinit
  obtain ⟨hlock, -, -⟩ := hinv.attempt (by rw [hd]; rintro ⟨⟩)
  rw [hd] at hat htype
  have hsize := config.jobPoolSize_range.1
  have hcapacity := config.jobQueueCapacity_range.1
  have hdepth := hinv.depth
  obtain ⟨hpool, hcount⟩ := h.free (by rw [hd]; rfl)
  obtain ⟨idx, p, halloc, hpost⟩ := corePostJob_works hpool (by omega) hcount (by omega)
    (hinv.opened hlock hat.1) request
  -- the slot
  obtain ⟨hnext, hapi⟩ := h.healthy.deinitStep h.api
  have hfirst : c.deinitStep .works = { c with
      jobPool := p
      deinit := .posting request previous start (.enqueuing idx) } := by
    unfold CoreSystem.deinitStep
    rw [hd]
    dsimp only [DeinitEnv.works]
    rw [halloc]
  refine Recovers.after (.deinitStep .works) ((step_deinitStep config h.api _).trans hfirst) ?_
  rw [hfirst] at hnext hapi
  -- and the queue
  obtain ⟨hposted, hapi'⟩ := hnext.deinitStep hapi
  obtain ⟨-, hmoves⟩ := hnext.kept.inv.deinitPosting .works rfl
  have hsecond : CoreSystem.deinitStep .works { c with
      jobPool := p
      deinit := .posting request previous start (.enqueuing idx) } = { c with
      jobPool := p
      jobQueue := { c.jobQueue with
        ring := c.jobQueue.ring.push idx, semItems := c.jobQueue.semItems + 1 }
      deinit := if start then .starting previous else .joining
      log := c.log.enqueue request } := by
    unfold CoreSystem.deinitStep
    dsimp only [DeinitEnv.works]
    rw [hpost]
  refine Recovers.after (.deinitStep .works) ((step_deinitStep config hapi _).trans hsecond) ?_
  rw [hsecond] at hposted hapi' hmoves
  obtain ⟨hwaiting, -⟩ := @CoreSystem.Moves.of_enqueue _ _ request hmoves rfl
  have hdeinit := hasDeinit_concat htype.1 (CoreSystem.waiting { c with
    jobPool := p
    deinit := .posting request previous start (.enqueuing idx) })
  rw [← hwaiting] at hdeinit
  cases start with
  | false =>
    refine Promised.recovers ⟨rfl, .inl ?_⟩ hposted hapi'
    exact hdeinit
  | true =>
    -- the service is started
    obtain ⟨hstarted, hapi''⟩ := hposted.deinitStep hapi'
    refine Recovers.after (.deinitStep .works) (step_deinitStep config hapi' _) ?_
    refine Promised.recovers ⟨rfl, .inl ?_⟩ hstarted hapi''
    obtain ⟨-, hsame⟩ := hposted.kept.ledger.lists_eq hstarted.kept.ledger rfl rfl rfl
    rw [hsame]
    exact hdeinit

/-- A deinit that is pending, and whose service has been joined. -/
theorem CoreSystem.Resting.pends (h : c.Resting config) (hd : c.deinit = .idle)
    (hpending : c.deinitPending = true) (htask : c.serviceTask = false) : c.Recovers config := by
  by_cases hdone : c.DeinitDone
  · exact h.ends hd hpending htask hdone
  · refine h.again hd hpending fun c' h' htask' _ hd' => ?_
    rcases c.attempt_cases false .ready ⟨.deinit, c.log.nextCall⟩ with
      ⟨ha, -, -⟩ | ⟨ha, -⟩ | ⟨ha, -⟩
    · rw [ha] at hd'
      exact h'.posts hd'
    · -- a job that has not succeeded is posted anew
      exfalso
      unfold CoreSystem.attempt at ha
      split_ifs at ha with hphase hnew
      apply hnew
      refine .inr ⟨htask, ?_⟩
      by_contra hnot
      obtain ⟨hjob, hresult⟩ := not_or.mp hnot
      exact hdone ⟨Bool.eq_true_of_not_eq_false hjob, Bool.eq_true_of_not_eq_false hresult⟩
    · rw [ha] at hd'
      exact h'.healthy.finishes h'.api hd'

/-- A deinit that waits for the service. -/
theorem CoreSystem.Healthy.joins (h : c.Healthy config) (hapi : c.api = .idle)
    (hd : c.deinit = .joining) : c.Recovers config := by
  refine h.rests hapi (by rw [hd]; rintro previous ⟨⟩) fun c' hresting hbeside => ?_
  refine hresting.joins (hbeside.deinit.trans hd) fun c'' h'' hidle hpending htask _ => ?_
  exact h''.pends hidle hpending htask

/-- A deinit that has to start a service. -/
theorem CoreSystem.Healthy.starts (h : c.Healthy config) (hapi : c.api = .idle)
    {previous : CoreState} (hd : c.deinit = .starting previous) : c.Recovers config := by
  obtain ⟨hnext, hapi'⟩ := h.deinitStep hapi
  refine Recovers.after (.deinitStep .works) (step_deinitStep config hapi _)
    (hnext.joins hapi' ?_)
  unfold CoreSystem.deinitStep
  rw [hd]
  rfl

/-- A deinit is pending, and no attempt is under way. -/
theorem CoreSystem.Healthy.pends (h : c.Healthy config) (hapi : c.api = .idle)
    (hd : c.deinit = .idle) (hpending : c.deinitPending = true) : c.Recovers config := by
  refine h.rests hapi (by rw [hd]; rintro previous ⟨⟩) fun c' hresting hbeside => ?_
  have hd' := hbeside.deinit.trans hd
  have hpending' := hbeside.pending.trans hpending
  by_cases htask : c'.serviceTask = false
  · exact hresting.pends hd' hpending' htask
  · refine hresting.again hd' hpending' fun c'' h'' htask'' _ hd'' => ?_
    rcases c'.attempt_cases false .ready ⟨.deinit, c'.log.nextCall⟩ with
      ⟨-, -, hnew⟩ | ⟨ha, -⟩ | ⟨ha, hphase⟩
    · exact absurd (hnew.resolve_left Bool.false_ne_true).1 htask
    · exact h''.healthy.joins h''.api (hd''.trans ha)
    · exact absurd (hresting.healthy.kept.inv.phase hphase).2.1 htask

/-! ### A session -/

/-- A service without a job in execution executes none in its next section. -/
theorem CoreSystem.serviceStep_executed (c : CoreSystem) (hworking : c.service.working = [])
    (env : ServiceEnv) : (c.serviceStep env).log.executed = c.log.executed := by
  unfold serviceStep
  split
  next => rfl
  next => rfl
  next => split <;> rfl
  next => split <;> rfl
  next => split <;> rfl
  -- A section that executes needs a slot, which there is not.
  next hservice =>
    rw [hservice] at hworking
    cases hworking
  next hservice =>
    rw [hservice] at hworking
    cases hworking
  next => rfl
  next => rfl
  next => rfl

/-- The core is in its session, and a DISCONNECT is the only job that waits. -/
structure CoreSystem.Leaves (c : CoreSystem) : Prop where
  session : c.InSession
  deinit : c.deinit = .idle
  job : ∃ request, c.waiting = [request] ∧ request.type = .disconnect

/-- Where it is executed it succeeds. -/
theorem CoreSystem.Leaves.serviceStep (h : c.Leaves) (hhealthy : c.Healthy config)
    (hapi : c.api = .idle) : c.Recovers config ∨ (c.serviceStep .works).Leaves := by
  -- The DISCONNECT that is promised to leave.
  obtain ⟨request, hwaiting, htype⟩ := h.job
  obtain ⟨-, -, -, hdeinit, -, henqueued, -⟩ := c.serviceStep_frame .works
  have hledger := hhealthy.kept.ledger.executed
  have hledger' := (hhealthy.serviceStep hapi).kept.ledger.executed
  -- a section that executes nothing leaves the job where it is
  have hstays : c.service.working = [] → (c.serviceStep .works).Leaves := by
    intro hworking
    have hexecuted := c.serviceStep_executed hworking .works
    rw [henqueued, hexecuted, hledger] at hledger'
    have hsame := (List.append_cancel_left hledger').symm
    refine ⟨?_, hdeinit.trans h.deinit, request, hsame.trans hwaiting, htype⟩
    have halters := c.serviceStep_alters .works
    generalize c.serviceStep .works = c' at halters
    -- The state can only leave the session by a DISCONNECT or a deinit, and neither ran.
    cases halters with
    | stays hstate _ _ =>
      unfold InSession
      rw [hstate]
      exact h.session
    | leaves hleaves _ _ _ =>
      exfalso
      rcases hleaves with hstate | hpending
      · exact h.session.ne ⟨by rintro ⟨⟩, by rintro ⟨⟩⟩ hstate
      · -- A pending deinit lets no job of a session wait, but a DISCONNECT does.
        rcases hhealthy.kept.inv.pending hpending with hstate | ⟨-, hnone⟩
        · exact h.session.ne ⟨by rintro ⟨⟩, by rintro ⟨⟩⟩ hstate
        · refine absurd ?_ (hnone request (hwaiting ▸ List.mem_cons_self))
          rw [htype]
          trivial
    | runs idx env hservice _ =>
      rw [hservice] at hworking
      cases hworking
    | registers idx env hservice _ =>
      rw [hservice] at hworking
      cases hworking
  cases hservice : c.service with
  -- The first job is the DISCONNECT, and it succeeds: the session is left.
  | running idx =>
    left
    have hfirst : (c.jobPool.pool idx).request = request := by
      unfold CoreSystem.waiting at hwaiting
      rw [hservice] at hwaiting
      exact (List.cons.inj hwaiting).1
    have hsucceeds : LeaveEnv.works.Succeeds := ⟨rfl, rfl, rfl⟩
    refine CanReach.here ⟨.service .works, hapi, .inr ⟨?_, ?_⟩⟩
    · rw [hservice]
      exact (congrArg Request.type hfirst).trans htype
    · exact (coreOpsDisconnect_succeeds hsucceeds (hhealthy.linked.cloud h.session)
        (hhealthy.linked.mqtt h.session)).1
  -- A REGISTER in execution would be the first job in its place.
  | registering idx =>
    have hregister := (hhealthy.kept.inv.registering idx hservice).2
    have hfirst : (c.jobPool.pool idx).request = request := by
      unfold CoreSystem.waiting at hwaiting
      rw [hservice] at hwaiting
      exact (List.cons.inj hwaiting).1
    rw [hfirst, htype] at hregister
    cases hregister
  | _ => exact .inr (hstays (by rw [hservice]; rfl))

/-- A DISCONNECT in the queue of a session is executed. -/
theorem CoreSystem.Leaves.recovers (h : c.Leaves) (hhealthy : c.Healthy config)
    (hapi : c.api = .idle) : c.Recovers config := by
  refine hhealthy.drains (I := CoreSystem.Leaves) hapi h ?_ ?_ ?_
  · intro c h previous hd
    cases h.deinit.symm.trans hd
  · intro c hhealthy hapi h
    exact h.serviceStep hhealthy hapi
  · intro c hresting h
    obtain ⟨request, hwaiting, -⟩ := h.job
    cases hresting.waiting.symm.trans hwaiting

/-- A section of a call keeps it. -/
theorem CoreSystem.Healthy.apiStep (h : c.Healthy config) (env : PostEnv) :
    (c.apiStep env).Healthy config :=
  h.step (show c.Keeps (.api env) from trivial) trivial trivial

/-- In a session a DISCONNECT is admitted, posted and executed. -/
theorem CoreSystem.Resting.disconnects (h : c.Resting config) (hs : c.InSession)
    (hd : c.deinit = .idle) (hpending : c.deinitPending = false) : c.Recovers config := by
  have hinv := h.healthy.kept.inv
  have hlock := hs.lock hinv
  -- Without a pending deinit the core is in its first phase, so its queue is open.
  have hphase : c.deinitPhase = .job := by
    by_contra hne
    cases hpending.symm.trans (hinv.phase hne).1
  have hsize := config.jobPoolSize_range.1
  have hcapacity := config.jobQueueCapacity_range.1
  have hdepth := hinv.depth
  obtain ⟨hpool, hcount⟩ := h.free (by rw [hd]; rfl)
  -- A slot is free and the ring has room, so no section of the post can fail.
  obtain ⟨idx, p, halloc, hpost⟩ := corePostJob_works hpool (by omega) hcount (by omega)
    (hinv.opened hlock hphase) ⟨.disconnect, c.log.nextCall⟩
  have hadmits : coreAdmits .disconnect c.state = true := by
    rcases hs with hs | hs <;> rw [hs] <;> rfl
  -- it is admitted
  have hcall : (c.step config (.call .disconnect)).2 = { c with
      api := .posting ⟨.disconnect, c.log.nextCall⟩ .allocating
      log := { c.log with nextCall := c.log.nextCall + 1 } } := by
    dsimp only [CoreSystem.step]
    rw [if_pos h.api]
    unfold CoreSystem.submit
    dsimp only
    rw [if_neg (by rw [hlock, hpending, hadmits]; rintro (hx | hx | hx) <;> cases hx)]
  -- What a step keeps, it keeps of these three as well.
  have hadmitted := h.healthy.step (show c.Keeps (.call .disconnect) from trivial) trivial trivial
  rw [hcall] at hadmitted
  refine Recovers.after (.call .disconnect) hcall ?_
  -- its job is posted
  have hallocated := hadmitted.apiStep .works
  have hfirst : CoreSystem.apiStep .works { c with
      api := .posting ⟨.disconnect, c.log.nextCall⟩ .allocating
      log := { c.log with nextCall := c.log.nextCall + 1 } } = { c with
      jobPool := p
      api := .posting ⟨.disconnect, c.log.nextCall⟩ (.enqueuing idx)
      log := { c.log with nextCall := c.log.nextCall + 1 } } := by
    unfold CoreSystem.apiStep
    dsimp only
    rw [halloc]
  rw [hfirst] at hallocated
  refine Recovers.after (.api .works) hfirst ?_
  have hposted := hallocated.apiStep .works
  obtain ⟨-, hmoves⟩ := hallocated.kept.inv.apiStep .works
  have hsecond : CoreSystem.apiStep .works { c with
      jobPool := p
      api := .posting ⟨.disconnect, c.log.nextCall⟩ (.enqueuing idx)
      log := { c.log with nextCall := c.log.nextCall + 1 } } = { c with
      jobPool := p
      jobQueue := { c.jobQueue with
        ring := c.jobQueue.ring.push idx, semItems := c.jobQueue.semItems + 1 }
      api := .idle
      log := CoreLog.enqueue { c.log with nextCall := c.log.nextCall + 1 }
        ⟨.disconnect, c.log.nextCall⟩ } := by
    unfold CoreSystem.apiStep
    dsimp only
    rw [hpost]
  rw [hsecond] at hposted hmoves
  -- The queue is left with the one job, at rest otherwise.
  refine Recovers.after (.api .works) hsecond ?_
  obtain ⟨hwaiting, -⟩ :=
    @CoreSystem.Moves.of_enqueue _ _ ⟨.disconnect, c.log.nextCall⟩ hmoves rfl
  obtain ⟨-, hsame⟩ := h.healthy.kept.ledger.lists_eq hallocated.kept.ledger rfl rfl rfl
  refine Leaves.recovers ⟨hs, hd, ⟨.disconnect, c.log.nextCall⟩, ?_, rfl⟩ hposted rfl
  rw [hwaiting, hsame, h.waiting]
  rfl

/-! ### Every state -/

/-- A core that is READY or INIT_FAILED is deinitialised. -/
theorem CoreSystem.Resting.deinits (h : c.Resting config) (hlock : c.lock = true)
    (hstate : c.state = .ready ∨ c.state = .initFailed) (hd : c.deinit = .idle) :
    c.Recovers config := by
  -- The first call of `actrust_deinit` is admitted in this state.
  have hfinalizing := h.healthy.finalizing hd
  have hhealthy := h.healthy.step (show c.Keeps .deinit from trivial) trivial trivial
  have hstep : (c.step config .deinit).2 = { c with
      deinitPending := true
      deinitFinalizing := true
      deinitJobDone := false
      deinitResult := .ok ()
      deinitPhase := .job
      state := .deinit
      deinit := .posting ⟨.deinit, c.log.nextCall⟩ c.state (decide (c.serviceTask = false))
        .allocating
      log := { c.log with nextCall := c.log.nextCall + 1 } } := by
    dsimp only [CoreSystem.step]
    rw [if_pos h.api]
    unfold actrustDeinit
    dsimp only
    rw [hlock, h.callback, hfinalizing, if_neg (by rintro (hx | hx | hx) <;> cases hx),
      if_pos hstate]
    rfl
  rw [hstep] at hhealthy
  refine Recovers.after .deinit hstep (Resting.posts ⟨hhealthy, h.api, h.served, h.waiting⟩ rfl)

/-- The core is initialised, and nothing is going on but its service. -/
theorem CoreSystem.Healthy.locked (h : c.Healthy config) (hapi : c.api = .idle)
    (hlock : c.lock = true) (hd : c.deinit = .idle) (hpending : c.deinitPending = false) :
    c.Recovers config := by
  refine h.rests hapi (by rw [hd]; rintro previous ⟨⟩) fun c' hresting hbeside => ?_
  have hlock' := hbeside.lock.trans hlock
  have hd' := hbeside.deinit.trans hd
  have hpending' := hbeside.pending.trans hpending
  have hstaged := hresting.healthy.staged
  cases hstate : c'.state with
  | uninit => exact absurd hstate (hstaged.uninit hlock')
  | initing =>
    -- its INIT would wait
    obtain ⟨request, hmem, -⟩ := hstaged.initing hstate
    rw [hresting.waiting] at hmem
    cases hmem
  | initFailed => exact hresting.deinits hlock' (.inr hstate) hd'
  | ready => exact hresting.deinits hlock' (.inl hstate) hd'
  | unregistered => exact hresting.disconnects (.inl hstate) hd' hpending'
  | registered => exact hresting.disconnects (.inr hstate) hd' hpending'
  | deinit => exact Bool.noConfusion (hpending'.symm.trans (hstaged.deinit hstate))

/-- With all its calls succeeding `actrust_init` comes to its post. -/
theorem initJobs_works (config : CoreConfig) (request : Request) :
    ∃ p q, initJobs config .works request = .ok (p, q) := by
  have hsize := config.jobPoolSize_range.1
  have hcapacity := config.jobQueueCapacity_range.1
  obtain ⟨idx, p, halloc⟩ := (JobPool.Accounted.init config.jobPoolSize).exists_alloc
    (Nat.lt_of_lt_of_le Nat.two_pos hsize) request
  -- INIT has no parameters to copy, and a new ring has room.
  have hcopy : coreCopyParams .works request.type = .ok () := by
    cases request.type <;> rfl
  have hempty : actrustJobQueueEnqueue (actrustJobQueueInit config.jobQueueCapacity) (.ok ()) idx
      = .ok { actrustJobQueueInit config.jobQueueCapacity with
          ring := (actrustJobQueueInit config.jobQueueCapacity).ring.push idx, semItems := 1 } := by
    unfold actrustJobQueueEnqueue
    rw [if_neg Bool.noConfusion, if_neg]
    · rfl
    · exact Nat.not_le_of_lt (Nat.lt_of_lt_of_le Nat.two_pos hcapacity)
  obtain ⟨q, henqueue⟩ : ∃ q, actrustJobQueueEnqueue
      (actrustJobQueueInit config.jobQueueCapacity) (.ok ()) idx = .ok q := ⟨_, hempty⟩
  refine ⟨p, q, ?_⟩
  unfold initJobs
  simp only [StartCoreEnv.works, bind, Except.bind, halloc]
  rw [hcopy]
  dsimp only [PostEnv.works]
  rw [henqueue]
  rfl

/-- A core that is UNINIT is initialised. -/
theorem CoreSystem.Healthy.inits (h : c.Healthy config) (hapi : c.api = .idle)
    (hlock : c.lock = false) : c.Recovers config := by
  obtain ⟨hstate, -, hpending, -⟩ := h.kept.inv.unlocked hlock
  have hd : c.deinit = .idle := by
    by_contra hne
    cases hlock.symm.trans (h.kept.inv.attempt hne).1
  -- Two calls: the callback is set, then `actrust_init` starts the core, which recovers from there.
  obtain ⟨p, q, hjobs⟩ := initJobs_works config ⟨.init, c.log.nextCall⟩
  have hcalled := h.step (show c.Keeps .setCallback from trivial) trivial trivial
  have hfirst : (c.step config .setCallback).2 = { c with callback := true } :=
    if_pos ⟨hapi, hlock, hstate⟩
  rw [hfirst] at hcalled
  refine Recovers.after .setCallback hfirst ?_
  have hstarted := hcalled.step
    (show CoreSystem.Keeps { c with callback := true } (.init .works) from trivial) trivial trivial
  have hsecond : (CoreSystem.step config { c with callback := true } (.init .works)).2
      = CoreSystem.started { c with callback := true } p q
        (CoreLog.enqueue { c.log with nextCall := c.log.nextCall + 1 } ⟨.init, c.log.nextCall⟩) := by
    dsimp only [CoreSystem.step]
    rw [if_pos hapi]
    unfold actrustInit
    dsimp only
    rw [hlock, hstate, if_neg (by rintro (hx | hx | hx) <;> first | cases hx | exact hx rfl), hjobs]
  rw [hsecond] at hstarted
  exact Recovers.after (.init .works) hsecond (hstarted.locked hapi rfl hd hpending)

/-- A deinit that gives up. -/
theorem CoreSystem.Healthy.restores (h : c.Healthy config) (hapi : c.api = .idle)
    {previous : CoreState} (hd : c.deinit = .restoring previous) : c.Recovers config := by
  obtain ⟨hlock, -, -⟩ := h.kept.inv.attempt (by rw [hd]; rintro ⟨⟩)
  obtain ⟨hnext, -⟩ := h.deinitStep hapi
  have hstep : c.deinitStep .works = coreDeinitRestoreState c previous := by
    unfold CoreSystem.deinitStep
    rw [hd]
  rw [hstep] at hnext
  refine Recovers.after (.deinitStep .works) ((step_deinitStep config hapi _).trans hstep) ?_
  exact hnext.locked hapi hlock rfl rfl

/-- How many sections a call takes that posts its job. -/
def PostPc.left : PostPc → ℕ
  | .allocating => 3
  | .enqueuing _ => 2
  | .releasing _ _ => 1

/-- A section of a post that goes on is nearer its end. -/
theorem corePostJob_left {env : PostEnv} {request : Request} {p p' : JobPool} {q q' : JobQueue}
    {pc pc' : PostPc} (h : corePostJob env request p q pc = (.next pc', p', q')) :
    pc'.left < pc.left := by
  cases pc with
  | allocating =>
    dsimp only [corePostJob] at h
    split at h <;> cases h
    exact Nat.lt_succ_self 2
  | enqueuing idx =>
    dsimp only [corePostJob] at h
    split at h
    · cases h
      exact Nat.lt_succ_self 1
    · split at h <;> cases h
      exact Nat.lt_succ_self 1
  | releasing idx e =>
    dsimp only [corePostJob] at h
    split at h <;> cases h

/-- An attempt that posts its job posts it, or gives up. -/
theorem CoreSystem.Healthy.posting (h : c.Healthy config) (hapi : c.api = .idle)
    {request : Request} {previous : CoreState} {start : Bool} {pc : PostPc}
    (hd : c.deinit = .posting request previous start pc) : c.Recovers config := by
  -- By induction on the sections left of the post.
  induction hleft : pc.left using Nat.strongRecOn generalizing c pc with
  | ind n ih =>
    obtain ⟨hnext, hapi'⟩ := h.deinitStep hapi
    refine Recovers.after (.deinitStep .works) (step_deinitStep config hapi _) ?_
    unfold CoreSystem.deinitStep at hnext hapi' ⊢
    rw [hd] at hnext hapi' ⊢
    dsimp only at hnext hapi' ⊢
    cases hpost : corePostJob DeinitEnv.works.post request c.jobPool c.jobQueue pc with
    | mk step stock =>
      obtain ⟨p, q⟩ := stock
      rw [hpost] at hnext hapi'
      -- It goes on, restores, starts the service or waits for it.
      cases step with
      | next pc' => exact ih _ (hleft ▸ corePostJob_left hpost) hnext hapi' rfl rfl
      | returned result =>
        cases result with
        | error e => exact hnext.restores hapi' rfl
        | ok _ =>
          cases start with
          | true => exact hnext.starts hapi' rfl
          | false => exact hnext.joins hapi' rfl

/-- A call that posts its job comes to its end. -/
theorem CoreSystem.Healthy.calls_end (h : c.Healthy config) :
    CanReach (CoreSystem.step config) (fun c => c.Healthy config ∧ c.api = .idle) c := by
  cases hapi : c.api with
  | idle => exact CanReach.here ⟨h, hapi⟩
  | posting request pc =>
    -- By induction on the sections left of the post.
    induction hleft : pc.left using Nat.strongRecOn generalizing c pc with
    | ind n ih =>
      have hnext := h.apiStep .works
      refine CanReach.after (.api .works) ?_
      show CanReach _ _ (c.apiStep .works)
      unfold CoreSystem.apiStep at hnext ⊢
      rw [hapi] at hnext ⊢
      dsimp only at hnext ⊢
      cases hpost : corePostJob .works request c.jobPool c.jobQueue pc with
      | mk step stock =>
        obtain ⟨p, q⟩ := stock
        rw [hpost] at hnext
        cases step with
        | next pc' => exact ih _ (hleft ▸ corePostJob_left hpost) hnext pc' rfl rfl
        | returned result => cases result <;> exact CanReach.here ⟨hnext, rfl⟩

/-- From every state of such a run something can succeed. -/
theorem CoreSystem.Healthy.recovers (h : c.Healthy config) : c.Recovers config := by
  -- The call under way ends first; then by where the deinit is.
  refine h.calls_end.trans ?_
  rintro c ⟨h, hapi⟩
  show c.Recovers config
  cases hd : c.deinit with
  | idle =>
    cases hlock : c.lock with
    | false => exact h.inits hapi hlock
    | true =>
      cases hpending : c.deinitPending with
      | false => exact h.locked hapi hlock hd hpending
      | true => exact h.pends hapi hd hpending
  | posting request previous start pc => exact h.posting hapi hd
  | starting previous => exact h.starts hapi hd
  | restoring previous => exact h.restores hapi hd
  | joining => exact h.joins hapi hd
  | finishing => exact h.finishes hapi hd

end Steps

/-! ### Leaving a session -/

end TrustSdk.Core.Service
