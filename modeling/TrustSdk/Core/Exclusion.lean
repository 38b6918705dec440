import TrustSdk.Core.Availability

/-!
# Whether a deinit excludes the transitions of a session

While a deinit is pending no job should move the core out of DEINIT, so that an attempt that gives
up overwrites no state that a job has set, and a core that is READY should have no session.

A CONNECT is admitted when the core is READY, and executed later, without another look at the state:
`core_ops_register` looks again, `core_ops_connect` does not. When a deinit has begun meanwhile, the
job brings the core out of DEINIT (`not_deinit_excludes`). A CONNECT that fails drops the errors of
its cleanup, and may leave a task or the MQTT client behind.

`Excludes` is the condition that no step meets this: a CONNECT that is executed while a deinit is
pending fails, and one that fails leaves nothing of its session. In every run of such steps the
property holds (`deinit_excludes`).

`Alters` says what a step does with the state and the contexts.
-/

namespace TrustSdk.Core.Service

open Machine

/-! ### The property and the condition -/

/-- There is no NTP task and no downlink task, and the MQTT client is neither CONNECTED nor about to
reconnect. -/
structure CoreContexts.NoSession (x : CoreContexts) : Prop where
  ntp : x.ntpTask.task = false
  downlink : x.downlinkTask.task = false
  mqtt : x.mqtt = .disconnected

/-- **What a pending deinit and READY promise**: nothing moves the core behind a deinit, and there
is no session in READY. -/
structure CoreSystem.Excluded (c : CoreSystem) : Prop where
  /-- Nothing moves the core while a deinit is pending, and one that gives up finds it so. -/
  pending : c.deinitPending = true → c.state = .deinit
  ready : c.state = .ready → c.contexts.NoSession

/-- Every call of `core_ops_connect` succeeds, and a registered device has its key. -/
def ConnectEnv.succeeds (env : ConnectEnv) (x : CoreContexts) : Bool :=
  x.cloud && env.connect.answer.isOk && env.ntpStart.semCreate.isOk &&
    env.ntpStart.taskCreate.isOk && env.downlinkStart.semCreate.isOk &&
    env.downlinkStart.taskCreate.isOk &&
    match env.readRegistered with
    | .error _ => false
    | .ok registered => !registered || x.signKey

/-- The MQTT client is DISCONNECTED behind a call that fails. -/
def CloudEnv.Closes (env : CloudEnv) : Prop := env.answer.isOk = true ∨ env.left = .disconnected

/-- The cleanup of a connect joins the tasks and closes the MQTT client. -/
structure ConnectEnv.Tidy (env : ConnectEnv) : Prop where
  connect : env.connect.Closes
  ntp : env.cleanup.ntpStop.join = .ok ()
  downlink : env.cleanup.downlinkStop.join = .ok ()
  disconnect : env.cleanup.disconnect.Closes

/-- A job of this type is about to be executed. -/
def ServicePc.Executes (p : JobPool) (type : JobType) : ServicePc → Prop
  | .running idx => (p.pool idx).request.type = type
  | _ => False

/-- A CONNECT does not succeed while a deinit is pending, and where it fails it leaves nothing of its
session, unless the core is in one already. -/
def CoreSystem.Excludes (c : CoreSystem) : CoreAction → Prop
  | .service env => c.service.Executes c.jobPool .connect →
    (c.deinitPending = true → env.connect.succeeds c.contexts = false) ∧
      (env.connect.succeeds c.contexts = false → ¬c.InSession → env.connect.Tidy)
  | _ => True

instance (p : JobPool) (type : JobType) : DecidablePred (ServicePc.Executes p type)
  | .running idx => inferInstanceAs (Decidable ((p.pool idx).request.type = type))
  | .stopped | .dequeuing | .waiting | .taking | .registering _ | .completing _ _ | .releasing _
  | .calling _ | .exited => .isFalse id

instance (env : CloudEnv) : Decidable env.Closes :=
  inferInstanceAs (Decidable (env.answer.isOk = true ∨ env.left = .disconnected))

instance (env : ConnectEnv) : Decidable env.Tidy :=
  decidable_of_iff
    (env.connect.Closes ∧ env.cleanup.ntpStop.join = .ok () ∧
      env.cleanup.downlinkStop.join = .ok () ∧ env.cleanup.disconnect.Closes)
    ⟨fun h => ⟨h.1, h.2.1, h.2.2.1, h.2.2.2⟩, fun h => ⟨h.1, h.2, h.3, h.4⟩⟩

instance (c : CoreSystem) : Decidable c.InSession :=
  inferInstanceAs (Decidable (c.state = .unregistered ∨ c.state = .registered))

instance (c : CoreSystem) : DecidablePred c.Excludes
  | .service env =>
    inferInstanceAs (Decidable (c.service.Executes c.jobPool .connect →
      (c.deinitPending = true → env.connect.succeeds c.contexts = false) ∧
        (env.connect.succeeds c.contexts = false → ¬c.InSession → env.connect.Tidy)))
  | .setCallback | .init _ | .call _ | .api _ | .deinit | .deinitStep _ | .mqtt _ =>
    .isTrue trivial

/-! ### The operations and the session -/

section Operations

variable {x : CoreContexts}

/-- With a join that succeeds the task is gone. -/
theorem coreWorkerStop_joined {env : StopEnv} (h : env.join = .ok ()) (w : CoreWorker) :
    (coreWorkerStop env w).2.task = false := by
  obtain ⟨join, semDestroy⟩ := env
  obtain ⟨task, stopSem⟩ := w
  cases h
  unfold coreWorkerStop
  cases task <;> cases stopSem <;> cases semDestroy <;> rfl

/-- Without a task there is none behind the stop either. -/
theorem coreWorkerStop_none {w : CoreWorker} (h : w.task = false) (env : StopEnv) :
    (coreWorkerStop env w).2.task = false := by
  obtain ⟨join, semDestroy⟩ := env
  obtain ⟨task, stopSem⟩ := w
  cases h
  unfold coreWorkerStop
  cases stopSem <;> cases semDestroy <;> rfl

/-- A stop that succeeds leaves no task. -/
theorem coreWorkerStop_ok {w : CoreWorker} {env : StopEnv}
    (h : (coreWorkerStop env w).1 = .ok ()) : (coreWorkerStop env w).2.task = false := by
  unfold coreWorkerStop at h ⊢
  split at h
  · cases h
  · split at h
    · cases h
    · rfl

/-- A disconnect that closes leaves the client DISCONNECTED. -/
theorem actrustCloudDisconnect_closes {env : CloudEnv} (hcloud : x.cloud = true)
    (hmqtt : x.mqtt = .connected) (h : env.Closes) :
    (actrustCloudDisconnect env x).2.mqtt = .disconnected := by
  obtain ⟨answer, left⟩ := env
  unfold actrustCloudDisconnect
  rw [hcloud, hmqtt]
  rcases h with hok | hleft
  · cases answer with
    | error e => cases hok
    | ok _ => rfl
  · cases answer with
    | error e => exact hleft
    | ok _ => rfl

/-- The disconnect of the cloud leaves both workers alone. -/
theorem actrustCloudDisconnect_tasks (env : CloudEnv) :
    (actrustCloudDisconnect env x).2.ntpTask = x.ntpTask ∧
      (actrustCloudDisconnect env x).2.downlinkTask = x.downlinkTask := by
  unfold actrustCloudDisconnect
  split_ifs
  · exact ⟨rfl, rfl⟩
  · split <;> exact ⟨rfl, rfl⟩

/-- The end of a session, where both tasks are gone and the client is closed. -/
theorem coreLeaveSession_noSession {env : LeaveEnv}
    (hntp : (coreWorkerStop env.ntpStop x.ntpTask).2.task = false)
    (hdownlink : (coreWorkerStop env.downlinkStop x.downlinkTask).2.task = false)
    (hmqtt : (coreLeaveSession env x).2.mqtt = .disconnected) :
    (coreLeaveSession env x).2.NoSession := by
  obtain ⟨htask, htask'⟩ := actrustCloudDisconnect_tasks env.disconnect
    (x := { x with
      ntpTask := (coreWorkerStop env.ntpStop x.ntpTask).2
      downlinkTask := (coreWorkerStop env.downlinkStop x.downlinkTask).2 })
  refine ⟨?_, ?_, hmqtt⟩
  · exact (congrArg CoreWorker.task htask).trans hntp
  · exact (congrArg CoreWorker.task htask').trans hdownlink

/-- A tidy cleanup leaves no session. -/
theorem connectCleanup_noSession {env : ConnectEnv} (h : env.Tidy) (hcloud : x.cloud = true)
    (hmqtt : x.mqtt = .connected) (e : Err) : (connectCleanup env x e).contexts.NoSession := by
  refine coreLeaveSession_noSession (coreWorkerStop_joined h.ntp _)
    (coreWorkerStop_joined h.downlink _) ?_
  exact actrustCloudDisconnect_closes (x := { x with
    ntpTask := (coreWorkerStop env.cleanup.ntpStop x.ntpTask).2
    downlinkTask := (coreWorkerStop env.cleanup.downlinkStop x.downlinkTask).2 })
    hcloud hmqtt h.disconnect

/-- What a connect that does not succeed leaves. -/
inductive ConnectFails (env : ConnectEnv) (x : CoreContexts) : OpsResult → Prop where
  | refused (e : Err) : ConnectFails env x ⟨.error e, none, x⟩
  | cloud (e : Err) : env.connect.answer.isOk = false →
      ConnectFails env x ⟨.error e, none, { x with mqtt := env.connect.left }⟩
  | cleaned (x' : CoreContexts) (e : Err) : env.connect.answer.isOk = true → x'.cloud = true →
      x'.mqtt = .connected → ConnectFails env x (connectCleanup env x' e)

/-- A connect with a failing call leaves the state alone and cleans up. -/
theorem coreOpsConnect_fails {env : ConnectEnv} (h : env.succeeds x = false) :
    ConnectFails env x (coreOpsConnect env x) := by
  obtain ⟨⟨answer, left⟩, ⟨semCreate, taskCreate⟩, readRegistered, ⟨semCreate', taskCreate'⟩,
    cleanup⟩ := env
  obtain ⟨crypto, signKey, ntp, ntpClosing, cloud, ntpTask, downlinkTask, mqtt⟩ := x
  unfold ConnectEnv.succeeds at h
  unfold coreOpsConnect actrustCloudConnect coreWorkerStart
  cases cloud with
  -- Without a cloud it is refused at once.
  | false => exact .refused _
  | true =>
    cases answer with
    -- The cloud refused or failed: nothing was started.
    | error e => exact .cloud _ rfl
    | ok _ =>
      -- From here each failure is cleaned up behind.
      cases semCreate with
      | error e => exact .cleaned _ _ rfl rfl rfl
      | ok _ =>
        -- The NTP worker's task.
        cases taskCreate with
        | error e => exact .cleaned _ _ rfl rfl rfl
        | ok _ =>
          -- The note of the registration decides whether the key is needed.
          cases readRegistered with
          | error e => exact .cleaned _ _ rfl rfl rfl
          | ok registered =>
            -- The downlink's semaphore, then its task.
            cases semCreate' with
            | error e => exact .cleaned _ _ rfl rfl rfl
            | ok _ =>
              cases taskCreate' with
              | error e => exact .cleaned _ _ rfl rfl rfl
              | ok _ =>
                -- a registered device without its key
                cases registered <;> cases signKey <;> first
                  | exact .cleaned _ _ rfl rfl rfl
                  | cases h

/-- A connect whose calls all succeed opens a session. -/
theorem coreOpsConnect_succeeds {env : ConnectEnv} (h : env.succeeds x = true) :
    ((coreOpsConnect env x).state = some .registered ∨
        (coreOpsConnect env x).state = some .unregistered) ∧
      (coreOpsConnect env x).contexts.cloud = true ∧
      (coreOpsConnect env x).contexts.mqtt = .connected := by
  obtain ⟨⟨answer, left⟩, ⟨semCreate, taskCreate⟩, readRegistered, ⟨semCreate', taskCreate'⟩,
    cleanup⟩ := env
  obtain ⟨crypto, signKey, ntp, ntpClosing, cloud, ntpTask, downlinkTask, mqtt⟩ := x
  -- Each conjunct of `succeeds` is one call of the source, in its order.
  unfold ConnectEnv.succeeds at h
  cases readRegistered with
  | error e =>
    rw [Bool.and_false] at h
    cases h
  | ok registered =>
    simp only [Bool.and_eq_true] at h
    obtain ⟨⟨⟨⟨⟨⟨hcloud, hanswer⟩, hsem⟩, htask⟩, hsem'⟩, htask'⟩, hkey⟩ := h
    cases hcloud
    cases answer <;> cases hanswer
    cases semCreate <;> cases hsem
    cases taskCreate <;> cases htask
    cases semCreate' <;> cases hsem'
    cases taskCreate' <;> cases htask'
    cases registered with
    | false => exact ⟨.inr rfl, rfl, rfl⟩
    | true =>
      cases signKey with
      | false => cases hkey
      | true => exact ⟨.inl rfl, rfl, rfl⟩

/-- A connect that fails leaves the state alone. -/
theorem ConnectFails.state {env : ConnectEnv} {r : OpsResult} (h : ConnectFails env x r) :
    r.state = none := by
  cases h <;> rfl

/-- With a tidy cleanup it leaves no session where there was none. -/
theorem ConnectFails.noSession {env : ConnectEnv} {r : OpsResult} (h : ConnectFails env x r)
    (hx : x.NoSession) (htidy : env.Tidy) : r.contexts.NoSession := by
  cases h with
  | refused e => exact hx
  | cloud e hanswer =>
    refine ⟨hx.ntp, hx.downlink, ?_⟩
    rcases htidy.connect with hok | hleft
    · exact Bool.noConfusion (hanswer.symm.trans hok)
    · exact hleft
  | cleaned x' e _ hcloud hmqtt => exact connectCleanup_noSession htidy hcloud hmqtt e

/-- A disconnect that succeeds leaves no session; one that fails leaves the state. -/
theorem coreOpsDisconnect_noSession (env : LeaveEnv) :
    ((coreOpsDisconnect env x).state = none ∧
        (x.NoSession → (coreOpsDisconnect env x).contexts.NoSession)) ∨
      (coreOpsDisconnect env x).contexts.NoSession := by
  -- The workers are stopped before the client is looked at, so the lemma is used of the stopped
  -- contexts.
  have hmqtt := actrustCloudDisconnect_mqtt
    { x with
      ntpTask := (coreWorkerStop env.ntpStop x.ntpTask).2
      downlinkTask := (coreWorkerStop env.downlinkStop x.downlinkTask).2 } env.disconnect
  have hnone : x.NoSession → (coreLeaveSession env x).2.NoSession := by
    intro hx
    refine coreLeaveSession_noSession (coreWorkerStop_none hx.ntp _)
      (coreWorkerStop_none hx.downlink _) ?_
    exact hmqtt.1 hx.mqtt
  have hok : (coreLeaveSession env x).1 = .ok () → (coreLeaveSession env x).2.NoSession := by
    intro hok
    obtain ⟨hworkers, hcloud⟩ := and_then_ok hok
    obtain ⟨hntp, hdownlink⟩ := and_then_ok hworkers
    exact coreLeaveSession_noSession (coreWorkerStop_ok hntp) (coreWorkerStop_ok hdownlink)
      (hmqtt.2 hcloud).2
  unfold coreOpsDisconnect
  generalize coreLeaveSession env x = out at hnone hok
  obtain ⟨_ | _, x'⟩ := out
  · exact .inl ⟨rfl, hnone⟩
  · exact .inr (hok rfl)

/-- INIT opens no session, also where it fails. -/
theorem coreOpsInit_noSession (env : InitEnv) (hx : x.NoSession) :
    (coreOpsInit env x).contexts.NoSession := by
  -- A failing INIT takes the crypto client down, and nothing of a session is there.
  have hfail : ∀ x e, CoreContexts.NoSession x → (initFailCrypto env x e).contexts.NoSession := by
    intro x e hx
    unfold initFailCrypto
    split
    · exact hx
    · split <;> exact { hx with }
  have hcontexts : ∀ registered x, CoreContexts.NoSession x →
      (initContexts env registered x).contexts.NoSession := by
    intro registered x hx
    -- The key is read and opened in the stores; no worker and no client is touched.
    have hkey : ∀ x, CoreContexts.NoSession x →
        (corePrepareSigningKey env registered x).2.NoSession := by
      intro x hx
      unfold corePrepareSigningKey
      split
      · exact { hx with }
      · split_ifs
        · exact hx
        · exact hx
        · split
          · exact hx
          · exact hx
          · exact { hx with }
    -- NTP and cloud are made before the key, and are no session either.
    unfold initContexts
    split
    · exact hfail _ _ hx
    · exact hfail _ _ { hx with }
    · have hprepared := hkey { x with ntp := true, cloud := true } { hx with }
      split
      next hcall =>
        rw [hcall] at hprepared
        exact hfail _ _ { hprepared with }
      next hcall =>
        rw [hcall] at hprepared
        split
        · exact hfail _ _ { hprepared with }
        · exact hprepared
  unfold coreOpsInit
  split
  · exact hx
  · exact hx
  · split
    · exact hcontexts _ _ { hx with }
    · split_ifs
      · exact hfail _ _ { hx with }
      · exact hcontexts _ _ { hx with }

/-- DEINIT opens no session, whichever of its calls fails. -/
theorem coreOpsDeinit_noSession (env : DeinitOpEnv) (hx : x.NoSession) :
    (coreOpsDeinit env x).contexts.NoSession := by
  have hntp := coreWorkerStop_none hx.ntp env.ntpStop
  have hdownlink := coreWorkerStop_none hx.downlink env.downlinkStop
  have hmqtt := hx.mqtt
  -- By the sections of the source: each keeps what an earlier one has stopped.
  unfold coreOpsDeinit
  split
  next hcall =>
    rw [hcall] at hntp
    exact ⟨hntp, hx.downlink, hmqtt⟩
  next hcall =>
    rw [hcall] at hntp
    split
    next hcall' =>
      rw [hcall'] at hdownlink
      exact ⟨hntp, hdownlink, hmqtt⟩
    next hcall' =>
      rw [hcall'] at hdownlink
      dsimp only
      split
      · exact ⟨hntp, hdownlink, hmqtt⟩
      · split
        · exact ⟨hntp, hdownlink, hmqtt⟩
        · split
          · exact ⟨hntp, hdownlink, rfl⟩
          · split <;> exact ⟨hntp, hdownlink, rfl⟩

end Operations

/-! ### What a step does with the state and the contexts -/

/-- What an action does to the state, the contexts and the pending flag. -/
inductive CoreSystem.Alters (c c' : CoreSystem) : CoreAction → Prop where
  | stays {action : CoreAction} : c'.state = c.state → c'.contexts = c.contexts →
      c'.deinitPending = c.deinitPending → Alters c c' action
  /-- A deinit begins. -/
  | begins : c.state = .ready ∨ c.state = .initFailed → c'.state = .deinit →
      c'.contexts = c.contexts → Alters c c' .deinit
  /-- `actrust_init`, or the end of a deinit. -/
  | leaves {action : CoreAction} : c.state = .uninit ∨ c.deinitPending = true →
      c'.deinitPending = false → ¬c'.InSession → c'.contexts = c.contexts → Alters c c' action
  | moves (event : MqttEvent) : c'.state = c.state →
      c'.contexts = { c.contexts with mqtt := c.contexts.mqtt.after event } →
      c'.deinitPending = c.deinitPending → Alters c c' (.mqtt event)
  | runs (idx : ℕ) (env : ServiceEnv) : c.service = .running idx → c' = c.dispatchJob env idx →
      Alters c c' (.service env)
  | registers (idx : ℕ) (env : ServiceEnv) : c.service = .registering idx →
      c' = c.executed idx (coreOpsRegister env.register c.contexts) → Alters c c' (.service env)

section Steps

variable {config : CoreConfig} {c c' : CoreSystem}

/-- A state other than these two is no session. -/
theorem not_inSession {state : CoreState} (hs : c.state = state)
    (hstate : state ≠ .unregistered ∧ state ≠ .registered) : ¬c.InSession := by
  rintro (h | h)
  · exact hstate.1 (hs.symm.trans h)
  · exact hstate.2 (hs.symm.trans h)

/-- `actrust_init` moves an UNINIT core alone. -/
theorem CoreSystem.actrustInit_alters (hinv : c.Inv config) (env : StartCoreEnv)
    {action : CoreAction} : c.Alters (actrustInit config env c) action := by
  unfold Service.actrustInit
  dsimp only
  split_ifs with hrefused
  · exact .stays rfl rfl rfl
  · simp only [not_or, Bool.not_eq_true, ne_eq, not_not] at hrefused
    obtain ⟨hlock, hstate, -⟩ := hrefused
    split
    · exact .stays rfl rfl rfl
    · refine .leaves (.inl hstate) (hinv.unlocked hlock).2.2.1 ?_ rfl
      exact not_inSession (show _ = CoreState.initing from rfl) ⟨by rintro ⟨⟩, by rintro ⟨⟩⟩

/-- `actrust_deinit` begins in READY or INIT_FAILED alone. -/
theorem CoreSystem.actrustDeinit_alters (c : CoreSystem) : c.Alters (actrustDeinit c) .deinit := by
  unfold Service.actrustDeinit
  dsimp only
  split_ifs with hrefused hnew
  · exact .stays rfl rfl rfl
  · exact .begins hnew rfl rfl
  · exact .stays rfl rfl rfl
  · exact .stays rfl rfl rfl

/-- Waiting for the service changes neither state nor contexts. -/
theorem CoreSystem.joinService_alters (c : CoreSystem) (join : Except Err Unit)
    {action : CoreAction} : c.Alters (c.joinService join) action := by
  have hcheck : ∀ c' : CoreSystem, c'.checkDeinitJob.state = c'.state ∧
      c'.checkDeinitJob.contexts = c'.contexts ∧
      c'.checkDeinitJob.deinitPending = c'.deinitPending := by
    intro c'
    unfold checkDeinitJob
    split_ifs
    · exact ⟨rfl, rfl, rfl⟩
    · split <;> exact ⟨rfl, rfl, rfl⟩
  unfold joinService
  -- The deinit job is looked at with the task gone, or after the join.
  split_ifs
  · obtain ⟨hs, hx, hp⟩ := hcheck c
    exact .stays hs hx hp
  · split
    · exact .stays rfl rfl rfl
    · dsimp only
      split
      · exact .stays rfl rfl rfl
      · obtain ⟨hs, hx, hp⟩ := hcheck { c with serviceTask := false, service := .stopped }
        exact .stays hs hx hp
    · exact .stays rfl rfl rfl

/-- Past the service, a deinit ends in UNINIT or goes on as it is. -/
theorem CoreSystem.finishDeinit_alters (hpending : c.deinitPending = true) (env : FinishEnv)
    {action : CoreAction} : c.Alters (c.finishDeinit env) action := by
  have huninit : ∀ c' : CoreSystem, c'.state = .uninit → ¬c'.InSession := fun c' hs =>
    not_inSession hs ⟨by rintro ⟨⟩, by rintro ⟨⟩⟩
  -- The lock is the last to go, and its core is UNINIT.
  have hlock : ∀ c' : CoreSystem, c'.state = c.state → c'.contexts = c.contexts →
      c'.deinitPending = c.deinitPending → c.Alters (c'.finishLock env) action := by
    intro c' hs hx hp
    unfold finishLock
    split
    · exact .stays hs hx hp
    · exact .leaves (.inr hpending) rfl (huninit _ rfl) hx
  -- The pool goes before it.
  have hpool : ∀ c' : CoreSystem, c'.state = c.state → c'.contexts = c.contexts →
      c'.deinitPending = c.deinitPending → c.Alters (c'.finishPool env) action := by
    intro c' hs hx hp
    unfold finishPool
    split
    · exact .stays hs hx hp
    · exact hlock c' hs hx hp
  -- The phases follow one another, so each is proved for the core the one before leaves.
  unfold finishDeinit
  split
  · -- An attempt whose job is not done changes nothing.
    exact .stays rfl rfl rfl
  · unfold finishQueue
    split
    · exact .stays rfl rfl rfl
    · dsimp only
      split
      · exact .stays rfl rfl rfl
      · exact .stays rfl rfl rfl
      · exact hpool _ rfl rfl rfl
  · exact hpool c rfl rfl rfl
  · exact hlock c rfl rfl rfl

/-- A section of `actrust_deinit`. -/
theorem CoreSystem.deinitStep_alters (hinv : c.Inv config) (env : DeinitEnv)
    {action : CoreAction} : c.Alters (c.deinitStep env) action := by
  cases hd : c.deinit with
  | idle =>
    unfold CoreSystem.deinitStep
    rw [hd]
    exact .stays rfl rfl rfl
  -- The post and the start leave state and contexts.
  | posting request previous start pc =>
    unfold CoreSystem.deinitStep
    rw [hd]
    dsimp only
    split <;> exact .stays rfl rfl rfl
  | starting previous =>
    unfold CoreSystem.deinitStep
    rw [hd]
    dsimp only
    split <;> exact .stays rfl rfl rfl
  | restoring previous =>
    have hpending := (hinv.attempt (by rw [hd]; rintro ⟨⟩)).2.1
    have hat := hinv.attempting
    rw [hd] at hat
    unfold CoreSystem.deinitStep
    rw [hd]
    refine .leaves (.inr hpending) rfl ?_ rfl
    -- The state restored is the one the deinit began in: READY or INIT_FAILED.
    rcases hat.2.1 with hp | hp
    · exact not_inSession (show _ = CoreState.ready from hp) ⟨by rintro ⟨⟩, by rintro ⟨⟩⟩
    · exact not_inSession (show _ = CoreState.initFailed from hp) ⟨by rintro ⟨⟩, by rintro ⟨⟩⟩
  | joining =>
    unfold CoreSystem.deinitStep
    rw [hd]
    exact c.joinService_alters env.join
  | finishing =>
    have hpending := (hinv.attempt (by rw [hd]; rintro ⟨⟩)).2.1
    unfold CoreSystem.deinitStep
    rw [hd]
    exact finishDeinit_alters hpending env.finish

/-- Only the section that executes the job moves state and contexts. -/
theorem CoreSystem.serviceStep_alters (c : CoreSystem) (env : ServiceEnv) :
    c.Alters (c.serviceStep env) (.service env) := by
  cases hservice : c.service with
  | running idx =>
    refine .runs idx env hservice ?_
    unfold CoreSystem.serviceStep
    rw [hservice]
  | registering idx =>
    refine .registers idx env hservice ?_
    unfold CoreSystem.serviceStep
    rw [hservice]
  | _ =>
    unfold CoreSystem.serviceStep
    rw [hservice]
    dsimp only
    first
      | exact .stays rfl rfl rfl
      | split <;> exact .stays rfl rfl rfl

/-- Every action is one of these. -/
theorem CoreSystem.step_alters (hinv : c.Inv config) (action : CoreAction) :
    c.Alters (c.step config action).2 action := by
  have hstay : c.Alters c action := .stays rfl rfl rfl
  cases action with
  | setCallback =>
    dsimp only [CoreSystem.step]
    split_ifs <;> exact .stays rfl rfl rfl
  | init env =>
    dsimp only [CoreSystem.step]
    split_ifs
    · exact actrustInit_alters hinv env
    · exact hstay
  | call type =>
    dsimp only [CoreSystem.step]
    split_ifs
    · unfold CoreSystem.submit
      dsimp only
      split_ifs <;> exact .stays rfl rfl rfl
    · exact hstay
  | api env =>
    dsimp only [CoreSystem.step]
    unfold CoreSystem.apiStep
    split
    · exact hstay
    · split <;> exact .stays rfl rfl rfl
  | deinit =>
    dsimp only [CoreSystem.step]
    split_ifs
    · exact c.actrustDeinit_alters
    · exact hstay
  | deinitStep env =>
    dsimp only [CoreSystem.step]
    split_ifs
    · exact hstay
    · exact deinitStep_alters hinv env
  | service env =>
    dsimp only [CoreSystem.step]
    split_ifs
    · exact hstay
    · exact c.serviceStep_alters env
  -- What the client does by itself is the one change of contexts outside the service.
  | mqtt event => exact .moves event rfl rfl rfl

/-! ### The invariant -/

/-- The invariant: outside a session there are no workers and no client. -/
structure CoreSystem.Apart (c : CoreSystem) : Prop where
  pending : c.deinitPending = true → c.state = .deinit
  idle : ¬c.InSession → c.contexts.NoSession

/-- A step with the same state and flag. -/
theorem CoreSystem.Apart.frame (h : c.Apart) (hstate : c'.state = c.state)
    (hcontexts : ¬c.InSession → c.contexts.NoSession → c'.contexts.NoSession)
    (hpending : c'.deinitPending = c.deinitPending) : c'.Apart where
  pending hp := hstate.trans (h.pending (hpending ▸ hp))
  idle hidle := by
    unfold InSession at hidle
    rw [hstate] at hidle
    exact hcontexts hidle (h.idle hidle)

/-- While a deinit is pending the state is DEINIT. -/
theorem CoreSystem.Apart.not_inSession (h : c.Apart) (hpending : c.deinitPending = true) :
    ¬c.InSession :=
  Service.not_inSession (h.pending hpending) ⟨by rintro ⟨⟩, by rintro ⟨⟩⟩

/-- An operation that leaves the state. -/
theorem CoreSystem.Apart.executed (h : c.Apart) {idx : ℕ} {r : OpsResult} (hstate : r.state = none)
    (hcontexts : ¬c.InSession → c.contexts.NoSession → r.contexts.NoSession) :
    (c.executed idx r).Apart := by
  refine h.frame ?_ hcontexts rfl
  show r.state.getD c.state = c.state
  rw [hstate]
  rfl

/-- A CONNECT keeps it: it fails while a deinit is pending, and cleans up where it opens no session.
-/
theorem CoreSystem.Apart.connects (h : c.Apart) {idx : ℕ} {env : ConnectEnv}
    (hok : (c.deinitPending = true → env.succeeds c.contexts = false) ∧
      (env.succeeds c.contexts = false → ¬c.InSession → env.Tidy)) :
    (c.executed idx (coreOpsConnect env c.contexts)).Apart := by
  obtain ⟨hpending, htidy⟩ := hok
  cases hsucceeds : env.succeeds c.contexts with
  | false =>
    have hfails := coreOpsConnect_fails hsucceeds
    refine h.executed hfails.state fun hidle hx => hfails.noSession hx (htidy hsucceeds hidle)
  -- A connect that succeeds is in a session, where nothing is asked of the contexts.
  | true =>
    have hsession : (c.executed idx (coreOpsConnect env c.contexts)).InSession := by
      show (coreOpsConnect env c.contexts).state.getD c.state = _ ∨
        (coreOpsConnect env c.contexts).state.getD c.state = _
      rcases (coreOpsConnect_succeeds hsucceeds).1 with hs | hs
      · rw [hs]
        exact .inr rfl
      · rw [hs]
        exact .inl rfl
    refine ⟨fun hp => ?_, fun hidle => absurd hsession hidle⟩
    exact Bool.noConfusion ((hpending hp).symm.trans hsucceeds)

/-- While a deinit is pending there is no session that a DISCONNECT could end. -/
theorem CoreSystem.Apart.disconnects (h : c.Apart) (idx : ℕ) (env : LeaveEnv) :
    (c.executed idx (coreOpsDisconnect env c.contexts)).Apart := by
  rcases coreOpsDisconnect_noSession env (x := c.contexts) with ⟨hstate, hkeeps⟩ | hnone
  · exact h.executed hstate fun _ => hkeeps
  · rcases coreOpsDisconnect_state c.contexts env with ⟨hstate, -⟩ | ⟨-, hconnected, -⟩
    · exact h.executed hstate fun _ _ => hnone
    · refine ⟨fun hp => ?_, fun _ => hnone⟩
      have hmqtt := (h.idle (h.not_inSession hp)).mqtt
      cases hmqtt.symm.trans hconnected

/-- A job's operation keeps it, by its type. -/
theorem CoreSystem.Apart.dispatchJob (h : c.Apart) (hinv : c.Inv config) {idx : ℕ}
    (hservice : c.service = .running idx) {env : ServiceEnv}
    (hok : c.Excludes (.service env)) : (c.dispatchJob env idx).Apart := by
  have hfirst : (c.jobPool.pool idx).request ∈ c.waiting :=
    c.mem_waiting (by rw [hservice]; rfl)
  unfold CoreSystem.dispatchJob
  split
  next htype =>
    -- INIT runs in INITING, outside a session and with no deinit pending.
    have hstate := (hinv.init _ hfirst htype).1
    have hidle : ¬c.InSession :=
      Service.not_inSession hstate ⟨by rintro ⟨⟩, by rintro ⟨⟩⟩
    refine ⟨fun hp => ?_, fun _ => coreOpsInit_noSession env.init (h.idle hidle)⟩
    cases hstate.symm.trans (h.pending hp)
  -- CONNECT is what `Excludes` speaks of.
  next htype =>
    refine h.connects (hok ?_)
    rw [hservice]
    exact htype
  next htype => exact h.disconnects idx env.disconnect
  -- REGISTER is refused, or goes on; neither touches the workers.
  next htype =>
    split_ifs
    · exact h.executed rfl fun _ => id
    · exact h.frame rfl (fun _ => id) rfl
  next htype => exact h.executed rfl fun _ => id
  next htype =>
    -- its deinit is pending
    have hpending : c.deinitPending = true := by
      by_contra hp
      have htask := (hinv.serving (by rw [hservice]; rintro ⟨⟩)).1
      exact hinv.quiet htask (.inl (Bool.eq_false_iff.mpr hp)) _ (List.mem_append_right _ hfirst)
        htype
    -- DEINIT sets its state and takes the workers down.
    have hstate := (coreOpsDeinit_state c.contexts env.deinit).1
    refine ⟨fun _ => ?_, fun _ => ?_⟩
    · show (coreOpsDeinit env.deinit c.contexts).state.getD c.state = .deinit
      rw [hstate]
      rfl
    · exact coreOpsDeinit_noSession env.deinit (h.idle (h.not_inSession hpending))
  next htype => exact h.executed rfl fun _ => id

/-- A REGISTER keeps it: it leaves the client, the workers and the session alone. -/
theorem CoreSystem.Apart.registers (h : c.Apart) (hinv : c.Inv config) {idx : ℕ}
    (hservice : c.service = .registering idx) (env : RegisterEnv) :
    (c.executed idx (coreOpsRegister env c.contexts)).Apart := by
  have hstate := (hinv.registering idx hservice).1
  refine ⟨fun hp => ?_, fun hidle => absurd ?_ hidle⟩
  · cases hstate.symm.trans (h.pending hp)
  · unfold InSession
    show (coreOpsRegister env c.contexts).state.getD c.state = _ ∨
      (coreOpsRegister env c.contexts).state.getD c.state = _
    rcases (coreOpsRegister_state c.contexts env).1 with hr | hr
    · rw [hr]
      exact .inl hstate
    · rw [hr]
      exact .inr rfl

/-- Every action keeps it. -/
theorem CoreSystem.Apart.step (h : c.Apart) (hinv : c.Inv config) {action : CoreAction}
    (hok : c.Excludes action) : (c.step config action).2.Apart := by
  have halters := step_alters hinv action
  generalize (c.step config action).2 = c' at halters
  cases halters with
  | stays hstate hcontexts hpending => exact h.frame hstate (fun _ => hcontexts ▸ id) hpending
  -- The deinit begins outside a session, where the invariant held.
  | begins hbefore hstate hcontexts =>
    refine ⟨fun _ => hstate, fun _ => ?_⟩
    rw [hcontexts]
    apply h.idle
    rcases hbefore with hs | hs
    · exact Service.not_inSession hs ⟨by rintro ⟨⟩, by rintro ⟨⟩⟩
    · exact Service.not_inSession hs ⟨by rintro ⟨⟩, by rintro ⟨⟩⟩
  | leaves hbefore hpending _ hcontexts =>
    refine ⟨fun hp => Bool.noConfusion (hpending.symm.trans hp), fun _ => ?_⟩
    rw [hcontexts]
    apply h.idle
    rcases hbefore with hs | hp
    · exact Service.not_inSession hs ⟨by rintro ⟨⟩, by rintro ⟨⟩⟩
    · exact h.not_inSession hp
  | moves event hstate hcontexts hpending =>
    refine h.frame hstate (fun _ hx => ?_) hpending
    rw [hcontexts]
    refine { hx with mqtt := ?_ }
    show c.contexts.mqtt.after event = .disconnected
    rw [hx.mqtt]
    -- A client that is DISCONNECTED does not move by itself.
    cases event <;> rfl
  | runs idx env hservice heq =>
    rw [heq]
    exact h.dispatchJob hinv hservice hok
  | registers idx env hservice heq =>
    rw [heq]
    exact h.registers hinv hservice env.register

/-- At the start the core is UNINIT. -/
theorem CoreSystem.apart_initial (config : CoreConfig) : (initial config).Apart where
  pending := by rintro ⟨⟩
  idle _ := ⟨rfl, rfl, rfl⟩

/-- The invariant gives the property. -/
theorem CoreSystem.Apart.excluded (h : c.Apart) : c.Excluded where
  pending := h.pending
  ready hs := h.idle (Service.not_inSession hs ⟨by rintro ⟨⟩, by rintro ⟨⟩⟩)

end Steps

/-! ### Exclusion -/

/-- **In every run in which no CONNECT succeeds while a deinit is pending, and none that fails leaves
a part of its session, a deinit excludes the transitions of a session.** -/
theorem deinit_excludes (config : CoreConfig) (actions : List CoreAction)
    (h : Meets (CoreSystem.step config) CoreSystem.Excludes actions (.initial config)) :
    Always (CoreSystem.step config) CoreSystem.Excluded actions (.initial config) := by
  apply always_of_invariant (I := fun c => c.Inv config ∧ c.Apart) ?_ ?_ ?_ h
  · rintro c action ⟨hinv, hapart⟩ hok
    exact ⟨(hinv.step action).1, hapart.step hinv hok⟩
  · rintro c ⟨-, hapart⟩
    exact hapart.excluded
  · exact ⟨CoreSystem.inv_initial config, CoreSystem.apart_initial config⟩

/-- A CONNECT that waits when the deinit begins fails at the NTP task, and the deinit ends. -/
def connectBeforeDeinit : List CoreAction :=
  let failing := { ServiceEnv.works.connect with ntpStart := ⟨.ok (), .error (coreErr .noResource)⟩ }
  initRun ++ [.call .connect, .api .works, .api .works, .deinit, .deinitStep .works,
      .deinitStep .works] ++
    List.replicate 7 (.service { ServiceEnv.works with connect := failing }) ++
    List.replicate 7 (.service .works) ++ [.deinitStep .works, .deinitStep .works]

/-- The whole run, to UNINIT. -/
theorem deinit_excludes_waiting :
    (Machine.run (CoreSystem.step twoJobs) connectBeforeDeinit (.initial twoJobs)).2.state = .uninit ∧
      Always (CoreSystem.step twoJobs) CoreSystem.Excluded connectBeforeDeinit (.initial twoJobs) :=
  ⟨by decide +kernel, deinit_excludes twoJobs connectBeforeDeinit (by decide +kernel)⟩

/-- Two CONNECTs wait, and the deinit finds no slot for its job. Before it gives up the first of them
opens a session: READY is restored over it. -/
theorem not_deinit_excludes :
    ¬ ∀ config actions,
      Always (CoreSystem.step config) CoreSystem.Excluded actions (.initial config) := by
  -- The run is cut where READY is restored: an NTP task is there.
  intro h
  let actions : List CoreAction :=
    initRun ++ [.call .connect, .api .works, .api .works, .call .connect, .api .works, .api .works,
        .deinit, .deinitStep .works] ++
      List.replicate 4 (.service .works) ++ [.deinitStep .works]
  have hlast := (h twoJobs actions).last
  have hready : (Machine.run (CoreSystem.step twoJobs) actions (.initial twoJobs)).2.state
      = .ready := by
    decide +kernel
  have htask : (Machine.run (CoreSystem.step twoJobs) actions
      (.initial twoJobs)).2.contexts.ntpTask.task = true := by
    decide +kernel
  exact Bool.noConfusion (htask.symm.trans (hlast.ready hready).ntp)

end TrustSdk.Core.Service
