import TrustSdk.Core.Exclusion
import TrustSdk.Core.Stages

/-!
# Whether a session can be left

A core that is UNREGISTERED or REGISTERED should be able to leave its session: a DISCONNECT that is
executed, and whose calls succeed, should bring it back to READY. And no core should be where neither
a connect nor a disconnect nor a deinit can ever succeed again.

`actrust_mqtt_disconnect` refuses a client that is not CONNECTED, and `core_ops_disconnect` then
keeps the state; the process loop of the client has been told to stop all the same. So a session
cannot be left while its client is about to reconnect, and never again once the client is
DISCONNECTED: connect and deinit are refused, and every disconnect fails (`Unlinked.wedged`). It comes
about when the client leaves CONNECTED by itself, and when a DISCONNECT or a second CONNECT closes
the client and fails.

A deinit whose job has failed is tried again. But `actrust_ntp_deinit` leaves `closing` set when it
fails, and is not let in a second time, so that the core stays in DEINIT.

`Keeps` and `Frees` are the conditions that no step meets one of these. A session is `Linked` then; the
rest is in `Recovery`.
-/

namespace TrustSdk.Core.Service

open Machine

/-! ### The property and the condition -/

/-- The tasks are joined, their semaphores are destroyed, and the MQTT client disconnects. -/
structure LeaveEnv.Succeeds (env : LeaveEnv) : Prop where
  ntp : env.ntpStop = .works
  downlink : env.downlinkStop = .works
  disconnect : env.disconnect.answer = .ok ()

/-- A call that fails leaves the MQTT client CONNECTED. -/
def CloudEnv.Spares (env : CloudEnv) : Prop := env.answer.isOk = false ∧ env.left = .connected

/-- A DISCONNECT succeeds, or spares the client. -/
def LeaveEnv.Whole (env : LeaveEnv) : Prop := env.Succeeds ∨ env.disconnect.Spares

/-- So does a CONNECT of a core that is in a session. -/
def ConnectEnv.Whole (env : ConnectEnv) (x : CoreContexts) : Prop :=
  env.succeeds x = true ∨ env.connect.Spares ∨
    env.connect.answer.isOk = true ∧ env.cleanup.disconnect.Spares

/-- In a session the client does not leave CONNECTED by itself, and no job closes the client and
fails. -/
def CoreSystem.Keeps (c : CoreSystem) : CoreAction → Prop
  | .mqtt event => c.InSession → c.contexts.mqtt = .connected →
    c.contexts.mqtt.after event = .connected
  | .service env => c.InSession →
    (c.service.Executes c.jobPool .disconnect → env.disconnect.Whole) ∧
      (c.service.Executes c.jobPool .connect → env.connect.Whole c.contexts)
  | _ => True

/-- Where a DEINIT deinitialises the NTP client, this succeeds. -/
def CoreSystem.Frees (c : CoreSystem) : CoreAction → Prop
  | .service env => c.service.Executes c.jobPool .deinit → env.deinit.ntpDeinit = .ok ()
  | _ => True

/-- A CONNECT or a DISCONNECT is executed and succeeds, or an `actrust_deinit` comes to its end. -/
def CoreSystem.Succeeds (config : CoreConfig) (c : CoreSystem) : CoreAction → Prop
  | .service env => c.api = .idle ∧
    (c.service.Executes c.jobPool .connect ∧
        (coreOpsConnect env.connect c.contexts).result = .ok () ∨
      c.service.Executes c.jobPool .disconnect ∧
        (coreOpsDisconnect env.disconnect c.contexts).result = .ok ())
  | .deinitStep env => c.lock = true ∧ (c.step config (.deinitStep env)).2.lock = false
  | _ => False

/-- Whatever is done, neither a connect nor a disconnect nor a deinit succeeds any more. -/
def CoreSystem.Wedged (config : CoreConfig) (c : CoreSystem) : Prop :=
  ∀ actions action, ¬(Machine.run (CoreSystem.step config) actions c).2.Succeeds config action

deriving instance DecidableEq for StopEnv

instance (env : LeaveEnv) : Decidable env.Succeeds :=
  decidable_of_iff
    (env.ntpStop = .works ∧ env.downlinkStop = .works ∧ env.disconnect.answer = .ok ())
    ⟨fun h => ⟨h.1, h.2.1, h.2.2⟩, fun h => ⟨h.1, h.2, h.3⟩⟩

instance (env : CloudEnv) : Decidable env.Spares :=
  inferInstanceAs (Decidable (env.answer.isOk = false ∧ env.left = .connected))

instance (env : LeaveEnv) : Decidable env.Whole :=
  inferInstanceAs (Decidable (env.Succeeds ∨ env.disconnect.Spares))

instance (env : ConnectEnv) (x : CoreContexts) : Decidable (env.Whole x) :=
  inferInstanceAs (Decidable (env.succeeds x = true ∨ env.connect.Spares ∨
    env.connect.answer.isOk = true ∧ env.cleanup.disconnect.Spares))

instance (c : CoreSystem) : DecidablePred c.Keeps
  | .mqtt event =>
    inferInstanceAs (Decidable (c.InSession → c.contexts.mqtt = .connected →
      c.contexts.mqtt.after event = .connected))
  | .service env =>
    inferInstanceAs (Decidable (c.InSession →
      (c.service.Executes c.jobPool .disconnect → env.disconnect.Whole) ∧
        (c.service.Executes c.jobPool .connect → env.connect.Whole c.contexts)))
  | .setCallback | .init _ | .call _ | .api _ | .deinit | .deinitStep _ => .isTrue trivial

instance (c : CoreSystem) : DecidablePred c.Frees
  | .service env =>
    inferInstanceAs (Decidable (c.service.Executes c.jobPool .deinit →
      env.deinit.ntpDeinit = .ok ()))
  | .setCallback | .init _ | .call _ | .api _ | .deinit | .deinitStep _ | .mqtt _ => .isTrue trivial

/-! ### The operations and the MQTT client -/

section Operations

variable {x : CoreContexts}

/-- A stop that succeeds leaves no worker. -/
theorem coreWorkerStop_works (w : CoreWorker) :
    coreWorkerStop .works w = (.ok (), ⟨false, false⟩) := by
  obtain ⟨task, stopSem⟩ := w
  cases task <;> cases stopSem <;> rfl

/-- With all its calls leaving ends the session. -/
theorem coreLeaveSession_succeeds {env : LeaveEnv} (h : env.Succeeds) (hcloud : x.cloud = true)
    (hmqtt : x.mqtt = .connected) :
    coreLeaveSession env x = (.ok (), { x with
      ntpTask := ⟨false, false⟩
      downlinkTask := ⟨false, false⟩
      mqtt := .disconnected }) := by
  unfold coreLeaveSession actrustCloudDisconnect
  rw [h.ntp, h.downlink, h.disconnect, coreWorkerStop_works, coreWorkerStop_works]
  dsimp only
  rw [hcloud, hmqtt]
  rfl

/-- Then DISCONNECT leads to READY without a session. -/
theorem coreOpsDisconnect_succeeds {env : LeaveEnv} (h : env.Succeeds) (hcloud : x.cloud = true)
    (hmqtt : x.mqtt = .connected) :
    (coreOpsDisconnect env x).result = .ok () ∧ (coreOpsDisconnect env x).state = some .ready ∧
      (coreOpsDisconnect env x).contexts.NoSession := by
  unfold coreOpsDisconnect
  rw [coreLeaveSession_succeeds h hcloud hmqtt]
  exact ⟨rfl, rfl, rfl, rfl, rfl⟩

/-- A DISCONNECT succeeds from CONNECTED only. -/
theorem coreOpsDisconnect_result {env : LeaveEnv} (h : (coreOpsDisconnect env x).result = .ok ()) :
    x.mqtt = .connected := by
  rcases coreOpsDisconnect_state x env with ⟨hnone, -⟩ | ⟨-, hmqtt, -⟩
  · exfalso
    unfold coreOpsDisconnect at h hnone
    generalize coreLeaveSession env x = out at h hnone
    obtain ⟨_ | _, x'⟩ := out
    · cases h
    · cases hnone
  · exact hmqtt

/-- The cloud context outlives a session. -/
theorem actrustCloudDisconnect_cloud (env : CloudEnv) :
    (actrustCloudDisconnect env x).2.cloud = x.cloud := by
  unfold actrustCloudDisconnect
  split_ifs
  · rfl
  · split <;> rfl

/-- A disconnect that is refused leaves the client CONNECTED. -/
theorem actrustCloudDisconnect_spares {env : CloudEnv} (h : env.Spares) (hcloud : x.cloud = true)
    (hmqtt : x.mqtt = .connected) :
    (actrustCloudDisconnect env x).1 ≠ .ok () ∧
      (actrustCloudDisconnect env x).2.mqtt = .connected := by
  obtain ⟨answer, left⟩ := env
  obtain ⟨hanswer, hleft⟩ := h
  cases answer with
  | ok _ => cases hanswer
  | error e =>
    unfold actrustCloudDisconnect
    rw [hcloud, hmqtt]
    exact ⟨by rintro ⟨⟩, hleft⟩

/-- In a session a DISCONNECT ends it, or leaves the client. -/
-- Only the cloud's own disconnect may be refused; then the client stays CONNECTED.
theorem coreOpsDisconnect_whole {env : LeaveEnv} (h : env.Whole) (hcloud : x.cloud = true)
    (hmqtt : x.mqtt = .connected) :
    (coreOpsDisconnect env x).state = some .ready ∨
      (coreOpsDisconnect env x).state = none ∧
        (coreOpsDisconnect env x).contexts.cloud = true ∧
        (coreOpsDisconnect env x).contexts.mqtt = .connected := by
  rcases h with hsucceeds | hspares
  · exact .inl (coreOpsDisconnect_succeeds hsucceeds hcloud hmqtt).2.1
  · right
    have hleave : (coreLeaveSession env x).1 ≠ .ok () ∧
        (coreLeaveSession env x).2.cloud = true ∧
        (coreLeaveSession env x).2.mqtt = .connected := by
      obtain ⟨hfails, hleft⟩ := actrustCloudDisconnect_spares hspares (x := { x with
        ntpTask := (coreWorkerStop env.ntpStop x.ntpTask).2
        downlinkTask := (coreWorkerStop env.downlinkStop x.downlinkTask).2 }) hcloud hmqtt
      refine ⟨fun hok => hfails (and_then_ok hok).2, ?_, hleft⟩
      exact (actrustCloudDisconnect_cloud env.disconnect).trans hcloud
    unfold coreOpsDisconnect
    generalize coreLeaveSession env x = out at hleave
    obtain ⟨_ | _, x'⟩ := out
    · exact ⟨rfl, hleave.2⟩
    · exact absurd rfl hleave.1

/-- A CONNECT of a core in a session opens another, or leaves the client. -/
-- A connect in a session: refused, failed, or cleaned up; `Whole` says the client stays in each.
theorem coreOpsConnect_whole {env : ConnectEnv} (h : env.Whole x) (hcloud : x.cloud = true)
    (hmqtt : x.mqtt = .connected) :
    (coreOpsConnect env x).contexts.cloud = true ∧
      (coreOpsConnect env x).contexts.mqtt = .connected := by
  cases hsucceeds : env.succeeds x with
  | true => exact (coreOpsConnect_succeeds hsucceeds).2
  | false =>
    have hspares := h.resolve_left (by rw [hsucceeds]; exact Bool.noConfusion)
    have hfails := coreOpsConnect_fails hsucceeds
    generalize coreOpsConnect env x = r at hfails
    cases hfails with
    | refused e => exact ⟨hcloud, hmqtt⟩
    | cloud e hanswer =>
      rcases hspares with hconnect | ⟨hok, -⟩
      · exact ⟨hcloud, hconnect.2⟩
      · exact Bool.noConfusion (hanswer.symm.trans hok)
    | cleaned x' e hok hcloud' hmqtt' =>
      have hcleanup : env.cleanup.disconnect.Spares := by
        rcases hspares with hconnect | ⟨-, hcleanup⟩
        · exact Bool.noConfusion (hconnect.1.symm.trans hok)
        · exact hcleanup
      refine ⟨?_, ?_⟩
      · exact (actrustCloudDisconnect_cloud env.cleanup.disconnect).trans hcloud'
      · exact (actrustCloudDisconnect_spares hcleanup (x := { x' with
          ntpTask := (coreWorkerStop env.cleanup.ntpStop x'.ntpTask).2
          downlinkTask := (coreWorkerStop env.cleanup.downlinkStop x'.downlinkTask).2 })
          hcloud' hmqtt').2

/-- A connect either has a cloud, or leaves it as it is. -/
theorem coreOpsConnect_cloud (env : ConnectEnv) :
    (coreOpsConnect env x).contexts.cloud = true ∨
      (coreOpsConnect env x).state = none ∧ (coreOpsConnect env x).contexts.cloud = x.cloud := by
  cases hsucceeds : env.succeeds x with
  | true => exact .inl (coreOpsConnect_succeeds hsucceeds).2.1
  | false =>
    have hfails := coreOpsConnect_fails hsucceeds
    generalize coreOpsConnect env x = r at hfails
    cases hfails with
    | refused e => exact .inr ⟨rfl, rfl⟩
    | cloud e _ => exact .inr ⟨rfl, rfl⟩
    | cleaned x' e _ hcloud _ =>
      left
      exact (actrustCloudDisconnect_cloud env.cleanup.disconnect).trans hcloud

/-- A disconnect leaves the cloud context alone. -/
theorem coreOpsDisconnect_cloud (env : LeaveEnv) :
    (coreOpsDisconnect env x).contexts.cloud = x.cloud := by
  have hleave : (coreLeaveSession env x).2.cloud = x.cloud :=
    actrustCloudDisconnect_cloud env.disconnect
  unfold coreOpsDisconnect
  generalize coreLeaveSession env x = out at hleave
  obtain ⟨_ | _, x'⟩ := out <;> exact hleave

/-- So does a REGISTER. -/
theorem coreOpsRegister_cloud (env : RegisterEnv) :
    (coreOpsRegister env x).contexts.cloud = x.cloud := by
  unfold coreOpsRegister
  dsimp only
  split <;> rfl

end Operations

section Steps

variable {config : CoreConfig} {c c' : CoreSystem}

/-! ### The cloud context of a session -/

/-- A core in a session has its cloud context. -/
def CoreSystem.Clouded (c : CoreSystem) : Prop := c.InSession → c.contexts.cloud = true

/-- A step with the same state and cloud. -/
theorem CoreSystem.Clouded.frame (h : c.Clouded) (hstate : c'.state = c.state)
    (hcloud : c'.contexts.cloud = c.contexts.cloud) : c'.Clouded := by
  unfold Clouded InSession
  rw [hstate, hcloud]
  exact h

/-- An operation that sets another state, or keeps the cloud context. -/
theorem CoreSystem.Clouded.executed (h : c.Clouded) {idx : ℕ} {r : OpsResult}
    (hr : r.contexts.cloud = true ∨ r.state = none ∧ r.contexts.cloud = c.contexts.cloud) :
    (c.executed idx r).Clouded := by
  rcases hr with hcloud | ⟨hstate, hcloud⟩
  · exact fun _ => hcloud
  · refine h.frame ?_ hcloud
    show r.state.getD c.state = c.state
    rw [hstate]
    rfl

/-- An operation that sets another state ends the session. -/
theorem not_inSession_executed {idx : ℕ} {r : OpsResult} {state : CoreState}
    (hr : r.state = some state) (hstate : state ≠ .unregistered ∧ state ≠ .registered) :
    ¬(c.executed idx r).InSession := by
  refine not_inSession (?_ : _ = state) hstate
  show r.state.getD c.state = state
  rw [hr]
  rfl

/-- The operation of a job keeps it, by the job's type. -/
theorem CoreSystem.Clouded.dispatchJob (h : c.Clouded) (idx : ℕ) (env : ServiceEnv) :
    (c.dispatchJob env idx).Clouded := by
  unfold CoreSystem.dispatchJob
  split
  next htype =>
    intro hs
    refine absurd hs ?_
    rcases coreOpsInit_state c.contexts env.init with hr | hr
    · exact not_inSession_executed hr ⟨by rintro ⟨⟩, by rintro ⟨⟩⟩
    · exact not_inSession_executed hr ⟨by rintro ⟨⟩, by rintro ⟨⟩⟩
  next htype => exact h.executed (coreOpsConnect_cloud env.connect)
  next htype =>
    rcases coreOpsDisconnect_state c.contexts env.disconnect with ⟨hr, -⟩ | ⟨hr, -⟩
    · exact h.executed (.inr ⟨hr, coreOpsDisconnect_cloud env.disconnect⟩)
    · intro hs
      exact absurd hs (not_inSession_executed hr ⟨by rintro ⟨⟩, by rintro ⟨⟩⟩)
  next htype =>
    split_ifs
    · exact h.executed (.inr ⟨rfl, rfl⟩)
    · exact h.frame rfl rfl
  next htype => exact h.executed (.inr ⟨rfl, rfl⟩)
  next htype =>
    intro hs
    exact absurd hs (not_inSession_executed (coreOpsDeinit_state c.contexts env.deinit).1
      ⟨by rintro ⟨⟩, by rintro ⟨⟩⟩)
  next htype => exact h.executed (.inr ⟨rfl, rfl⟩)

/-- Every action keeps it. -/
theorem CoreSystem.Clouded.step (h : c.Clouded) (hinv : c.Inv config) (action : CoreAction) :
    (c.step config action).2.Clouded := by
  have halters := step_alters hinv action
  generalize (c.step config action).2 = c' at halters
  -- A deinit begins and ends outside a session.
  cases halters with
  | stays hstate hcontexts _ => exact h.frame hstate (by rw [hcontexts])
  | begins _ hstate _ =>
    intro hs
    exact absurd hs (not_inSession hstate ⟨by rintro ⟨⟩, by rintro ⟨⟩⟩)
  | leaves _ _ hidle _ => exact fun hs => absurd hs hidle
  | moves event hstate hcontexts _ => exact h.frame hstate (by rw [hcontexts])
  | runs idx env _ heq =>
    rw [heq]
    exact h.dispatchJob idx env
  | registers idx env hservice heq =>
    rw [heq]
    have hcloud := h (.inl (hinv.registering idx hservice).1)
    exact h.executed (.inl ((coreOpsRegister_cloud env.register).trans hcloud))

/-- A core in a session has its MQTT client CONNECTED. -/
structure CoreSystem.Linked (c : CoreSystem) : Prop where
  cloud : c.Clouded
  mqtt : c.InSession → c.contexts.mqtt = .connected

/-- A step that leaves the client of a session alone. -/
theorem CoreSystem.Linked.frame (h : c.Linked) (hstate : c'.state = c.state)
    (hcontexts : c.InSession → c'.contexts.mqtt = c.contexts.mqtt)
    (hcloud : c'.Clouded) : c'.Linked where
  cloud := hcloud
  mqtt hs := by
    unfold InSession at hs
    rw [hstate] at hs
    exact (hcontexts hs).trans (h.mqtt hs)

/-- The operation of a job, under the condition on its answers. -/
theorem CoreSystem.Linked.dispatchJob (h : c.Linked) {idx : ℕ}
    (hservice : c.service = .running idx) {env : ServiceEnv} (hok : c.Keeps (.service env)) :
    (c.dispatchJob env idx).Linked := by
  refine ⟨h.cloud.dispatchJob idx env, ?_⟩
  -- The handler that runs is the one of the request's type.
  have hexecutes : ∀ type, (c.jobPool.pool idx).request.type = type →
      c.service.Executes c.jobPool type := by
    intro type htype
    rw [hservice]
    exact htype
  -- An operation that sets no state keeps the session it was in.
  have hstays : ∀ r : OpsResult, r.state = none →
      (c.InSession → r.contexts.mqtt = .connected) →
      (c.executed idx r).InSession → (c.executed idx r).contexts.mqtt = .connected := by
    intro r hnone hmqtt hs
    refine hmqtt ?_
    have hstate : (c.executed idx r).state = c.state := by
      show r.state.getD c.state = c.state
      rw [hnone]
      rfl
    unfold InSession at hs ⊢
    rwa [hstate] at hs
  unfold CoreSystem.dispatchJob
  split
  -- INIT leaves the core outside a session.
  next htype =>
    intro hs
    refine absurd hs ?_
    rcases coreOpsInit_state c.contexts env.init with hr | hr
    · exact not_inSession_executed hr ⟨by rintro ⟨⟩, by rintro ⟨⟩⟩
    · exact not_inSession_executed hr ⟨by rintro ⟨⟩, by rintro ⟨⟩⟩
  -- A CONNECT that succeeds has connected the client; in a session a failed one spares it.
  next htype =>
    cases hsucceeds : env.connect.succeeds c.contexts with
    | true => exact fun _ => (coreOpsConnect_succeeds hsucceeds).2.2
    | false =>
      refine hstays _ (coreOpsConnect_fails hsucceeds).state fun hs => ?_
      exact (coreOpsConnect_whole ((hok hs).2 (hexecutes _ htype)) (h.cloud hs) (h.mqtt hs)).2
  -- A DISCONNECT in a session either ends it or leaves the client connected.
  next htype =>
    by_cases hs : c.InSession
    · rcases coreOpsDisconnect_whole ((hok hs).1 (hexecutes _ htype)) (h.cloud hs) (h.mqtt hs) with
        hr | ⟨hr, -, hmqtt⟩
      · exact fun hs => absurd hs (not_inSession_executed hr ⟨by rintro ⟨⟩, by rintro ⟨⟩⟩)
      · exact fun _ => hmqtt
    · -- Outside a session it finds nothing to keep.
      rcases coreOpsDisconnect_state c.contexts env.disconnect with ⟨hr, -⟩ | ⟨hr, -⟩
      · exact hstays _ hr fun hs' => absurd hs' hs
      · exact fun hs => absurd hs (not_inSession_executed hr ⟨by rintro ⟨⟩, by rintro ⟨⟩⟩)
  -- REGISTER leaves the client alone.
  next htype =>
    split_ifs
    · exact hstays _ rfl h.mqtt
    · exact h.mqtt
  next htype => exact hstays _ rfl h.mqtt
  -- DEINIT sets DEINIT, which is no session.
  next htype =>
    intro hs
    exact absurd hs (not_inSession_executed (coreOpsDeinit_state c.contexts env.deinit).1
      ⟨by rintro ⟨⟩, by rintro ⟨⟩⟩)
  next htype => exact hstays _ rfl h.mqtt

/-- Every action that meets the condition keeps it. -/
theorem CoreSystem.Linked.step (h : c.Linked) (hinv : c.Inv config) {action : CoreAction}
    (hok : c.Keeps action) : (c.step config action).2.Linked := by
  have hcloud := h.cloud.step hinv action
  have halters := step_alters hinv action
  generalize (c.step config action).2 = c' at halters hcloud
  cases halters with
  | stays hstate hcontexts _ => exact h.frame hstate (fun _ => by rw [hcontexts]) hcloud
  | begins _ hstate _ =>
    refine ⟨hcloud, fun hs => ?_⟩
    exact absurd hs (not_inSession hstate ⟨by rintro ⟨⟩, by rintro ⟨⟩⟩)
  | leaves _ _ hidle _ => exact ⟨hcloud, fun hs => absurd hs hidle⟩
  -- The client moves by itself, but not out of CONNECTED.
  | moves event hstate hcontexts _ =>
    refine h.frame hstate (fun hs => ?_) hcloud
    rw [hcontexts, h.mqtt hs]
    have hstays := hok hs (h.mqtt hs)
    rwa [h.mqtt hs] at hstays
  | runs idx env hservice heq =>
    rw [heq]
    exact h.dispatchJob hservice hok
  | registers idx env hservice heq =>
    refine ⟨hcloud, fun _ => ?_⟩
    rw [heq]
    have hmqtt := h.mqtt (.inl (hinv.registering idx hservice).1)
    exact (coreOpsRegister_state c.contexts env.register).2.trans hmqtt

/-! ### A session without its MQTT client -/

/-- The MQTT client is gone, and no CONNECT waits that could bring it back. -/
structure CoreSystem.Unlinked (c : CoreSystem) : Prop where
  session : c.InSession
  mqtt : c.contexts.mqtt = .disconnected
  pending : c.deinitPending = false
  connects : ∀ request ∈ c.waiting, request.type ≠ .connect

/-- A session is no other state. -/
theorem CoreSystem.InSession.ne {state : CoreState} (h : c.InSession)
    (hstate : state ≠ .unregistered ∧ state ≠ .registered) : c.state ≠ state :=
  fun hs => not_inSession hs hstate h

/-- A core in a session has its lock. -/
theorem CoreSystem.InSession.lock (h : c.InSession) (hinv : c.Inv config) : c.lock = true := by
  by_contra hlock
  have hstate := (hinv.unlocked (Bool.eq_false_iff.mpr hlock)).1
  exact h.ne ⟨by rintro ⟨⟩, by rintro ⟨⟩⟩ hstate

/-- A step in which no CONNECT comes. -/
theorem CoreSystem.Unlinked.frame (h : c.Unlinked) (hstate : c'.state = c.state)
    (hcontexts : c.contexts.mqtt = .disconnected → c'.contexts.mqtt = .disconnected)
    (hpending : c'.deinitPending = c.deinitPending) (hwaiting : c'.waiting <:+ c.waiting) :
    c'.Unlinked where
  session := by
    unfold InSession
    rw [hstate]
    exact h.session
  mqtt := hcontexts h.mqtt
  pending := hpending.trans h.pending
  connects request hr := h.connects request (hwaiting.subset hr)

/-- An operation that stays in the session. -/
theorem CoreSystem.Unlinked.executed (h : c.Unlinked) {idx : ℕ}
    (hworking : c.service.working = [idx]) {r : OpsResult}
    (hstate : r.state = none ∨ r.state = some .registered)
    (hcontexts : c.contexts.mqtt = .disconnected → r.contexts.mqtt = .disconnected) :
    (c.executed idx r).Unlinked where
  session := by
    show r.state.getD c.state = _ ∨ r.state.getD c.state = _
    rcases hstate with hr | hr
    · rw [hr]
      exact h.session
    · rw [hr]
      exact .inr rfl
  mqtt := hcontexts h.mqtt
  pending := h.pending
  connects request hr := by
    apply h.connects
    rw [c.waiting_executed hworking r]
    exact List.mem_cons_of_mem _ hr

/-- The operation of a job: only a CONNECT could bring the client back. -/
theorem CoreSystem.Unlinked.dispatchJob (h : c.Unlinked) (hinv : c.Inv config) {idx : ℕ}
    (hservice : c.service = .running idx) (env : ServiceEnv) : (c.dispatchJob env idx).Unlinked := by
  have hworking : c.service.working = [idx] := by
    rw [hservice]
    rfl
  have hfirst : (c.jobPool.pool idx).request ∈ c.waiting := c.mem_waiting hworking
  unfold CoreSystem.dispatchJob
  -- INIT and CONNECT do not wait, and a DISCONNECT finds no client.
  split
  next htype =>
    -- An INIT would find INITING, but the core is in a session.
    have hstate := (hinv.init _ hfirst htype).1
    exact absurd hstate (h.session.ne ⟨by rintro ⟨⟩, by rintro ⟨⟩⟩)
  next htype => exact absurd htype (h.connects _ hfirst)
  next htype =>
    -- The state stays where the client was down before.
    rcases coreOpsDisconnect_state c.contexts env.disconnect with ⟨hr, hmqtt⟩ | ⟨-, hmqtt, -⟩
    · exact h.executed hworking (.inl hr) hmqtt
    · cases h.mqtt.symm.trans hmqtt
  next htype =>
    -- A REGISTER is refused, or goes on to its own section; no request moves.
    split_ifs
    · exact h.executed hworking (.inl rfl) id
    · refine h.frame rfl id rfl ?_
      unfold CoreSystem.waiting
      rw [hservice]
      exact List.suffix_rfl
  next htype => exact h.executed hworking (.inl rfl) id
  next htype =>
    -- A DEINIT would need a pending deinit.
    have htask := (hinv.serving (by rw [hservice]; rintro ⟨⟩)).1
    exact absurd htype
      (hinv.quiet htask (.inl h.pending) _ (List.mem_append_right _ hfirst))
  next htype => exact h.executed hworking (.inl rfl) id

/-- A section of the service. -/
theorem CoreSystem.Unlinked.serviceStep (h : c.Unlinked) (hinv : c.Inv config)
    (hapi : c.service.Locks → c.api = .idle) (env : ServiceEnv) :
    (c.serviceStep env).Unlinked := by
  obtain ⟨-, hmoves⟩ := hinv.serviceStep hapi env
  obtain ⟨-, hpending, -⟩ := c.serviceStep_frame env
  -- Only these sections touch the contexts or the requests.
  cases hservice : c.service with
  | running idx =>
    unfold CoreSystem.serviceStep
    rw [hservice]
    exact h.dispatchJob hinv hservice env
  | registering idx =>
    have hregister := coreOpsRegister_state c.contexts env.register
    unfold CoreSystem.serviceStep
    rw [hservice]
    exact h.executed (by rw [hservice]; rfl) hregister.1 hregister.2.trans
  | calling request =>
    unfold CoreSystem.serviceStep at hmoves ⊢
    rw [hservice] at hmoves ⊢
    exact h.frame rfl id rfl ((hmoves.of_call rfl).1 ▸ List.suffix_rfl)
  | _ =>
    unfold CoreSystem.serviceStep at hmoves ⊢
    rw [hservice] at hmoves ⊢
    dsimp only at hmoves ⊢
    first
      | exact h.frame rfl id rfl (hmoves.of_log rfl rfl rfl).1
      | split at hmoves <;> exact h.frame rfl id rfl (hmoves.of_log rfl rfl rfl).1

/-- No call and no job brings the client back. -/
theorem CoreSystem.Unlinked.step (h : c.Unlinked) (hinv : c.Inv config) (action : CoreAction) :
    (c.step config action).2.Unlinked := by
  -- The session holds the lock, and no attempt is under way.
  have hlock := h.session.lock hinv
  have hidle : c.deinit = .idle := by
    by_contra hne
    cases h.pending.symm.trans (hinv.attempt hne).2.1
  cases action with
  | setCallback =>
    dsimp only [CoreSystem.step]
    split_ifs <;> exact h.frame rfl id rfl List.suffix_rfl
  | init env =>
    dsimp only [CoreSystem.step]
    split_ifs
    · -- The core is not UNINIT, so `actrust_init` is refused.
      unfold Service.actrustInit
      dsimp only
      rw [if_pos (.inl hlock)]
      exact h.frame rfl id rfl List.suffix_rfl
    · exact h
  -- A call that begins has queued nothing yet.
  | call type =>
    dsimp only [CoreSystem.step]
    split_ifs
    · unfold CoreSystem.submit
      dsimp only
      split_ifs <;> exact h.frame rfl id rfl List.suffix_rfl
    · exact h
  | api env =>
    obtain ⟨-, hmoves⟩ := hinv.apiStep env
    obtain ⟨p, q, a, l, heq, henqueued, hexecuted, hcallbacks⟩ := c.apiStep_frame env
    dsimp only [CoreSystem.step]
    rw [heq] at hmoves ⊢
    -- The post goes on, or the request is the last of the queue.
    rcases henqueued with hsame | ⟨request, pc, hapi, hnew⟩
    · exact h.frame rfl id rfl (hmoves.of_log hsame hexecuted hcallbacks).1
    · obtain ⟨hwaiting, -⟩ := hmoves.of_enqueue hnew
      refine ⟨h.session, h.mqtt, h.pending, fun r hr => ?_⟩
      rw [hwaiting] at hr
      rcases List.mem_append.mp hr with hr | hr
      · exact h.connects r hr
      · -- a call that is admitted in a session is no connect
        rw [List.mem_singleton.mp hr]
        intro htype
        rcases coreAdmits_cases (hinv.admitted request pc hapi).2.2 with ⟨-, hready⟩ | ⟨hs, -⟩
        · exact h.session.ne ⟨by rintro ⟨⟩, by rintro ⟨⟩⟩ hready
        · rw [htype] at hs
          exact hs
  | deinit =>
    dsimp only [CoreSystem.step]
    split_ifs
    · unfold Service.actrustDeinit
      -- In a session an attempt is refused before it begins.
      dsimp only
      split_ifs with hrefused hnew
      · exact h.frame rfl id rfl List.suffix_rfl
      · rcases hnew with hs | hs
        · exact absurd hs (h.session.ne ⟨by rintro ⟨⟩, by rintro ⟨⟩⟩)
        · exact absurd hs (h.session.ne ⟨by rintro ⟨⟩, by rintro ⟨⟩⟩)
      · exact h.frame rfl id rfl List.suffix_rfl
      · next hadmitted => exact absurd (.inr h.pending) hadmitted
    · exact h
  | deinitStep env =>
    dsimp only [CoreSystem.step]
    unfold CoreSystem.deinitStep
    rw [hidle]
    split_ifs <;> exact h
  | service env =>
    dsimp only [CoreSystem.step]
    split_ifs with hblocked
    · exact h
    · refine h.serviceStep hinv (fun hlocks => ?_) env
      by_contra hapi
      exact hblocked ⟨hlocks, hapi⟩
  -- What the client does by itself leaves it down.
  | mqtt event =>
    refine h.frame rfl (fun hmqtt => ?_) rfl List.suffix_rfl
    show c.contexts.mqtt.after event = .disconnected
    rw [hmqtt]
    cases event <;> rfl

/-- Nothing succeeds in it. -/
theorem CoreSystem.Unlinked.not_succeeds (h : c.Unlinked) (hinv : c.Inv config)
    (action : CoreAction) : ¬c.Succeeds config action := by
  cases action with
  | service env =>
    -- Neither CONNECT nor DISCONNECT can come to an end here.
    rintro ⟨-, ⟨hexecutes, -⟩ | ⟨-, hok⟩⟩
    · cases hservice : c.service with
      -- The job that runs waits, and no CONNECT waits.
      | running idx =>
        rw [hservice] at hexecutes
        exact h.connects _ (c.mem_waiting (by rw [hservice]; rfl)) hexecutes
      | _ =>
        rw [hservice] at hexecutes
        exact hexecutes.elim
    · -- A DISCONNECT that answers OK has found the client connected.
      have hmqtt := coreOpsDisconnect_result hok
      cases h.mqtt.symm.trans hmqtt
  | deinitStep env =>
    -- no deinit has been admitted
    rintro ⟨hlock, hunlocked⟩
    have hidle : c.deinit = .idle := by
      by_contra hne
      cases h.pending.symm.trans (hinv.attempt hne).2.1
    dsimp only [CoreSystem.step] at hunlocked
    unfold CoreSystem.deinitStep at hunlocked
    rw [hidle] at hunlocked
    split_ifs at hunlocked
    · exact Bool.noConfusion (hlock.symm.trans hunlocked)
    · exact Bool.noConfusion (hlock.symm.trans hunlocked)
  | _ => exact id

/-- Such a core is wedged: the invariant holds in every run from it, and in it nothing succeeds. -/
theorem CoreSystem.Unlinked.wedged (h : c.Unlinked) (hinv : c.Inv config) :
    c.Wedged config := by
  intro actions action
  have hmeets : Meets (CoreSystem.step config) (fun _ _ => True) actions c :=
    Meets.of_forall (fun _ _ => trivial) actions c
  have hend := run_invariant (I := fun c => c.Inv config ∧ c.Unlinked)
    (fun c action hc _ => ⟨(hc.1.step action).1, hc.2.step hc.1 action⟩) ⟨hinv, h⟩ hmeets
  exact hend.2.not_succeeds hend.1 action

/-! ### A core without a way to deinitialise its NTP client -/

/-- The cloud client has been deinitialised, and the NTP client refuses to be. -/
structure CoreSystem.Closing (c : CoreSystem) : Prop where
  lock : c.lock = true
  ntp : c.contexts.ntp = true
  closing : c.contexts.ntpClosing = true
  cloud : c.contexts.cloud = false
  phase : c.deinitPhase = .job
  done : ¬c.DeinitDone
  /-- No INIT waits. -/
  state : c.state ≠ .initing
  /-- A DEINIT that has been executed has failed. -/
  result : ∀ idx, c.service = .completing idx (.ok ()) →
    ∀ request ∈ c.served, request.type ≠ .deinit

/-- A step that leaves the contexts alone. -/
theorem CoreSystem.Closing.frame (h : c.Closing) (hlock : c'.lock = c.lock)
    (hcontexts : c'.contexts = c.contexts) (hphase : c'.deinitPhase = .job)
    (hdone : c'.DeinitDone → c.DeinitDone) (hstate : c'.state ≠ .initing)
    (hserved : c'.served = c.served)
    (hservice : c'.service = c.service ∨ ∀ idx, c'.service ≠ .completing idx (.ok ())) :
    c'.Closing where
  lock := hlock.trans h.lock
  ntp := by
    rw [hcontexts]
    exact h.ntp
  closing := by
    rw [hcontexts]
    exact h.closing
  cloud := by
    rw [hcontexts]
    exact h.cloud
  phase := hphase
  done hd := h.done (hdone hd)
  state := hstate
  result idx hidx := by
    rw [hserved]
    rcases hservice with hsame | hnot
    · exact h.result idx (hsame.symm.trans hidx)
    · exact absurd hidx (hnot idx)

/-- What a job leaves of the contexts, and that it sets no state that an INIT would wait in. -/
structure OpsResult.Stuck (r : OpsResult) : Prop where
  ntp : r.contexts.ntp = true
  closing : r.contexts.ntpClosing = true
  cloud : r.contexts.cloud = false
  state : r.state ≠ some .initing

/-- An operation that is stuck itself. -/
theorem CoreSystem.Closing.executed (h : c.Closing) {idx : ℕ} {r : OpsResult} (hr : r.Stuck)
    (hresult : (c.jobPool.pool idx).request.type = .deinit → r.result ≠ .ok ()) :
    (c.executed idx r).Closing where
  lock := h.lock
  ntp := hr.ntp
  closing := hr.closing
  cloud := hr.cloud
  phase := h.phase
  done := h.done
  state := by
    show r.state.getD c.state ≠ .initing
    cases hs : r.state with
    | none => exact h.state
    | some state =>
      intro hx
      exact hr.state (hs.trans (congrArg some hx))
  result i hi request hmem := by
    have hok : r.result = .ok () := by
      injection hi
    have hone : (c.executed idx r).served = [(c.jobPool.pool idx).request] := rfl
    rw [hone] at hmem
    rw [List.mem_singleton.mp hmem]
    exact fun htype => hresult htype hok

section Operations

variable {x : CoreContexts}

/-- Without the cloud context nothing is connected or disconnected. -/
theorem actrustCloudDisconnect_none (hcloud : x.cloud = false) (env : CloudEnv) :
    actrustCloudDisconnect env x = (.error ⟨.cloud, .invalidArg⟩, x) := if_pos hcloud

/-- A connect without a cloud context is refused before anything else. -/
theorem coreOpsConnect_none (hcloud : x.cloud = false) (env : ConnectEnv) :
    coreOpsConnect env x = ⟨.error ⟨.cloud, .invalidArg⟩, none, x⟩ := by
  have hcall : actrustCloudConnect env.connect x = (.error ⟨.cloud, .invalidArg⟩, x) :=
    if_pos hcloud
  unfold coreOpsConnect
  rw [hcall]

/-- A disconnect without one leaves the workers and the client as they are. -/
theorem coreOpsDisconnect_none (hcloud : x.cloud = false) (env : LeaveEnv) :
    (coreOpsDisconnect env x).result ≠ .ok () ∧ (coreOpsDisconnect env x).state = none ∧
      (coreOpsDisconnect env x).contexts.ntp = x.ntp ∧
      (coreOpsDisconnect env x).contexts.ntpClosing = x.ntpClosing ∧
      (coreOpsDisconnect env x).contexts.cloud = x.cloud := by
  have hleave : (coreLeaveSession env x).1 ≠ .ok () ∧
      (coreLeaveSession env x).2.ntp = x.ntp ∧
      (coreLeaveSession env x).2.ntpClosing = x.ntpClosing ∧
      (coreLeaveSession env x).2.cloud = x.cloud := by
    have hcall := actrustCloudDisconnect_none (x := { x with
      ntpTask := (coreWorkerStop env.ntpStop x.ntpTask).2
      downlinkTask := (coreWorkerStop env.downlinkStop x.downlinkTask).2 }) hcloud env.disconnect
    unfold coreLeaveSession
    dsimp only
    rw [hcall]
    refine ⟨fun hok => ?_, rfl, rfl, rfl⟩
    cases (and_then_ok hok).2
  unfold coreOpsDisconnect
  generalize coreLeaveSession env x = out at hleave
  obtain ⟨_ | _, x'⟩ := out
  · exact ⟨nofun, rfl, hleave.2⟩
  · exact absurd rfl hleave.1

/-- The NTP client is not let go. -/
theorem coreOpsDeinit_closing (hntp : x.ntp = true) (hclosing : x.ntpClosing = true)
    (hcloud : x.cloud = false) (env : DeinitOpEnv) :
    (coreOpsDeinit env x).result ≠ .ok () ∧ (coreOpsDeinit env x).Stuck := by
  unfold coreOpsDeinit
  -- The contexts in front of the NTP client are released, or an earlier one fails.
  split
  · exact ⟨nofun, hntp, hclosing, hcloud, nofun⟩
  · split
    · exact ⟨nofun, hntp, hclosing, hcloud, nofun⟩
    · dsimp only
      split
      · exact ⟨nofun, hntp, hclosing, hcloud, nofun⟩
      · split
        · exact ⟨nofun, hntp, hclosing, hcloud, nofun⟩
        · -- Here `actrust_ntp_deinit` finds `closing` set and refuses.
          unfold actrustNtpDeinit
          dsimp only
          rw [hntp, hclosing]
          exact ⟨nofun, rfl, rfl, rfl, nofun⟩

/-- A deinit of the NTP client that fails is behind that of the cloud client. -/
theorem coreOpsDeinit_closes (hclosing : x.ntpClosing = false) {env : DeinitOpEnv}
    (hcloses : (coreOpsDeinit env x).contexts.ntpClosing = true) :
    (coreOpsDeinit env x).result ≠ .ok () ∧ (coreOpsDeinit env x).Stuck := by
  unfold coreOpsDeinit at hcloses ⊢
  split at hcloses
  · exact Bool.noConfusion (hclosing.symm.trans hcloses)
  · split at hcloses
    · exact Bool.noConfusion (hclosing.symm.trans hcloses)
    · dsimp only at hcloses ⊢
      split at hcloses
      · exact Bool.noConfusion (hclosing.symm.trans hcloses)
      · split at hcloses
        · exact Bool.noConfusion (hclosing.symm.trans hcloses)
        · -- Only the call of `actrust_ntp_deinit` sets the flag.
          split at hcloses
          next hfails =>
            refine ⟨nofun, ?_, rfl, rfl, nofun⟩
            show x.ntp = true
            -- It fails only over a client that is there.
            by_contra hnone
            unfold coreRelease at hfails
            rw [if_neg hnone] at hfails
            cases hfails
          · split at hcloses
            · exact Bool.noConfusion (hclosing.symm.trans hcloses)
            · exact Bool.noConfusion (hclosing.symm.trans hcloses)

end Operations

/-- The operation of a job: INIT does not wait, CONNECT and DISCONNECT find no cloud, DEINIT fails.
-/
theorem CoreSystem.Closing.dispatchJob (h : c.Closing) (hinv : c.Inv config) {idx : ℕ}
    (hservice : c.service = .running idx) (env : ServiceEnv)
    (hmoves : c.Moves (c.dispatchJob env idx)) : (c.dispatchJob env idx).Closing := by
  -- A result that keeps the contexts and sets no INITING leaves the wedge as it is.
  have hstuck : ∀ result state, state ≠ some CoreState.initing →
      OpsResult.Stuck ⟨result, state, c.contexts⟩ :=
    fun _ _ hs => ⟨h.ntp, h.closing, h.cloud, hs⟩
  unfold CoreSystem.dispatchJob at hmoves ⊢
  split at hmoves
  next htype =>
    -- it would be alone in INITING
    have hfirst : (c.jobPool.pool idx).request ∈ c.waiting :=
      c.mem_waiting (by rw [hservice]; rfl)
    exact absurd (hinv.init _ hfirst htype).1 h.state
  -- Without a cloud CONNECT fails before anything else.
  next htype =>
    rw [coreOpsConnect_none h.cloud]
    exact h.executed (hstuck _ _ nofun) fun hx => by cases htype.symm.trans hx
  -- Without one DISCONNECT fails, and sets no state.
  next htype =>
    obtain ⟨-, hstate, hntp, hclosing, hcloud⟩ := coreOpsDisconnect_none h.cloud env.disconnect
    refine h.executed ⟨hntp.trans h.ntp, hclosing.trans h.closing, hcloud.trans h.cloud, ?_⟩
      fun hx => by cases htype.symm.trans hx
    rw [hstate]
    nofun
  -- REGISTER is refused, or goes on to its own section.
  next htype =>
    split_ifs at hmoves ⊢
    · exact h.executed (hstuck _ _ nofun) fun hx => by cases htype.symm.trans hx
    · obtain ⟨-, hserved⟩ := hmoves.of_log rfl rfl rfl
      exact h.frame rfl rfl h.phase id h.state hserved (.inr nofun)
  next htype => exact h.executed (hstuck _ _ nofun) fun hx => by cases htype.symm.trans hx
  -- The deinit of a client that is closing fails again, so it is never done.
  next htype =>
    obtain ⟨hresult, hr⟩ := coreOpsDeinit_closing h.ntp h.closing h.cloud env.deinit
    exact h.executed hr fun _ => hresult
  next htype => exact h.executed (hstuck _ _ nofun) fun hx => by cases htype.symm.trans hx

/-- A section of the service. -/
theorem CoreSystem.Closing.serviceStep (h : c.Closing) (hinv : c.Inv config)
    (hapi : c.service.Locks → c.api = .idle) (env : ServiceEnv) :
    (c.serviceStep env).Closing := by
  obtain ⟨-, hmoves⟩ := hinv.serviceStep hapi env
  cases hservice : c.service with
  | running idx =>
    unfold CoreSystem.serviceStep at hmoves ⊢
    rw [hservice] at hmoves ⊢
    exact h.dispatchJob hinv hservice env hmoves
  | registering idx =>
    -- REGISTER writes the signing key alone.
    have htype := (hinv.registering idx hservice).2
    have hr : (coreOpsRegister env.register c.contexts).Stuck := by
      unfold coreOpsRegister
      dsimp only
      split <;> exact ⟨h.ntp, h.closing, h.cloud, nofun⟩
    unfold CoreSystem.serviceStep
    rw [hservice]
    exact h.executed hr fun hx => by cases htype.symm.trans hx
  -- The completion may note a deinit as done only where its job succeeded.
  | completing idx result =>
    unfold CoreSystem.serviceStep at hmoves ⊢
    rw [hservice] at hmoves ⊢
    dsimp only at hmoves ⊢
    obtain ⟨-, hserved⟩ := hmoves.of_log rfl rfl rfl
    refine h.frame rfl rfl h.phase ?_ h.state hserved (.inr nofun)
    rintro ⟨hdone, hok⟩
    unfold CoreSystem.completeJob at hdone hok
    dsimp only at hdone hok
    by_cases htype : (c.jobPool.pool idx).request.type = .deinit
    · -- the DEINIT has failed
      exfalso
      rw [decide_eq_true htype] at hok
      have hresult : result = .ok () := by
        cases result with
        | error e => cases hok
        | ok _ => rfl
      rw [hresult] at hservice
      refine h.result idx hservice (c.jobPool.pool idx).request ?_ htype
      unfold CoreSystem.served
      rw [hservice]
      exact List.mem_cons_self
    · rw [decide_eq_false htype] at hdone hok
      exact ⟨hdone, hok⟩
  | releasing idx =>
    unfold CoreSystem.serviceStep at hmoves ⊢
    rw [hservice] at hmoves ⊢
    dsimp only at hmoves ⊢
    obtain ⟨-, hserved⟩ := hmoves.of_log rfl rfl rfl
    -- Behind the release the service has a callback to make and no result.
    refine h.frame rfl rfl h.phase id h.state hserved (.inr fun i hi => ?_)
    unfold CoreSystem.releaseJob ServicePc.next at hi
    dsimp only at hi
    split_ifs at hi
  | calling request =>
    unfold CoreSystem.serviceStep at hmoves ⊢
    rw [hservice] at hmoves ⊢
    dsimp only at hmoves ⊢
    obtain ⟨-, hserved⟩ := hmoves.of_call rfl
    -- The callback gives the request up, so nothing is served.
    refine ⟨h.lock, h.ntp, h.closing, h.cloud, h.phase, h.done, h.state, fun _ _ => ?_⟩
    rw [hserved]
    rintro _ ⟨⟩
  -- Every other section of the service leaves the contexts alone.
  | _ =>
    unfold CoreSystem.serviceStep at hmoves ⊢
    rw [hservice] at hmoves ⊢
    dsimp only at hmoves ⊢
    first
      | exact h
      | split at hmoves <;> first
        | exact h
        | exact h.frame rfl rfl h.phase id h.state (hmoves.of_log rfl rfl rfl).2 (.inr nofun)

/-- A deinit whose job has not succeeded goes no further. -/
theorem CoreSystem.checkDeinitJob_failed (h : ¬c.DeinitDone) :
    c.checkDeinitJob = coreDeinitClearFinalizing c := by
  unfold checkDeinitJob
  split_ifs with hjob
  · rfl
  · split
    · rfl
    next hresult =>
      refine absurd ⟨Bool.eq_true_of_not_eq_false hjob, ?_⟩ h
      rw [hresult]
      rfl

/-- The wait of a deinit for the service. -/
theorem CoreSystem.Closing.joinService (h : c.Closing) (join : Except Err Unit) :
    (c.joinService join).Closing := by
  unfold CoreSystem.joinService
  split_ifs
  · rw [checkDeinitJob_failed h.done]
    exact h.frame rfl rfl h.phase id h.state rfl (.inl rfl)
  · split
    · exact h.frame rfl rfl h.phase id h.state rfl (.inl rfl)
    next hexited =>
      have hserved : CoreSystem.served { c with serviceTask := false, service := .stopped }
          = c.served := by
        unfold CoreSystem.served
        rw [hexited]
        rfl
      have hjoined : CoreSystem.Closing { c with serviceTask := false, service := .stopped } :=
        h.frame rfl rfl h.phase id h.state hserved (.inr nofun)
      dsimp only
      split
      · exact hjoined.frame rfl rfl h.phase id h.state rfl (.inl rfl)
      · rw [checkDeinitJob_failed hjoined.done]
        exact hjoined.frame rfl rfl h.phase id h.state rfl (.inl rfl)
    · exact h

/-- A section of `actrust_deinit`: its job has failed, so it comes no further than the service. -/
theorem CoreSystem.Closing.deinitStep (h : c.Closing) (hinv : c.Inv config) (env : DeinitEnv) :
    (c.deinitStep env).Closing := by
  obtain ⟨-, hmoves⟩ := hinv.deinitStep env
  cases hd : c.deinit with
  -- Without an attempt the step does nothing.
  | idle =>
    unfold CoreSystem.deinitStep
    rw [hd]
    exact h
  | posting request previous start pc =>
    unfold CoreSystem.deinitStep at hmoves ⊢
    rw [hd] at hmoves ⊢
    dsimp only at hmoves ⊢
    -- The post moves the DEINIT and leaves the contexts.
    generalize corePostJob env.post request c.jobPool c.jobQueue pc = out at hmoves ⊢
    obtain ⟨pc' | result, p, q⟩ := out
    · exact h.frame rfl rfl h.phase id h.state (hmoves.of_log rfl rfl rfl).2 (.inl rfl)
    · cases result with
      | error e =>
        exact h.frame rfl rfl h.phase id h.state (hmoves.of_log rfl rfl rfl).2 (.inl rfl)
      | ok _ =>
        obtain ⟨-, hserved⟩ := hmoves.of_enqueue rfl
        exact h.frame rfl rfl h.phase id h.state hserved (.inl rfl)
  | starting previous =>
    unfold CoreSystem.deinitStep at hmoves ⊢
    rw [hd] at hmoves ⊢
    dsimp only at hmoves ⊢
    -- The service is started, or the DEINIT is drained; the contexts stay.
    split at hmoves
    · exact h.frame rfl rfl h.phase id h.state (hmoves.of_log rfl rfl rfl).2 (.inl rfl)
    · exact h.frame rfl rfl h.phase id h.state (hmoves.of_log rfl rfl rfl).2 (.inr nofun)
  | restoring previous =>
    have hat := hinv.attempting
    rw [hd] at hat
    unfold CoreSystem.deinitStep
    rw [hd]
    -- The old state comes back: READY or INIT_FAILED, neither of which is INITING.
    refine h.frame rfl rfl rfl (fun hdone => Bool.noConfusion hdone.1) ?_ rfl (.inl rfl)
    rcases hat.2.1 with hp | hp <;> rw [hp] <;> rintro ⟨⟩
  | joining =>
    unfold CoreSystem.deinitStep
    rw [hd]
    exact h.joinService env.join
  | finishing =>
    -- The later phases begin only behind a deinit that has succeeded.
    have hat := hinv.attempting
    rw [hd] at hat
    exact absurd h.phase hat.2

/-- No call and no job lets the NTP client go. -/
theorem CoreSystem.Closing.step (h : c.Closing) (hinv : c.Inv config) (action : CoreAction) :
    (c.step config action).2.Closing := by
  -- No action initialises the core: it has its lock.
  cases action with
  | setCallback =>
    dsimp only [CoreSystem.step]
    split_ifs
    · exact h.frame rfl rfl h.phase id h.state rfl (.inl rfl)
    · exact h
  | init env =>
    dsimp only [CoreSystem.step]
    split_ifs
    · unfold Service.actrustInit
      dsimp only
      rw [if_pos (.inl h.lock)]
      exact h.frame rfl rfl h.phase id h.state rfl (.inl rfl)
    · exact h
  | call type =>
    dsimp only [CoreSystem.step]
    split_ifs
    · unfold CoreSystem.submit
      dsimp only
      split_ifs <;> exact h.frame rfl rfl h.phase id h.state rfl (.inl rfl)
    · exact h
  | api env =>
    obtain ⟨-, hmoves⟩ := hinv.apiStep env
    obtain ⟨p, q, a, l, heq, henqueued, hexecuted, hcallbacks⟩ := c.apiStep_frame env
    dsimp only [CoreSystem.step]
    rw [heq] at hmoves ⊢
    -- The post of a call serves nothing.
    have hserved : CoreSystem.served { c with jobPool := p, jobQueue := q, api := a, log := l }
        = c.served := by
      rcases henqueued with hsame | ⟨_, _, -, hnew⟩
      · exact (hmoves.of_log hsame hexecuted hcallbacks).2
      · exact (hmoves.of_enqueue hnew).2
    exact h.frame rfl rfl h.phase id h.state hserved (.inl rfl)
  | deinit =>
    dsimp only [CoreSystem.step]
    split_ifs
    · unfold Service.actrustDeinit
      dsimp only
      split_ifs
      · exact h.frame rfl rfl h.phase id h.state rfl (.inl rfl)
      · -- A new attempt clears the note of the last, and its state is DEINIT.
        exact h.frame rfl rfl rfl (fun hdone => Bool.noConfusion hdone.1) nofun rfl (.inl rfl)
      · exact h.frame rfl rfl h.phase id h.state rfl (.inl rfl)
      · exact h.frame rfl rfl h.phase id h.state rfl (.inl rfl)
    · exact h
  | deinitStep env =>
    dsimp only [CoreSystem.step]
    split_ifs
    · exact h
    · exact h.deinitStep hinv env
  | service env =>
    dsimp only [CoreSystem.step]
    split_ifs with hblocked
    · exact h
    · refine h.serviceStep hinv (fun hlocks => ?_) env
      by_contra hapi
      exact hblocked ⟨hlocks, hapi⟩
  | mqtt event => exact ⟨h.lock, h.ntp, h.closing, h.cloud, h.phase, h.done, h.state, h.result⟩

/-- No call that a core should answer succeeds from here. -/
theorem CoreSystem.Closing.not_succeeds (h : c.Closing) (hinv : c.Inv config)
    (action : CoreAction) : ¬c.Succeeds config action := by
  cases action with
  | service env =>
    rintro ⟨-, ⟨-, hok⟩ | ⟨-, hok⟩⟩
    · rw [coreOpsConnect_none h.cloud] at hok
      cases hok
    · exact (coreOpsDisconnect_none h.cloud env.disconnect).1 hok
  | deinitStep env =>
    rintro ⟨-, hunlocked⟩
    exact Bool.noConfusion (hunlocked.symm.trans (h.step hinv (.deinitStep env)).lock)
  | _ => exact id

/-- Such a core is wedged. -/
theorem CoreSystem.Closing.wedged (h : c.Closing) (hinv : c.Inv config) : c.Wedged config := by
  intro actions action
  have hmeets : Meets (CoreSystem.step config) (fun _ _ => True) actions c :=
    Meets.of_forall (fun _ _ => trivial) actions c
  have hend := run_invariant (I := fun c => c.Inv config ∧ c.Closing)
    (fun c action hc _ => ⟨(hc.1.step action).1, hc.2.step hc.1 action⟩) ⟨hinv, h⟩ hmeets
  exact hend.2.not_succeeds hend.1 action

/-- A DEINIT whose deinit of the NTP client fails wedges the core. -/
theorem CoreSystem.Inv.closes (hinv : c.Inv config) (hapi : c.api = .idle) {idx : ℕ}
    (hservice : c.service = .running idx) (htype : (c.jobPool.pool idx).request.type = .deinit)
    (hclosing : c.contexts.ntpClosing = false) {env : ServiceEnv}
    (hcloses : (coreOpsDeinit env.deinit c.contexts).contexts.ntpClosing = true) :
    (c.serviceStep env).Wedged config := by
  have hrun : c.service ≠ .stopped := by
    rw [hservice]
    rintro ⟨⟩
  have hserved : c.served = [] := by
    unfold CoreSystem.served
    rw [hservice]
    rfl
  -- The service runs a job, so the core is initialised and in its first phase.
  obtain ⟨-, hlock, hphase⟩ := hinv.serving hrun
  obtain ⟨hresult, hr⟩ := coreOpsDeinit_closes hclosing hcloses
  -- The step is the handler's, as the job is a DEINIT.
  have hstep : c.serviceStep env = c.executed idx (coreOpsDeinit env.deinit c.contexts) := by
    unfold CoreSystem.serviceStep CoreSystem.dispatchJob
    rw [hservice]
    dsimp only
    rw [htype]
  have hnext := (hinv.serviceStep (fun _ => hapi) env).1
  rw [hstep] at hnext ⊢
  refine Closing.wedged ?_ hnext
  exact {
    lock := hlock
    ntp := hr.ntp
    closing := hr.closing
    cloud := hr.cloud
    phase := hphase
    -- a DEINIT that has succeeded is the last job of its service
    done := hinv.not_deinitDone hrun (by simp [hservice]) hserved
    state := by
      show (coreOpsDeinit env.deinit c.contexts).state.getD c.state ≠ .initing
      rw [(coreOpsDeinit_state c.contexts env.deinit).1]
      rintro ⟨⟩
    -- The handler has failed, so its result is not OK.
    result := by
      intro i hi
      have hok : (coreOpsDeinit env.deinit c.contexts).result = .ok () := by
        injection hi
      exact absurd hok hresult }

end Steps

end TrustSdk.Core.Service
