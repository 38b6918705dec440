import TrustSdk.Cloud.Provisioning
import TrustSdk.Core.Registration
import TrustSdk.Mqtt.Client

/-!
# Connecting to AWS, and a connection that is there already

`core_ops_connect` is admitted when the core is READY, but runs when its job is taken from the
queue. `actrust_cloud_aws_runtime_connect` then loads the thing name, the certificate and the key of
the runtime identity into the context of the cloud, whose key handle and certificate the MQTT client
has borrowed for its TLS configuration, and only after that asks the MQTT client, which refuses when
it is connected.

* `AwsSession` — the context, the stores of the identity, the key handles that are open, and what the
  MQTT client has been configured with;
* `actrustCloudAwsRuntimeConnect`, `actrustCloudAwsConnect`, `coreOpsConnect` — the calls in order;
  what the lower layers answer is up to the environment;
* `AwsSession.step` — a job is executed, or the process loop changes the state of the MQTT client.

`GivesUp` is the condition under which a further connect leaves an established session alone: one of
its calls fails before the key is replaced, and does not report a part of the identity missing. In
every run in which each CONNECT meets it that finds a session connected or reconnecting, no CONNECT
disturbs a session, and for an established session the condition is exact
(`connect_undisturbing_iff`). Where the process loop has ended there is nothing to disturb; a CONNECT
that fails there only has to leave no connection of its own behind (`Closes`).
-/

namespace TrustSdk.Cloud

open Machine

/-- What `actrust_mqtt_connect` has installed, as far as the session goes. -/
structure MqttView where
  state : Mqtt.MqttState
  /-- `client_key` of the TLS configuration, a handle that is borrowed. -/
  tlsKey : Option ℕ
  /-- `process_running` -/
  running : Bool
  deriving DecidableEq

/-- `actrust_cloud_aws_ctx_t`, with the connection and what is stored. -/
@[ext]
structure AwsSession where
  /-- The phase, the thing name, and the certificate and the thing name that are stored. -/
  ctx : AwsContext
  clientKey : Option ℕ
  /-- `client_cert_pem`. -/
  clientCert : List UInt8
  mqttProcessTask : Option ℕ
  /-- There is a key under `ACTRUST_CLOUD_RUNTIME_KEY_ID`. -/
  runtimeKey : Bool
  /-- The key handles that are open, and the next one. -/
  openKeys : List ℕ
  nextKey : ℕ
  mqtt : MqttView
  core : Core.CoreState
  deriving DecidableEq

/-! ### The environment -/

/-- What the calls of `actrust_cloud_aws_clear_runtime_identity` answer. -/
structure ClearEnv where
  keyClose : Except Err Unit
  keyDestroy : Except Err Unit
  stores : AwsStores

/-- The answers to one `actrust_cloud_aws_runtime_connect`, in the order of its calls. -/
structure RuntimeEnv where
  kvOpen : Except Err Unit
  kvGet : Except Err Unit
  kvExists : Except Err Unit
  kvClose : Except Err Unit
  certRead : Except Err Unit
  keyOpen : Except Err Unit
  keyClose : Except Err Unit
  clear : ClearEnv
  /-- `mqtt_api_enter` in `actrust_mqtt_set_callbacks`. -/
  setCallbacks : Except Err Unit
  startProcess : Except Err ℕ
  /-- `actrust_mqtt_connect`, and the topics and subscriptions. -/
  connect : Except Err Unit
  subscribe : Except Err Unit
  /-- What a connection that has failed leaves behind. -/
  left : MqttView × Option ℕ

/-- The answers to one `actrust_cloud_aws_first_connect`. -/
structure FirstEnv where
  setCallbacks : Except Err Unit
  /-- Everything behind the callbacks: the claim identity, the provisioning and its end. -/
  provision : Except Err Unit
  /-- The session that it leaves. -/
  left : AwsSession
  clear : ClearEnv

/-- What the calls of `core_ops_connect` answer. -/
structure ConnectEnv where
  runtime : RuntimeEnv
  first : FirstEnv
  again : RuntimeEnv
  /-- The rest of `core_ops_connect`; it tells whether the device is registered. -/
  core : Except Err Bool
  /-- What the cleanup of `core_ops_connect` leaves of the connection. -/
  left : MqttView × Option ℕ

/-! ### The calls -/

/-- `actrust_cloud_aws_clear_runtime_identity`. -/
def clearRuntimeIdentity (env : ClearEnv) (s : AwsSession) : AwsSession :=
  let closed :=
    match s.clientKey, env.keyClose with
    | some handle, .ok _ =>
      { s with clientKey := none, openKeys := s.openKeys.erase handle }
    | _, _ => s
  { closed with
    runtimeKey :=
      match env.keyDestroy with
      | .ok _ => false
      | .error _ => if env.stores.effective then false else s.runtimeKey
    ctx := actrustCloudAwsClearRuntimeIdentity env.stores s.ctx
    clientCert := [] }

/-- `actrust_kv_get` of the thing name, with its terminator behind it. -/
def kvGetThingName (answer : Except Err Unit) (s : AwsSession) :
    Except Err Unit × AwsSession :=
  match answer, s.ctx.storedThingName with
  | .error e, _ => (.error e, s)
  | .ok _, none => (.error ⟨.kv, .noResource⟩, s)
  | .ok _, some name =>
    if name.length > cloudAwsThingNameMaxLen - 1 then
      (.error ⟨.kv, .bufTooSmall⟩, { s with ctx := { s.ctx with thingNameLen := name.length } })
    else
      (.ok (),
        { s with
          ctx := { s.ctx with
            thingName := storeText s.ctx.thingName name
            thingNameLen := name.length } })

/-- `load_cert_and_key` for the runtime identity. -/
def loadCertAndKey (env : RuntimeEnv) (s : AwsSession) : Except Err Unit × AwsSession :=
  match env.certRead, s.ctx.runtimeCert with
  | .error e, _ => (.error e, s)
  | .ok _, none => (.error ⟨.adapterSecurity, .noResource⟩, s)
  | .ok _, some cert =>
    let s := { s with clientCert := cert }
    match env.keyOpen, s.runtimeKey with
    | .error e, _ => (.error e, s)
    | .ok _, false => (.error ⟨.adapterSecurity, .noResource⟩, s)
    | .ok _, true =>
      let opened := s.nextKey
      match s.clientKey, env.keyClose with
      | none, _ =>
        (.ok (),
          { s with
            clientKey := some opened
            openKeys := opened :: s.openKeys
            nextKey := opened + 1 })
      | some handle, .ok _ =>
        (.ok (),
          { s with
            clientKey := some opened
            openKeys := opened :: s.openKeys.erase handle
            nextKey := opened + 1 })
      -- the new handle is closed again
      | some _, .error e => (.error e, { s with nextKey := opened + 1 })

/-- `actrust_mqtt_set_callbacks`. -/
def mqttSetCallbacks (entered : Except Err Unit) (s : AwsSession) : Except Err Unit :=
  match entered with
  | .error e => .error e
  | .ok _ =>
    if s.mqtt.state = .connected ∨ s.mqtt.state = .connecting then
      .error (Mqtt.mqttErr .badState)
    else .ok ()

/-- What is left when a connection has failed, or has been closed. -/
def AwsSession.leave (s : AwsSession) (left : MqttView × Option ℕ) : AwsSession :=
  { s with mqtt := left.1, mqttProcessTask := left.2 }

/-- The second half of `actrust_cloud_aws_runtime_connect`. -/
def openRuntimeConnection (env : RuntimeEnv) (s : AwsSession) : Except Err Unit × AwsSession :=
  match mqttSetCallbacks env.setCallbacks s with
  | .error e => (.error e, s)
  | .ok _ =>
    match env.startProcess with
    | .error e => (.error e, s)
    | .ok task =>
      match env.connect, env.subscribe with
      | .error e, _ => (.error e, s.leave env.left)
      | .ok _, .error e => (.error e, s.leave env.left)
      | .ok _, .ok _ =>
        (.ok (),
          { s with
            mqttProcessTask := some task
            mqtt := { state := .connected, tlsKey := s.clientKey, running := true } })

/-- In `actrust_cloud_aws_runtime_connect`, the certificate and the key. -/
def loadRuntimeIdentity (env : RuntimeEnv) (s : AwsSession) : Except Err Unit × AwsSession :=
  match loadCertAndKey env s with
  | (.error e, s) =>
    if e.code ≠ .noResource then (.error e, s)
    else (.error (cloudErr .notReady), clearRuntimeIdentity env.clear s)
  | (.ok _, s) => openRuntimeConnection env s

/-- In `actrust_cloud_aws_runtime_connect`, the thing name that has been read. -/
def checkThingName (config : AwsConfig) (env : RuntimeEnv) (s : AwsSession) :
    Except Err Unit × AwsSession :=
  match actrustCloudAwsValidateThingName config s.ctx with
  | .error e =>
    if e ≠ cloudErr .badState then (.error e, s)
    else (.error (cloudErr .notReady), clearRuntimeIdentity env.clear s)
  | .ok _ => loadRuntimeIdentity env s

/-- In `actrust_cloud_aws_runtime_connect`, a thing name that is reported missing. -/
def thingNameMissing (env : RuntimeEnv) (e : Err) (s : AwsSession) : Err :=
  match env.kvExists with
  | .error e' => e'
  | .ok _ =>
    if s.ctx.storedThingName.isSome then e
    else
      match env.kvClose with
      | .error e' => e'
      | .ok _ => cloudErr .notReady

/-- `actrust_cloud_aws_runtime_connect`. -/
def actrustCloudAwsRuntimeConnect (config : AwsConfig) (env : RuntimeEnv) (s : AwsSession) :
    Except Err Unit × AwsSession :=
  match env.kvOpen with
  | .error e => (.error e, s)
  | .ok _ =>
    match kvGetThingName env.kvGet s with
    | (.error e, s) =>
      if e.code ≠ .noResource then (.error e, s) else (.error (thingNameMissing env e s), s)
    | (.ok _, s) =>
      match env.kvClose with
      | .error e => (.error e, s)
      | .ok _ => checkThingName config env s

/-- `actrust_cloud_aws_first_connect`, with the provisioning as one answer. -/
def actrustCloudAwsFirstConnect (env : FirstEnv) (s : AwsSession) :
    Except Err Unit × AwsSession :=
  match mqttSetCallbacks env.setCallbacks s with
  | .error e => (.error e, clearRuntimeIdentity env.clear s)
  | .ok _ => (env.provision, { env.left with core := s.core })

/-- `actrust_cloud_aws_connect`: the runtime identity first, and a second time behind provisioning.
-/
def actrustCloudAwsConnect (config : AwsConfig) (env : ConnectEnv) (s : AwsSession) :
    Except Err Unit × AwsSession :=
  match actrustCloudAwsRuntimeConnect config env.runtime s with
  | (.ok _, s) => (.ok (), s)
  | (.error e, s) =>
    if e ≠ cloudErr .notReady then (.error e, s)
    else
      match actrustCloudAwsFirstConnect env.first s with
      | (.error e, s) => (.error e, s)
      | (.ok _, s) => actrustCloudAwsRuntimeConnect config env.again s

/-- `core_ops_connect`. The state is not looked at again when the job runs. -/
def coreOpsConnect (config : AwsConfig) (env : ConnectEnv) (s : AwsSession) :
    Except Err Unit × AwsSession :=
  match actrustCloudAwsConnect config env s with
  | (.error e, s) => (.error e, s)
  | (.ok _, s) =>
    match env.core with
    | .error e => (.error e, s.leave env.left)
    | .ok registered => (.ok (), { s with core := if registered then .registered else .unregistered })

/-! ### Runs -/

/-- The process loop gets into a state, or ends. Without it the client stays as it is. -/
def MqttView.move (view : MqttView) (state : Mqtt.MqttState) (running : Bool) : MqttView :=
  if view.running = false then view
  else if running then { view with state } else { view with state := .disconnected, running }

/-- A job of the core, or the process loop by itself. -/
inductive SessionAction where
  | connect (env : ConnectEnv)
  /-- `core_ops_disconnect`, with what it leaves of the connection. -/
  | disconnect (result : Except Err Unit) (left : MqttView × Option ℕ)
  /-- `core_ops_register` has succeeded. -/
  | registered
  /-- The process loop loses the connection, reconnects or ends. -/
  | mqtt (state : Mqtt.MqttState) (running : Bool)

/-- One step. -/
def AwsSession.step (config : AwsConfig) (s : AwsSession) :
    SessionAction → Except Err Unit × AwsSession
  | .connect env => coreOpsConnect config env s
  | .disconnect result left =>
    (result,
      { s with
        -- the configuration is left as it is
        mqtt := s.mqtt.move left.1.state left.1.running
        mqttProcessTask := left.2
        core := match result with
          | .ok _ => .ready
          | .error _ => s.core })
  | .registered =>
    (.ok (), if s.core = .unregistered then { s with core := .registered } else s)
  | .mqtt state running => (.ok (), { s with mqtt := s.mqtt.move state running })

/-- Behind `actrust_init`. -/
def AwsSession.start (ctx : AwsContext) (runtimeKey : Bool) : AwsSession where
  ctx
  clientKey := none
  clientCert := []
  mqttProcessTask := none
  runtimeKey
  openKeys := []
  nextKey := 0
  mqtt := ⟨.initialized, none, false⟩
  core := .ready

/-! ### The property and the condition -/

/-- The core is UNREGISTERED or REGISTERED. -/
def AwsSession.Connected (s : AwsSession) : Prop :=
  s.core = .unregistered ∨ s.core = .registered

/-- A session is established. -/
def AwsSession.Established (s : AwsSession) : Prop := s.Connected ∧ s.mqtt.state = .connected

/-- What the live session has is left as it is. -/
structure AwsSession.Keeps (s s' : AwsSession) : Prop where
  ctx : s'.ctx = s.ctx
  clientKey : s'.clientKey = s.clientKey
  clientCert : s'.clientCert = s.clientCert
  mqttProcessTask : s'.mqttProcessTask = s.mqttProcessTask
  runtimeKey : s'.runtimeKey = s.runtimeKey
  mqtt : s'.mqtt = s.mqtt
  core : s'.core = s.core
  /-- The borrowed handle stays open. -/
  borrowed : ∀ handle, s.mqtt.tlsKey = some handle → handle ∈ s.openKeys → handle ∈ s'.openKeys

/-- A CONNECT job that is executed while a session is established fails, and leaves it alone. -/
def LeavesIntact (config : AwsConfig) (s : AwsSession) : SessionAction → Prop
  | .connect env =>
    s.Established → (∃ e, (coreOpsConnect config env s).1 = .error e) ∧
      s.Keeps (coreOpsConnect config env s).2
  | _ => True

/-- An error of `load_cert_and_key` that leaves the identity alone. -/
def NotMissing (e : Err) : Prop := e.code ≠ .noResource ∧ e ≠ cloudErr .notReady

/-- Some call fails before the key is replaced, and does not report the identity missing. -/
def RuntimeEnv.GivesUp (env : RuntimeEnv) : Prop :=
  match env.kvOpen, env.kvGet, env.kvClose with
  | .error e, _, _ => e ≠ cloudErr .notReady
  | .ok _, .error e, _ =>
    if e.code ≠ .noResource then e ≠ cloudErr .notReady
    else ∀ e', env.kvExists = .error e' → e' ≠ cloudErr .notReady
  | .ok _, .ok _, .error e => e ≠ cloudErr .notReady
  | .ok _, .ok _, .ok _ =>
    match env.certRead, env.keyOpen, env.keyClose with
    | .error e, _, _ | .ok _, .error e, _ | .ok _, .ok _, .error e => NotMissing e
    | .ok _, .ok _, .ok _ => False

/-- The client is disconnected, and nothing will bring it back. -/
def MqttView.Ended (view : MqttView) : Prop := view.state = .disconnected ∧ view.running = false

/-- Of the connections that a failed connect has made nothing is left. -/
structure ConnectEnv.Closes (env : ConnectEnv) : Prop where
  runtime : env.runtime.left.1.Ended
  first : env.first.left.mqtt.Ended
  again : env.again.left.1.Ended
  core : env.left.1.Ended

/-- A CONNECT of a connected core gives up, as long as the session is there or may come back. -/
def Undisturbing (s : AwsSession) : SessionAction → Prop
  | .connect env =>
    s.Connected → if s.mqtt.running then env.runtime.GivesUp else env.Closes
  | _ => True

/-! ### A live session -/

/-- What a successful connect has loaded is what is stored, and MQTT has borrowed the key. -/
structure Live (config : AwsConfig) (s : AwsSession) : Prop where
  name : ∃ name, s.ctx.storedThingName = some name ∧ name.length ≤ cloudAwsThingNameMaxLen - 1 ∧
    storeText s.ctx.thingName name = s.ctx.thingName ∧ s.ctx.thingNameLen = name.length
  valid : actrustCloudAwsValidateThingName config s.ctx = .ok ()
  cert : s.ctx.runtimeCert = some s.clientCert
  runtimeKey : s.runtimeKey = true
  key : ∃ handle, s.clientKey = some handle ∧ s.mqtt.tlsKey = some handle ∧
    handle ∈ s.openKeys ∧ handle < s.nextKey

/-- Storing a text twice stores it once. -/
theorem storeText_storeText (buffer text : List UInt8) :
    storeText (storeText buffer text) text = storeText buffer text := by
  simp [storeText]

section

variable {config : AwsConfig} {s : AwsSession}

/-- The thing name of a live session is not empty. -/
theorem Live.thingNameLen_ne (h : Live config s) : s.ctx.thingNameLen ≠ 0 := by
  have hvalid := h.valid
  unfold actrustCloudAwsValidateThingName at hvalid
  dsimp only at hvalid
  split_ifs at hvalid with hlen hname
  exact fun hzero => hname (Or.inr (Or.inl hzero))

/-- It is read again as it is. -/
theorem Live.kvGet (h : Live config s) : kvGetThingName (.ok ()) s = (.ok (), s) := by
  obtain ⟨name, hstored, hlen, hload, hnlen⟩ := h.name
  unfold kvGetThingName
  simp only [hstored]
  rw [if_neg (Nat.not_lt_of_le hlen), hload, ← hnlen, ← hstored]

/-- What `load_cert_and_key` does in a live session. -/
theorem Live.load (h : Live config s) (env : RuntimeEnv) :
    loadCertAndKey env s =
      match env.certRead, env.keyOpen, env.keyClose with
      | .error e, _, _ => (.error e, s)
      | .ok _, .error e, _ => (.error e, s)
      | .ok _, .ok _, .error e => (.error e, { s with nextKey := s.nextKey + 1 })
      | .ok _, .ok _, .ok _ =>
        (.ok (),
          { s with
            clientKey := some s.nextKey
            openKeys := s.nextKey :: s.openKeys.erase (s.clientKey.getD 0)
            nextKey := s.nextKey + 1 }) := by
  -- A session has a certificate, a key in its slot and an open handle.
  obtain ⟨handle, hkey, -, -, -⟩ := h.key
  unfold loadCertAndKey
  cases env.certRead with
  | error e => rfl
  | ok u =>
    cases env.keyOpen with
    | error e => simp only [h.cert]
    | ok u =>
      cases env.keyClose <;> simp only [h.cert, h.runtimeKey, hkey, Option.getD_some]

/-- With a thing name, what remains of `actrust_cloud_aws_runtime_connect` is the rest. -/
theorem Live.check (h : Live config s) (env : RuntimeEnv) :
    checkThingName config env s = loadRuntimeIdentity env s := by
  unfold checkThingName
  rw [h.valid]

/-- Giving up leaves everything alone, up to a handle that is closed again. -/
theorem Live.givesUp (h : Live config s) {env : RuntimeEnv} (hgives : env.GivesUp) :
    ∃ e n, actrustCloudAwsRuntimeConnect config env s = (.error e, { s with nextKey := n }) ∧
      e ≠ cloudErr .notReady ∧ s.nextKey ≤ n := by
  obtain ⟨name, hstored, -, -, -⟩ := h.name
  unfold RuntimeEnv.GivesUp at hgives
  unfold actrustCloudAwsRuntimeConnect
  -- The first call that fails decides; each one answers something other than NOT_READY.
  cases hopen : env.kvOpen with
  | error e =>
    simp only [hopen] at hgives
    exact ⟨e, s.nextKey, rfl, hgives, Nat.le_refl _⟩
  | ok u =>
    cases hget : env.kvGet with
    | error e =>
      simp only [hopen, hget] at hgives
      simp only [kvGetThingName]
      split_ifs at hgives ⊢ with hcode
      · exact ⟨e, s.nextKey, rfl, hgives, Nat.le_refl _⟩
      · -- the name is reported missing, but it exists
        refine ⟨_, s.nextKey, rfl, ?_, Nat.le_refl _⟩
        unfold thingNameMissing
        cases hexists : env.kvExists with
        | error e' => exact hgives e' hexists
        | ok u =>
          simp only [hstored, Option.isSome_some, if_true]
          rintro rfl
          exact hcode (by decide)
    -- The name is the stored one, so the next call is the close of the store.
    | ok u =>
      rw [h.kvGet]
      dsimp only
      cases hclose : env.kvClose with
      | error e =>
        simp only [hopen, hget, hclose] at hgives
        exact ⟨e, s.nextKey, rfl, hgives, Nat.le_refl _⟩
      | ok u =>
        simp only [hopen, hget, hclose] at hgives
        rw [h.check]
        unfold loadRuntimeIdentity
        rw [h.load]
        -- The certificate cannot be read, and the table says what that is answered with.
        cases hread : env.certRead with
        | error e =>
          simp only [hread] at hgives
          exact ⟨e, s.nextKey, if_pos hgives.1, hgives.2, Nat.le_refl _⟩
        | ok u =>
          -- The key is opened by the handle that the next attempt would get.
          cases hkey : env.keyOpen with
          | error e =>
            simp only [hread, hkey] at hgives
            exact ⟨e, s.nextKey, if_pos hgives.1, hgives.2, Nat.le_refl _⟩
          | ok u =>
            cases hkclose : env.keyClose with
            | error e =>
              simp only [hread, hkey, hkclose] at hgives
              exact ⟨e, s.nextKey + 1, if_pos hgives.1, hgives.2, Nat.le_succ _⟩
            | ok u =>
              simp only [hread, hkey, hkclose] at hgives

/-- Clearing the identity leaves the connection alone. -/
@[simp] theorem clearRuntimeIdentity_mqtt (env : ClearEnv) (s : AwsSession) :
    (clearRuntimeIdentity env s).mqtt = s.mqtt := by
  unfold clearRuntimeIdentity
  cases s.clientKey <;> cases env.keyClose <;> rfl

/-- It leaves the state of the core alone. -/
@[simp] theorem clearRuntimeIdentity_core (env : ClearEnv) (s : AwsSession) :
    (clearRuntimeIdentity env s).core = s.core := by
  unfold clearRuntimeIdentity
  cases s.clientKey <;> cases env.keyClose <;> rfl

/-- A connected client takes no other callbacks. -/
theorem mqttSetCallbacks_connected (hconn : s.mqtt.state = .connected)
    (entered : Except Err Unit) : ∃ e, mqttSetCallbacks entered s = .error e := by
  unfold mqttSetCallbacks
  cases entered with
  | error e => exact ⟨e, rfl⟩
  | ok u => exact ⟨_, if_pos (Or.inl hconn)⟩

/-- A connect that does not give up loses the identity, or the key handle. -/
theorem Live.disturbs (h : Live config s) (hconn : s.mqtt.state = .connected) {env : RuntimeEnv}
    (hgoes : ¬ env.GivesUp) :
    ∃ e s', actrustCloudAwsRuntimeConnect config env s = (.error e, s') ∧ s'.mqtt = s.mqtt ∧
      (e = cloudErr .notReady ∨ s'.clientKey ≠ s.clientKey) := by
  obtain ⟨name, hstored, -, -, -⟩ := h.name
  obtain ⟨handle, hhandle, -, -, hfresh⟩ := h.key
  unfold RuntimeEnv.GivesUp at hgoes
  unfold actrustCloudAwsRuntimeConnect
  -- The call that did not give up is the one whose error says NOT_READY, or none was.
  cases hopen : env.kvOpen with
  | error e =>
    simp only [hopen] at hgoes
    exact ⟨e, s, rfl, rfl, Or.inl (not_not.mp hgoes)⟩
  | ok u =>
    cases hget : env.kvGet with
    | error e =>
      simp only [hopen, hget] at hgoes
      simp only [kvGetThingName]
      split_ifs at hgoes ⊢ with hcode
      · exact ⟨e, s, rfl, rfl, Or.inl (not_not.mp hgoes)⟩
      · -- The name is missing by both answers, which is the NOT_READY asked for.
        obtain ⟨e', hexists, he⟩ := not_forall.mp hgoes |>.imp fun e' h => Classical.not_imp.mp h
        refine ⟨_, s, rfl, rfl, Or.inl ?_⟩
        unfold thingNameMissing
        rw [hexists]
        exact not_not.mp he
    | ok u =>
      -- The stored name is read and is the one in use.
      rw [h.kvGet]
      dsimp only
      cases hclose : env.kvClose with
      | error e =>
        simp only [hopen, hget, hclose] at hgoes
        exact ⟨e, s, rfl, rfl, Or.inl (not_not.mp hgoes)⟩
      | ok u =>
        simp only [hopen, hget, hclose] at hgoes
        rw [h.check]
        unfold loadRuntimeIdentity
        rw [h.load]
        -- a part of the identity is missing, or the error says that the cloud is not ready
        have hmissing (e : Err) (s₁ : AwsSession) (hmqtt : s₁.mqtt = s.mqtt)
            (hno : ¬ NotMissing e) :
            ∃ e' s', (if e.code ≠ .noResource then (Except.error e, s₁)
              else (.error (cloudErr .notReady), clearRuntimeIdentity env.clear s₁)) =
                ((.error e' : Except Err Unit), s') ∧ s'.mqtt = s.mqtt ∧
              (e' = cloudErr .notReady ∨ s'.clientKey ≠ s.clientKey) := by
          split_ifs with hcode
          · refine ⟨e, s₁, rfl, hmqtt, Or.inl (not_not.mp fun hne => hno ⟨hcode, hne⟩)⟩
          · refine ⟨_, _, rfl, ?_, Or.inl rfl⟩
            rw [clearRuntimeIdentity_mqtt, hmqtt]
        -- The certificate, then the key: a part that is missing clears the identity.
        cases hread : env.certRead with
        | error e =>
          simp only [hread] at hgoes
          exact hmissing e s rfl hgoes
        | ok u =>
          cases hkey : env.keyOpen with
          | error e =>
            simp only [hread, hkey] at hgoes
            exact hmissing e s rfl hgoes
          | ok u =>
            cases hkclose : env.keyClose with
            | error e =>
              simp only [hread, hkey, hkclose] at hgoes
              exact hmissing e _ rfl hgoes
            | ok u =>
              dsimp only
              -- the handle is replaced before the client is asked
              unfold openRuntimeConnection
              obtain ⟨e, hrefused⟩ := mqttSetCallbacks_connected
                (s := { s with
                  clientKey := some s.nextKey
                  openKeys := s.nextKey :: s.openKeys.erase (s.clientKey.getD 0)
                  nextKey := s.nextKey + 1 }) hconn env.setCallbacks
              rw [hrefused]
              refine ⟨e, _, rfl, rfl, Or.inr fun heq => ?_⟩
              have hsame := Option.some.inj (heq.trans hhandle)
              omega

/-- An error that is not NOT_READY is what `core_ops_connect` answers. -/
theorem coreOpsConnect_error {env : ConnectEnv} {e : Err} {s' : AwsSession}
    (h : actrustCloudAwsRuntimeConnect config env.runtime s = (.error e, s'))
    (he : e ≠ cloudErr .notReady) : coreOpsConnect config env s = (.error e, s') := by
  unfold coreOpsConnect actrustCloudAwsConnect
  simp only [h, if_pos he]

/-- A connected client does not let a first connection begin, and what is left is cleared. -/
theorem coreOpsConnect_cleared {env : ConnectEnv} {s' : AwsSession}
    (h : actrustCloudAwsRuntimeConnect config env.runtime s = (.error (cloudErr .notReady), s'))
    (hconn : s'.mqtt.state = .connected) :
    ∃ e, coreOpsConnect config env s = (.error e, clearRuntimeIdentity env.first.clear s') := by
  obtain ⟨e, hrefused⟩ := mqttSetCallbacks_connected hconn env.first.setCallbacks
  refine ⟨e, ?_⟩
  unfold coreOpsConnect actrustCloudAwsConnect actrustCloudAwsFirstConnect
  simp only [h, hrefused, ne_eq, not_true, if_false]

/-- A handle more is no change to the session. -/
theorem AwsSession.keeps_nextKey (s : AwsSession) (n : ℕ) : s.Keeps { s with nextKey := n } where
  ctx := rfl
  clientKey := rfl
  clientCert := rfl
  mqttProcessTask := rfl
  runtimeKey := rfl
  mqtt := rfl
  core := rfl
  borrowed := fun _ _ hmem => hmem

/-- For an established session the condition is exact. -/
theorem Live.leavesIntact_iff (h : Live config s) (hs : s.Established) (env : ConnectEnv) :
    LeavesIntact config s (.connect env) ↔ env.runtime.GivesUp := by
  constructor
  · intro hintact
    obtain ⟨-, hkeeps⟩ := hintact hs
    by_contra hgoes
    obtain ⟨e, s', hrun, hmqtt, hlost⟩ := h.disturbs hs.2 hgoes
    by_cases he : e = cloudErr .notReady
    · -- the thing name in the context is cleared
      subst he
      obtain ⟨e', hcleared⟩ := coreOpsConnect_cleared hrun (hmqtt ▸ hs.2)
      rw [hcleared] at hkeeps
      exact h.thingNameLen_ne (congrArg AwsContext.thingNameLen hkeeps.ctx).symm
    · rw [coreOpsConnect_error hrun he] at hkeeps
      exact (hlost.resolve_left he) hkeeps.clientKey
  · intro hgives _
    obtain ⟨e, n, hrun, he, -⟩ := h.givesUp hgives
    rw [coreOpsConnect_error hrun he]
    exact ⟨⟨e, rfl⟩, s.keeps_nextKey n⟩

/-! ### Runs -/

/-- What is loaded by a connect that succeeds. -/
theorem loadCertAndKey_ok {env : RuntimeEnv} {s' : AwsSession}
    (h : loadCertAndKey env s = (.ok (), s')) :
    s'.ctx = s.ctx ∧ s.ctx.runtimeCert = some s'.clientCert ∧ s'.runtimeKey = true ∧
      ∃ handle, s'.clientKey = some handle ∧ handle ∈ s'.openKeys ∧ handle < s'.nextKey := by
  -- Each error leaves before the key is opened; the two successes differ in the handle closed.
  unfold loadCertAndKey at h
  cases hread : env.certRead with
  | error e => simp [hread] at h
  | ok u =>
    -- The certificate read is the one of the context, and there has to be one.
    cases hcert : s.ctx.runtimeCert with
    | none => simp [hread, hcert] at h
    | some cert =>
      cases hkey : env.keyOpen with
      | error e => simp [hread, hcert, hkey] at h
      | ok u =>
        -- The slot of the key is filled in this call or was before.
        cases hslot : s.runtimeKey with
        | false => simp [hread, hcert, hkey, hslot] at h
        | true =>
          cases hhandle : s.clientKey with
          -- No handle was open, so none is closed.
          | none =>
            simp only [hread, hcert, hkey, hslot, hhandle, Prod.mk.injEq, true_and] at h
            subst h
            exact ⟨by simp, rfl, rfl, s.nextKey, rfl, List.mem_cons_self,
              Nat.lt_succ_self _⟩
          | some handle =>
            cases hclose : env.keyClose with
            | error e => simp [hread, hcert, hkey, hslot, hhandle, hclose] at h
            | ok u =>
              -- The old handle is closed, and the new one is younger than all.
              simp only [hread, hcert, hkey, hslot, hhandle, hclose, Prod.mk.injEq, true_and] at h
              subst h
              exact ⟨by simp, rfl, rfl, s.nextKey, rfl, List.mem_cons_self,
                Nat.lt_succ_self _⟩

/-- A thing name that is read fits, and is stored as it is. -/
theorem kvGetThingName_ok {answer : Except Err Unit} {s' : AwsSession}
    (h : kvGetThingName answer s = (.ok (), s')) :
    ∃ name, s'.ctx.storedThingName = some name ∧ name.length ≤ cloudAwsThingNameMaxLen - 1 ∧
      storeText s'.ctx.thingName name = s'.ctx.thingName ∧ s'.ctx.thingNameLen = name.length := by
  unfold kvGetThingName at h
  cases answer with
  | error e => simp at h
  | ok u =>
    cases hstored : s.ctx.storedThingName with
    | none => simp [hstored] at h
    | some name =>
      simp only [hstored] at h
      split_ifs at h with hlen
      · simp at h
      · simp only [Prod.mk.injEq, true_and] at h
        subst h
        exact ⟨name, rfl, Nat.le_of_not_lt hlen, storeText_storeText _ _, rfl⟩

/-- A connection that is opened is CONNECTED with the key that was loaded. -/
theorem openRuntimeConnection_ok {env : RuntimeEnv} {s' : AwsSession}
    (h : openRuntimeConnection env s = (.ok (), s')) :
    ∃ task, s' = { s with
      mqttProcessTask := some task
      mqtt := { state := .connected, tlsKey := s.clientKey, running := true } } := by
  unfold openRuntimeConnection at h
  cases hset : mqttSetCallbacks env.setCallbacks s with
  | error e => simp [hset] at h
  | ok u =>
    cases hstart : env.startProcess with
    | error e => simp [hset, hstart] at h
    | ok task =>
      cases hconnect : env.connect with
      | error e => simp [hset, hstart, hconnect] at h
      | ok u =>
        cases hsubscribe : env.subscribe with
        | error e => simp [hset, hstart, hconnect, hsubscribe] at h
        | ok u =>
          simp only [hset, hstart, hconnect, hsubscribe, Prod.mk.injEq, true_and] at h
          exact ⟨task, h.symm⟩

/-- A connect that succeeds leaves a live session, wherever it has begun. -/
theorem runtimeConnect_live {env : RuntimeEnv} {s' : AwsSession}
    (h : actrustCloudAwsRuntimeConnect config env s = (.ok (), s')) :
    Live config s' ∧ s'.mqtt.running = true := by
  -- Only the last of all these calls leaves through success.
  unfold actrustCloudAwsRuntimeConnect at h
  cases hopen : env.kvOpen with
  | error e => simp [hopen] at h
  | ok u =>
    cases hget : kvGetThingName env.kvGet s with
    | mk got s₁ =>
      simp only [hopen, hget] at h
      cases got with
      | error e =>
        -- Whatever the store answers, an error is not success.
        dsimp only at h
        split_ifs at h <;> simp at h
      | ok u =>
        cases hclose : env.kvClose with
        | error e => simp [hclose] at h
        | ok u =>
          simp only [hclose] at h
          unfold checkThingName at h
          cases hvalid : actrustCloudAwsValidateThingName config s₁.ctx with
          | error e =>
            -- A name of another device would clear the identity.
            simp only [hvalid] at h
            split_ifs at h <;> simp at h
          | ok u =>
            simp only [hvalid] at h
            unfold loadRuntimeIdentity at h
            cases hload : loadCertAndKey env s₁ with
            | mk loaded s₂ =>
              simp only [hload] at h
              cases loaded with
              | error e =>
                dsimp only at h
                split_ifs at h <;> simp at h
              | ok u =>
                -- What was read, checked and opened are the fields of a live session.
                obtain ⟨hctx, hcert, hslot, handle, hkey, hmem, hlt⟩ := loadCertAndKey_ok hload
                obtain ⟨task, rfl⟩ := openRuntimeConnection_ok h
                have hname := kvGetThingName_ok hget
                rw [← hctx] at hname hvalid hcert
                exact ⟨⟨hname, hvalid, hcert, hslot, handle, hkey, hkey, hmem, hlt⟩, rfl⟩

/-! No call of the cloud changes the state of the core. -/

/-- Reading the thing name leaves the state of the core alone. -/
theorem kvGetThingName_core (answer : Except Err Unit) (s : AwsSession) :
    (kvGetThingName answer s).2.core = s.core := by
  unfold kvGetThingName
  cases answer with
  | error e => rfl
  | ok u =>
    cases s.ctx.storedThingName with
    | none => rfl
    | some name => dsimp only; split_ifs <;> rfl

/-- So does loading the certificate and the key. -/
theorem loadCertAndKey_core (env : RuntimeEnv) (s : AwsSession) :
    (loadCertAndKey env s).2.core = s.core := by
  unfold loadCertAndKey
  cases env.certRead <;> cases s.ctx.runtimeCert <;> try rfl
  cases env.keyOpen <;> cases s.runtimeKey <;> try rfl
  cases s.clientKey <;> cases env.keyClose <;> rfl

/-- So does opening the connection. -/
theorem openRuntimeConnection_core (env : RuntimeEnv) (s : AwsSession) :
    (openRuntimeConnection env s).2.core = s.core := by
  unfold openRuntimeConnection
  cases mqttSetCallbacks env.setCallbacks s with
  | error e => rfl
  | ok u => cases env.startProcess <;> cases env.connect <;> cases env.subscribe <;> rfl

/-- So does loading the identity, which may clear it. -/
theorem loadRuntimeIdentity_core (env : RuntimeEnv) (s : AwsSession) :
    (loadRuntimeIdentity env s).2.core = s.core := by
  have hload := loadCertAndKey_core env s
  unfold loadRuntimeIdentity
  cases h : loadCertAndKey env s with
  | mk loaded s₁ =>
    rw [h] at hload
    cases loaded with
    | error e =>
      dsimp only
      split_ifs
      · exact hload
      · exact (clearRuntimeIdentity_core env.clear s₁).trans hload
    | ok u => exact (openRuntimeConnection_core env s₁).trans hload

/-- So does checking the thing name. -/
theorem checkThingName_core (env : RuntimeEnv) (s : AwsSession) :
    (checkThingName config env s).2.core = s.core := by
  unfold checkThingName
  cases actrustCloudAwsValidateThingName config s.ctx with
  | error e =>
    dsimp only
    split_ifs
    · rfl
    · exact clearRuntimeIdentity_core env.clear s
  | ok u => exact loadRuntimeIdentity_core env s

/-- So does `actrust_cloud_aws_runtime_connect`. -/
theorem runtimeConnect_core (env : RuntimeEnv) (s : AwsSession) :
    (actrustCloudAwsRuntimeConnect config env s).2.core = s.core := by
  have hget := kvGetThingName_core env.kvGet s
  unfold actrustCloudAwsRuntimeConnect
  cases env.kvOpen with
  | error e => rfl
  | ok u =>
    cases h : kvGetThingName env.kvGet s with
    | mk got s₁ =>
      rw [h] at hget
      cases got with
      | error e =>
        dsimp only
        split_ifs <;> exact hget
      | ok u =>
        cases env.kvClose with
        | error e => exact hget
        | ok u => exact (checkThingName_core env s₁).trans hget

/-- So does `actrust_cloud_aws_connect`; the core moves in its own operation. -/
theorem awsConnect_core (env : ConnectEnv) (s : AwsSession) :
    (actrustCloudAwsConnect config env s).2.core = s.core := by
  have hruntime := @runtimeConnect_core config env.runtime s
  unfold actrustCloudAwsConnect
  cases h : actrustCloudAwsRuntimeConnect config env.runtime s with
  | mk result s₁ =>
    rw [h] at hruntime
    cases result with
    | ok u => exact hruntime
    | error e =>
      dsimp only
      split_ifs
      · exact hruntime
      · unfold actrustCloudAwsFirstConnect
        cases mqttSetCallbacks env.first.setCallbacks s₁ with
        | error e => exact (clearRuntimeIdentity_core _ s₁).trans hruntime
        | ok u =>
          cases env.first.provision with
          | error e => exact hruntime
          | ok u => exact (runtimeConnect_core env.again _).trans hruntime

/-- A connect that succeeds leaves a live session, from whichever of the two attempts. -/
theorem awsConnect_live {env : ConnectEnv} {s' : AwsSession}
    (h : actrustCloudAwsConnect config env s = (.ok (), s')) :
    Live config s' ∧ s'.mqtt.running = true := by
  unfold actrustCloudAwsConnect at h
  cases hrun : actrustCloudAwsRuntimeConnect config env.runtime s with
  | mk result s₁ =>
    simp only [hrun] at h
    cases result with
    | ok u =>
      obtain rfl : s₁ = s' := congrArg Prod.snd h
      exact runtimeConnect_live hrun
    | error e =>
      dsimp only at h
      split_ifs at h
      · cases congrArg Prod.fst h
      · cases hfirst : actrustCloudAwsFirstConnect env.first s₁ with
        | mk result s₂ =>
          simp only [hfirst] at h
          cases result with
          | error e => cases congrArg Prod.fst h
          | ok u => exact runtimeConnect_live h

/-! A connect that fails leaves a client whose process loop has ended so. -/

/-- Reading the thing name leaves the connection alone. -/
theorem kvGetThingName_mqtt (answer : Except Err Unit) (s : AwsSession) :
    (kvGetThingName answer s).2.mqtt = s.mqtt := by
  unfold kvGetThingName
  cases answer with
  | error e => rfl
  | ok u =>
    cases s.ctx.storedThingName with
    | none => rfl
    | some name => dsimp only; split_ifs <;> rfl

/-- So does loading the certificate and the key. -/
theorem loadCertAndKey_mqtt (env : RuntimeEnv) (s : AwsSession) :
    (loadCertAndKey env s).2.mqtt = s.mqtt := by
  unfold loadCertAndKey
  cases env.certRead <;> cases s.ctx.runtimeCert <;> try rfl
  cases env.keyOpen <;> cases s.runtimeKey <;> try rfl
  cases s.clientKey <;> cases env.keyClose <;> rfl

/-- A connection that fails to open has ended, if its cleanup leaves it so. -/
theorem openRuntimeConnection_ended {env : RuntimeEnv} {e : Err} {s' : AwsSession}
    (hended : s.mqtt.Ended) (hleft : env.left.1.Ended)
    (h : openRuntimeConnection env s = (.error e, s')) : s'.mqtt.Ended := by
  unfold openRuntimeConnection at h
  cases hset : mqttSetCallbacks env.setCallbacks s with
  | error e' =>
    simp only [hset, Prod.mk.injEq] at h
    rw [← h.2]
    exact hended
  -- Before the process is started the connection is the old one.
  | ok u =>
    cases hstart : env.startProcess with
    | error e' =>
      simp only [hset, hstart, Prod.mk.injEq] at h
      rw [← h.2]
      exact hended
    | ok task =>
      cases hconnect : env.connect with
      | error e' =>
        simp only [hset, hstart, hconnect, Prod.mk.injEq] at h
        rw [← h.2]
        exact hleft
      | ok u =>
        cases hsubscribe : env.subscribe with
        | error e' =>
          simp only [hset, hstart, hconnect, hsubscribe, Prod.mk.injEq] at h
          rw [← h.2]
          exact hleft
        | ok u => simp [hset, hstart, hconnect, hsubscribe] at h

/-- So has an identity that fails to load. -/
theorem loadRuntimeIdentity_ended {env : RuntimeEnv} {e : Err} {s' : AwsSession}
    (hended : s.mqtt.Ended) (hleft : env.left.1.Ended)
    (h : loadRuntimeIdentity env s = (.error e, s')) : s'.mqtt.Ended := by
  have hmqtt := loadCertAndKey_mqtt env s
  unfold loadRuntimeIdentity at h
  cases hload : loadCertAndKey env s with
  | mk loaded s₁ =>
    rw [hload] at hmqtt h
    have hended₁ : s₁.mqtt.Ended := hmqtt.symm ▸ hended
    cases loaded with
    | error e' =>
      dsimp only at h
      split_ifs at h
      · rw [← (Prod.mk.inj h).2]
        exact hended₁
      · rw [← (Prod.mk.inj h).2, clearRuntimeIdentity_mqtt]
        exact hended₁
    | ok u => exact openRuntimeConnection_ended hended₁ hleft h

/-- So has a runtime connect that fails. -/
theorem runtimeConnect_ended {env : RuntimeEnv} {e : Err} {s' : AwsSession}
    (hended : s.mqtt.Ended) (hleft : env.left.1.Ended)
    (h : actrustCloudAwsRuntimeConnect config env s = (.error e, s')) :
    s'.mqtt.Ended := by
  have hmqtt := kvGetThingName_mqtt env.kvGet s
  unfold actrustCloudAwsRuntimeConnect at h
  cases hopen : env.kvOpen with
  -- Up to the opening of the connection the client is not touched.
  | error e' =>
    simp only [hopen, Prod.mk.injEq] at h
    rw [← h.2]
    exact hended
  | ok u =>
    cases hget : kvGetThingName env.kvGet s with
    | mk got s₁ =>
      simp only [hopen, hget] at h hmqtt
      have hended₁ : s₁.mqtt.Ended := hmqtt.symm ▸ hended
      cases got with
      | error e' =>
        -- A name that is missing clears the identity and not the client.
        dsimp only at h
        split_ifs at h
        · rw [← (Prod.mk.inj h).2]
          exact hended₁
        · rw [← (Prod.mk.inj h).2]
          exact hended₁
      | ok u =>
        cases hclose : env.kvClose with
        | error e' =>
          simp only [hclose, Prod.mk.injEq] at h
          rw [← h.2]
          exact hended₁
        | ok u =>
          simp only [hclose] at h
          unfold checkThingName at h
          cases hvalid : actrustCloudAwsValidateThingName config s₁.ctx with
          | error e' =>
            simp only [hvalid] at h
            split_ifs at h
            · rw [← (Prod.mk.inj h).2]
              exact hended₁
            · rw [← (Prod.mk.inj h).2, clearRuntimeIdentity_mqtt]
              exact hended₁
          | ok u =>
            simp only [hvalid] at h
            -- The opening itself either has not begun or ends as `left` says.
            exact loadRuntimeIdentity_ended hended₁ hleft h

/-- So has a connect that fails. -/
theorem awsConnect_ended {env : ConnectEnv} {e : Err} {s' : AwsSession}
    (hended : s.mqtt.Ended) (hcloses : env.Closes)
    (h : actrustCloudAwsConnect config env s = (.error e, s')) :
    s'.mqtt.Ended := by
  unfold actrustCloudAwsConnect at h
  cases hrun : actrustCloudAwsRuntimeConnect config env.runtime s with
  | mk result s₁ =>
    simp only [hrun] at h
    cases result with
    | ok u => cases congrArg Prod.fst h
    | error e' =>
      -- The first attempt has ended its connection, and what follows starts from there.
      have hended₁ := runtimeConnect_ended hended hcloses.runtime hrun
      dsimp only at h
      -- Other errors than NOT_READY are answered as they are.
      split_ifs at h
      · rw [← (Prod.mk.inj h).2]
        exact hended₁
      · unfold actrustCloudAwsFirstConnect at h
        cases hset : mqttSetCallbacks env.first.setCallbacks s₁ with
        | error e' =>
          simp only [hset, Prod.mk.injEq] at h
          rw [← h.2, clearRuntimeIdentity_mqtt]
          exact hended₁
        | ok u =>
          -- The provisioning has a connection of its own, which it closes.
          cases hprovision : env.first.provision with
          | error e' =>
            simp only [hset, hprovision, Prod.mk.injEq] at h
            rw [← h.2]
            exact hcloses.first
          | ok u =>
            simp only [hset, hprovision] at h
            -- The second attempt starts from what the provisioning left.
            have hfirst : { env.first.left with core := s₁.core }.mqtt.Ended := hcloses.first
            exact runtimeConnect_ended hfirst hcloses.again h

/-- A connected core has a live session, or one that has ended. -/
def AwsSession.Inv (config : AwsConfig) (s : AwsSession) : Prop :=
  s.Connected → if s.mqtt.running then Live config s else s.mqtt.state = .disconnected

/-- Neither the state of the client nor the one of the core counts. -/
-- The same handle is borrowed, so the key is still open.
theorem Live.frame {s' : AwsSession} (h : Live config s) (hctx : s'.ctx = s.ctx)
    (hcert : s'.clientCert = s.clientCert) (hslot : s'.runtimeKey = s.runtimeKey)
    (hkey : s'.clientKey = s.clientKey) (htls : s'.mqtt.tlsKey = s.mqtt.tlsKey)
    (hopen : s'.openKeys = s.openKeys) (hnext : s.nextKey ≤ s'.nextKey) : Live config s' := by
  obtain ⟨handle, hclient, hborrowed, hmem, hlt⟩ := h.key
  refine ⟨?_, ?_, ?_, hslot.trans h.runtimeKey, handle, ?_, ?_, ?_, ?_⟩
  · rw [hctx]
    exact h.name
  · rw [hctx]
    exact h.valid
  · rw [hctx, hcert]
    exact h.cert
  · rw [hkey, hclient]
  · rw [htls, hborrowed]
  · rw [hopen]
    exact hmem
  · omega

/-- A live session stays so when its client moves, and one that has ended does not come back. -/
theorem AwsSession.Inv.move (h : s.Inv config) {state : Mqtt.MqttState} {running : Bool}
    {task : Option ℕ} {core : Core.CoreState}
    (hcore : core = .unregistered ∨ core = .registered → s.Connected) :
    AwsSession.Inv config
      { s with mqtt := s.mqtt.move state running, mqttProcessTask := task, core := core } := by
  intro hc
  have hold := h (hcore hc)
  -- A running loop may move the state or end; one that has ended does neither.
  unfold MqttView.move
  cases hrunning : s.mqtt.running with
  | false =>
    rw [hrunning] at hold
    simp only [if_true, hrunning]
    exact hold
  | true =>
    rw [hrunning] at hold
    cases running with
    | false => exact rfl
    | true =>
      simp only [Bool.true_eq_false, if_false, if_true]
      exact Live.frame hold rfl rfl rfl rfl rfl rfl (Nat.le_refl _)

/-- What a connect makes of a core that is not connected, or whose session has ended. -/
theorem coreOpsConnect_inv (env : ConnectEnv)
    (hfails : ∀ e s', actrustCloudAwsConnect config env s = (.error e, s') → s'.Inv config)
    (hleaves : ¬s.Connected ∨ env.left.1.Ended) : (coreOpsConnect config env s).2.Inv config := by
  have hcore := @awsConnect_core config env s
  unfold coreOpsConnect
  cases hcloud : actrustCloudAwsConnect config env s with
  | mk result s₁ =>
    rw [hcloud] at hcore
    -- The cloud's connect and the core's: the second cleans up behind the first.
    cases result with
    | error e => exact hfails e s₁ hcloud
    | ok u =>
      obtain ⟨hlive, hrunning⟩ := awsConnect_live hcloud
      cases env.core with
      | error e =>
        intro hc
        rcases hleaves with hno | hended
        · refine absurd ?_ hno
          unfold AwsSession.Connected at hc ⊢
          rwa [show s.core = s₁.core from hcore.symm]
        · show if env.left.1.running then _ else env.left.1.state = _
          rw [hended.2]
          exact hended.1
      | ok registered =>
        intro _
        show if s₁.mqtt.running then _ else _
        rw [hrunning]
        exact hlive.frame rfl rfl rfl rfl rfl rfl (Nat.le_refl _)

/-- A CONNECT keeps the invariant, under its condition. -/
theorem AwsSession.Inv.connect (h : s.Inv config) (env : ConnectEnv)
    (hquiet : Undisturbing s (.connect env)) : (coreOpsConnect config env s).2.Inv config := by
  by_cases hconnected : s.Connected
  · have hcond := hquiet hconnected
    have hold := h hconnected
    cases hrunning : s.mqtt.running with
    | true =>
      rw [hrunning] at hcond hold
      obtain ⟨e, n, hrun, he, hn⟩ := Live.givesUp hold hcond
      rw [coreOpsConnect_error hrun he]
      intro _
      show if s.mqtt.running then _ else _
      rw [hrunning]
      exact Live.frame hold rfl rfl rfl rfl rfl rfl hn
    | false =>
      -- there is nothing to disturb, and what fails is closed again
      rw [hrunning] at hcond hold
      refine coreOpsConnect_inv env (fun e s' hfail _ => ?_) (.inr (ConnectEnv.Closes.core hcond))
      have hended := awsConnect_ended ⟨hold, hrunning⟩ hcond hfail
      rw [hended.2]
      exact hended.1
  · refine coreOpsConnect_inv env (fun e s' hfail hc => absurd ?_ hconnected) (.inl hconnected)
    have hcore := @awsConnect_core config env s
    rw [hfail] at hcore
    unfold AwsSession.Connected at hc ⊢
    rwa [show s.core = s'.core from hcore.symm]

/-- Every step keeps the invariant, under its condition. -/
theorem AwsSession.Inv.step (config : AwsConfig) (s : AwsSession) (a : SessionAction)
    (h : s.Inv config) (hquiet : Undisturbing s a) : (s.step config a).2.Inv config := by
  cases a with
  | connect env => exact h.connect env hquiet
  | disconnect result left =>
    refine h.move fun hc => ?_
    -- a disconnect that succeeds leaves a core that is not connected
    cases result with
    | ok u => rcases hc with hc | hc <;> cases hc
    | error e => exact hc
  | registered =>
    unfold AwsSession.step
    dsimp only
    split_ifs with hcore
    · intro _
      have hold := h (Or.inl hcore)
      show if s.mqtt.running then _ else s.mqtt.state = _
      split_ifs at hold ⊢
      · exact hold.frame rfl rfl rfl rfl rfl rfl (Nat.le_refl _)
      · exact hold
    · exact h
  | mqtt state running => exact h.move id

/-- An established session is live, and its process loop runs. -/
theorem AwsSession.Inv.established (h : s.Inv config) (hs : s.Established) :
    s.mqtt.running = true ∧ Live config s := by
  have hold := h hs.1
  split_ifs at hold with hrunning
  · exact ⟨hrunning, hold⟩
  · cases hs.2.symm.trans hold

/-- A connect that gives up leaves an established session alone. -/
theorem AwsSession.Inv.leavesIntact (h : s.Inv config) {a : SessionAction}
    (hquiet : Undisturbing s a) : LeavesIntact config s a := by
  cases a with
  | connect env =>
    intro hs
    obtain ⟨hrunning, hlive⟩ := h.established hs
    have hgives := hquiet hs.1
    rw [hrunning] at hgives
    exact (hlive.leavesIntact_iff hs env).mpr hgives hs
  | _ => trivial

end

section

variable {config : AwsConfig} {ctx : AwsContext} {runtimeKey : Bool}
  {actions : List SessionAction}

/-- **A redundant connect**: in every run in which each CONNECT gives up that finds a session
connected or reconnecting, no CONNECT disturbs an established session; and in a session established
by such a run, a further CONNECT leaves it alone if and only if it gives up. -/
theorem connect_undisturbing_iff
    (h : Meets (AwsSession.step config) Undisturbing actions (.start ctx runtimeKey)) :
    Meets (AwsSession.step config) (LeavesIntact config) actions (.start ctx runtimeKey) ∧
      ((run (AwsSession.step config) actions (.start ctx runtimeKey)).2.Established →
        ∀ env, LeavesIntact config
            (run (AwsSession.step config) actions (.start ctx runtimeKey)).2 (.connect env) ↔
          env.runtime.GivesUp) := by
  have hstart : AwsSession.Inv config (.start ctx runtimeKey) := fun hc => by
    rcases hc with hc | hc <;> cases hc
  have hinv := run_invariant (AwsSession.Inv.step config) hstart h
  refine ⟨?_, fun hs env => (hinv.established hs).2.leavesIntact_iff hs env⟩
  exact Meets.of_invariant (AwsSession.Inv.step config) (fun _ _ hs => hs.leavesIntact) hstart h

end

/-! A device that has been provisioned connects twice. -/

/-- The configuration of the example. -/
def awsConfig : AwsConfig := ⟨"p", "t"⟩

/-- The identity of a device that has been provisioned. -/
def provisionedContext : AwsContext :=
  ⟨.finish, 0, [], 0, [], 0, Json.text "device", some (Json.text "cert"),
    some (Json.text "p-device")⟩

/-- Every call succeeds; the first one is the one to the KV store. -/
def runtimeEnv (kvOpen : Except Err Unit) : RuntimeEnv :=
  ⟨kvOpen, .ok (), .ok (), .ok (), .ok (), .ok (), .ok (),
    ⟨.ok (), .ok (), ⟨.ok (), .ok (), .ok (), .ok (), .ok (), .ok (), false⟩⟩,
    .ok (), .ok 0, .ok (), .ok (), (⟨.disconnected, none, false⟩, none)⟩

/-- The same for `core_ops_connect`; a cleanup leaves the connection DISCONNECTED. -/
def connectEnv (kvOpen : Except Err Unit) : ConnectEnv :=
  ⟨runtimeEnv kvOpen,
    ⟨.ok (), .ok (), { AwsSession.start provisionedContext true with mqtt := ⟨.disconnected, none, false⟩ },
      (runtimeEnv kvOpen).clear⟩,
    runtimeEnv kvOpen, .ok false, (⟨.disconnected, none, false⟩, none)⟩

/-- Two jobs, of which the second one finds the KV store busy; and one more when the process loop has
ended. -/
def busyRun : List SessionAction :=
  [.connect (connectEnv (.ok ())), .connect (connectEnv (.error ⟨.kv, .busy⟩)),
    .mqtt .disconnected false, .connect (connectEnv (.ok ()))]

/-- The run, and that the condition is exact behind it. -/
theorem connect_undisturbing_busy :
    (run (AwsSession.step awsConfig) busyRun (.start provisionedContext true)).2.Established ∧
    Meets (AwsSession.step awsConfig) (LeavesIntact awsConfig) busyRun
        (.start provisionedContext true) ∧
      ∀ env, LeavesIntact awsConfig
          (run (AwsSession.step awsConfig) busyRun (.start provisionedContext true)).2
          (.connect env) ↔ env.runtime.GivesUp := by
  have hready : ¬ (AwsSession.start provisionedContext true).Connected := by
    rintro (hc | hc) <;> cases hc
  have hbusy : (connectEnv (.error ⟨.kv, .busy⟩)).runtime.GivesUp := fun he => by cases he
  have hcloses : (connectEnv (.ok ())).Closes := ⟨⟨rfl, rfl⟩, ⟨rfl, rfl⟩, ⟨rfl, rfl⟩, ⟨rfl, rfl⟩⟩
  have hs : (run (AwsSession.step awsConfig) busyRun
      (.start provisionedContext true)).2.Established :=
    ⟨Or.inl (by decide +kernel), by decide +kernel⟩
  have hsecond : (run (AwsSession.step awsConfig) (busyRun.take 1)
      (.start provisionedContext true)).2.mqtt.running = true := by decide +kernel
  have hlast : (run (AwsSession.step awsConfig) (busyRun.take 3)
      (.start provisionedContext true)).2.mqtt.running = false := by decide +kernel
  obtain ⟨hmeets, hiff⟩ := @connect_undisturbing_iff awsConfig provisionedContext true busyRun
    ⟨fun hc => absurd hc hready, fun _ => (if_pos hsecond).mpr hbusy, trivial,
      fun _ => (if_neg (Bool.eq_false_iff.mp hlast)).mpr hcloses, trivial⟩
  exact ⟨hs, hmeets, hiff hs⟩

/-- The second job finds everything as it should be, and replaces the key. -/
theorem not_connect_undisturbing :
    ¬ ∀ (config : AwsConfig) (ctx : AwsContext) (runtimeKey : Bool) (actions : List SessionAction),
        Meets (AwsSession.step config) (LeavesIntact config) actions (.start ctx runtimeKey) := by
  intro h
  have hmeets := h awsConfig provisionedContext true
    [.connect (connectEnv (.ok ())), .connect (connectEnv (.ok ()))]
  obtain ⟨-, hkeeps⟩ := hmeets.2.1 ⟨Or.inl (by decide +kernel), by decide +kernel⟩
  exact absurd hkeeps.clientKey (by decide +kernel)

end TrustSdk.Cloud
