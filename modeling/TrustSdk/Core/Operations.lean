import TrustSdk.Core.Registration

/-!
# The operations of the core

What `core_ops.c` does for a job, over the contexts of the core and the tasks of its session. What
the lower layers answer is up to the environment. An operation returns its result and the state that
it sets last; `core_ops_connect` and `core_ops_disconnect` set one only when they succeed.
-/

namespace TrustSdk.Core.Service

/-! ### The contexts and the operations -/

/-- The NTP task or the downlink task: its handle, and the semaphore that stops it. -/
structure CoreWorker where
  task : Bool
  stopSem : Bool
  deriving DecidableEq

/-- Where the MQTT client is with its connection. -/
inductive MqttLink where
  | disconnected
  /-- The connection is lost, and the process loop is about to open another: WAITING_RECONNECT, or
  CONNECTING. -/
  | reconnecting
  | connected
  deriving DecidableEq

/-- What the MQTT client does by itself. -/
inductive MqttEvent where
  /-- The connection is lost, and the process loop goes on. -/
  | lost
  /-- The process loop has opened another. -/
  | reconnected
  /-- The process loop ends: no reconnect is left, or the status is a fatal one. -/
  | ended
  deriving DecidableEq

/-- Only a client that is CONNECTED loses its connection, and only one that has lost it reconnects.
A process loop that ends leaves the client DISCONNECTED. -/
def MqttLink.after : MqttEvent → MqttLink → MqttLink
  | .lost, .connected => .reconnecting
  | .reconnected, .reconnecting => .connected
  | .ended, _ => .disconnected
  | _, link => link

/-- What the operations work on: which contexts and tasks there are, and where the MQTT client is. -/
structure CoreContexts where
  crypto : Bool
  signKey : Bool
  ntp : Bool
  /-- `closing` of the NTP client: a deinit of it has failed, and none will be let in again. -/
  ntpClosing : Bool
  cloud : Bool
  ntpTask : CoreWorker
  downlinkTask : CoreWorker
  mqtt : MqttLink
  deriving DecidableEq

/-- What an operation returns, and the state that it sets last. -/
structure OpsResult where
  result : Except Err Unit
  state : Option CoreState
  contexts : CoreContexts

/-- What `core_worker_start` meets. -/
structure StartEnv where
  semCreate : Except Err Unit
  taskCreate : Except Err Unit

/-- What `core_worker_stop` meets. -/
structure StopEnv where
  join : Except Err Unit
  semDestroy : Except Err Unit

/-- `core_ntp_start` and `core_downlink_start`. -/
def coreWorkerStart (env : StartEnv) (w : CoreWorker) : Except Err Unit × CoreWorker :=
  match env.semCreate, env.taskCreate with
  | .error e, _ => (.error e, w)
  | .ok _, .error e => (.error e, { w with stopSem := false })
  | .ok _, .ok _ => (.ok (), ⟨true, true⟩)

/-- `core_ntp_stop` and `core_downlink_stop`. -/
def coreWorkerStop (env : StopEnv) (w : CoreWorker) : Except Err Unit × CoreWorker :=
  match w.task, env.join with
  | true, .error e => (.error e, w)
  | _, _ =>
    match w.stopSem, env.semDestroy with
    | true, .error e => (.error e, { w with task := false })
    | _, _ => (.ok (), ⟨false, false⟩)

/-- What the calls of `core_ops_init` answer. -/
structure InitEnv where
  kvInit : Except Err Unit
  cryptoInit : Except Err Unit
  readRegistered : Except Err Bool
  ntpInit : Except Err Unit
  cloudInit : Except Err Unit
  keyOpen : Except Err Unit
  keyMigrate : Except Err Unit
  migratedOpen : Except Err Unit
  storeClaim : Except Err Unit
  keyClose : Except Err Unit
  cryptoDeinit : Except Err Unit

/-- `core_prepare_signing_key`. -/
def corePrepareSigningKey (env : InitEnv) (registered : Bool) (x : CoreContexts) :
    Except Err Unit × CoreContexts :=
  match env.keyOpen with
  | .ok _ => (.ok (), { x with signKey := true })
  | .error e =>
    if registered = false then (.ok (), x)
    else if e.code ≠ .noResource then (.error e, x)
    else
      match env.keyMigrate, env.migratedOpen with
      | .error e, _ => (.error e, x)
      | .ok _, .error e => (.error e, x)
      | .ok _, .ok _ => (.ok (), { x with signKey := true })

/-- `fail_crypto` of `core_ops_init`. -/
def initFailCrypto (env : InitEnv) (x : CoreContexts) (e : Err) : OpsResult :=
  match x.signKey, env.keyClose with
  | true, .error _ => ⟨.error e, some .initFailed, x⟩
  | _, _ =>
    match env.cryptoDeinit with
    | .error _ => ⟨.error e, some .initFailed, { x with signKey := false }⟩
    | .ok _ => ⟨.error e, some .initFailed, { x with signKey := false, crypto := false }⟩

/-- `fail_cloud` of `core_ops_init`. -/
def initFailCloud (env : InitEnv) (x : CoreContexts) (e : Err) : OpsResult :=
  initFailCrypto env { x with cloud := false, ntp := false } e

/-- In `core_ops_init`, what follows `core_read_local_registered`. -/
def initContexts (env : InitEnv) (registered : Bool) (x : CoreContexts) : OpsResult :=
  match env.ntpInit, env.cloudInit with
  | .error e, _ => initFailCrypto env x e
  | .ok _, .error e => initFailCrypto env { x with ntp := false } e
  | .ok _, .ok _ =>
    match corePrepareSigningKey env registered { x with ntp := true, cloud := true } with
    | (.error e, x) => initFailCloud env x e
    | (.ok _, x) =>
      match env.storeClaim with
      | .error e => initFailCloud env x e
      | .ok _ => ⟨.ok (), some .ready, x⟩

/-- `core_ops_init`: the stores first, then the record of the registration, then the contexts. -/
def coreOpsInit (env : InitEnv) (x : CoreContexts) : OpsResult :=
  match env.kvInit, env.cryptoInit with
  | .error e, _ => ⟨.error e, some .initFailed, x⟩
  | .ok _, .error e => ⟨.error e, some .initFailed, x⟩
  | .ok _, .ok _ =>
    match env.readRegistered with
    | .ok registered => initContexts env registered { x with crypto := true }
    | .error e =>
      if e.code ≠ .noResource then initFailCrypto env { x with crypto := true } e
      else initContexts env false { x with crypto := true }

/-- What is behind a call of the cloud client: its answers, and where a call that fails leaves the
MQTT client. -/
structure CloudEnv where
  answer : Except Err Unit
  left : MqttLink

/-- `actrust_cloud_connect`; a failure leaves the MQTT client where `left` says. -/
def actrustCloudConnect (env : CloudEnv) (x : CoreContexts) : Except Err Unit × CoreContexts :=
  if x.cloud = false then (.error ⟨.cloud, .invalidArg⟩, x)
  else
    match env.answer with
    | .error _ => (.error ⟨.cloud, .cloudStartFailed⟩, { x with mqtt := env.left })
    | .ok _ => (.ok (), { x with mqtt := .connected })

/-- `actrust_mqtt_disconnect` refuses a client that is not CONNECTED; the process loop is told to stop
all the same, so a client that is about to reconnect may be DISCONNECTED behind it. -/
def actrustCloudDisconnect (env : CloudEnv) (x : CoreContexts) : Except Err Unit × CoreContexts :=
  if x.cloud = false then (.error ⟨.cloud, .invalidArg⟩, x)
  else
    match x.mqtt, env.answer with
    | .disconnected, _ => (.error ⟨.cloud, .cloudStopFailed⟩, x)
    | .reconnecting, _ => (.error ⟨.cloud, .cloudStopFailed⟩, { x with mqtt := env.left })
    | .connected, .error _ => (.error ⟨.cloud, .cloudStopFailed⟩, { x with mqtt := env.left })
    | .connected, .ok _ => (.ok (), { x with mqtt := .disconnected })

/-- The end of a session: of `core_ops_disconnect`, and of a connect that has failed. -/
structure LeaveEnv where
  ntpStop : StopEnv
  downlinkStop : StopEnv
  disconnect : CloudEnv

/-- What the calls of `core_ops_connect` answer. -/
structure ConnectEnv where
  connect : CloudEnv
  ntpStart : StartEnv
  readRegistered : Except Err Bool
  downlinkStart : StartEnv
  cleanup : LeaveEnv

/-- `core_ops_disconnect` up to its result; every call is made, and the first error is kept. -/
def coreLeaveSession (env : LeaveEnv) (x : CoreContexts) : Except Err Unit × CoreContexts :=
  let ntp := coreWorkerStop env.ntpStop x.ntpTask
  let downlink := coreWorkerStop env.downlinkStop x.downlinkTask
  let cloud :=
    actrustCloudDisconnect env.disconnect
      { x with ntpTask := ntp.2, downlinkTask := downlink.2 }
  (ntp.1 *> downlink.1 *> cloud.1, cloud.2)

/-- The cleanup of `core_ops_connect`, which calls the same, and drops the errors. -/
def connectCleanup (env : ConnectEnv) (x : CoreContexts) (e : Err) : OpsResult :=
  ⟨.error e, none, (coreLeaveSession env.cleanup x).2⟩

/-- The end of `core_ops_connect`: where a registered device needs its key. -/
def connectRegistered (env : ConnectEnv) (registered : Bool) (x : CoreContexts) : OpsResult :=
  if registered = true ∧ x.signKey = true then ⟨.ok (), some .registered, x⟩
  else if registered = true then connectCleanup env x (coreErr .unsupported)
  else ⟨.ok (), some .unregistered, x⟩

/-- The state is not looked at again. -/
def coreOpsConnect (env : ConnectEnv) (x : CoreContexts) : OpsResult :=
  match actrustCloudConnect env.connect x with
  | (.error e, x) => ⟨.error e, none, x⟩
  | (.ok _, x) =>
    match coreWorkerStart env.ntpStart x.ntpTask with
    | (.error e, ntpTask) => connectCleanup env { x with ntpTask } e
    | (.ok _, ntpTask) =>
      match env.readRegistered with
      | .error e => connectCleanup env { x with ntpTask } e
      | .ok registered =>
        match coreWorkerStart env.downlinkStart x.downlinkTask with
        | (.error e, downlinkTask) => connectCleanup env { x with ntpTask, downlinkTask } e
        | (.ok _, downlinkTask) =>
          connectRegistered env registered { x with ntpTask, downlinkTask }

/-- `core_ops_disconnect`. -/
def coreOpsDisconnect (env : LeaveEnv) (x : CoreContexts) : OpsResult :=
  match coreLeaveSession env x with
  | (.error e, x) => ⟨.error e, none, x⟩
  | (.ok _, x) => ⟨.ok (), some .ready, x⟩

/-- What the calls of `core_ops_register` answer. -/
structure RegisterEnv where
  /-- `core_ops_do_register`, and whether the signing key is open behind it. -/
  register : Except Err Unit
  signKey : Bool
  /-- `core_persist_registered`. -/
  persist : Except Err Unit

/-- `core_ops_register` behind its check of the state. -/
def coreOpsRegister (env : RegisterEnv) (x : CoreContexts) : OpsResult :=
  let x := { x with signKey := env.signKey }
  match env.register, env.persist with
  | .error e, _ => ⟨.error e, none, x⟩
  | .ok _, .error e => ⟨.error e, none, x⟩
  | .ok _, .ok _ => ⟨.ok (), some .registered, x⟩

/-- What the calls of `core_ops_deinit` answer. -/
structure DeinitOpEnv where
  ntpStop : StopEnv
  downlinkStop : StopEnv
  keyClose : Except Err Unit
  cloudDeinit : Except Err Unit
  ntpDeinit : Except Err Unit
  cryptoDeinit : Except Err Unit

/-- In `core_ops_deinit`, a context that is there is released. -/
def coreRelease (there : Bool) (answer : Except Err Unit) : Except Err Unit :=
  if there then answer else .ok ()

/-- `actrust_ntp_deinit`: an earlier one that has failed has left `closing` set. -/
def actrustNtpDeinit (answer : Except Err Unit) (x : CoreContexts) : Except Err Unit :=
  if x.ntpClosing then .error ⟨.ntp, .badState⟩ else answer

/-- `core_ops_deinit`; a failure leaves what is not released yet for the next attempt. -/
def coreOpsDeinit (env : DeinitOpEnv) (x : CoreContexts) : OpsResult :=
  match coreWorkerStop env.ntpStop x.ntpTask with
  | (.error e, ntpTask) => ⟨.error e, some .deinit, { x with ntpTask }⟩
  | (.ok _, ntpTask) =>
    match coreWorkerStop env.downlinkStop x.downlinkTask with
    | (.error e, downlinkTask) => ⟨.error e, some .deinit, { x with ntpTask, downlinkTask }⟩
    | (.ok _, downlinkTask) =>
      let x := { x with ntpTask, downlinkTask }
      match coreRelease x.signKey env.keyClose with
      | .error e => ⟨.error e, some .deinit, x⟩
      | .ok _ =>
        let x := { x with signKey := false }
        match coreRelease x.cloud env.cloudDeinit with
        | .error e => ⟨.error e, some .deinit, x⟩
        | .ok _ =>
          let x := { x with cloud := false, mqtt := .disconnected }
          match coreRelease x.ntp (actrustNtpDeinit env.ntpDeinit x) with
          | .error e => ⟨.error e, some .deinit, { x with ntpClosing := true }⟩
          | .ok _ =>
            let x := { x with ntp := false }
            match coreRelease x.crypto env.cryptoDeinit with
            | .error e => ⟨.error e, some .deinit, x⟩
            | .ok _ => ⟨.ok (), some .deinit, { x with crypto := false }⟩

/-! ### The states that they set -/

section States

variable (x : CoreContexts)

/-- A failed init leaves INIT_FAILED. -/
theorem initFailCrypto_state (env : InitEnv) (e : Err) :
    (initFailCrypto env x e).state = some .initFailed := by
  unfold initFailCrypto
  split
  · rfl
  · split <;> rfl

/-- INIT leads to READY or to INIT_FAILED. -/
theorem coreOpsInit_state (env : InitEnv) :
    (coreOpsInit env x).state = some .ready ∨ (coreOpsInit env x).state = some .initFailed := by
  have hcontexts : ∀ registered x, (initContexts env registered x).state = some .ready ∨
      (initContexts env registered x).state = some .initFailed := by
    intro registered x
    unfold initContexts
    split
    · exact .inr (initFailCrypto_state _ env _)
    · exact .inr (initFailCrypto_state _ env _)
    · split
      · exact .inr (initFailCrypto_state _ env _)
      · split
        · exact .inr (initFailCrypto_state _ env _)
        · exact .inl rfl
  -- Whatever fails on the way ends in `initFailCrypto`, or before the stores are open.
  unfold coreOpsInit
  split
  · exact .inr rfl
  · exact .inr rfl
  · split
    · exact hcontexts _ _
    · split_ifs
      · exact .inr (initFailCrypto_state _ env _)
      · exact hcontexts _ _

/-- CONNECT leads to one of the session's states, or leaves the state alone. -/
theorem coreOpsConnect_state (env : ConnectEnv) :
    (coreOpsConnect env x).state = none ∨ (coreOpsConnect env x).state = some .registered ∨
      (coreOpsConnect env x).state = some .unregistered := by
  -- Each failing section leaves the state to the caller.
  unfold coreOpsConnect
  split
  · exact .inl rfl
  · split
    · exact .inl rfl
    · split
      · exact .inl rfl
      · split
        · exact .inl rfl
        · unfold connectRegistered
          split_ifs
          · exact .inr (.inl rfl)
          · exact .inl rfl
          · exact .inr (.inr rfl)

/-- A client that is DISCONNECTED stays so; only one that is CONNECTED is disconnected. -/
theorem actrustCloudDisconnect_mqtt (env : CloudEnv) :
    (x.mqtt = .disconnected → (actrustCloudDisconnect env x).2.mqtt = .disconnected) ∧
      ((actrustCloudDisconnect env x).1 = .ok () →
        x.mqtt = .connected ∧ (actrustCloudDisconnect env x).2.mqtt = .disconnected) := by
  obtain ⟨crypto, signKey, ntp, ntpClosing, cloud, ntpTask, downlinkTask, mqtt⟩ := x
  obtain ⟨answer, left⟩ := env
  -- The cloud is asked only while it is connected; otherwise BAD_STATE.
  unfold actrustCloudDisconnect
  split_ifs
  · exact ⟨id, by rintro ⟨⟩⟩
  · cases mqtt with
    | disconnected => exact ⟨id, by rintro ⟨⟩⟩
    | reconnecting => exact ⟨by rintro ⟨⟩, by rintro ⟨⟩⟩
    | connected =>
      cases answer with
      | error e => exact ⟨by rintro ⟨⟩, by rintro ⟨⟩⟩
      | ok _ => exact ⟨by rintro ⟨⟩, fun _ => ⟨rfl, rfl⟩⟩

/-- The first error is kept. -/
theorem and_then_ok {a b : Except Err Unit} (h : (a *> b) = .ok ()) : a = .ok () ∧ b = .ok () := by
  cases a with
  | error e => cases h
  | ok _ => exact ⟨rfl, h⟩

/-- DISCONNECT leads to READY, and then the client has been disconnected. -/
theorem coreOpsDisconnect_state (env : LeaveEnv) :
    (coreOpsDisconnect env x).state = none ∧
        (x.mqtt = .disconnected → (coreOpsDisconnect env x).contexts.mqtt = .disconnected) ∨
      (coreOpsDisconnect env x).state = some .ready ∧ x.mqtt = .connected ∧
        (coreOpsDisconnect env x).contexts.mqtt = .disconnected := by
  -- The workers are stopped first, which leaves the client alone.
  have hmqtt := actrustCloudDisconnect_mqtt
    { x with
      ntpTask := (coreWorkerStop env.ntpStop x.ntpTask).2
      downlinkTask := (coreWorkerStop env.downlinkStop x.downlinkTask).2 } env.disconnect
  have hleave : (coreLeaveSession env x).1 = .ok () →
      x.mqtt = .connected ∧ (coreLeaveSession env x).2.mqtt = .disconnected :=
    fun hok => hmqtt.2 (and_then_ok hok).2
  have hfalse : x.mqtt = .disconnected → (coreLeaveSession env x).2.mqtt = .disconnected := hmqtt.1
  unfold coreOpsDisconnect
  generalize coreLeaveSession env x = out at hleave hfalse
  obtain ⟨_ | _, x'⟩ := out
  · exact .inl ⟨rfl, hfalse⟩
  · exact .inr ⟨rfl, hleave rfl⟩

/-- REGISTER leads to REGISTERED or leaves the state alone, and the client with it. -/
theorem coreOpsRegister_state (env : RegisterEnv) :
    ((coreOpsRegister env x).state = none ∨ (coreOpsRegister env x).state = some .registered) ∧
      (coreOpsRegister env x).contexts.mqtt = x.mqtt := by
  unfold coreOpsRegister
  dsimp only
  split
  · exact ⟨.inl rfl, rfl⟩
  · exact ⟨.inl rfl, rfl⟩
  · exact ⟨.inr rfl, rfl⟩

/-- DEINIT leads to DEINIT, whether it succeeds or not. -/
theorem coreOpsDeinit_state (env : DeinitOpEnv) :
    (coreOpsDeinit env x).state = some .deinit ∧
      (x.mqtt = .disconnected → (coreOpsDeinit env x).contexts.mqtt = .disconnected) := by
  -- By the sections of the source; each failing one leaves the rest of the contexts.
  unfold coreOpsDeinit
  split
  · exact ⟨rfl, id⟩
  · split
    · exact ⟨rfl, id⟩
    · dsimp only
      split
      · exact ⟨rfl, id⟩
      · split
        · exact ⟨rfl, id⟩
        · split
          · exact ⟨rfl, fun _ => rfl⟩
          · split
            · exact ⟨rfl, fun _ => rfl⟩
            · exact ⟨rfl, fun _ => rfl⟩

end States

/-! ### The contexts that they leave -/

/-- The contexts that a job works with are initialised. -/
structure CoreContexts.Live (x : CoreContexts) : Prop where
  crypto : x.crypto = true
  ntp : x.ntp = true
  cloud : x.cloud = true

section Live

variable {x : CoreContexts}

/-- Preparing the signing key leaves the contexts as they are. -/
theorem corePrepareSigningKey_live (env : InitEnv) (registered : Bool) (h : x.Live) :
    (corePrepareSigningKey env registered x).2.Live := by
  have hkey : CoreContexts.Live { x with signKey := true } := { h with }
  unfold corePrepareSigningKey
  split
  · exact hkey
  · split_ifs
    · exact h
    · exact h
    · split
      · exact h
      · exact h
      · exact hkey

/-- READY is set behind the last of the contexts. -/
theorem coreOpsInit_live (env : InitEnv) (hready : (coreOpsInit env x).state = some .ready) :
    (coreOpsInit env x).contexts.Live := by
  -- A failing init does not reach READY, so only the path through all calls is left.
  have hfail : ∀ x e, (initFailCrypto env x e).state ≠ some .ready := by
    intro x e he
    rw [initFailCrypto_state] at he
    cases he
  have hcontexts : ∀ registered x, x.crypto = true →
      (initContexts env registered x).state = some .ready →
      (initContexts env registered x).contexts.Live := by
    -- The contexts that are made first stay through the key and the claim.
    intro registered x hcrypto hready
    unfold initContexts at hready ⊢
    split at hready
    · exact absurd hready (hfail _ _)
    · exact absurd hready (hfail _ _)
    · have hlive := corePrepareSigningKey_live env registered
        (x := { x with ntp := true, cloud := true }) ⟨hcrypto, rfl, rfl⟩
      split at hready
      · exact absurd hready (hfail _ _)
      next x' hkey =>
        rw [hkey] at hlive
        split at hready
        · exact absurd hready (hfail _ _)
        · exact hlive
  unfold coreOpsInit at hready ⊢
  split at hready
  · cases hready
  · cases hready
  · split at hready
    · exact hcontexts _ _ rfl hready
    · split_ifs at hready ⊢
      · exact absurd hready (hfail _ _)
      · exact hcontexts _ _ rfl hready

/-- Leaving the session takes no context away. -/
theorem coreLeaveSession_live (env : LeaveEnv) (h : x.Live) : (coreLeaveSession env x).2.Live := by
  have hcloud : ∀ (x : CoreContexts) (env : CloudEnv), x.Live →
      (actrustCloudDisconnect env x).2.Live := by
    intro x env h
    unfold actrustCloudDisconnect
    split_ifs
    · exact h
    · split <;> exact { h with }
  exact hcloud _ _ { h with }

/-- Nor does CONNECT, however it ends. -/
theorem coreOpsConnect_live (env : ConnectEnv) (h : x.Live) :
    (coreOpsConnect env x).contexts.Live := by
  have hconnect : (actrustCloudConnect env.connect x).2.Live := by
    unfold actrustCloudConnect
    split_ifs
    · exact h
    · split <;> exact { h with }
  -- After a connect that succeeds, every section either goes on or leaves the session.
  unfold coreOpsConnect
  split
  next e x' hcall =>
    rw [hcall] at hconnect
    exact hconnect
  next x' hcall =>
    rw [hcall] at hconnect
    split
    · exact coreLeaveSession_live _ { hconnect with }
    · split
      · exact coreLeaveSession_live _ { hconnect with }
      · split
        · exact coreLeaveSession_live _ { hconnect with }
        · unfold connectRegistered
          split_ifs
          · exact { hconnect with }
          · exact coreLeaveSession_live _ { hconnect with }
          · exact { hconnect with }

/-- Nor does DISCONNECT. -/
theorem coreOpsDisconnect_live (env : LeaveEnv) (h : x.Live) :
    (coreOpsDisconnect env x).contexts.Live := by
  have hleave := coreLeaveSession_live env h
  unfold coreOpsDisconnect
  split
  next hcall =>
    rw [hcall] at hleave
    exact hleave
  next hcall =>
    rw [hcall] at hleave
    exact hleave

/-- Nor does REGISTER. -/
theorem coreOpsRegister_live (env : RegisterEnv) (h : x.Live) :
    (coreOpsRegister env x).contexts.Live := by
  unfold coreOpsRegister
  dsimp only
  split <;> exact { h with }

end Live

end TrustSdk.Core.Service
