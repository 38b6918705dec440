import TrustSdk.Json.View
import TrustSdk.Lib.Machine

/-!
# Fleet provisioning

`actrust_cloud_aws_first_connect` runs on the service thread: twice, it publishes a request and
waits for the answer, once for a certificate and once for the registration of the thing. The
answers arrive in `actrust_cloud_aws_registration_callback`, on the thread of the MQTT process
loop. The two share the registration phase, under a mutex, and a semaphore.

* `actrustCloudAwsRegistrationCallback` — what the callback does with a message, up to the phase
  that it writes in the end;
* `ServicePc.step` — one step of the service thread, from the first request on;
* `Provisioning.step` — one step of either thread, or time goes by, in any order.

`actrust_cloud_aws_set_registration_phase` is two steps of its thread: the phase is written under
the mutex, and then the semaphore is posted. What the lower layers answer (keys, the certificate
store, the KV store, the JSON builder, MQTT) is up to the environment.
-/

namespace TrustSdk.Cloud

open Json

/-- An error of the cloud layer. -/
def cloudErr (code : ErrCode) : Err := ⟨.cloud, code⟩

/-- `CLOUD_AWS_CERT_PEM_MAX_LEN`. -/
def cloudAwsCertPemMaxLen : ℕ := 4096

/-- `CLOUD_AWS_OWNERSHIP_TOKEN_MAX_LEN`. -/
def cloudAwsOwnershipTokenMaxLen : ℕ := 2048

/-- `CLOUD_AWS_THING_NAME_MAX_LEN`. -/
def cloudAwsThingNameMaxLen : ℕ := 128

/-- `CLOUD_AWS_REGISTER_TIMEOUT_MS`. -/
def cloudAwsRegisterTimeoutMs : ℕ := 30000

/-- `actrust_cloud_aws_registration_phase_t`. -/
inductive RegistrationPhase where
  | requestCert
  | waitCsrResponse
  | csrAccepted
  | csrRejected
  | requestRegister
  | waitRegisterResponse
  | registerAccepted
  | registerRejected
  | finish
  deriving DecidableEq, Repr

/-- The settings of the build that provisioning reads. -/
structure AwsConfig where
  productKey : String
  templateName : String

/-- `actrust_cloud_aws_ctx_t`, as far as provisioning goes, with the certificate and the thing name
that outlive it. The semaphore is its count. -/
structure AwsContext where
  registrationPhase : RegistrationPhase
  phaseSem : ℕ
  /-- The buffer of the ownership token. -/
  ownershipToken : List UInt8
  ownershipTokenLen : ℕ
  /-- The buffer of the thing name. -/
  thingName : List UInt8
  thingNameLen : ℕ
  deviceName : List UInt8
  /-- What the security store holds under `ACTRUST_CLOUD_RUNTIME_CERT_ID`. -/
  runtimeCert : Option (List UInt8)
  /-- What the KV store holds under `CLOUD_AWS_THING_NAME_KV_KEY`. -/
  storedThingName : Option (List UInt8)
  deriving DecidableEq, Repr

/-- A text is copied to the front of a buffer, with its terminator. -/
def storeText (buffer text : List UInt8) : List UInt8 := text ++ 0 :: buffer.drop (text.length + 1)

/-! ### The callback -/

/-- An incoming message, and for each field whether there is memory to read its text. -/
structure AwsMessage where
  topic : List UInt8
  payload : List UInt8
  memory : String → Bool

/-- What the certificate store and the KV store answer. -/
structure AwsStores where
  certWrite : Except Err Unit
  certDelete : Except Err Unit
  kvOpen : Except Err Unit
  kvSet : Except Err Unit
  kvDel : Except Err Unit
  kvClose : Except Err Unit
  /-- A write or a deletion that fails has taken effect nevertheless. -/
  effective : Bool

/-- `CLOUD_AWS_CREATE_CERT_ACCEPTED_TOPIC`. -/
def createCertAcceptedTopic : List UInt8 := text "$aws/certificates/create-from-csr/json/accepted"

/-- `CLOUD_AWS_CREATE_CERT_REJECTED_TOPIC`. -/
def createCertRejectedTopic : List UInt8 := text "$aws/certificates/create-from-csr/json/rejected"

/-- `CLOUD_AWS_FLEET_PROVISION_ACCEPTED_TOPIC`, for the template. -/
def fleetProvisionAcceptedTopic (config : AwsConfig) : List UInt8 :=
  text ("$aws/provisioning-templates/" ++ config.templateName ++ "/provision/json/accepted")

/-- `CLOUD_AWS_FLEET_PROVISION_REJECTED_TOPIC`, for the template. -/
def fleetProvisionRejectedTopic (config : AwsConfig) : List UInt8 :=
  text ("$aws/provisioning-templates/" ++ config.templateName ++ "/provision/json/rejected")

/-- `actrust_cloud_aws_validate_thing_name`. -/
def actrustCloudAwsValidateThingName (config : AwsConfig) (ctx : AwsContext) : Except Err Unit :=
  let expected := text config.productKey ++ 45 :: ctx.deviceName
  if expected.length ≥ cloudAwsThingNameMaxLen then .error (cloudErr .bufTooSmall)
  else if expected.length = 0 ∨ ctx.thingNameLen = 0 ∨ ctx.thingNameLen ≠ expected.length ∨
      ctx.thingName.take expected.length ≠ expected then
    .error (cloudErr .badState)
  else .ok ()

section Handlers

variable (json : CoreJson) (stores : AwsStores)

/-- The last part of `actrust_cloud_aws_handle_csr_accepted`, behind the certificate. -/
def readOwnershipToken (ctx : AwsContext) (msg : AwsMessage) :
    AwsContext × Option RegistrationPhase :=
  match actrustJsonQuery json msg.payload "certificateOwnershipToken" with
  | .error _ => (ctx, none)
  | .ok value =>
    match actrustJsonGetString (msg.memory "certificateOwnershipToken") value
        cloudAwsOwnershipTokenMaxLen with
    | .failed _ => (ctx, none)
    | .tooLong n => ({ ctx with ownershipTokenLen := n }, none)
    | .stored token =>
      ({ ctx with
          ownershipToken := storeText ctx.ownershipToken token
          ownershipTokenLen := token.length },
        some .csrAccepted)

/-- `actrust_cloud_aws_handle_csr_accepted`: the certificate is stored before the token is read. -/
def handleCsrAccepted (ctx : AwsContext) (msg : AwsMessage) :
    AwsContext × Option RegistrationPhase :=
  match actrustJsonInit json msg.payload with
  | .error _ => (ctx, none)
  | .ok view =>
    match actrustJsonQuery json view "certificatePem" with
    | .error _ => (ctx, none)
    | .ok value =>
      match actrustJsonUnescapeString cloudAwsCertPemMaxLen value.value [] with
      | .error _ => (ctx, none)
      | .ok pem =>
        match stores.certWrite with
        | .error _ =>
          ({ ctx with runtimeCert := if stores.effective then some pem else ctx.runtimeCert }, none)
        | .ok _ => readOwnershipToken json { ctx with runtimeCert := some pem } msg

/-- The last part of `actrust_cloud_aws_handle_register_accepted`, behind the thing name. -/
def storeThingName (config : AwsConfig) (ctx : AwsContext) :
    AwsContext × Option RegistrationPhase :=
  match actrustCloudAwsValidateThingName config ctx with
  | .error _ => (ctx, some .registerRejected)
  | .ok _ =>
    let name := some (ctx.thingName.take ctx.thingNameLen)
    match stores.kvOpen, stores.kvSet, stores.kvClose with
    | .error _, _, _ => (ctx, none)
    | .ok _, .error _, _ =>
      ({ ctx with storedThingName := if stores.effective then name else ctx.storedThingName }, none)
    | .ok _, .ok _, closed =>
      ({ ctx with storedThingName := name },
        match closed with
        | .error _ => none
        | .ok _ => some .registerAccepted)

/-- `actrust_cloud_aws_handle_register_accepted`. -/
def handleRegisterAccepted (config : AwsConfig) (ctx : AwsContext) (msg : AwsMessage) :
    AwsContext × Option RegistrationPhase :=
  match actrustJsonInit json msg.payload with
  | .error _ => (ctx, none)
  | .ok view =>
    match actrustJsonQuery json view "thingName" with
    | .error _ => (ctx, none)
    | .ok value =>
      match actrustJsonGetString (msg.memory "thingName") value cloudAwsThingNameMaxLen with
      | .failed _ => (ctx, none)
      | .tooLong n => ({ ctx with thingNameLen := n }, none)
      | .stored name =>
        storeThingName stores config
          { ctx with thingName := storeText ctx.thingName name, thingNameLen := name.length }

/-- The phase that is written in the end is `none` when the handler gives up, or when the topic is
not one of the four. -/
def actrustCloudAwsRegistrationCallback (config : AwsConfig) (ctx : AwsContext)
    (msg : AwsMessage) : AwsContext × Option RegistrationPhase :=
  if msg.topic = createCertAcceptedTopic then handleCsrAccepted json stores ctx msg
  else if msg.topic = createCertRejectedTopic then (ctx, some .csrRejected)
  else if msg.topic = fleetProvisionAcceptedTopic config then
    handleRegisterAccepted json stores config ctx msg
  else if msg.topic = fleetProvisionRejectedTopic config then (ctx, some .registerRejected)
  else (ctx, none)

end Handlers

/-- The thread of the process loop: between two messages, before it writes the phase, and before
it posts the semaphore. -/
inductive CallbackPc where
  | idle
  | setting (phase : RegistrationPhase)
  | posting
  deriving DecidableEq, Repr

/-! ### The service thread -/

/-- The two requests. -/
inductive AwsRound where
  | csr
  | register
  deriving DecidableEq, Repr

/-- The phase of the request. -/
def AwsRound.requestPhase : AwsRound → RegistrationPhase
  | .csr => .requestCert
  | .register => .requestRegister

/-- The phase in which the answer is waited for. -/
def AwsRound.waitPhase : AwsRound → RegistrationPhase
  | .csr => .waitCsrResponse
  | .register => .waitRegisterResponse

/-- The phase of an accepted request. -/
def AwsRound.acceptedPhase : AwsRound → RegistrationPhase
  | .csr => .csrAccepted
  | .register => .registerAccepted

/-- The phase of a rejected request. -/
def AwsRound.rejectedPhase : AwsRound → RegistrationPhase
  | .csr => .csrRejected
  | .register => .registerRejected

/-- `actrust_cloud_aws_first_connect`, from the first request on. -/
inductive ServicePc where
  | requesting (round : AwsRound)
  | requested (round : AwsRound)
  /-- In `actrust_cloud_aws_request_cert` or `actrust_cloud_aws_request_register`, -/
  | preparing (round : AwsRound)
  /-- and there in `actrust_mqtt_publish`. -/
  | publishing (round : AwsRound)
  /-- In `actrust_cloud_aws_wait_registration_phase`, before the clock is read, -/
  | published (round : AwsRound)
  /-- before WAIT is written, -/
  | arming (round : AwsRound) (deadline : ℕ)
  /-- before the semaphore is posted, -/
  | armed (round : AwsRound) (deadline : ℕ)
  /-- and in the loop: before the phase is read, -/
  | looking (round : AwsRound) (deadline : ℕ)
  /-- before the clock is read, -/
  | checking (round : AwsRound) (deadline : ℕ)
  /-- and in `actrust_sem_wait`, up to a time. -/
  | sleeping (round : AwsRound) (deadline : ℕ) (limit : ℕ)
  | waited (round : AwsRound) (deadline : ℕ) (result : Except Err Unit)
  | finishing
  | finished
  | disconnecting
  | joining (result : Except Err Unit)
  /-- The connection is closed after an error, -/
  | abandoning (e : Err)
  /-- and the identity is cleared. -/
  | clearing (e : Err)
  | returned (result : Except Err Unit)
  deriving DecidableEq

/-- `actrust_cloud_aws_clear_runtime_identity`. -/
def actrustCloudAwsClearRuntimeIdentity (stores : AwsStores) (ctx : AwsContext) : AwsContext :=
  { ctx with
    runtimeCert :=
      match stores.certDelete with
      | .ok _ => none
      | .error _ => if stores.effective then none else ctx.runtimeCert
    storedThingName :=
      match stores.kvOpen, stores.kvDel with
      | .error _, _ => ctx.storedThingName
      | .ok _, .ok _ => none
      | .ok _, .error _ => if stores.effective then none else ctx.storedThingName
    ownershipToken := List.replicate cloudAwsOwnershipTokenMaxLen 0
    ownershipTokenLen := 0
    thingName := List.replicate cloudAwsThingNameMaxLen 0
    thingNameLen := 0 }

/-- What the environment answers to the service thread. -/
structure ServiceEnv where
  result : Except Err Unit
  stores : AwsStores

/-- The steps of the service thread that neither wait nor read the clock. -/
def ServicePc.after (env : ServiceEnv) (ctx : AwsContext) (next : ServicePc) :
    AwsContext × ServicePc :=
  match env.result with
  | .ok _ => (ctx, next)
  | .error e => (ctx, .abandoning e)

/-- One section of the service thread. -/
def ServicePc.step (env : ServiceEnv) (now : ℕ) (ctx : AwsContext) :
    ServicePc → AwsContext × ServicePc
  | .requesting round => ({ ctx with registrationPhase := round.requestPhase }, .requested round)
  | .requested round => ({ ctx with phaseSem := ctx.phaseSem + 1 }, .preparing round)
  | .preparing round => ServicePc.after env ctx (.publishing round)
  | .publishing round => ServicePc.after env ctx (.published round)
  | .published round => (ctx, .arming round (now + cloudAwsRegisterTimeoutMs))
  | .arming round deadline =>
    ({ ctx with registrationPhase := round.waitPhase }, .armed round deadline)
  | .armed round deadline =>
    ({ ctx with phaseSem := ctx.phaseSem + 1 }, .looking round deadline)
  | .looking round deadline =>
    if ctx.registrationPhase = round.acceptedPhase then (ctx, .waited round deadline (.ok ()))
    else if ctx.registrationPhase = round.rejectedPhase then
      (ctx, .waited round deadline (.error (cloudErr .badState)))
    else (ctx, .checking round deadline)
  | .checking round deadline =>
    if deadline ≤ now then (ctx, .waited round deadline (.error (cloudErr .timeout)))
    else (ctx, .sleeping round deadline (now + min (deadline - now) (2 ^ 32 - 1)))
  | .sleeping round deadline limit =>
    match env.result, ctx.phaseSem with
    | .error e, _ => (ctx, .waited round deadline (.error (cloudErr e.code)))
    | .ok _, n + 1 => ({ ctx with phaseSem := n }, .looking round deadline)
    | .ok _, 0 =>
      -- the timeout of the semaphore carries a module, and is not `ACTRUST_ERR_TIMEOUT`
      if limit ≤ now then (ctx, .waited round deadline (.error (cloudErr .timeout)))
      else (ctx, .sleeping round deadline limit)
  | .waited round _ result =>
    match round, result with
    | .csr, .ok _ => (ctx, .requesting .register)
    | .register, .ok _ => (ctx, .finishing)
    | _, .error e => (ctx, .abandoning e)
  | .finishing => ({ ctx with registrationPhase := .finish }, .finished)
  | .finished => ({ ctx with phaseSem := ctx.phaseSem + 1 }, .disconnecting)
  | .disconnecting => (ctx, .joining env.result)
  | .joining (.error e) => (ctx, .returned (.error e))
  | .joining (.ok _) => (ctx, .returned env.result)
  | .abandoning e => (ctx, .clearing e)
  | .clearing e => (actrustCloudAwsClearRuntimeIdentity env.stores ctx, .returned (.error e))
  | .returned result => (ctx, .returned result)

/-! ### Both threads -/

/-- What is recorded for the statements about runs; no step reads it. -/
inductive Mark where
  /-- A request is given to MQTT. -/
  | request
  /-- The waiter reads the phase. -/
  | look
  /-- The callback writes a phase, at a time. -/
  | reply (phase : RegistrationPhase) (time : ℕ)
  deriving DecidableEq, Repr

/-- The context, and where the two threads are. -/
structure Provisioning where
  ctx : AwsContext
  service : ServicePc
  callback : CallbackPc
  now : ℕ
  /-- The marks, the latest first. -/
  marks : List Mark

/-- The clock goes on, a message is delivered, or a thread takes its next section. -/
inductive ProvisioningAction where
  | tick (elapsed : ℕ)
  | deliver (stores : AwsStores) (msg : AwsMessage)
  | callback
  | service (env : ServiceEnv)

/-- What a step of the service thread records. -/
def ServicePc.marks (env : ServiceEnv) : ServicePc → List Mark
  | .preparing _ => match env.result with
    | .ok _ => [.request]
    | .error _ => []
  | .looking _ _ => [.look]
  | _ => []

/-- One step of the thread of the process loop; a message waits for the callback of the last one. -/
def Provisioning.deliver (json : CoreJson) (config : AwsConfig) (s : Provisioning)
    (stores : AwsStores) (msg : AwsMessage) : Provisioning :=
  if s.callback ≠ .idle then s
  else
    match actrustCloudAwsRegistrationCallback json stores config s.ctx msg with
    | (ctx, none) => { s with ctx }
    | (ctx, some phase) => { s with ctx, callback := .setting phase }

/-- The callback writes its phase, then posts. -/
def Provisioning.runCallback (s : Provisioning) : Provisioning :=
  match s.callback with
  | .idle => s
  | .setting phase =>
    { s with
      ctx := { s.ctx with registrationPhase := phase }
      callback := .posting
      marks := .reply phase s.now :: s.marks }
  | .posting =>
    { s with ctx := { s.ctx with phaseSem := s.ctx.phaseSem + 1 }, callback := .idle }

/-- One step of either thread, or of the clock. -/
def Provisioning.step (json : CoreJson) (config : AwsConfig) (s : Provisioning) :
    ProvisioningAction → Unit × Provisioning
  | .tick elapsed => ((), { s with now := s.now + elapsed })
  | .deliver stores msg => ((), s.deliver json config stores msg)
  | .callback => ((), s.runCallback)
  | .service env =>
    ((), { s with
      ctx := (s.service.step env s.now s.ctx).1
      service := (s.service.step env s.now s.ctx).2
      marks := s.service.marks env ++ s.marks })

/-- The first request is about to be made, while the process loop is anywhere. -/
def Provisioning.start (ctx : AwsContext) (callback : CallbackPc) (now : ℕ) : Provisioning :=
  ⟨ctx, .requesting .csr, callback, now, []⟩

end TrustSdk.Cloud
