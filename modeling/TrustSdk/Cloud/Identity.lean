import TrustSdk.Cloud.Replies

/-!
# The identity of a provisioned device

The certificate, the ownership token and the thing name that an attempt to provision leaves behind
come from two replies: `CreateCertificateFromCsr` answers with the first two, `RegisterThing` with
the third. The four handlers of these replies do not look at the phase. `InTurn` lists the steps
that keep the identity of one attempt together all the same:

* a reply that a handler does something with comes in while the phase is the one that waits for it,
  and not after the attempt;
* the callback writes its phase over that same phase;
* what is stored can be deleted when an attempt has failed.

In every run of such steps a message changes the identity or the phase only when it is waited for,
an attempt that succeeds has stored the certificate whose token it has sent, and one that fails
before the thing is registered leaves nothing behind (`identity_consistent`). In
`not_identity_consistent` the certificate reply comes twice, the second time while the other
reply is waited for.

The invariant is by the program counter of the service thread (`Reached`). A handler that gives up
half-way leaves the certificate and the token of two different replies, but it does not write
CSR_ACCEPTED: the two belong together whenever that phase is about to be written (`PendingCert`),
and from then on no reply of the first kind is in turn.
-/

namespace TrustSdk.Cloud

open Json Machine

/-! ### What a reply carries -/

section Replies

variable (json : CoreJson) (config : AwsConfig) (msg : AwsMessage)

/-- A text field of the payload. -/
def AwsMessage.field (path : String) (maxLen : ℕ) : Option (List UInt8) :=
  match actrustJsonQuery json msg.payload path with
  | .error _ => none
  | .ok value =>
    match actrustJsonGetString (msg.memory path) value maxLen with
    | .stored text => some text
    | _ => none

/-- The certificate in a reply to `CreateCertificateFromCsr`, -/
def AwsMessage.certificate : Option (List UInt8) :=
  if msg.topic ≠ createCertAcceptedTopic then none
  else
    match actrustJsonQuery json msg.payload "certificatePem" with
    | .error _ => none
    | .ok value => (actrustJsonUnescapeString cloudAwsCertPemMaxLen value.value []).toOption

/-- and its ownership token. -/
def AwsMessage.token : Option (List UInt8) :=
  if msg.topic ≠ createCertAcceptedTopic then none
  else msg.field json "certificateOwnershipToken" cloudAwsOwnershipTokenMaxLen

/-- The thing name in a reply to `RegisterThing`. -/
def AwsMessage.name : Option (List UInt8) :=
  if msg.topic ≠ fleetProvisionAcceptedTopic config then none
  else msg.field json "thingName" cloudAwsThingNameMaxLen

/-- Whether a handler stores something of the message, or answers it. A reply that is not what was
asked for is looked at and dropped. -/
def AwsMessage.acts (stores : AwsStores) : Bool :=
  if msg.topic = createCertAcceptedTopic then
    (actrustJsonInit json msg.payload).toOption.isSome && (msg.certificate json).isSome &&
      (stores.certWrite.toOption.isSome || stores.effective)
  else if msg.topic = createCertRejectedTopic then true
  else if msg.topic = fleetProvisionAcceptedTopic config then
    (actrustJsonInit json msg.payload).toOption.isSome &&
      match actrustJsonQuery json msg.payload "thingName" with
      | .error _ => false
      | .ok value =>
        match actrustJsonGetString (msg.memory "thingName") value cloudAwsThingNameMaxLen with
        | .failed _ => false
        | _ => true
  else decide (msg.topic = fleetProvisionRejectedTopic config)

/-- The request that the message answers. -/
def AwsMessage.round : Option AwsRound :=
  if msg.topic = createCertAcceptedTopic ∨ msg.topic = createCertRejectedTopic then some .csr
  else if msg.topic = fleetProvisionAcceptedTopic config ∨
      msg.topic = fleetProvisionRejectedTopic config then
    some .register
  else none

end Replies

/-- What a device identifies itself with later on. -/
structure Identity where
  runtimeCert : Option (List UInt8)
  ownershipToken : List UInt8
  thingName : List UInt8
  storedThingName : Option (List UInt8)
  deriving DecidableEq

/-- What the context has of an identity. -/
def AwsContext.identity (ctx : AwsContext) : Identity where
  runtimeCert := ctx.runtimeCert
  ownershipToken := ctx.ownershipToken.take ctx.ownershipTokenLen
  thingName := ctx.thingName.take ctx.thingNameLen
  storedThingName := ctx.storedThingName

/-- A later connection finds nothing that it could use. -/
def Identity.Empty (identity : Identity) : Prop := identity = ⟨none, [], [], none⟩

instance (identity : Identity) : Decidable identity.Empty :=
  inferInstanceAs (Decidable (_ = _))

/-! ### An attempt -/

/-- `actrust_cloud_aws_first_connect` from its beginning. The last four fields are recorded for the
statements; no step reads them. -/
structure Attempt where
  /-- Up to the subscriptions; the first request comes next. -/
  connecting : Bool
  provisioning : Provisioning
  /-- The messages that the callback has been given, the latest first, -/
  handled : List AwsMessage
  /-- and those since `RegisterThing` is published. -/
  since : List AwsMessage
  /-- The token in the request of `RegisterThing`. -/
  sentToken : Option (List UInt8)
  /-- The service thread has read that the thing is registered. -/
  registered : Bool

/-- The process loop of the attempt is not started yet. -/
def Attempt.start (ctx : AwsContext) (now : ℕ) : Attempt :=
  ⟨true, .start ctx .idle now, [], [], none, false⟩

/-- What the step of the service thread records. -/
def Attempt.record (s : Attempt) (env : ServiceEnv) : Attempt :=
  match s.provisioning.service, env.result with
  | .preparing .register, .ok _ =>
    { s with sentToken := some s.provisioning.ctx.identity.ownershipToken }
  | .publishing .register, .ok _ => { s with since := [] }
  | .looking .register _, _ =>
    { s with
      registered :=
        s.registered || decide (s.provisioning.ctx.registrationPhase = .registerAccepted) }
  | _, _ => s

/-- One step of an attempt, with what it does to the record of the run. -/
def Attempt.step (json : CoreJson) (config : AwsConfig) (s : Attempt) :
    ProvisioningAction → Unit × Attempt
  | .service env =>
    if s.connecting then
      match env.result with
      | .ok _ => ((), { s with connecting := false })
      | .error e =>
        ((), { s with
          connecting := false
          provisioning := { s.provisioning with service := .clearing e } })
    else
      ((), { s.record env with
        provisioning := (Provisioning.step json config s.provisioning (.service env)).2 })
  | .deliver stores msg =>
    if s.provisioning.callback ≠ .idle then ((), s)
    else
      ((), { s with
        provisioning := (Provisioning.step json config s.provisioning (.deliver stores msg)).2
        handled := msg :: s.handled
        since := msg :: s.since })
  | a => ((), { s with provisioning := (Provisioning.step json config s.provisioning a).2 })

/-! ### The property and the condition -/

/-- A message changes the identity, and the callback the phase, only while the phase is the one that
waits for this kind of message. -/
def OnlyWhenAwaited (json : CoreJson) (config : AwsConfig) (s : Attempt)
    (a : ProvisioningAction) : Prop :=
  match a with
  | .deliver _ msg =>
    (Attempt.step json config s a).2.provisioning.ctx.identity ≠ s.provisioning.ctx.identity →
      ∃ round, msg.round config = some round ∧
        s.provisioning.ctx.registrationPhase = round.waitPhase
  | .callback =>
    (Attempt.step json config s a).2.provisioning.ctx.registrationPhase ≠
        s.provisioning.ctx.registrationPhase →
      ∃ (round : AwsRound) (phase : RegistrationPhase),
        s.provisioning.callback = .setting phase ∧ round.Answers phase ∧
          s.provisioning.ctx.registrationPhase = round.waitPhase
  | _ => True

/-- The stored certificate and the token that was sent come from one reply. -/
def Attempt.CertificateSent (json : CoreJson) (s : Attempt) : Prop :=
  ∃ msg ∈ s.handled, ∃ cert token, msg.certificate json = some cert ∧
    msg.token json = some token ∧ s.provisioning.ctx.runtimeCert = some cert ∧
    s.sentToken = some token

/-- The stored thing name comes from a reply to the request that carried the token. -/
def Attempt.NameStored (json : CoreJson) (config : AwsConfig) (s : Attempt) : Prop :=
  ∃ msg ∈ s.since, ∃ name, msg.name json config = some name ∧
    s.provisioning.ctx.storedThingName = some name

/-- What holds of an attempt that has returned. -/
def Attempt.Consistent (json : CoreJson) (config : AwsConfig) (s : Attempt) : Prop :=
  match s.provisioning.service with
  | .returned (.ok _) => s.CertificateSent json ∧ s.NameStored json config
  | .returned (.error _) => s.registered = false → s.provisioning.ctx.identity.Empty
  | _ => True

/-- The service thread is back from `actrust_cloud_aws_first_connect`. -/
def ServicePc.isReturned : ServicePc → Bool
  | .returned _ => true
  | _ => false

/-- What there is to delete can be deleted. -/
def AwsStores.Deletes (stores : AwsStores) (ctx : AwsContext) : Prop :=
  (ctx.runtimeCert = none ∨ stores.certDelete = .ok () ∨ stores.effective = true) ∧
  (ctx.storedThingName = none ∨
    stores.kvOpen = .ok () ∧ (stores.kvDel = .ok () ∨ stores.effective = true))

/-- The step keeps the identity of the attempt together. -/
def InTurn (json : CoreJson) (config : AwsConfig) (s : Attempt) : ProvisioningAction → Prop
  | .deliver stores msg =>
    s.provisioning.callback = .idle → msg.acts json config stores = true →
      ∀ round ∈ msg.round config,
        s.provisioning.ctx.registrationPhase = round.waitPhase ∧
          s.provisioning.service.isReturned = false
  | .callback =>
    match s.provisioning.callback with
    | .setting phase => ∃ round ∈ [AwsRound.csr, .register],
        round.Answers phase ∧ s.provisioning.ctx.registrationPhase = round.waitPhase
    | _ => True
  | .service env =>
    match s.provisioning.service with
    | .clearing _ => env.stores.Deletes s.provisioning.ctx
    | _ => True
  | .tick _ => True

instance (stores : AwsStores) (ctx : AwsContext) : Decidable (stores.Deletes ctx) :=
  inferInstanceAs (Decidable ((_ ∨ _ ∨ _) ∧ (_ ∨ _ ∧ (_ ∨ _))))

instance (json : CoreJson) (config : AwsConfig) (s : Attempt) (a : ProvisioningAction) :
    Decidable (InTurn json config s a) := by
  match a with
  | .tick _ => exact .isTrue trivial
  | .deliver _ _ =>
    dsimp only [InTurn]
    infer_instance
  | .callback =>
    dsimp only [InTurn]
    generalize s.provisioning.callback = callback
    match callback with
    | .setting _ => infer_instance
    | .idle | .posting => infer_instance
  | .service env =>
    dsimp only [InTurn]
    generalize s.provisioning.service = service
    match service with
    | .clearing _ => infer_instance
    | .requesting _ | .requested _ | .preparing _ | .publishing _ | .published _ | .arming _ _
    | .armed _ _ | .looking _ _ | .checking _ _ | .sleeping _ _ _ | .waited _ _ _ | .finishing
    | .finished | .disconnecting | .joining _ | .abandoning _ | .returned _ => infer_instance

/-! ### What the handlers of accepted replies do -/

/-- The certificate and the token are the ones in the reply. -/
def AwsContext.HasCertificate (json : CoreJson) (ctx : AwsContext) (msg : AwsMessage) : Prop :=
  ∃ cert token, msg.certificate json = some cert ∧ msg.token json = some token ∧
    ctx.runtimeCert = some cert ∧ ctx.identity.ownershipToken = token

/-- The stored thing name is the one in the reply. -/
def AwsContext.HasName (json : CoreJson) (config : AwsConfig) (ctx : AwsContext)
    (msg : AwsMessage) : Prop :=
  ∃ name, msg.name json config = some name ∧ ctx.storedThingName = some name

/-- A text that is stored is read back at its length. -/
@[simp] theorem take_storeText (buffer text : List UInt8) :
    (storeText buffer text).take text.length = text := by
  simp [storeText]

section Handlers

variable {json : CoreJson} {stores : AwsStores} {config : AwsConfig} {ctx : AwsContext}
  {msg : AwsMessage}

/-- The view is the payload itself. -/
theorem actrustJsonInit_eq {buf view : List UInt8} (h : actrustJsonInit json buf = .ok view) :
    view = buf := by
  unfold actrustJsonInit at h
  split_ifs at h
  cases h
  rfl

/-- The token is stored behind the certificate. -/
theorem readOwnershipToken_certificate {cert : List UInt8} {phase : RegistrationPhase}
    (htopic : msg.topic = createCertAcceptedTopic) (hcert : msg.certificate json = some cert)
    (hctx : ctx.runtimeCert = some cert)
    (h : (readOwnershipToken json ctx msg).2 = some phase) :
    phase = .csrAccepted ∧ (readOwnershipToken json ctx msg).1.HasCertificate json msg := by
  unfold readOwnershipToken at h ⊢
  -- The token is read last, so with it the certificate is in place.
  cases hquery : actrustJsonQuery json msg.payload "certificateOwnershipToken" with
  | error e => simp [hquery] at h
  | ok value =>
    cases hget : actrustJsonGetString (msg.memory "certificateOwnershipToken") value
        cloudAwsOwnershipTokenMaxLen with
    | failed e => simp [hquery, hget] at h
    | tooLong n => simp [hquery, hget] at h
    | stored token =>
      simp only [hquery, hget, Option.some.injEq] at h
      simp only [hget]
      refine ⟨h.symm, cert, token, hcert, ?_, hctx, take_storeText _ _⟩
      simp [AwsMessage.token, AwsMessage.field, htopic, hquery, hget]

/-- Only a reply with a certificate and a token lets the handler get to its end, -/
theorem handleCsrAccepted_certificate {phase : RegistrationPhase}
    (htopic : msg.topic = createCertAcceptedTopic)
    (h : (handleCsrAccepted json stores ctx msg).2 = some phase) :
    phase = .csrAccepted ∧ (handleCsrAccepted json stores ctx msg).1.HasCertificate json msg := by
  -- The errors on the way write no phase.
  unfold handleCsrAccepted at h ⊢
  cases hinit : actrustJsonInit json msg.payload with
  | error e => simp [hinit] at h
  | ok view =>
    obtain rfl := actrustJsonInit_eq hinit
    cases hquery : actrustJsonQuery json msg.payload "certificatePem" with
    | error e => simp [hinit, hquery] at h
    | ok value =>
      cases hpem : actrustJsonUnescapeString cloudAwsCertPemMaxLen value.value [] with
      | error e => simp [hinit, hquery, hpem] at h
      | ok pem =>
        cases hwrite : stores.certWrite with
        | error e => simp [hinit, hquery, hpem, hwrite] at h
        | ok u =>
          -- The certificate is stored before the token is looked for.
          simp only [hinit, hquery, hpem, hwrite] at h ⊢
          have hcert : msg.certificate json = some pem := by
            simp [AwsMessage.certificate, htopic, hquery, hpem, Except.toOption]
          exact readOwnershipToken_certificate htopic hcert rfl h

/-- The thing name is stored in the end, unless it is refused. -/
theorem storeThingName_name {phase : RegistrationPhase} {name : List UInt8}
    (hname : msg.name json config = some name) (hctx : ctx.thingName.take ctx.thingNameLen = name)
    (h : (storeThingName stores config ctx).2 = some phase) :
    phase = .registerRejected ∨
      phase = .registerAccepted ∧ (storeThingName stores config ctx).1.HasName json config msg := by
  -- The name is checked, then written, and the store is closed before the phase.
  unfold storeThingName at h ⊢
  cases hvalid : actrustCloudAwsValidateThingName config ctx with
  | error e =>
    simp only [hvalid, Option.some.injEq] at h
    exact Or.inl h.symm
  | ok u =>
    cases hopen : stores.kvOpen with
    | error e => simp [hvalid, hopen] at h
    | ok u =>
      cases hset : stores.kvSet with
      | error e => simp [hvalid, hopen, hset] at h
      | ok u =>
        cases hclose : stores.kvClose with
        | error e => simp [hvalid, hopen, hset, hclose] at h
        | ok u =>
          simp only [hvalid, hopen, hset, hclose, Option.some.injEq] at h
          refine Or.inr ⟨h.symm, name, hname, ?_⟩
          rw [← hctx]

/-- and only one with a thing name that can be stored gets to the end of the other. -/
theorem handleRegisterAccepted_name {phase : RegistrationPhase}
    (htopic : msg.topic = fleetProvisionAcceptedTopic config)
    (h : (handleRegisterAccepted json stores config ctx msg).2 = some phase) :
    phase = .registerRejected ∨ phase = .registerAccepted ∧
      (handleRegisterAccepted json stores config ctx msg).1.HasName json config msg := by
  -- The errors on the way write no phase.
  unfold handleRegisterAccepted at h ⊢
  cases hinit : actrustJsonInit json msg.payload with
  | error e => simp [hinit] at h
  | ok view =>
    obtain rfl := actrustJsonInit_eq hinit
    cases hquery : actrustJsonQuery json msg.payload "thingName" with
    | error e => simp [hinit, hquery] at h
    | ok value =>
      cases hget : actrustJsonGetString (msg.memory "thingName") value
          cloudAwsThingNameMaxLen with
      | failed e => simp [hinit, hquery, hget] at h
      | tooLong n => simp [hinit, hquery, hget] at h
      | stored name =>
        simp only [hinit, hquery, hget] at h ⊢
        have hname : msg.name json config = some name := by
          simp [AwsMessage.name, AwsMessage.field, htopic, hquery, hget]
        exact storeThingName_name hname (take_storeText _ _) h

/-- A reply to `RegisterThing` leaves the certificate alone. -/
theorem handleRegisterAccepted_runtimeCert :
    (handleRegisterAccepted json stores config ctx msg).1.runtimeCert = ctx.runtimeCert := by
  -- Only the thing name is written.
  have hstore (ctx' : AwsContext) :
      (storeThingName stores config ctx').1.runtimeCert = ctx'.runtimeCert := by
    unfold storeThingName
    split
    · rfl
    · split <;> rfl
  unfold handleRegisterAccepted
  split
  · rfl
  split
  · rfl
  split
  · rfl
  · rfl
  · exact hstore _

/-- A message on no topic of a round. -/
theorem registrationCallback_none (h : msg.round config = none) :
    actrustCloudAwsRegistrationCallback json stores config ctx msg = (ctx, none) := by
  unfold AwsMessage.round at h
  split_ifs at h with hcsr hregister
  unfold actrustCloudAwsRegistrationCallback
  rw [if_neg (fun h => hcsr (Or.inl h)), if_neg (fun h => hcsr (Or.inr h)),
    if_neg (fun h => hregister (Or.inl h)), if_neg (fun h => hregister (Or.inr h))]

/-- A certificate that is not there, or that the store refuses without an effect, changes nothing. -/
theorem handleCsrAccepted_dropped (htopic : msg.topic = createCertAcceptedTopic)
    (h : msg.acts json config stores = false) :
    handleCsrAccepted json stores ctx msg = (ctx, none) := by
  unfold AwsMessage.acts at h
  -- Everything that a message of this topic acts with is missing.
  rw [if_pos htopic] at h
  unfold handleCsrAccepted
  cases hinit : actrustJsonInit json msg.payload with
  | error e => rfl
  | ok view =>
    obtain rfl := actrustJsonInit_eq hinit
    simp only [hinit, AwsMessage.certificate, htopic, ne_eq, not_true, if_false] at h ⊢
    cases hquery : actrustJsonQuery json msg.payload "certificatePem" with
    | error e => rfl
    | ok value =>
      simp only [hquery] at h ⊢
      cases hpem : actrustJsonUnescapeString cloudAwsCertPemMaxLen value.value [] with
      | error e => rfl
      | ok pem =>
        cases hwrite : stores.certWrite with
        | ok u => simp [hpem, hwrite, Except.toOption] at h
        -- A write that fails may have taken effect; here it has not.
        | error e =>
          have heffective : stores.effective = false := by
            simpa [hpem, hwrite, Except.toOption] using h
          simp [heffective]

/-- A thing name that cannot be read changes nothing. -/
theorem handleRegisterAccepted_dropped (hcsr : msg.topic ≠ createCertAcceptedTopic)
    (hrejected : msg.topic ≠ createCertRejectedTopic)
    (htopic : msg.topic = fleetProvisionAcceptedTopic config)
    (h : msg.acts json config stores = false) :
    handleRegisterAccepted json stores config ctx msg = (ctx, none) := by
  unfold AwsMessage.acts at h
  -- The same for a reply with a thing name.
  rw [if_neg hcsr, if_neg hrejected, if_pos htopic] at h
  unfold handleRegisterAccepted
  cases hinit : actrustJsonInit json msg.payload with
  | error e => rfl
  | ok view =>
    obtain rfl := actrustJsonInit_eq hinit
    simp only [hinit, Except.toOption, Option.isSome_some, Bool.true_and] at h
    cases hquery : actrustJsonQuery json msg.payload "thingName" with
    | error e => simp only [hquery]
    | ok value =>
      simp only [hquery] at h ⊢
      cases hget : actrustJsonGetString (msg.memory "thingName") value cloudAwsThingNameMaxLen with
      | failed e => rfl
      | tooLong n => simp [hget] at h
      | stored name => simp [hget] at h

/-- A message that no handler does anything with. -/
theorem registrationCallback_dropped (h : msg.acts json config stores = false) :
    actrustCloudAwsRegistrationCallback json stores config ctx msg = (ctx, none) := by
  unfold actrustCloudAwsRegistrationCallback
  by_cases hcsr : msg.topic = createCertAcceptedTopic
  · rw [if_pos hcsr]
    exact handleCsrAccepted_dropped hcsr h
  rw [if_neg hcsr]
  by_cases hrejected : msg.topic = createCertRejectedTopic
  · -- a rejection is always answered
    rw [AwsMessage.acts, if_neg hcsr, if_pos hrejected] at h
    cases h
  rw [if_neg hrejected]
  by_cases hregister : msg.topic = fleetProvisionAcceptedTopic config
  · rw [if_pos hregister]
    exact handleRegisterAccepted_dropped hcsr hrejected hregister h
  · rw [AwsMessage.acts, if_neg hcsr, if_neg hrejected, if_neg hregister] at h
    rw [if_neg hregister]
    exact if_neg (of_decide_eq_false h)

/-- What the callback writes for a reply to the CSR. -/
theorem registrationCallback_csr (h : msg.round config = some .csr) {phase : RegistrationPhase}
    (hphase : (actrustCloudAwsRegistrationCallback json stores config ctx msg).2 = some phase) :
    phase = .csrRejected ∨ phase = .csrAccepted ∧
      (actrustCloudAwsRegistrationCallback json stores config ctx msg).1.HasCertificate
        json msg := by
  unfold AwsMessage.round at h
  split_ifs at h with htopic
  swap
  · cases h
  unfold actrustCloudAwsRegistrationCallback at hphase ⊢
  by_cases haccepted : msg.topic = createCertAcceptedTopic
  · rw [if_pos haccepted] at hphase ⊢
    exact Or.inr (handleCsrAccepted_certificate haccepted hphase)
  · rw [if_neg haccepted, if_pos (htopic.resolve_left haccepted)] at hphase
    exact Or.inl (Option.some.inj hphase).symm

/-- What the callback writes for a reply with the thing name. -/
theorem registrationCallback_register (h : msg.round config = some .register) :
    (actrustCloudAwsRegistrationCallback json stores config ctx msg).1.runtimeCert =
        ctx.runtimeCert ∧
      ∀ phase, (actrustCloudAwsRegistrationCallback json stores config ctx msg).2 = some phase →
        phase = .registerRejected ∨ phase = .registerAccepted ∧
          (actrustCloudAwsRegistrationCallback json stores config ctx msg).1.HasName
            json config msg := by
  unfold AwsMessage.round at h
  split_ifs at h with htopic hregister
  · cases h
  unfold actrustCloudAwsRegistrationCallback
  rw [if_neg (fun h => htopic (Or.inl h)), if_neg (fun h => htopic (Or.inr h))]
  by_cases haccepted : msg.topic = fleetProvisionAcceptedTopic config
  · rw [if_pos haccepted]
    exact ⟨handleRegisterAccepted_runtimeCert,
      fun phase hphase => handleRegisterAccepted_name haccepted hphase⟩
  · rw [if_neg haccepted, if_pos (hregister.resolve_left haccepted)]
    exact ⟨rfl, fun phase hphase => Or.inl (Option.some.inj hphase).symm⟩

end Handlers

/-! ### The invariant -/

/-- How far the service thread has come. -/
inductive Segment where
  | starting
  | certRequested
  | certAwaited
  | certAccepted
  | tokenHeld
  | tokenSent
  | nameAwaited
  | nameAccepted
  | closing
  | failed
  | succeeded
  | cleared

/-- How far the service thread has come. -/
def ServicePc.segment : ServicePc → Segment
  | .requesting .csr => .starting
  | .requested .csr | .preparing .csr | .publishing .csr | .published .csr | .arming .csr _ =>
    .certRequested
  | .armed .csr _ | .looking .csr _ | .checking .csr _ | .sleeping .csr _ _ => .certAwaited
  | .waited .csr _ (.ok _) | .requesting .register => .certAccepted
  | .requested .register | .preparing .register => .tokenHeld
  | .publishing .register | .published .register | .arming .register _ => .tokenSent
  | .armed .register _ | .looking .register _ | .checking .register _ | .sleeping .register _ _ =>
    .nameAwaited
  | .waited .register _ (.ok _) | .finishing => .nameAccepted
  | .finished | .disconnecting | .joining _ => .closing
  | .waited _ _ (.error _) | .abandoning _ | .clearing _ => .failed
  | .returned (.ok _) => .succeeded
  | .returned (.error _) => .cleared

/-- An attempt at its end has returned. -/
theorem ServicePc.isReturned_of_segment {pc : ServicePc}
    (h : pc.segment = .succeeded ∨ pc.segment = .cleared) : pc.isReturned = true := by
  unfold ServicePc.segment at h
  split at h <;> first | rfl | rcases h with h | h <;> cases h

section Invariant

variable (json : CoreJson) (config : AwsConfig) (s : Attempt)

/-- The certificate and the token belong together. -/
def Attempt.CertificateHeld : Prop :=
  ∃ msg ∈ s.handled, s.provisioning.ctx.HasCertificate json msg

/-- The callback is not about to write a phase. -/
def Attempt.Quiet : Prop := ∀ phase, s.provisioning.callback ≠ .setting phase

/-- A phase about to be written stands for the certificate. -/
def Attempt.PendingCert : Prop :=
  s.provisioning.callback = .setting .csrAccepted → s.CertificateHeld json

/-- A phase about to be written stands for the thing name. -/
def Attempt.PendingName : Prop :=
  s.provisioning.callback = .setting .registerAccepted → s.NameStored json config

/-- What holds when the service thread has come so far. -/
def Reached : Segment → Prop
  | .starting => s.PendingCert json
  | .certRequested =>
    s.provisioning.ctx.registrationPhase = .requestCert ∧ s.PendingCert json
  | .certAwaited =>
    s.PendingCert json ∧
      (s.provisioning.ctx.registrationPhase = .waitCsrResponse ∨
        s.provisioning.ctx.registrationPhase = .csrRejected ∨
        s.provisioning.ctx.registrationPhase = .csrAccepted ∧ s.CertificateHeld json ∧ s.Quiet)
  | .certAccepted =>
    s.provisioning.ctx.registrationPhase = .csrAccepted ∧ s.CertificateHeld json ∧ s.Quiet
  | .tokenHeld =>
    s.provisioning.ctx.registrationPhase = .requestRegister ∧ s.CertificateHeld json ∧ s.Quiet
  | .tokenSent =>
    s.provisioning.ctx.registrationPhase = .requestRegister ∧ s.CertificateSent json ∧ s.Quiet
  | .nameAwaited =>
    s.CertificateSent json ∧ s.PendingName json config ∧
      (s.provisioning.ctx.registrationPhase = .waitRegisterResponse ∨
        s.provisioning.ctx.registrationPhase = .registerRejected ∨
        s.provisioning.ctx.registrationPhase = .registerAccepted ∧ s.NameStored json config)
  | .nameAccepted =>
    s.provisioning.ctx.registrationPhase = .registerAccepted ∧ s.CertificateSent json ∧
      s.NameStored json config ∧ s.registered = true
  | .closing =>
    s.provisioning.ctx.registrationPhase = .finish ∧ s.CertificateSent json ∧
      s.NameStored json config ∧ s.registered = true
  | .failed => True
  | .succeeded => s.CertificateSent json ∧ s.NameStored json config
  | .cleared => s.registered = false → s.provisioning.ctx.identity.Empty

/-- The invariant of an attempt. -/
def Attempt.Inv : Prop :=
  (s.connecting = true → s.provisioning.service = .requesting .csr) ∧
    Reached json config s s.provisioning.service.segment

end Invariant

/-! ### The steps keep the invariant -/

section Steps

variable {json : CoreJson} {config : AwsConfig} {s s' : Attempt}

/-- What a step leaves alone when nothing that counts is stored. -/
structure Attempt.SameRecord (s s' : Attempt) : Prop where
  handled : ∀ msg ∈ s.handled, msg ∈ s'.handled
  since : ∀ msg ∈ s.since, msg ∈ s'.since
  sentToken : s'.sentToken = s.sentToken
  registered : s'.registered = s.registered
  identity : s'.provisioning.ctx.identity = s.provisioning.ctx.identity

/-- More messages have been handled. -/
theorem Attempt.CertificateSent.grow (h : s.CertificateSent json)
    (hmem : ∀ msg ∈ s.handled, msg ∈ s'.handled) (htoken : s'.sentToken = s.sentToken)
    (hcert : s'.provisioning.ctx.runtimeCert = s.provisioning.ctx.runtimeCert) :
    s'.CertificateSent json := by
  obtain ⟨msg, hmsg, cert, token, hread, htok, hstored, hsent⟩ := h
  exact ⟨msg, hmem msg hmsg, cert, token, hread, htok, hcert.trans hstored, htoken.trans hsent⟩

/-- What was sent is the same. -/
theorem Attempt.SameRecord.sent (h : s.SameRecord s') (hsent : s.CertificateSent json) :
    s'.CertificateSent json :=
  hsent.grow h.handled h.sentToken (congrArg Identity.runtimeCert h.identity)

/-- The certificate is the same. -/
theorem Attempt.SameRecord.held (h : s.SameRecord s') (hheld : s.CertificateHeld json) :
    s'.CertificateHeld json := by
  obtain ⟨msg, hmem, cert, token, hcert, htoken, hstored, hheld⟩ := hheld
  refine ⟨msg, h.handled msg hmem, cert, token, hcert, htoken, ?_, ?_⟩
  · exact (congrArg Identity.runtimeCert h.identity).trans hstored
  · rw [h.identity, hheld]

/-- The name is the same. -/
theorem Attempt.SameRecord.name (h : s.SameRecord s') (hname : s.NameStored json config) :
    s'.NameStored json config := by
  obtain ⟨msg, hmem, name, hname, hstored⟩ := hname
  exact ⟨msg, h.since msg hmem, name, hname,
    (congrArg Identity.storedThingName h.identity).trans hstored⟩

/-- The callback may finish and time may pass, as long as no phase is written. -/
theorem Reached.frame {segment : Segment} (h : s.SameRecord s')
    (hphase : s'.provisioning.ctx.registrationPhase = s.provisioning.ctx.registrationPhase)
    (hcallback : ∀ phase, s'.provisioning.callback = .setting phase →
      s.provisioning.callback = .setting phase)
    (hreached : Reached json config s segment) : Reached json config s' segment := by
  have hcert : s.PendingCert json → s'.PendingCert json :=
    fun hpending hset => h.held (hpending (hcallback _ hset))
  have hname : s.PendingName json config → s'.PendingName json config :=
    fun hpending hset => h.name (hpending (hcallback _ hset))
  have hquiet : s.Quiet → s'.Quiet := fun hquiet phase hset => hquiet phase (hcallback _ hset)
  -- Segment by segment: each speaks of the phase, the record and the callback.
  cases segment with
  -- The callback may have written a part, but no phase yet.
  | starting => exact hcert hreached
  | certRequested => exact ⟨hphase.trans hreached.1, hcert hreached.2⟩
  | certAwaited =>
    refine ⟨hcert hreached.1, ?_⟩
    rw [hphase]
    exact hreached.2.imp_right (Or.imp_right fun ⟨hp, hheld, hq⟩ => ⟨hp, h.held hheld, hquiet hq⟩)
  | certAccepted => exact ⟨hphase.trans hreached.1, h.held hreached.2.1, hquiet hreached.2.2⟩
  | tokenHeld => exact ⟨hphase.trans hreached.1, h.held hreached.2.1, hquiet hreached.2.2⟩
  | tokenSent => exact ⟨hphase.trans hreached.1, h.sent hreached.2.1, hquiet hreached.2.2⟩
  -- Either it still waits, or an answer has come with what it writes.
  | nameAwaited =>
    refine ⟨h.sent hreached.1, hname hreached.2.1, ?_⟩
    rw [hphase]
    exact hreached.2.2.imp_right (Or.imp_right fun ⟨hp, hstored⟩ => ⟨hp, h.name hstored⟩)
  | nameAccepted =>
    exact ⟨hphase.trans hreached.1, h.sent hreached.2.1, h.name hreached.2.2.1,
      h.registered.trans hreached.2.2.2⟩
  -- At the end what was sent, stored and registered are the fields of one answer.
  | closing =>
    exact ⟨hphase.trans hreached.1, h.sent hreached.2.1, h.name hreached.2.2.1,
      h.registered.trans hreached.2.2.2⟩
  | failed => trivial
  | succeeded => exact ⟨h.sent hreached.1, h.name hreached.2⟩
  | cleared =>
    intro hregistered
    rw [h.identity]
    exact hreached (h.registered.symm.trans hregistered)

/-- A callback that is not in a message takes this one. -/
theorem Provisioning.deliver_idle (json : CoreJson) (config : AwsConfig) (p : Provisioning)
    (stores : AwsStores) (msg : AwsMessage) (h : p.callback = .idle) :
    (p.deliver json config stores msg).ctx =
        (actrustCloudAwsRegistrationCallback json stores config p.ctx msg).1 ∧
      ∀ phase, (p.deliver json config stores msg).callback = .setting phase →
        (actrustCloudAwsRegistrationCallback json stores config p.ctx msg).2 = some phase := by
  unfold Provisioning.deliver
  rw [if_neg (not_not_intro h)]
  cases hcb : actrustCloudAwsRegistrationCallback json stores config p.ctx msg with
  | mk ctx written =>
    cases written with
    | none =>
      refine ⟨rfl, fun phase hset => ?_⟩
      rw [h] at hset
      cases hset
    | some phase =>
      refine ⟨rfl, fun phase' hset => ?_⟩
      cases hset
      rfl

/-- The state behind the callback's work on a message. -/
def Attempt.delivered (json : CoreJson) (config : AwsConfig) (s : Attempt) (stores : AwsStores)
    (msg : AwsMessage) : Attempt :=
  { s with
    provisioning := s.provisioning.deliver json config stores msg
    handled := msg :: s.handled
    since := msg :: s.since }

/-- A message that nothing is done with. -/
theorem Attempt.Inv.drop (h : s.Inv json config) (stores : AwsStores) (msg : AwsMessage)
    (hidle : s.provisioning.callback = .idle)
    (hnone : actrustCloudAwsRegistrationCallback json stores config s.provisioning.ctx msg =
      (s.provisioning.ctx, none)) : (s.delivered json config stores msg).Inv json config := by
  obtain ⟨hctx, hset⟩ := s.provisioning.deliver_idle json config stores msg hidle
  obtain ⟨hphase, -, hservice, -, -⟩ := s.provisioning.deliver_frame json config stores msg
  rw [hnone] at hctx hset
  refine ⟨fun hc => hservice.trans (h.1 hc), ?_⟩
  show Reached json config _ (s.provisioning.deliver json config stores msg).service.segment
  rw [hservice]
  refine h.2.frame ⟨fun m => List.mem_cons_of_mem _, fun m => List.mem_cons_of_mem _, rfl, rfl,
    congrArg AwsContext.identity hctx⟩ hphase fun phase hs => ?_
  exact absurd (hset phase hs) (by simp)

/-- A message that arrives: it counts only where the round waits for it. -/
theorem Attempt.Inv.deliver (h : s.Inv json config) (stores : AwsStores) (msg : AwsMessage)
    (hidle : s.provisioning.callback = .idle)
    (hturn : msg.acts json config stores = true → ∀ round ∈ msg.round config,
      s.provisioning.ctx.registrationPhase = round.waitPhase ∧
        s.provisioning.service.isReturned = false) :
    (s.delivered json config stores msg).Inv json config := by
  -- A message that no handler acts on leaves the attempt alone.
  by_cases hacts : msg.acts json config stores = true
  swap
  · exact h.drop stores msg hidle
      (registrationCallback_dropped (Bool.eq_false_iff.mpr hacts))
  obtain ⟨hctx, hset⟩ := s.provisioning.deliver_idle json config stores msg hidle
  obtain ⟨hphase, -, hservice, -, -⟩ := s.provisioning.deliver_frame json config stores msg
  cases hround : msg.round config with
  | none =>
    -- the topic is not one of provisioning
    exact h.drop stores msg hidle (registrationCallback_none hround)
  | some round =>
    obtain ⟨hwait, hret⟩ := hturn hacts round hround
    -- Delivering starts a callback and moves no service.
    refine ⟨fun hc => hservice.trans (h.1 hc), ?_⟩
    have hreached := h.2
    show Reached json config _ (s.provisioning.deliver json config stores msg).service.segment
    rw [hservice]
    have hcert : (s.delivered json config stores msg).PendingCert json := by
      intro hs
      have hwritten := hset _ hs
      -- The reply to the CSR may carry certificate and token, and no name.
      cases round with
      | csr =>
        rcases registrationCallback_csr hround hwritten with hp | ⟨-, hhas⟩
        · cases hp
        · exact ⟨msg, List.mem_cons_self, hctx ▸ hhas⟩
      | register =>
        rcases (registrationCallback_register hround).2 _ hwritten with hp | ⟨hp, -⟩ <;> cases hp
    have hname : (s.delivered json config stores msg).PendingName json config := by
      intro hs
      have hwritten := hset _ hs
      -- The reply to the registration may carry the name.
      cases round with
      | csr => rcases registrationCallback_csr hround hwritten with hp | ⟨hp, -⟩ <;> cases hp
      | register =>
        rcases (registrationCallback_register hround).2 _ hwritten with hp | ⟨-, hhas⟩
        · cases hp
        · exact ⟨msg, List.mem_cons_self, hctx ▸ hhas⟩
    cases hsegment : s.provisioning.service.segment <;> rw [hsegment] at hreached
    case starting => exact hcert
    -- In a phase of its own the service waits for no message.
    case certRequested => exact absurd (hwait.symm.trans hreached.1) (by cases round <;> decide)
    case certAwaited =>
      refine ⟨hcert, Or.inl ?_⟩
      -- While the certificate is awaited, the phase is the one this round waits for.
      rcases hreached.2 with hp | hp | ⟨hp, -⟩
      · exact hphase.trans hp
      · exact absurd (hwait.symm.trans hp) (by cases round <;> decide)
      · exact absurd (hwait.symm.trans hp) (by cases round <;> decide)
    case nameAwaited =>
      rcases hreached.2.2 with hp | hp | ⟨hp, -⟩
      · -- only a reply to the second request is in turn, and it leaves the certificate alone
        have hregister : round = .register := by
          have hw := hwait.symm.trans hp
          cases round with
          | csr => cases hw
          | register => rfl
        subst hregister
        refine ⟨hreached.1.grow (fun m => List.mem_cons_of_mem _) rfl ?_, hname,
          Or.inl (hphase.trans hp)⟩
        exact (congrArg AwsContext.runtimeCert hctx).trans (registrationCallback_register hround).1
      · exact absurd (hwait.symm.trans hp) (by cases round <;> decide)
      · exact absurd (hwait.symm.trans hp) (by cases round <;> decide)
    -- A service that has returned is past all its turns.
    case failed => trivial
    case succeeded | cleared =>
      have hreturned : s.provisioning.service.isReturned = true :=
        ServicePc.isReturned_of_segment (by rw [hsegment]; simp)
      exact absurd (hret.symm.trans hreturned) Bool.false_ne_true
    all_goals exact absurd (hwait.symm.trans hreached.1) (by cases round <;> decide)

/-- A section of the callback: the phase is written while the round waits. -/
theorem Attempt.Inv.callback (h : s.Inv json config)
    (hturn : ∀ phase, s.provisioning.callback = .setting phase →
      ∃ round : AwsRound, round.Answers phase ∧
        s.provisioning.ctx.registrationPhase = round.waitPhase) :
    Attempt.Inv json config { s with provisioning := s.provisioning.runCallback } := by
  obtain ⟨connecting, ⟨ctx, service, callback, now, marks⟩, handled, since, sentToken, registered⟩ :=
    s
  -- The callback has nothing to do.
  obtain ⟨hconnecting, hreached⟩ := h
  cases callback with
  | idle => exact ⟨hconnecting, hreached⟩
  | posting =>
    -- The post of the semaphore is no part of the record.
    refine ⟨hconnecting, hreached.frame ?_ ?_ ?_⟩
    · exact ⟨fun _ => id, fun _ => id, rfl, rfl, rfl⟩
    · rfl
    · exact fun phase hs => CallbackPc.noConfusion hs
  | setting phase =>
    obtain ⟨round, hans, hwait⟩ := hturn phase rfl
    refine ⟨hconnecting, ?_⟩
    -- In a phase no round waits for the callback would not be setting one.
    have hne (phase' : RegistrationPhase) (hp : ctx.registrationPhase = phase')
        (hno : ∀ round : AwsRound, phase' ≠ round.waitPhase) : False :=
      hno round (hp.symm.trans hwait)
    show Reached json config _ service.segment
    cases hsegment : service.segment <;> dsimp only at hreached <;> rw [hsegment] at hreached
    case starting => exact fun hs => CallbackPc.noConfusion hs
    case certRequested => exact (hne _ hreached.1 (fun round => by cases round <;> decide)).elim
    case certAwaited =>
      refine ⟨fun hs => CallbackPc.noConfusion hs, ?_⟩
      -- The phase it sets answers the CSR: accepted with what it stored, or rejected.
      rcases hreached.2 with hp | hp | ⟨hp, -⟩
      · have hcsr : round = .csr := by
          have hw := hwait.symm.trans hp
          cases round with
          | csr => rfl
          | register => cases hw
        subst hcsr
        rcases hans with rfl | rfl
        · -- the callback has stored both before it writes the phase
          exact Or.inr (Or.inr ⟨rfl, hreached.1 rfl, fun phase hs => CallbackPc.noConfusion hs⟩)
        · exact Or.inr (Or.inl rfl)
      · exact (hne _ hp (fun round => by cases round <;> decide)).elim
      · exact (hne _ hp (fun round => by cases round <;> decide)).elim
    case nameAwaited =>
      refine ⟨hreached.1, fun hs => CallbackPc.noConfusion hs, ?_⟩
      -- The second round likewise, where the name is what it stored.
      rcases hreached.2.2 with hp | hp | ⟨hp, -⟩
      · have hregister : round = .register := by
          have hw := hwait.symm.trans hp
          cases round with
          | csr => cases hw
          | register => rfl
        subst hregister
        rcases hans with rfl | rfl
        · exact Or.inr (Or.inr ⟨rfl, hreached.2.1 rfl⟩)
        · exact Or.inr (Or.inl rfl)
      · exact (hne _ hp (fun round => by cases round <;> decide)).elim
      · exact (hne _ hp (fun round => by cases round <;> decide)).elim
    case failed => trivial
    case succeeded => exact hreached
    case cleared => exact hreached
    all_goals exact (hne _ hreached.1 (fun round => by cases round <;> decide)).elim

/-- A failed attempt leaves nothing behind. -/
theorem clearRuntimeIdentity_empty {stores : AwsStores} {ctx : AwsContext}
    (h : stores.Deletes ctx) :
    (actrustCloudAwsClearRuntimeIdentity stores ctx).identity.Empty := by
  obtain ⟨hcert, hname⟩ := h
  have hc : (actrustCloudAwsClearRuntimeIdentity stores ctx).runtimeCert = none := by
    unfold actrustCloudAwsClearRuntimeIdentity
    rcases hcert with hcert | hcert | hcert <;> dsimp only <;> split <;> simp_all
  have hn : (actrustCloudAwsClearRuntimeIdentity stores ctx).storedThingName = none := by
    unfold actrustCloudAwsClearRuntimeIdentity
    rcases hname with hname | ⟨hopen, hname | hname⟩ <;> dsimp only <;> split <;> simp_all
  unfold Identity.Empty AwsContext.identity
  rw [hc, hn]
  rfl

/-- The state behind a step of the service thread. -/
def Attempt.served (s : Attempt) (env : ServiceEnv) : Attempt :=
  { s.record env with
    provisioning := { s.provisioning with
      ctx := (s.provisioning.service.step env s.provisioning.now s.provisioning.ctx).1
      service := (s.provisioning.service.step env s.provisioning.now s.provisioning.ctx).2
      marks := s.provisioning.service.marks env ++ s.provisioning.marks } }

/-- The service thread goes on within its segment, and writes no phase. -/
theorem Attempt.Inv.proceed {pc : ServicePc} {sem : ℕ} {more : List Mark} (h : s.Inv json config)
    (hconnecting : s.connecting = false) (hpc : pc.segment = s.provisioning.service.segment) :
    Attempt.Inv json config { s with
      provisioning := { s.provisioning with
        ctx := { s.provisioning.ctx with phaseSem := sem }
        service := pc
        marks := more } } := by
  refine ⟨fun hc => Bool.noConfusion (hconnecting.symm.trans hc), ?_⟩
  show Reached json config _ pc.segment
  rw [hpc]
  refine h.2.frame ?_ ?_ ?_
  · exact ⟨fun _ => id, fun _ => id, rfl, rfl, rfl⟩
  · rfl
  · exact fun _ => id

/-- A section of the service thread: only a clearing touches what is stored. -/
theorem Attempt.Inv.served (h : s.Inv json config) (hconnecting : s.connecting = false)
    (env : ServiceEnv)
    (hturn : ∀ e, s.provisioning.service = .clearing e → env.stores.Deletes s.provisioning.ctx) :
    (s.served env).Inv json config := by
  obtain ⟨connecting, ⟨ctx, service, callback, now, marks⟩, handled, since, sentToken, registered⟩ :=
    s
  obtain ⟨answer, stores⟩ := env
  have hreached := h.2
  obtain rfl : connecting = false := hconnecting
  cases service with
  -- The request is made: CSR first, then the registration.
  | requesting round =>
    cases round with
    | csr => exact ⟨fun hc => Bool.noConfusion hc, rfl, hreached⟩
    | register => exact ⟨fun hc => Bool.noConfusion hc, rfl, hreached.2⟩
  | requested round => cases round <;> exact h.proceed rfl rfl
  -- The payload is built; an error ends the attempt.
  | preparing round =>
    cases answer with
    | error e => cases round <;> exact ⟨fun hc => Bool.noConfusion hc, trivial⟩
    | ok u =>
      cases round with
      | csr => exact h.proceed rfl rfl
      | register =>
        -- the token is read here, while the callback rests
        obtain ⟨hphase, ⟨msg, hmem, cert, token, hcert, htoken, hstored, hheld⟩, hquiet⟩ := hreached
        exact ⟨fun hc => Bool.noConfusion hc, hphase,
          ⟨msg, hmem, cert, token, hcert, htoken, hstored, congrArg some hheld⟩, hquiet⟩
  | publishing round =>
    cases answer with
    | error e => cases round <;> exact ⟨fun hc => Bool.noConfusion hc, trivial⟩
    | ok u =>
      cases round with
      | csr => exact h.proceed rfl rfl
      | register => exact ⟨fun hc => Bool.noConfusion hc, hreached⟩
  | published round => cases round <;> exact h.proceed rfl rfl
  -- The deadline is armed, and the phase is set to wait.
  | arming round deadline =>
    cases round with
    | csr => exact ⟨fun hc => Bool.noConfusion hc, hreached.2, Or.inl rfl⟩
    | register =>
      refine ⟨fun hc => Bool.noConfusion hc, hreached.2.1, fun hs => ?_, Or.inl rfl⟩
      exact absurd hs (hreached.2.2 _)
  | armed round deadline => cases round <;> exact h.proceed rfl rfl
  | looking round deadline =>
    show Attempt.Inv json config { Attempt.record _ _ with provisioning := _ }
    simp only [ServicePc.step]
    split_ifs with haccepted hrejected
    · -- The phase says accepted, so its callback stored what it had to.
      cases round with
      | csr =>
        refine ⟨fun hc => Bool.noConfusion hc, haccepted, ?_⟩
        rcases hreached.2 with hp | hp | ⟨-, hheld⟩
        · cases haccepted.symm.trans hp
        · cases haccepted.symm.trans hp
        · exact hheld
      | register =>
        refine ⟨fun hc => Bool.noConfusion hc, haccepted, hreached.1, ?_, ?_⟩
        · rcases hreached.2.2 with hp | hp | ⟨-, hstored⟩
          · cases haccepted.symm.trans hp
          · cases haccepted.symm.trans hp
          · exact hstored
        · exact Bool.or_eq_true_iff.mpr (Or.inr (decide_eq_true haccepted))
    · -- Rejected: the attempt ends in failure.
      cases round <;> exact ⟨fun hc => Bool.noConfusion hc, trivial⟩
    · cases round with
      | csr => exact h.proceed rfl rfl
      | register => exact ⟨fun hc => Bool.noConfusion hc, hreached⟩
  | checking round deadline =>
    show Attempt.Inv json config { Attempt.record _ _ with provisioning := _ }
    simp only [ServicePc.step]
    split_ifs
    · cases round <;> exact ⟨fun hc => Bool.noConfusion hc, trivial⟩
    · cases round <;> exact h.proceed rfl rfl
  -- The sleep ends by a post, by the deadline, or goes on.
  | sleeping round deadline limit =>
    cases answer with
    | error e => cases round <;> exact ⟨fun hc => Bool.noConfusion hc, trivial⟩
    | ok u =>
      obtain ⟨phase, sem, token, tokenLen, thingName, thingNameLen, deviceName, cert, name⟩ := ctx
      cases sem with
      | succ n => cases round <;> exact h.proceed rfl rfl
      | zero =>
        show Attempt.Inv json config { Attempt.record _ _ with provisioning := _ }
        simp only [ServicePc.step]
        split_ifs
        · cases round <;> exact ⟨fun hc => Bool.noConfusion hc, trivial⟩
        · cases round <;> exact h.proceed rfl rfl
  | waited round deadline result =>
    cases result with
    | error e => cases round <;> exact ⟨fun hc => Bool.noConfusion hc, trivial⟩
    | ok u => cases round <;> exact h.proceed rfl rfl
  -- The name is stored, and the session is closed in order.
  | finishing => exact ⟨fun hc => Bool.noConfusion hc, rfl, hreached.2⟩
  | finished => exact h.proceed rfl rfl
  | disconnecting => exact h.proceed rfl rfl
  | joining result =>
    -- once the thing is registered, an error says nothing against the identity
    have hcleared (hno : registered = false) : false = true := hno.symm.trans hreached.2.2.2
    cases result with
    | error e =>
      exact ⟨fun hc => Bool.noConfusion hc, fun hno => Bool.noConfusion (hcleared hno)⟩
    | ok u =>
      cases answer with
      | error e =>
        exact ⟨fun hc => Bool.noConfusion hc, fun hno => Bool.noConfusion (hcleared hno)⟩
      | ok u => exact ⟨fun hc => Bool.noConfusion hc, hreached.2.1, hreached.2.2.1⟩
  | abandoning e => exact ⟨fun hc => Bool.noConfusion hc, trivial⟩
  -- The stored identity is cleared where the thing was not registered.
  | clearing e =>
    exact ⟨fun hc => Bool.noConfusion hc, fun _ => clearRuntimeIdentity_empty (hturn e rfl)⟩
  | returned result => cases result <;> exact h.proceed rfl rfl

/-- Every step that is in turn keeps the invariant. -/
theorem Attempt.Inv.step (json : CoreJson) (config : AwsConfig) (s : Attempt)
    (a : ProvisioningAction) (h : s.Inv json config) (hturn : InTurn json config s a) :
    (Attempt.step json config s a).2.Inv json config := by
  cases a with
  -- The clock touches nothing of the attempt.
  | tick elapsed =>
    refine ⟨h.1, h.2.frame ?_ ?_ ?_⟩
    · exact ⟨fun _ => id, fun _ => id, rfl, rfl, rfl⟩
    · rfl
    · exact fun _ => id
  | deliver stores msg =>
    unfold Attempt.step
    dsimp only
    split_ifs with hidle
    · exact h
    · exact h.deliver stores msg (not_not.mp hidle) (hturn (not_not.mp hidle))
  | callback =>
    refine h.callback fun phase hset => ?_
    unfold InTurn at hturn
    rw [hset] at hturn
    obtain ⟨round, -, hans, hwait⟩ := hturn
    exact ⟨round, hans, hwait⟩
  -- A connect that fails ends the attempt before it has begun.
  | service env =>
    unfold Attempt.step
    dsimp only
    split_ifs with hconnecting
    · cases env.result with
      | error e => exact ⟨fun hc => Bool.noConfusion hc, trivial⟩
      | ok u =>
        refine ⟨fun hc => Bool.noConfusion hc, h.2.frame ?_ ?_ ?_⟩
        · exact ⟨fun _ => id, fun _ => id, rfl, rfl, rfl⟩
        · rfl
        · exact fun _ => id
    · refine h.served (Bool.eq_false_iff.mpr hconnecting) env fun e hpc => ?_
      unfold InTurn at hturn
      rw [hpc] at hturn
      exact hturn

/-- The invariant gives the property. -/
theorem Attempt.Inv.consistent (h : s.Inv json config) : s.Consistent json config := by
  have hreached := h.2
  unfold Attempt.Consistent
  cases hpc : s.provisioning.service with
  | returned result =>
    rw [hpc] at hreached
    cases result with
    | ok u => exact hreached
    | error e => exact hreached
  | _ => trivial

/-- A step in turn changes something only when it is waited for. -/
theorem InTurn.onlyWhenAwaited {a : ProvisioningAction} (hturn : InTurn json config s a) :
    OnlyWhenAwaited json config s a := by
  -- Only the callback writes, and only what its round answers.
  cases a with
  | tick elapsed => trivial
  | service env => trivial
  | callback =>
    intro hchange
    unfold InTurn at hturn
    cases hset : s.provisioning.callback with
    | setting phase =>
      rw [hset] at hturn
      obtain ⟨round, -, hans, hwait⟩ := hturn
      exact ⟨round, phase, rfl, hans, hwait⟩
    | _ =>
      refine absurd ?_ hchange
      simp only [Attempt.step, Provisioning.step, Provisioning.runCallback, hset]
  | deliver stores msg =>
    intro hchange
    unfold Attempt.step at hchange
    dsimp only at hchange
    split_ifs at hchange with hidle
    · exact absurd rfl hchange
    · have hctx := (s.provisioning.deliver_idle json config stores msg (not_not.mp hidle)).1
      -- A message that nothing is done with changes nothing, so the hypothesis does not hold.
      by_cases hacts : msg.acts json config stores = true
      · cases hround : msg.round config with
        | some round => exact ⟨round, rfl, (hturn (not_not.mp hidle) hacts round hround).1⟩
        | none =>
          rw [registrationCallback_none hround] at hctx
          exact absurd (congrArg AwsContext.identity hctx) hchange
      · rw [registrationCallback_dropped (Bool.eq_false_iff.mpr hacts)] at hctx
        exact absurd (congrArg AwsContext.identity hctx) hchange

end Steps

section

variable {json : CoreJson} {config : AwsConfig} {ctx : AwsContext} {now : ℕ}
  {actions : List ProvisioningAction}

/-- **Identity of a provisioned device**: in every run of an attempt whose steps are in turn, a
message changes something only when it is waited for, and an attempt that has returned has stored
what belongs together, or nothing. -/
theorem identity_consistent
    (hturn : Meets (Attempt.step json config) (InTurn json config) actions (.start ctx now)) :
    Meets (Attempt.step json config) (OnlyWhenAwaited json config) actions (.start ctx now) ∧
      (run (Attempt.step json config) actions (.start ctx now)).2.Consistent json config := by
  have hinv : Attempt.Inv json config (.start ctx now) :=
    ⟨fun _ => rfl, fun hset => CallbackPc.noConfusion hset⟩
  refine ⟨hturn.mono fun s a => InTurn.onlyWhenAwaited, ?_⟩
  exact (run_invariant (Attempt.Inv.step json config) hinv hturn).consistent

end

/-! Two rounds, with their replies. -/

/-- The configuration of the example. -/
def namedConfig : AwsConfig := ⟨"p", "t"⟩

/-- A reply on the topic, whose callback runs to the end. -/
def reply (topic payload : List UInt8) : List ProvisioningAction :=
  [.deliver stores ⟨topic, payload, fun _ => true⟩, .callback, .callback]

/-- Both requests are answered while the service thread sleeps; the certificate reply comes again
for each of `names` while the second is out. -/
def provisionRun (names : List String) : List ProvisioningAction :=
  service 10 ++ reply createCertAcceptedTopic (certificateReply "a") ++ service 13 ++
    names.flatMap (fun name => reply createCertAcceptedTopic (certificateReply name)) ++
    reply (fleetProvisionAcceptedTopic namedConfig) (thingReply "p-device") ++ service 7

/-- The second request is not answered. -/
def unansweredRun : List ProvisioningAction :=
  service 10 ++ reply createCertAcceptedTopic (certificateReply "a") ++ service 13 ++
    [.tick cloudAwsRegisterTimeoutMs] ++ service 6

/-- The attempt at the end of a run. -/
def attemptEnd (actions : List ProvisioningAction) : Attempt :=
  (run (Attempt.step repliesJson namedConfig) actions (.start emptyContext 0)).2

/-- A device that is provisioned, and one whose reply does not arrive. -/
theorem identity_consistent_provisioned :
    ((attemptEnd (provisionRun [])).provisioning.service = .returned (.ok ()) ∧
      (attemptEnd (provisionRun [])).Consistent repliesJson namedConfig) ∧
    (attemptEnd unansweredRun).provisioning.service = .returned (.error (cloudErr .timeout)) ∧
      (attemptEnd unansweredRun).Consistent repliesJson namedConfig :=
  ⟨⟨by decide +kernel, (identity_consistent (by decide +kernel)).2⟩,
    by decide +kernel, (identity_consistent (by decide +kernel)).2⟩

/-- A second certificate reply comes in while the registration is waited for: the attempt succeeds
with the certificate of one reply and the token of the other. -/
theorem not_identity_consistent :
    ¬ ∀ (json : CoreJson) (config : AwsConfig) (ctx : AwsContext) (now : ℕ)
        (actions : List ProvisioningAction),
        Meets (Attempt.step json config) (OnlyWhenAwaited json config) actions (.start ctx now) ∧
          (run (Attempt.step json config) actions (.start ctx now)).2.Consistent json config := by
  -- A second certificate replaces the first after its token has been sent.
  intro h
  have hconsistent := (h repliesJson namedConfig emptyContext 0 (provisionRun ["b"])).2
  have hreturned : (attemptEnd (provisionRun ["b"])).provisioning.service = .returned (.ok ()) := by
    decide +kernel
  have hcert : (attemptEnd (provisionRun ["b"])).provisioning.ctx.runtimeCert =
      some (text "pem-b") := by
    decide +kernel
  have htoken : (attemptEnd (provisionRun ["b"])).sentToken = some (text "token-a") := by
    decide +kernel
  have hnone : ∀ msg ∈ (attemptEnd (provisionRun ["b"])).handled,
      msg.certificate repliesJson = some (text "pem-b") →
        msg.token repliesJson ≠ some (text "token-a") := by
    decide +kernel
  change Attempt.Consistent repliesJson namedConfig (attemptEnd (provisionRun ["b"])) at hconsistent
  unfold Attempt.Consistent at hconsistent
  rw [hreturned] at hconsistent
  obtain ⟨⟨msg, hmem, cert, token, hread, htok, hstored, hsent⟩, -⟩ := hconsistent
  cases hcert.symm.trans hstored
  cases htoken.symm.trans hsent
  exact hnone msg hmem hread htok

end TrustSdk.Cloud
