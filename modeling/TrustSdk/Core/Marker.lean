import TrustSdk.Core.Registration

/-!
# The registered marker and the signing key

A registration generates a key pair in the signing slot, sends its public key to the server and, when
the server accepts, writes the marker "registered" into the KV store. At the next boot the marker
says that the key in the slot is the registered one. The two stores are not written together, and
each step may fail, with or without effect, or be the last one before a crash.

`Sound` lists the steps that keep the two together:

* no registration begins while the marker is in the store;
* a key that is there is not reported missing at boot.

In every run of such steps from a device without the marker, the marker implies the key of the last
accepted attempt (`marker_implies_key`). `not_marker_implies_key`: a write of the marker that reports
an error, but is durable, leaves the core UNREGISTERED, and the next attempt overwrites the key.
-/

namespace TrustSdk.Core

open Machine

variable {κ : Type}

/-! ### The stores -/

/-- What survives a crash: the key "registered", and the slots `CORE_SIGNING_KEY_ID` and
`ACTRUST_CRYPTO_KEY_ID_EC_0`. -/
structure DeviceStores (κ : Type) where
  registered : Bool
  signingKey : Option κ
  claimKey : Option κ
  deriving DecidableEq

/-- What a call answers; one that fails may have taken effect. -/
structure StoreAnswer where
  result : Except Err Unit
  effective : Bool

/-- The write is in the store, whatever the call answers. -/
def StoreAnswer.takesEffect (answer : StoreAnswer) : Bool :=
  match answer.result with
  | .ok _ => true
  | .error _ => answer.effective

/-- `actrust_crypto_key_generate` and `actrust_crypto_key_migrate`, as far as the slot goes. -/
def DeviceStores.writeSigningKey (stores : DeviceStores κ) (answer : StoreAnswer)
    (key : Option κ) : DeviceStores κ :=
  if answer.takesEffect then { stores with signingKey := key } else stores

/-- `actrust_crypto_key_destroy`. -/
def DeviceStores.destroySigningKey (stores : DeviceStores κ) (answer : StoreAnswer) :
    DeviceStores κ :=
  if answer.takesEffect then { stores with signingKey := none } else stores

/-- `actrust_crypto_key_open`. -/
def DeviceStores.openSigningKey (stores : DeviceStores κ) (answer : StoreAnswer) :
    Except Err κ :=
  match stores.signingKey, answer.result with
  | none, .ok _ => .error ⟨.adapterSecurity, .noResource⟩
  | _, .error e => .error e
  | some key, .ok _ => .ok key

/-! ### The service task -/

/-- Where the service task is, between two steps. -/
inductive CorePc (κ : Type) where
  /-- Before `actrust_init`, or without power. -/
  | off
  /-- In `core_ops_init`: before the marker is read, -/
  | readingRegistered
  /-- in `core_prepare_signing_key` with what was read, -/
  | openingKey (localRegistered : Bool)
  | migratingKey
  | reopeningKey
  /-- and in `core_store_claim_credentials`. -/
  | storingClaim
  /-- Between two jobs. -/
  | idle (state : CoreState)
  /-- In `core_ops_do_register`: before the key is generated, -/
  | generating
  /-- in the handshake for the key, -/
  | handshake (key : κ)
  /-- and before the key of a failed attempt is destroyed. -/
  | destroying
  /-- In `core_persist_registered`: before the marker is written, -/
  | persisting (key : κ)
  /-- and before the namespace is closed. -/
  | closing (key : κ)
  deriving DecidableEq

/-- The device, its stores, and where `core_ops.c` is. -/
structure CoreDevice (κ : Type) where
  stores : DeviceStores κ
  /-- `ctx->sign_key`. -/
  signKey : Option κ
  pc : CorePc κ
  /-- The key of the last attempt that the server has accepted; no step reads it. -/
  accepted : Option κ
  deriving DecidableEq

/-- What the environment answers to a step. -/
structure CoreEnv (κ : Type) where
  answer : StoreAnswer
  /-- The key that is generated. -/
  fresh : κ
  /-- The claim key in the configuration of `actrust_init`. -/
  claim : Option κ
  /-- The server accepts the attempt, whether or not its result arrives. -/
  accepts : Bool

section Steps

variable (s : CoreDevice κ) (env : CoreEnv κ)

/-- `core_ops_init` gives up; the key is closed. -/
def CoreDevice.initFailed : CoreDevice κ := { s with signKey := none, pc := .idle .initFailed }

/-- `core_ops_init`, behind `core_read_local_registered`. The error NO_RESOURCE means that there is no
marker. -/
def coreReadRegistered : CoreDevice κ :=
  match env.answer.result with
  | .ok _ => { s with pc := .openingKey s.stores.registered }
  | .error e =>
    if e.code = .noResource then { s with pc := .openingKey false } else s.initFailed

/-- `core_prepare_signing_key`, up to the migration. -/
def corePrepareSigningKey (localRegistered : Bool) : CoreDevice κ :=
  match s.stores.openSigningKey env.answer with
  | .ok key => { s with signKey := some key, pc := .storingClaim }
  | .error e =>
    if localRegistered = false then { s with pc := .storingClaim }
    else if e.code ≠ .noResource then s.initFailed
    else { s with pc := .migratingKey }

/-- Older releases have the key of the device in EC_0. -/
def coreMigrateKey : CoreDevice κ :=
  match s.stores.claimKey with
  | none => s.initFailed
  | some key =>
    let stores := s.stores.writeSigningKey env.answer (some key)
    match env.answer.result with
    | .ok _ => { s with stores, pc := .reopeningKey }
    | .error _ => { s with stores }.initFailed

/-- The key is opened again behind its migration. -/
def coreReopenKey : CoreDevice κ :=
  match s.stores.openSigningKey env.answer with
  | .ok key => { s with signKey := some key, pc := .storingClaim }
  | .error _ => s.initFailed

/-- `core_store_claim_credentials`. -/
def coreStoreClaimCredentials : CoreDevice κ :=
  match env.claim with
  | none => { s with pc := .idle .ready }
  | some key =>
    let stores :=
      if env.answer.takesEffect then { s.stores with claimKey := some key } else s.stores
    match env.answer.result with
    | .ok _ => { s with stores, pc := .idle .ready }
    | .error _ => { s with stores }.initFailed

/-- The key pair of the attempt, written to its slot. -/
def coreRegisterMakeKeypair : CoreDevice κ :=
  let stores := s.stores.writeSigningKey env.answer (some env.fresh)
  match env.answer.result with
  | .ok _ => { s with stores, signKey := some env.fresh, pc := .handshake env.fresh }
  | .error _ => { s with stores, signKey := none, pc := .destroying }

/-- The rest of an attempt. It succeeds when the result arrives, and says that the server has
accepted. -/
def coreRegisterHandshake (key : κ) : CoreDevice κ :=
  match env.answer.result with
  | .ok _ => { s with accepted := some key, pc := .persisting key }
  | .error _ =>
    { s with accepted := if env.accepts then some key else s.accepted, pc := .destroying }

/-- The key of a failed attempt is destroyed. -/
def coreDestroyKey : CoreDevice κ :=
  { s with
    stores := s.stores.destroySigningKey env.answer
    signKey := none
    pc := .idle .unregistered }

/-- `actrust_kv_open` and `actrust_kv_set`. -/
def corePersistRegistered (key : κ) : CoreDevice κ :=
  let stores := if env.answer.takesEffect then { s.stores with registered := true } else s.stores
  match env.answer.result with
  | .ok _ => { s with stores, pc := .closing key }
  | .error _ => { s with stores, pc := .idle .unregistered }

/-- `core_commit_registered`, behind the write. -/
def coreCommitRegistered : CoreDevice κ :=
  match env.answer.result with
  | .ok _ => { s with pc := .idle .registered }
  | .error _ => { s with pc := .idle .unregistered }

/-- One step of the service task within a job. -/
def CoreDevice.resume : CoreDevice κ :=
  match s.pc with
  | .readingRegistered => coreReadRegistered s env
  | .openingKey localRegistered => corePrepareSigningKey s env localRegistered
  | .migratingKey => coreMigrateKey s env
  | .reopeningKey => coreReopenKey s env
  | .storingClaim => coreStoreClaimCredentials s env
  | .generating => coreRegisterMakeKeypair s env
  | .handshake key => coreRegisterHandshake s env key
  | .destroying => coreDestroyKey s env
  | .persisting key => corePersistRegistered s env key
  | .closing _ => coreCommitRegistered s env
  | .off | .idle _ => s

end Steps

/-- `core_ops_connect`. Its calls to the lower layers answer as one; the marker is read among them. -/
def coreOpsConnect (s : CoreDevice κ) (answer : StoreAnswer) (state : CoreState) : CoreState :=
  match answer.result with
  | .error _ => state
  | .ok _ =>
    if s.stores.registered then if s.signKey.isSome then .registered else state
    else .unregistered

/-- `core_ops_disconnect`, as far as the state goes. -/
def coreOpsDisconnect (answer : StoreAnswer) (state : CoreState) : CoreState :=
  match answer.result with
  | .ok _ => .ready
  | .error _ => state

/-- `core_ops_deinit`. When it fails, the key may be closed already. -/
def coreOpsDeinit (s : CoreDevice κ) (answer : StoreAnswer) : CoreDevice κ :=
  match answer.result with
  | .ok _ => { s with signKey := none, pc := .off }
  | .error _ =>
    { s with signKey := if answer.effective then none else s.signKey, pc := .idle .deinit }

/-- A job of the service, one more call of the job under way, or a crash. -/
inductive DeviceAction (κ : Type) where
  /-- The first calls of `core_ops_init`. -/
  | init (answer : StoreAnswer)
  | connect (answer : StoreAnswer)
  | disconnect (answer : StoreAnswer)
  | register
  | deinit (answer : StoreAnswer)
  | resume (env : CoreEnv κ)
  /-- Power is lost. -/
  | crash

/-- A job begins when the last one has ended. -/
def CoreDevice.whenIdle (s : CoreDevice κ) (job : CoreState → CoreDevice κ) : CoreDevice κ :=
  match s.pc with
  | .idle state => job state
  | _ => s

/-- The first calls of `core_ops_init`. -/
def coreOpsInit (s : CoreDevice κ) (answer : StoreAnswer) : CoreDevice κ :=
  match answer.result with
  | .ok _ => { s with pc := .readingRegistered }
  | .error _ => s.initFailed

/-- `core_ops_register` looks at the state again when the job runs. -/
def coreOpsRegister (s : CoreDevice κ) (state : CoreState) : CoreDevice κ :=
  if state = .unregistered then { s with pc := .generating } else s

/-- One action of the device; a job begins only where the device is idle. -/
def CoreDevice.step (s : CoreDevice κ) : DeviceAction κ → Unit × CoreDevice κ
  | .init answer =>
    match s.pc with
    | .off => ((), coreOpsInit s answer)
    | _ => ((), s)
  | .connect answer =>
    ((), s.whenIdle fun state => { s with pc := .idle (coreOpsConnect s answer state) })
  | .disconnect answer =>
    ((), s.whenIdle fun state => { s with pc := .idle (coreOpsDisconnect answer state) })
  | .register => ((), s.whenIdle (coreOpsRegister s))
  | .deinit answer => ((), s.whenIdle fun _ => coreOpsDeinit s answer)
  | .resume env => ((), s.resume env)
  | .crash => ((), { s with signKey := none, pc := .off })

/-- A device that has never been registered. -/
def CoreDevice.factory (signingKey claimKey : Option κ) : CoreDevice κ :=
  ⟨⟨false, signingKey, claimKey⟩, none, .off, none⟩

/-! ### The condition and the invariant -/

/-- The marker implies the key of the last accepted attempt. -/
def MarkerKey (s : CoreDevice κ) : Prop :=
  s.stores.registered = true → ∃ key, s.stores.signingKey = some key ∧ s.accepted = some key

/-- The call answers NO_RESOURCE. -/
def StoreAnswer.saysMissing (answer : StoreAnswer) : Bool :=
  match answer.result with
  | .ok _ => false
  | .error e => e.code = .noResource

/-- The step keeps the marker and the key together. -/
def Sound (s : CoreDevice κ) : DeviceAction κ → Prop
  | .register => s.pc = .idle .unregistered → s.stores.registered = false
  | .resume env =>
    match s.pc with
    | .openingKey true =>
      s.stores.signingKey ≠ none → env.answer.saysMissing = false
    | _ => True
  | _ => True

/-- What holds where the service task is. -/
def Reached (s : CoreDevice κ) : CorePc κ → Prop
  | .openingKey true => s.stores.registered = true
  | .migratingKey | .reopeningKey => False
  | .generating | .destroying => s.stores.registered = false
  | .handshake key => s.stores.registered = false ∧ s.stores.signingKey = some key
  | .persisting key =>
    s.stores.registered = false ∧ s.stores.signingKey = some key ∧ s.accepted = some key
  | _ => True

/-- The marker implies a key, and the section the device is in has what it relies on. -/
def CoreDevice.Inv (s : CoreDevice κ) : Prop := MarkerKey s ∧ Reached s s.pc

section Steps

variable {s : CoreDevice κ}

/-- A step that leaves the marker, the key and the record alone. -/
theorem MarkerKey.frame {s' : CoreDevice κ} (h : MarkerKey s)
    (hmarker : s'.stores.registered = s.stores.registered)
    (hkey : s'.stores.signingKey = s.stores.signingKey) (haccepted : s'.accepted = s.accepted) :
    MarkerKey s' := by
  intro hreg
  rw [hkey, haccepted]
  exact h (hmarker.symm.trans hreg)

/-- Without the marker nothing is said. -/
theorem markerKey_of_unregistered (h : s.stores.registered = false) : MarkerKey s :=
  fun hreg => Bool.noConfusion (h.symm.trans hreg)

/-- Writing the signing key leaves the marker alone. -/
@[simp] theorem writeSigningKey_registered (stores : DeviceStores κ) (answer : StoreAnswer)
    (key : Option κ) : (stores.writeSigningKey answer key).registered = stores.registered := by
  unfold DeviceStores.writeSigningKey
  split <;> rfl

/-- Destroying it leaves the marker alone. -/
@[simp] theorem destroySigningKey_registered (stores : DeviceStores κ) (answer : StoreAnswer) :
    (stores.destroySigningKey answer).registered = stores.registered := by
  unfold DeviceStores.destroySigningKey
  split <;> rfl

/-- A key that is there is opened, or an error says why not. -/
theorem openSigningKey_error {stores : DeviceStores κ} {answer : StoreAnswer} {e : Err}
    (hkey : stores.signingKey ≠ none) (h : stores.openSigningKey answer = .error e) :
    answer.result = .error e := by
  unfold DeviceStores.openSigningKey at h
  cases hs : stores.signingKey with
  | none => exact absurd hs hkey
  | some key =>
    cases hr : answer.result with
    | ok u => simp [hs, hr] at h
    | error e' => simpa [hs, hr] using h

/-- Every call of `core_ops.c` keeps it. -/
theorem CoreDevice.Inv.resume (h : s.Inv) (env : CoreEnv κ)
    (hsound : Sound s (.resume env)) : (s.resume env).Inv := by
  obtain ⟨hmarker, hreached⟩ := h
  unfold Sound at hsound
  unfold CoreDevice.resume
  -- By the section the device is in; `hreached` says what it has of the stores.
  cases hpc : s.pc with
  | off => exact ⟨hmarker, by rw [hpc]; trivial⟩
  | idle state => exact ⟨hmarker, by rw [hpc]; trivial⟩
  | readingRegistered =>
    dsimp only
    unfold coreReadRegistered
    cases env.answer.result with
    | ok u =>
      refine ⟨hmarker.frame rfl rfl rfl, ?_⟩
      show Reached _ (.openingKey s.stores.registered)
      cases hreg : s.stores.registered with
      | true => exact hreg
      | false => trivial
    | error e => dsimp only; split <;> exact ⟨hmarker.frame rfl rfl rfl, trivial⟩
  | openingKey localRegistered =>
    rw [hpc] at hsound hreached
    dsimp only
    unfold corePrepareSigningKey
    cases hopen : s.stores.openSigningKey env.answer with
    | ok key => exact ⟨hmarker.frame rfl rfl rfl, trivial⟩
    | error e =>
      dsimp only
      split_ifs with hlocal hcode
      · exact ⟨hmarker.frame rfl rfl rfl, trivial⟩
      · exact ⟨hmarker.frame rfl rfl rfl, trivial⟩
      · -- with the marker there is a key, and it is not reported missing
        obtain rfl : localRegistered = true := by simpa using hlocal
        obtain ⟨key, hkey, -⟩ := hmarker hreached
        have hsome : s.stores.signingKey ≠ none := by rw [hkey]; exact Option.some_ne_none key
        have hmissing := hsound hsome
        unfold StoreAnswer.saysMissing at hmissing
        rw [openSigningKey_error hsome hopen] at hmissing
        exact absurd (not_not.mp hcode) (of_decide_eq_false hmissing)
  -- A migration needs a registered device without a key, which the marker excludes.
  | migratingKey => rw [hpc] at hreached; exact hreached.elim
  | reopeningKey => rw [hpc] at hreached; exact hreached.elim
  | storingClaim =>
    dsimp only
    unfold coreStoreClaimCredentials
    cases env.claim with
    | none => exact ⟨hmarker.frame rfl rfl rfl, trivial⟩
    | some claim =>
      -- The claim key has a slot of its own.
      dsimp only
      have hframe : ∀ stores : DeviceStores κ,
          stores = (if env.answer.takesEffect then { s.stores with claimKey := some claim }
            else s.stores) →
          stores.registered = s.stores.registered ∧ stores.signingKey = s.stores.signingKey := by
        rintro stores rfl
        split <;> exact ⟨rfl, rfl⟩
      obtain ⟨hreg, hkey⟩ := hframe _ rfl
      cases env.answer.result <;> exact ⟨hmarker.frame hreg hkey rfl, trivial⟩
  | generating =>
    rw [hpc] at hreached
    dsimp only
    unfold coreRegisterMakeKeypair
    have hreg := (writeSigningKey_registered s.stores env.answer (some env.fresh)).trans hreached
    cases hres : env.answer.result with
    | ok u =>
      refine ⟨markerKey_of_unregistered hreg, hreg, ?_⟩
      simp [DeviceStores.writeSigningKey, StoreAnswer.takesEffect, hres]
    | error e => exact ⟨markerKey_of_unregistered hreg, hreg⟩
  | handshake key =>
    rw [hpc] at hreached
    dsimp only
    unfold coreRegisterHandshake
    cases env.answer.result with
    | ok u => exact ⟨markerKey_of_unregistered hreached.1, hreached.1, hreached.2, rfl⟩
    | error e => exact ⟨markerKey_of_unregistered hreached.1, hreached.1⟩
  | destroying =>
    rw [hpc] at hreached
    have hreg := (destroySigningKey_registered s.stores env.answer).trans hreached
    exact ⟨markerKey_of_unregistered hreg, trivial⟩
  | persisting key =>
    rw [hpc] at hreached
    dsimp only
    unfold corePersistRegistered
    -- the key is in its slot before the marker is written
    have hkey : ∀ stores : DeviceStores κ,
        stores = (if env.answer.takesEffect then { s.stores with registered := true }
          else s.stores) → stores.signingKey = some key := by
      rintro stores rfl
      split <;> exact hreached.2.1
    cases env.answer.result <;>
      exact ⟨fun _ => ⟨key, hkey _ rfl, hreached.2.2⟩, trivial⟩
  | closing key =>
    dsimp only
    unfold coreCommitRegistered
    cases env.answer.result <;> exact ⟨hmarker.frame rfl rfl rfl, trivial⟩

/-- A job that keeps it, begun where the device is idle. -/
theorem CoreDevice.Inv.whenIdle {job : CoreState → CoreDevice κ} (h : s.Inv)
    (hjob : ∀ state, s.pc = .idle state → (job state).Inv) : (s.whenIdle job).Inv := by
  unfold CoreDevice.whenIdle
  split
  · next state hpc => exact hjob state hpc
  · exact h

theorem CoreDevice.Inv.step (s : CoreDevice κ) (a : DeviceAction κ) (h : s.Inv)
    (hsound : Sound s a) : (s.step a).2.Inv := by
  -- A job begins with no section behind it, so the marker is all there is to keep.
  cases a with
  | init answer =>
    unfold CoreDevice.step
    cases s.pc with
    | off =>
      dsimp only
      unfold coreOpsInit
      cases answer.result <;> exact ⟨h.1.frame rfl rfl rfl, trivial⟩
    | _ => exact h
  | connect answer => exact h.whenIdle fun state _ => ⟨h.1.frame rfl rfl rfl, trivial⟩
  | disconnect answer => exact h.whenIdle fun state _ => ⟨h.1.frame rfl rfl rfl, trivial⟩
  | register =>
    refine h.whenIdle fun state hpc => ?_
    unfold coreOpsRegister
    split_ifs with hstate
    · subst hstate
      exact ⟨h.1.frame rfl rfl rfl, hsound hpc⟩
    · exact h
  | deinit answer =>
    refine h.whenIdle fun state _ => ?_
    unfold coreOpsDeinit
    cases answer.result <;> exact ⟨h.1.frame rfl rfl rfl, trivial⟩
  | resume env => exact h.resume env hsound
  | crash => exact ⟨h.1.frame rfl rfl rfl, trivial⟩

end Steps

/-- **Registered marker**: in every state of a run of sound steps, the marker in the store implies that
the signing slot holds the key of the last attempt that the server has accepted. -/
theorem marker_implies_key {signingKey claimKey : Option κ} {actions : List (DeviceAction κ)}
    (h : Meets CoreDevice.step Sound actions (.factory signingKey claimKey)) :
    Always CoreDevice.step MarkerKey actions (.factory signingKey claimKey) :=
  always_of_invariant CoreDevice.Inv.step (fun _ hinv => hinv.1)
    ⟨markerKey_of_unregistered rfl, trivial⟩ h

/-! A registration, and the boot after it. -/

instance (s : CoreDevice κ) (a : DeviceAction κ) [DecidableEq κ] : Decidable (Sound s a) := by
  cases a with
  | register => exact inferInstanceAs (Decidable (_ → _))
  | resume env =>
    unfold Sound
    cases s.pc with
    | openingKey localRegistered => cases localRegistered <;> dsimp only <;> infer_instance
    | _ => exact .isTrue trivial
  | _ => exact .isTrue trivial

/-- A call that succeeds. -/
def done : StoreAnswer := ⟨.ok (), true⟩

/-- The call fails, but has taken effect. -/
def durable : StoreAnswer := ⟨.error ⟨.kv, .io⟩, true⟩

/-- A step that generates the key, if it generates one. -/
def resume (answer : StoreAnswer) (fresh : ℕ) : DeviceAction ℕ :=
  .resume ⟨answer, fresh, none, false⟩

/-- Init and the calls it makes. -/
def boot : List (DeviceAction ℕ) := .init done :: List.replicate 3 (resume done 0)

/-- The registration of a key, whose marker is written with an answer. -/
def registration (fresh : ℕ) (answer : StoreAnswer) : List (DeviceAction ℕ) :=
  [.register, resume done fresh, resume done fresh, resume answer fresh]

/-- The marker is in the store, and the device boots again. -/
def rebootRun : List (DeviceAction ℕ) :=
  boot ++ [.connect done] ++ registration 1 durable ++ [.crash] ++ boot ++ [.connect done]

/-- The first write of the marker reports an error, and the next attempt is not answered. -/
def retryRun : List (DeviceAction ℕ) :=
  boot ++ [.connect done] ++ registration 1 durable ++ [.register, resume done 2]

/-- A registration, a crash, and a boot with the marker set. -/
theorem marker_implies_key_reboot :
    (run CoreDevice.step rebootRun (.factory none none)).2.stores.registered = true ∧
      Always CoreDevice.step MarkerKey rebootRun (.factory none none) :=
  ⟨by decide, marker_implies_key (by decide)⟩

/-- With the marker in the store, the slot holds a key that the server has not seen. -/
theorem not_marker_implies_key :
    ¬ ∀ (signingKey claimKey : Option ℕ) (actions : List (DeviceAction ℕ)),
        Always CoreDevice.step MarkerKey actions (.factory signingKey claimKey) := by
  intro h
  obtain ⟨key, hkey, haccepted⟩ := (h none none retryRun).last (by decide)
  have hslot : (run CoreDevice.step retryRun (.factory none none)).2.stores.signingKey = some 2 := by
    decide
  have hserver : (run CoreDevice.step retryRun (.factory none none)).2.accepted = some 1 := by
    decide
  cases hslot.symm.trans hkey
  cases hserver.symm.trans haccepted

end TrustSdk.Core
