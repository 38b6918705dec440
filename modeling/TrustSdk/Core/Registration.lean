import TrustSdk.Json.View
import TrustSdk.Lib.Machine

/-!
# The registration handshake of the core

`core_ops_do_register` runs on the service task: it sends a request, waits for the challenge,
signs its nonce, sends the response and waits for the result. The answers arrive on the downlink
task, which handles one message at a time. The two share `actrust_core_register_ctx_t` under the
core's lock.

* `coreDownlinkDispatch` — one message; its sections are one step, since the handler holds the lock;
* `RegisterPc.step` — one step of the attempt: a section under the lock, or a call to a lower layer;
* `RegisterSystem.step` — a message is handled, or the attempt takes a step, in any order.

What the lower layers answer (semaphores, keys, device information, the JSON builder, the cloud) is
up to the environment. What is signed is in the program counter `RegisterPc.sign`; the signature
itself is looked at by nobody.
-/

namespace TrustSdk.Core

open Json

/-- An error of the core. -/
def coreErr (code : ErrCode) : Err := ⟨.core, code⟩

/-- `actrust_core_state_t`. -/
inductive CoreState where
  | uninit
  | ready
  | unregistered
  | registered
  | deinit
  | initing
  | initFailed
  deriving DecidableEq, Repr

/-- `CORE_ACTION_REGISTER_CHALLENGE`. -/
def coreActionRegisterChallenge : ℕ := 0x1001

/-- `CORE_ACTION_REGISTER_RESULT`. -/
def coreActionRegisterResult : ℕ := 0x1003

/-- `CORE_NONCE_MAX_LEN`. -/
def coreNonceMaxLen : ℕ := 64

/-- `CORE_REGISTER_SESSION_RANDOM_LEN`. -/
abbrev coreRegisterSessionRandomLen : ℕ := 16

/-- `CORE_REGISTER_SESSION_ID_LEN`. -/
def coreRegisterSessionIdLen : ℕ := coreRegisterSessionRandomLen * 2

/-- `actrust_core_register_phase_t`. -/
inductive RegPhase where
  | idle
  | waitChallenge
  | waitResult
  deriving DecidableEq, Repr

/-- `actrust_core_register_ctx_t`. A semaphore is its count. -/
structure CoreRegister where
  challengeSem : Option ℕ
  resultSem : Option ℕ
  /-- The nonce buffer, of `CORE_NONCE_MAX_LEN` bytes. -/
  nonce : List UInt8
  nonceLen : ℕ
  sessionId : List UInt8
  sessionIdLen : ℕ
  ok : Bool
  inProgress : Bool
  phase : RegPhase
  deriving DecidableEq, Repr

/-! ### Downlink messages -/

/-- A downlink message, and for each field whether there is memory to read its text. -/
structure DownlinkMessage where
  payload : List UInt8
  memory : String → Bool

section Handlers

variable (json : CoreJson)

/-- The text of a field, read into a buffer. -/
def coreReadText (msg : DownlinkMessage) (field : String) (cap : ℕ) : JsonString :=
  match actrustJsonQuery json msg.payload field with
  | .error e => .failed e
  | .ok value => actrustJsonGetString (msg.memory field) value cap

/-- `core_register_session_matches_locked`; the session id is compared at its stored length. -/
def coreRegisterSessionMatchesLocked (reg : CoreRegister) (msg : DownlinkMessage) : Bool :=
  if reg.sessionIdLen = 0 then false
  else
    match coreReadText json msg "session_id" (coreRegisterSessionIdLen + 1) with
    | .stored sessionId =>
      sessionId.length = reg.sessionIdLen ∧ sessionId = reg.sessionId.take reg.sessionIdLen
    | _ => false

/-- `reg.ok = false`, and the waiter is woken. -/
def coreChallengeFailed (reg : CoreRegister) : CoreRegister :=
  { reg with ok := false, challengeSem := reg.challengeSem.map (· + 1) }

/-- `core_handle_challenge`. -/
def coreHandleChallenge (reg : CoreRegister) (msg : DownlinkMessage) : CoreRegister :=
  if reg.inProgress = false ∨ reg.phase ≠ .waitChallenge then reg
  else
    match actrustJsonInit json msg.payload with
    | .error _ => coreChallengeFailed reg
    | .ok _ =>
      if coreRegisterSessionMatchesLocked json reg msg = false then reg
      else if reg.nonceLen ≠ 0 then reg
      else
        match coreReadText json msg "nonce" coreNonceMaxLen with
        | .failed _ => coreChallengeFailed reg
        -- the length of a nonce that does not fit is left behind
        | .tooLong n => coreChallengeFailed { reg with nonceLen := n }
        | .stored nonce =>
          { reg with
            nonce := nonce ++ 0 :: reg.nonce.drop (nonce.length + 1)
            nonceLen := nonce.length
            ok := true
            challengeSem := reg.challengeSem.map (· + 1) }

/-- `reg.ok` is the verdict, and the waiter is woken. -/
def coreResultPosted (reg : CoreRegister) (ok : Bool) : CoreRegister :=
  { reg with ok, resultSem := reg.resultSem.map (· + 1) }

/-- What a result message says. -/
def coreResultStatus (msg : DownlinkMessage) : Bool :=
  match coreReadText json msg "status" 16 with
  | .stored status => status = [111, 107]
  | _ => false

/-- `core_handle_register_result`. -/
def coreHandleRegisterResult (reg : CoreRegister) (msg : DownlinkMessage) : CoreRegister :=
  if reg.inProgress = false ∨ reg.phase ≠ .waitResult then reg
  else
    match actrustJsonInit json msg.payload with
    | .error _ => coreResultPosted reg false
    | .ok _ =>
      if coreRegisterSessionMatchesLocked json reg msg = false then reg
      else coreResultPosted reg (coreResultStatus json msg)

/-- The action code of a message: the first half of `core_downlink_dispatch`. -/
def coreDownlinkAction (msg : DownlinkMessage) : Option ℕ :=
  match actrustJsonInit json msg.payload with
  | .error _ => none
  | .ok view =>
    match actrustJsonQuery json view "action" with
    | .error _ => none
    | .ok value =>
      match actrustJsonGetInt value with
      | .error _ => none
      | .ok n => if n < 0 ∨ n > 0xFFFFFFFF then none else some n.toNat

/-- `core_downlink_dispatch`: two actions have a handler. -/
def coreDownlinkDispatch (reg : CoreRegister) (msg : DownlinkMessage) : CoreRegister :=
  match coreDownlinkAction json msg with
  | none => reg
  | some action =>
    if action = coreActionRegisterChallenge then coreHandleChallenge json reg msg
    else if action = coreActionRegisterResult then coreHandleRegisterResult json reg msg
    else reg

end Handlers

/-! ### The attempt -/

/-- A digit below sixteen, in lower case. -/
def hexDigit (n : ℕ) : UInt8 := .ofNat (if n < 10 then 48 + n else 87 + n)

/-- `actrust_hex_encode`. -/
def actrustHexEncode (bytes : List UInt8) : List UInt8 :=
  bytes.flatMap fun b => [hexDigit (b.toNat / 16), hexDigit (b.toNat % 16)]

/-- `core_ops_do_register`. -/
inductive RegisterPc where
  | createChallengeSem
  | createResultSem
  | begun
  | makeKeypair
  | collectDeviceInfo
  | generateSessionId
  | storeSessionId (sessionId : List UInt8)
  | buildRequest
  | armChallenge
  | sendRequest
  | waitChallenge
  | readChallenge (waited : Except Err Unit)
  | copyNonce
  | sign (nonce : List UInt8)
  | buildResponse
  | armResult
  | sendResponse
  | waitResult
  | readResult (waited : Except Err Unit)
  /-- The phase goes back to idle, and the attempt fails. -/
  | abandon (e : Err)
  /-- The signing key of a failed attempt is destroyed. -/
  | destroyKey (e : Err)
  | finish (result : Except Err Unit)
  | returned (result : Except Err Unit)
  deriving DecidableEq

/-- The answer of a lower layer, and random bytes. -/
structure RegisterEnv where
  result : Except Err Unit
  random : Vector UInt8 coreRegisterSessionRandomLen

/-- `goto out`. -/
def RegisterPc.out : Except Err Unit → RegisterPc
  | .ok _ => .finish (.ok ())
  | .error e => .destroyKey e

/-- `actrust_sem_wait`: an error of the environment is a timeout or a failure; `none` goes on
waiting. -/
def semWait (env : RegisterEnv) (sem : Option ℕ) : Option (Except Err Unit × Option ℕ) :=
  match env.result, sem with
  | .error e, _ => some (.error e, sem)
  | .ok _, some (n + 1) => some (.ok (), some n)
  | .ok _, _ => none

/-- A call into a lower layer, after which the attempt goes on or fails. -/
def RegisterPc.after (env : RegisterEnv) (reg : CoreRegister) (next : RegisterPc) :
    CoreRegister × RegisterPc :=
  match env.result with
  | .ok _ => (reg, next)
  | .error e => (reg, .out (.error e))

/-- What a wait has come to. -/
def coreWaitOutcome (waited : Except Err Unit) (ok : Bool) : Except Err Unit :=
  match waited with
  | .error e => .error e
  | .ok _ => if ok then .ok () else .error (coreErr .io)

/-- One section of `core_ops_do_register`. -/
def RegisterPc.step (env : RegisterEnv) (reg : CoreRegister) :
    RegisterPc → CoreRegister × RegisterPc
  | .createChallengeSem =>
    match env.result with
    | .ok _ => (reg, .createResultSem)
    | .error e => (reg, .returned (.error e))
  | .createResultSem =>
    match env.result with
    | .ok _ => (reg, .begun)
    | .error e => (reg, .returned (.error e))
  | .begun =>
    ({ reg with
        challengeSem := some 0
        resultSem := some 0
        inProgress := true
        ok := false
        nonceLen := 0
        sessionIdLen := 0
        sessionId := []
        phase := .idle },
      .makeKeypair)
  | .makeKeypair => RegisterPc.after env reg .collectDeviceInfo
  | .collectDeviceInfo => RegisterPc.after env reg .generateSessionId
  | .generateSessionId =>
    RegisterPc.after env reg (.storeSessionId (actrustHexEncode env.random.toList))
  | .storeSessionId sessionId =>
    ({ reg with sessionId, sessionIdLen := sessionId.length }, .buildRequest)
  | .buildRequest => RegisterPc.after env reg .armChallenge
  | .armChallenge =>
    ({ reg with phase := .waitChallenge, ok := false, nonceLen := 0 },
      if reg.challengeSem = none then .abandon (coreErr .badState) else .sendRequest)
  | .sendRequest =>
    match env.result with
    | .ok _ => (reg, .waitChallenge)
    | .error e => (reg, .abandon e)
  | .waitChallenge =>
    match semWait env reg.challengeSem with
    | none => (reg, .waitChallenge)
    | some (waited, challengeSem) => ({ reg with challengeSem }, .readChallenge waited)
  | .readChallenge waited =>
    ({ reg with phase := .idle },
      match coreWaitOutcome waited (reg.nonceLen ≠ 0 ∧ reg.ok) with
      | .ok _ => .copyNonce
      | .error e => .out (.error e))
  | .copyNonce =>
    if reg.nonceLen = 0 ∨ reg.sessionIdLen = 0 ∨ reg.sessionIdLen > coreRegisterSessionIdLen then
      (reg, .out (.error (coreErr .badState)))
    else (reg, .sign (reg.nonce.take reg.nonceLen))
  | .sign _ => RegisterPc.after env reg .buildResponse
  | .buildResponse => RegisterPc.after env reg .armResult
  | .armResult =>
    ({ reg with phase := .waitResult, ok := false },
      if reg.resultSem = none then .abandon (coreErr .badState) else .sendResponse)
  | .sendResponse =>
    match env.result with
    | .ok _ => (reg, .waitResult)
    | .error e => (reg, .abandon e)
  | .waitResult =>
    match semWait env reg.resultSem with
    | none => (reg, .waitResult)
    | some (waited, resultSem) => ({ reg with resultSem }, .readResult waited)
  | .readResult waited => ({ reg with phase := .idle }, .out (coreWaitOutcome waited reg.ok))
  | .abandon e => ({ reg with phase := .idle }, .out (.error e))
  | .destroyKey e => (reg, .finish (.error e))
  | .finish result =>
    ({ reg with
        inProgress := false
        phase := .idle
        sessionIdLen := 0
        sessionId := []
        challengeSem := none
        resultSem := none },
      .returned result)
  | .returned result => (reg, .returned result)

/-! ### Both tasks -/

/-- The registration, and where the service is in it. -/
structure RegisterSystem where
  reg : CoreRegister
  pc : RegisterPc

/-- A message arrives, or the service takes its next section. -/
inductive RegisterAction where
  | message (msg : DownlinkMessage)
  | service (env : RegisterEnv)

/-- One step of either. -/
def RegisterSystem.step (json : CoreJson) (s : RegisterSystem) :
    RegisterAction → Unit × RegisterSystem
  | .message msg => ((), { s with reg := coreDownlinkDispatch json s.reg msg })
  | .service env => ((), ⟨(s.pc.step env s.reg).1, (s.pc.step env s.reg).2⟩)

/-- An attempt begins, with whatever an earlier one has left in the context. -/
def RegisterSystem.attempt (reg : CoreRegister) : RegisterSystem :=
  ⟨{ reg with inProgress := false, phase := .idle }, .createChallengeSem⟩

end TrustSdk.Core
