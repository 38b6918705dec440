import TrustSdk.Lib.ByteStore
import TrustSdk.Net.Resolver
import TrustSdk.Ntp.Shutdown

/-!
# Synchronising with a time server

`ntp.c` with what its operations do under the operation lock: a sync resolves the server, exchanges
one packet with it and commits the offset if the answer is acceptable, and the two getters read what
was committed. How an operation gets in and out is `NtpCall.step`; where it is inside is an
`NtpBody`.

The packets are made and read by a library (`SntpLibrary`), which is not looked into. What passes
between an operation and the adapter can be observed as an `NtpEvent`, with the thread that takes the
step.
-/

namespace TrustSdk.Ntp

open ByteStore Machine
open TrustSdk.Net (CString)

/-- `SntpTimestamp_t` -/
structure SntpTimestamp where
  seconds : UInt32
  fractions : UInt32
  deriving DecidableEq, Repr

/-- What a sync reads of an `SntpResponseData_t`. -/
structure SntpResponse where
  /-- `leapSecondType` is `AlarmServerNotSynchronized`. -/
  unsynchronized : Bool
  clockOffsetMs : Int64
  deriving DecidableEq, Repr

/-- The serializer of the SNTP library. -/
structure SntpLibrary where
  /-- `SNTP_PACKET_BASE_SIZE` -/
  packetBaseSize : ℕ
  /-- `SNTP_TIME_AT_UNIX_EPOCH_SECS` -/
  timeAtUnixEpochSecs : UInt32
  /-- `SNTP_FRACTION_VALUE_PER_MICROSECOND` -/
  fractionPerMicrosecond : UInt32
  /-- The packet of a request, and its time as it was sent. -/
  serializeRequest : SntpTimestamp → UInt32 → Option (SntpTimestamp × Bytes)
  deserializeResponse : SntpTimestamp → SntpTimestamp → Bytes → Option SntpResponse

/-- How the client is configured. -/
structure NtpConfig where
  port : UInt16
  timeoutMs : UInt32
  /-- `CONFIG_ACTRUST_NTP_MAX_OFFSET_MS` -/
  maxOffsetMs : ℕ
  deriving DecidableEq, Repr

/-! ### Times -/

/-- `ntp_deadline_start`, with the reading of the clock. -/
def ntpDeadlineStart (now : UInt64) : Except Err UInt64 :=
  if now = 0 then .error (ntpErr .hwFailure) else .ok now

/-- `ntp_deadline_remaining` -/
def ntpDeadlineRemaining (start : UInt64) (budgetMs : UInt32) (now : UInt64) : Except Err UInt32 :=
  if now = 0 then .error (ntpErr .hwFailure)
  else
    if budgetMs.toUInt64 ≤ now - start then .error (ntpErr .timeout)
    else .ok (budgetMs - (now - start).toUInt32)

/-- `ntp_checked_time`: the sum is checked against the ends of the 64 bits. -/
def ntpCheckedTime (wallMs : UInt64) (offsetMs : Int64) : Except Err UInt64 :=
  if wallMs = 0 then .error (ntpErr .hwFailure)
  else
    if 0 ≤ offsetMs then
      if UInt64.ofNat (2 ^ 64 - 1) - offsetMs.toUInt64 < wallMs then .error (ntpErr .badState)
      else .ok (wallMs + offsetMs.toUInt64)
    else
      let magnitude := (-(offsetMs + 1)).toUInt64 + 1
      if wallMs < magnitude then .error (ntpErr .badState) else .ok (wallMs - magnitude)

/-- `wall_ms_to_sntp` -/
def wallMsToSntp (lib : SntpLibrary) (wallMs : UInt64) : SntpTimestamp :=
  ⟨(wallMs / 1000).toUInt32 + lib.timeAtUnixEpochSecs,
    (wallMs % 1000).toUInt32 * 1000 * lib.fractionPerMicrosecond⟩

/-- `ntp_random` -/
def ntpRandom (monotonicMs wallMs : UInt64) : UInt32 :=
  let r := (monotonicMs ^^^ (wallMs >>> 16) ^^^ (wallMs <<< 16)).toUInt32
  let r := (r ^^^ (r >>> 16)) * 0x45D9F3B
  r ^^^ (r >>> 16)

/-- `ntp_offset_is_acceptable`: zero switches the check off. -/
def ntpOffsetIsAcceptable (maxOffsetMs : ℕ) (offsetMs : Int64) : Bool :=
  maxOffsetMs == 0 || (decide (-(maxOffsetMs : ℤ) ≤ offsetMs.toInt) &&
    decide (offsetMs.toInt ≤ maxOffsetMs))

/-! ### Operations -/

/-- The calls that work under the lock of the operation. -/
inductive NtpTask where
  | sync
  | getLastOffsetMs
  | nowMs
  deriving DecidableEq, Repr

/-- The calls of `ntp.h`. -/
inductive NtpRequest where
  | run (task : NtpTask)
  | deinit
  deriving DecidableEq, Repr

/-- What is exchanged with the server. -/
structure NtpExchange where
  ip : CString
  t1 : SntpTimestamp
  t4 : SntpTimestamp
  senderIp : CString
  senderPort : UInt16
  packet : Bytes
  deriving DecidableEq, Repr

/-- Where an operation is that has the operation lock. -/
inductive NtpBody where
  | ready (task : NtpTask)
  | resolving (start : UInt64)
  | opening (start : UInt64) (ip : CString)
  /-- With the socket. -/
  | sending (start : UInt64) (ip : CString)
  | receiving (start : UInt64) (ip : CString) (t1 : SntpTimestamp)
  | parsing (ip : CString) (t1 : SntpTimestamp) (senderIp : CString) (senderPort : UInt16)
    (packet : Bytes)
  /-- `synced` is set, and the offset is not. -/
  | committing (offsetMs : Int64)
  | closing (result : Option Err)
  /-- The client is `synced`. -/
  | readingOffset
  | readingNow
  | done (result : Option Err)
  deriving DecidableEq, Repr

/-- A call: its admission, and what it does inside. -/
structure NtpOperation where
  call : NtpCall
  body : NtpBody
  deriving DecidableEq, Repr

/-- Where a call starts. -/
def NtpRequest.enter : NtpRequest → NtpOperation
  | .run task => ⟨.entering, .ready task⟩
  | .deinit => ⟨.enteringDeinit, .done none⟩

/-- What the threads share. -/
structure NtpShared where
  client : NtpClient
  synced : Bool
  lastOffsetMs : Int64
  /-- The sockets that are open. -/
  sockets : ℕ
  deriving DecidableEq, Repr

/-- What the adapter answers in a step. -/
structure NtpServiceEnv where
  adapter : NtpEnv
  monotonicMs : UInt64
  wallMs : UInt64
  /-- The clocks as `ntp_random` reads them. -/
  randomMonotonicMs : UInt64
  randomWallMs : UInt64
  resolve : Except Err CString
  netOpen : Option Err
  /-- How many bytes are sent. -/
  sendto : Except Err ℕ
  /-- The sender and what it has sent. -/
  recvfrom : Except Err (CString × UInt16 × Bytes)

/-- What can be observed of an operation: what it hears from the adapter, and what it tells. -/
inductive NtpEvent where
  /-- The clock at the start of a sync. -/
  | started (nowMs : UInt64)
  /-- A call that may block for the time given, and when. -/
  | waits (nowMs : UInt64) (remainingMs : UInt32)
  /-- The address of the server. -/
  | resolved (ip : CString)
  /-- The request, with its time, and where it goes. -/
  | sends (ip : CString) (port : UInt16) (t1 : SntpTimestamp) (packet : Bytes)
  /-- A packet, and where it comes from. -/
  | received (senderIp : CString) (senderPort : UInt16) (packet : Bytes)
  /-- The wall clock behind it. -/
  | arrived (wallMs : UInt64)
  | committed (offsetMs : Int64)
  | notReady
  | readOffset (offsetMs : Int64)
  | readNow (wallMs : UInt64) (answer : Except Err UInt64)
  deriving Repr

/-- The time that is left for the next call, which is made then. -/
def withinDeadline (cfg : NtpConfig) (env : NtpServiceEnv) (start : UInt64)
    (failed : Option Err → NtpBody) (next : List NtpEvent × NtpBody) : List NtpEvent × NtpBody :=
  match ntpDeadlineRemaining start cfg.timeoutMs env.monotonicMs with
  | .error e => ([], failed (some e))
  | .ok remainingMs => (.waits env.monotonicMs remainingMs :: next.1, next.2)

/-- What a sync makes of the answer of the server. -/
def checkResponse (lib : SntpLibrary) (cfg : NtpConfig) (x : NtpExchange) : Except Err Int64 :=
  if x.senderIp ≠ x.ip ∨ x.senderPort ≠ cfg.port then .error (ntpErr .io)
  else
    match lib.deserializeResponse x.t1 x.t4 x.packet with
    | none => .error (ntpErr .io)
    | some resp =>
      if resp.unsynchronized then .error (ntpErr .badState)
      else if ntpOffsetIsAcceptable cfg.maxOffsetMs resp.clockOffsetMs then .ok resp.clockOffsetMs
      else .error (ntpErr .badState)

/-- One step of an operation with the operation lock. -/
def NtpBody.step (lib : SntpLibrary) (cfg : NtpConfig) (env : NtpServiceEnv) (s : NtpShared) :
    NtpBody → List NtpEvent × NtpShared × NtpBody
  | .ready .sync =>
    match ntpDeadlineStart env.monotonicMs with
    | .error e => ([], s, .done (some e))
    | .ok start => ([.started env.monotonicMs], s, .resolving start)
  | .ready .getLastOffsetMs =>
    if s.synced then ([], s, .readingOffset)
    else ([.notReady], s, .done (some (ntpErr .notReady)))
  | .ready .nowMs =>
    if s.synced then ([], s, .readingNow)
    else ([.notReady], s, .done (some (ntpErr .notReady)))
  | .resolving start =>
    let (events, body) := withinDeadline cfg env start .done
      (match env.resolve with
        | .error e => ([], .done (some e))
        | .ok ip => ([.resolved ip], .opening start ip))
    (events, s, body)
  | .opening start ip =>
    match env.netOpen with
    | some e => ([], s, .done (some e))
    | none => ([], { s with sockets := s.sockets + 1 }, .sending start ip)
  | .sending start ip =>
    match lib.serializeRequest (wallMsToSntp lib env.wallMs)
        (ntpRandom env.randomMonotonicMs env.randomWallMs) with
    | none => ([], s, .closing (some (ntpErr .io)))
    | some (t1, packet) =>
      let (events, body) := withinDeadline cfg env start .closing
        ([.sends ip cfg.port t1 packet],
          match env.sendto with
          | .error e => .closing (some e)
          | .ok sent =>
            if sent ≠ lib.packetBaseSize then .closing (some (ntpErr .io))
            else .receiving start ip t1)
      (events, s, body)
  | .receiving start ip t1 =>
    let (events, body) := withinDeadline cfg env start .closing
      (match env.recvfrom with
        | .error e => ([], .closing (some e))
        | .ok (senderIp, senderPort, packet) =>
          ([.received senderIp senderPort packet], .parsing ip t1 senderIp senderPort packet))
    (events, s, body)
  | .parsing ip t1 senderIp senderPort packet =>
    -- the addresses are compared before the clock is read
    let exchange : NtpExchange :=
      ⟨ip, t1, wallMsToSntp lib env.wallMs, senderIp, senderPort, packet⟩
    match checkResponse lib cfg exchange with
    | .error e => ([.arrived env.wallMs], s, .closing (some e))
    | .ok offsetMs => ([.arrived env.wallMs], { s with synced := true }, .committing offsetMs)
  | .committing offsetMs =>
    ([.committed offsetMs], { s with lastOffsetMs := offsetMs }, .closing none)
  | .closing result => ([], { s with sockets := s.sockets - 1 }, .done result)
  | .readingOffset => ([.readOffset s.lastOffsetMs], s, .done none)
  | .readingNow =>
    let answer := ntpCheckedTime env.wallMs s.lastOffsetMs
    ([.readNow env.wallMs answer], s,
      .done (match answer with
        | .error e => some e
        | .ok _ => none))
  | .done result => ([], s, .done result)

/-- Whether the operation has nothing left to do but to leave. -/
def NtpBody.result : NtpBody → Option (Option Err)
  | .done result => some result
  | _ => none

/-- How the operation gets in and out. -/
def NtpOperation.passStep (env : NtpEnv) (s : NtpShared) (op : NtpOperation) :
    NtpShared × NtpOperation :=
  ({ s with client := (op.call.step env s.client).1 },
    { op with call := (op.call.step env s.client).2 })

/-- One step of an operation, with what can be observed of it. -/
def NtpOperation.observedStep (lib : SntpLibrary) (cfg : NtpConfig) (env : NtpServiceEnv)
    (s : NtpShared) (op : NtpOperation) : List NtpEvent × NtpShared × NtpOperation :=
  if op.call = .working then
    match op.body.result with
    | none =>
      let (events, shared, body) := op.body.step lib cfg env s
      (events, shared, { op with body := body })
    | some result => ([], op.passStep { env.adapter with result := result } s)
  else ([], op.passStep env.adapter s)

/-- The threads inside the calls, over the client and its offset. -/
abbrev NtpService := Threads.System NtpShared NtpOperation

/-- A new call, or a step of one. -/
abbrev NtpServiceAction := Threads.Action NtpRequest NtpServiceEnv

namespace NtpService

/-- A step of the system. -/
def step (lib : SntpLibrary) (cfg : NtpConfig) :
    NtpService → NtpServiceAction → Unit × NtpService :=
  Threads.step NtpRequest.enter fun env s op => (op.observedStep lib cfg env s).2

/-- What can be observed of a step, and of which thread. -/
def events (lib : SntpLibrary) (cfg : NtpConfig) (s : NtpService) :
    NtpServiceAction → List (ℕ × NtpEvent)
  | .start _ => []
  | .advance k env =>
    match s.calls[k]? with
    | none => []
    | some op => (op.observedStep lib cfg env s.shared).1.map (k, ·)

/-- No call has begun, and no offset is known. -/
def initial : NtpService := ⟨⟨.initial, false, 0, 0⟩, []⟩

end NtpService

end TrustSdk.Ntp
