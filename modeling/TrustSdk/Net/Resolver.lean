import TrustSdk.Lib.Threads
import TrustSdk.Net.Deadline

/-!
# Resolving a name with a worker

`getaddrinfo` takes no timeout, so `actrust_net_dns_resolve` runs it in a worker thread and waits
for that one with a deadline. Caller and worker share a context on the heap. Who frees it is settled
under its lock: a caller that gives up marks it `detached` as long as it is not `completed`, and
leaves it to the worker; otherwise it joins the worker and frees it. One flag, the gate, admits one
resolution at a time; the worker gives it back, also long after its caller has left.

A resolution is a caller, its worker and their context; any number of them run, and each step lets
one party of one of them go on. The sections under a lock are one step each, as nothing is read or
written under these locks outside of them. A use of a context that is not allocated, or a join of
a thread that is not joinable, sets `fault` and does nothing else.
-/

namespace TrustSdk.Net

open Machine

/-- The bytes of a string, without the zero behind them. -/
abbrev CString := List UInt8

/-! ### The context -/

/-- What `getaddrinfo` answers: its code, and the text of the first address, if there is one and
`inet_ntop` can write it. -/
structure GaiAnswer where
  rc : ℤ
  address : Option (Option CString)
  deriving DecidableEq, Repr

/-- `net_dns_resolve_ctx_t`. -/
structure DnsCtx where
  lockReady : Bool
  condReady : Bool
  completed : Bool
  detached : Bool
  host : Option CString
  ip : CString
  gaiRc : ℤ
  inetOk : Bool
  deriving DecidableEq, Repr

/-- A context from `calloc`. -/
def DnsCtx.zero : DnsCtx := ⟨false, false, false, false, none, [], 0, false⟩

/-- What the worker writes into the context. -/
def DnsCtx.resolved (ctx : DnsCtx) (answer : GaiAnswer) : DnsCtx :=
  match answer.address with
  | some text =>
    if answer.rc = 0 then
      { ctx with gaiRc := answer.rc, inetOk := text.isSome, ip := text.getD ctx.ip }
    else { ctx with gaiRc := answer.rc }
  | none => { ctx with gaiRc := answer.rc }

/-- `net_dns_copy_result`, into a buffer of `ipLen` bytes. -/
def netDnsCopyResult (ctx : DnsCtx) (ipLen : ℕ) : Except NetErr CString :=
  if ctx.gaiRc ≠ 0 ∨ ctx.inetOk = false then .error .io
  else if ctx.ip.length + 1 > ipLen then .error .bufTooSmall
  else .ok ctx.ip

/-- Where a context is. -/
inductive DnsCell where
  | absent
  | live (ctx : DnsCtx)
  | freed
  deriving DecidableEq, Repr

/-! ### The resolutions -/

/-- The arguments of `actrust_net_dns_resolve`. -/
structure DnsRequest where
  host : Option CString
  hasBuffer : Bool
  ipLen : ℕ
  timeoutMs : ℕ
  deriving DecidableEq, Repr

/-- Where the caller is. -/
inductive DnsCallerPc where
  | entering
  /-- Inside of the gate, before the deadline. -/
  | starting
  | allocating
  | allocatingHost
  | initialisingLock
  | initialisingCond
  | creating
  /-- Before the release of the gate; the context is there or not. -/
  | aborting (e : NetErr) (allocated : Bool)
  | discarding (e : NetErr)
  /-- Before the lock of `net_dns_wait_complete`, -/
  | waiting
  /-- and in `pthread_cond_timedwait`. -/
  | sleeping
  | transferring (e : NetErr)
  /-- Before the join, of a resolution that has failed or is complete. -/
  | joining (outcome : Option NetErr)
  | copying
  | freeing (result : Except NetErr CString)
  | returned (result : Except NetErr CString)
  deriving DecidableEq

/-- Where the worker is. -/
inductive DnsWorkerPc where
  | absent
  | resolving
  | completing
  | freeing
  | releasing
  | ended
  deriving DecidableEq, Repr

/-- What can be done with the thread of the worker. -/
inductive DnsThread where
  | none
  | joinable
  | detached
  | joined
  deriving DecidableEq, Repr

/-- One call of the resolver: what was asked, where its caller and its worker stand, and the context
they share. -/
structure DnsResolve where
  request : DnsRequest
  deadline : NetDeadline
  caller : DnsCallerPc
  worker : DnsWorkerPc
  thread : DnsThread
  cell : DnsCell
  fault : Bool
  deriving DecidableEq

/-- `g_dns_resolver_active`. -/
structure DnsGate where
  active : Bool
  deriving DecidableEq, Repr

/-- How `pthread_cond_timedwait` comes back. -/
inductive DnsWake where
  | woken
  | timedOut
  | failed
  deriving DecidableEq, Repr

/-- The two threads of a call. -/
inductive DnsParty where
  | caller
  | worker
  deriving DecidableEq, Repr

/-- Who takes the step, and what the system answers. -/
structure DnsEnv where
  party : DnsParty
  gateLock : Bool
  ctxLock : Bool
  clock : Option Timespec
  alloc : Bool
  init : Bool
  create : Bool
  wake : DnsWake
  detach : Bool
  join : Bool
  lookup : CString → GaiAnswer

/-- `NET_DNS_DEFAULT_TIMEOUT_MS`. -/
def netDnsDefaultTimeoutMs : ℕ := 30000

/-- The timeout the call works with; zero stands for the default. -/
def DnsRequest.effectiveTimeout (request : DnsRequest) : ℕ :=
  if request.timeoutMs = 0 then netDnsDefaultTimeoutMs else request.timeoutMs

/-- `net_dns_resolver_release`. -/
def netDnsResolverRelease (env : DnsEnv) (gate : DnsGate) : DnsGate :=
  if env.gateLock then ⟨false⟩ else gate

namespace DnsResolve

/-- Where a call starts. -/
def enter (request : DnsRequest) : DnsResolve :=
  ⟨request, ⟨.zero, false⟩, .entering, .absent, .none, .absent, false⟩

/-- Use the context. -/
def access (r : DnsResolve) (f : DnsCtx → DnsResolve) : DnsResolve :=
  match r.cell with
  | .live ctx => f ctx
  | _ => { r with fault := true }

/-- `net_dns_ctx_free`. -/
def free (r : DnsResolve) : DnsResolve := r.access fun _ => { r with cell := .freed }

/-- Detach or join the thread. -/
def settle (r : DnsResolve) (thread : DnsThread) (f : DnsResolve → DnsResolve) : DnsResolve :=
  if r.thread = .joinable then f { r with thread := thread } else { r with fault := true }

/-- The end of `net_dns_wait_complete` when the worker has completed: too late, or not. -/
def checkDeadline (env : DnsEnv) (r : DnsResolve) : DnsResolve :=
  match netDeadlineRemaining { r.deadline with immediate := false } env.clock with
  | .error e => { r with caller := .transferring e }
  | .ok _ => { r with caller := .joining none }

/-- One step of `actrust_net_dns_resolve`. -/
def callerStep (env : DnsEnv) (gate : DnsGate) (r : DnsResolve) : DnsGate × DnsResolve :=
  match r.caller with
  | .entering =>
    if r.request.host = none ∨ r.request.hasBuffer = false ∨ r.request.ipLen = 0 then
      (gate, { r with caller := .returned (.error .invalidArg) })
    else if env.gateLock = false then (gate, { r with caller := .returned (.error .io) })
    else if gate.active then (gate, { r with caller := .returned (.error .busy) })
    else (⟨true⟩, { r with caller := .starting })
  | .starting =>
    match netDeadlineStart r.request.effectiveTimeout env.clock with
    | .error e => (gate, { r with caller := .aborting e false })
    | .ok deadline => (gate, { r with deadline := deadline, caller := .allocating })
  | .allocating =>
    if env.alloc then (gate, { r with cell := .live .zero, caller := .allocatingHost })
    else (gate, { r with caller := .aborting .noMem false })
  | .allocatingHost =>
    (gate, r.access fun ctx =>
      if env.alloc then
        { r with cell := .live { ctx with host := r.request.host }, caller := .initialisingLock }
      else { r with caller := .aborting .noMem true })
  | .initialisingLock =>
    (gate, r.access fun ctx =>
      if env.init then
        { r with cell := .live { ctx with lockReady := true }, caller := .initialisingCond }
      else { r with caller := .aborting .io true })
  | .initialisingCond =>
    -- the attribute, its clock and the condition variable: each of them fails in one way
    (gate, r.access fun ctx =>
      if env.init then
        { r with cell := .live { ctx with condReady := true }, caller := .creating }
      else { r with caller := .aborting .io true })
  | .creating =>
    if env.create then
      (gate, { r with worker := .resolving, thread := .joinable, caller := .waiting })
    else (gate, { r with caller := .aborting .io true })
  | .aborting e allocated =>
    (netDnsResolverRelease env gate,
      { r with caller := if allocated then .discarding e else .returned (.error e) })
  | .discarding e => (gate, { r.free with caller := .returned (.error e) })
  | .waiting =>
    (gate, r.access fun ctx =>
      if env.ctxLock = false then { r with caller := .transferring .io }
      else if ctx.completed then r.checkDeadline env
      else { r with caller := .sleeping })
  | .sleeping =>
    (gate, r.access fun ctx =>
      match env.wake with
      | .woken => if ctx.completed then r.checkDeadline env else r
      | .timedOut => { r with caller := .transferring .timeout }
      | .failed => { r with caller := .transferring .io })
  | .transferring e =>
    (gate, r.access fun ctx =>
      if env.ctxLock = false ∨ ctx.completed = true ∨ env.detach = false then
        { r with caller := .joining (some e) }
      else
        r.settle .detached fun r =>
          { r with cell := .live { ctx with detached := true }, caller := .returned (.error e) })
  | .joining outcome =>
    if env.join = false then
      match outcome with
      | some _ => (gate, { r with caller := .returned (.error .io) })
      | none => (gate, { r with caller := .freeing (.error .io) })
    else if r.worker = .ended then
      (gate, r.settle .joined fun r =>
        { r with caller := match outcome with
          | some e => .freeing (.error e)
          | none => .copying })
    else (gate, r)
  | .copying =>
    (gate, r.access fun ctx =>
      { r with caller := .freeing (netDnsCopyResult ctx r.request.ipLen) })
  | .freeing result => (gate, { r.free with caller := .returned result })
  | .returned result => (gate, { r with caller := .returned result })

/-- One step of `net_dns_resolve_worker`. -/
def workerStep (env : DnsEnv) (gate : DnsGate) (r : DnsResolve) : DnsGate × DnsResolve :=
  match r.worker with
  | .absent => (gate, r)
  | .resolving =>
    (gate, r.access fun ctx =>
      { r with cell := .live (ctx.resolved (env.lookup (ctx.host.getD [])))
               worker := .completing })
  | .completing =>
    (gate, r.access fun ctx =>
      if env.ctxLock = false then { r with worker := .releasing }
      else
        { r with cell := .live { ctx with completed := true }
                 worker := if ctx.detached then .freeing else .releasing })
  | .freeing => (gate, { r.free with worker := .releasing })
  | .releasing => (netDnsResolverRelease env gate, { r with worker := .ended })
  | .ended => (gate, r)

/-- A step of the caller or of the worker. -/
def step (env : DnsEnv) (gate : DnsGate) (r : DnsResolve) : DnsGate × DnsResolve :=
  match env.party with
  | .caller => r.callerStep env gate
  | .worker => r.workerStep env gate

/-- What `getaddrinfo` answers in a step of the resolution `k`. -/
def answer (k : ℕ) (env : DnsEnv) (r : DnsResolve) : List (ℕ × CString × GaiAnswer) :=
  match env.party, r.worker, r.cell with
  | .worker, .resolving, .live ctx => [(k, ctx.host.getD [], env.lookup (ctx.host.getD []))]
  | _, _, _ => []

end DnsResolve

/-- The calls that have begun, over the one gate. -/
abbrev DnsSystem := Threads.System DnsGate DnsResolve

/-- A new call, or a step of one. -/
abbrev DnsAction := Threads.Action DnsRequest DnsEnv

namespace DnsSystem

/-- A step of the system. -/
def step : DnsSystem → DnsAction → Unit × DnsSystem :=
  Threads.step DnsResolve.enter DnsResolve.step

/-- No call has begun. -/
def initial : DnsSystem := ⟨⟨false⟩, []⟩

/-- The answers of `getaddrinfo`: which resolution it was, the name it asked for, the answer. -/
def answers (s : DnsSystem) : DnsAction → List (ℕ × CString × GaiAnswer)
  | .start _ => []
  | .advance k env =>
    match s.calls[k]? with
    | none => []
    | some r => r.answer k env

end DnsSystem

end TrustSdk.Net
