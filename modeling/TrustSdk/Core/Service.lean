import TrustSdk.Core.Jobs
import TrustSdk.Core.Operations

/-!
# The core: its calls, its jobs and its service task

`core_api.c` and `core_service.c`.

* `actrustInit`, `CoreSystem.submit`, `actrustDeinit` — a call up to the point where it has been
  admitted;
* `corePostJob` — one section of `core_post_job`, for a call and for `actrust_deinit`;
* `CoreSystem.deinitStep` — one section of an admitted `actrust_deinit`;
* `CoreSystem.serviceStep` — one section of `core_service_main`;
* `CoreSystem.step` — any of these, in any order.

A call other than `actrust_deinit` posts its job under the lifecycle lock and the core's lock, so
only one does so at a time, and meanwhile no section under one of these locks is entered.
`actrust_deinit` posts its job without them.

Mutexes are taken to work. Semaphores, tasks and everything that an operation calls may fail.
-/

namespace TrustSdk.Core.Service

open RingBuffer

/-! ### The system -/

/-- Where `core_post_job` is. -/
inductive PostPc where
  | allocating
  | enqueuing (idx : ℕ)
  | releasing (idx : ℕ) (e : Err)

/-- The call that posts its job under the locks. -/
inductive ApiPc where
  | idle
  | posting (request : Request) (pc : PostPc)

/-- Where an admitted `actrust_deinit` is. `previous` is the state that it restores when it gives
up, `start` whether it has to start the service. -/
inductive DeinitPc where
  | idle
  | posting (request : Request) (previous : CoreState) (start : Bool) (pc : PostPc)
  | starting (previous : CoreState)
  | restoring (previous : CoreState)
  | joining
  | finishing

/-- Where the service task is in `core_service_main`. -/
inductive ServicePc where
  /-- There is no task. -/
  | stopped
  | dequeuing
  | waiting
  | taking
  | running (idx : ℕ)
  /-- In `core_ops_register`, behind its check of the state. -/
  | registering (idx : ℕ)
  | completing (idx : ℕ) (result : Except Err Unit)
  | releasing (idx : ℕ)
  | calling (request : Request)
  /-- The task has ended, and has not been joined. -/
  | exited

/-- `actrust_core_deinit_phase_t`. -/
inductive DeinitPhase where
  | job
  | queue
  | pool
  | lock
  deriving DecidableEq

/-- What happens to calls, as lists that only grow. -/
structure CoreLog where
  /-- The next call. -/
  nextCall : ℕ
  enqueued : List Request
  executed : List Request
  callbacks : List Request
  rejected : List ℕ

/-- `actrust_core_ctx_t`, and where each thread is. -/
structure CoreSystem where
  state : CoreState
  lock : Bool
  /-- `cb.fn` is set. -/
  callback : Bool
  deinitPending : Bool
  callbackActive : Bool
  deinitFinalizing : Bool
  deinitJobDone : Bool
  deinitResult : Except Err Unit
  deinitPhase : DeinitPhase
  jobPool : JobPool
  jobQueue : JobQueue
  serviceTask : Bool
  serviceResult : Except Err Unit
  contexts : CoreContexts
  api : ApiPc
  deinit : DeinitPc
  service : ServicePc
  log : CoreLog

/-- `CONFIG_ACTRUST_CORE_JOB_POOL_SIZE` and `CONFIG_ACTRUST_CORE_JOB_QUEUE_CAPACITY`, with their
ranges. -/
structure CoreConfig where
  jobPoolSize : ℕ
  jobQueueCapacity : ℕ
  jobPoolSize_range : 2 ≤ jobPoolSize ∧ jobPoolSize ≤ 32
  jobQueueCapacity_range : 2 ≤ jobQueueCapacity ∧ jobQueueCapacity ≤ 32

/-! ### Posting a job -/

/-- What the calls of `core_post_job` answer. -/
structure PostEnv where
  /-- `core_copy_init_config` or `core_copy_send_payload`, where the job has something to copy. -/
  copy : Except Err Unit
  semPost : Except Err Unit

/-- A section of `core_post_job` goes on or returns. -/
inductive PostStep where
  | next (pc : PostPc)
  | returned (result : Except Err Unit)

/-- Before the job is queued: its parameters are copied. -/
def coreCopyParams (env : PostEnv) : JobType → Except Err Unit
  | .init => env.copy
  | .send => env.copy
  | _ => .ok ()

/-- One section of `core_post_job`. -/
def corePostJob (env : PostEnv) (request : Request) (p : JobPool) (q : JobQueue) :
    PostPc → PostStep × JobPool × JobQueue
  | .allocating =>
    match actrustJobAlloc p request with
    | .error e => (.returned (.error e), p, q)
    | .ok (idx, p) => (.next (.enqueuing idx), p, q)
  | .enqueuing idx =>
    match coreCopyParams env request.type with
    | .error e => (.next (.releasing idx e), p, q)
    | .ok _ =>
      match actrustJobQueueEnqueue q env.semPost idx with
      | .error e => (.next (.releasing idx e), p, q)
      | .ok q => (.returned (.ok ()), p, q)
  | .releasing idx e =>
    match actrustJobRelease p idx with
    | .error _ => (.returned (.error e), p, q)
    | .ok p => (.returned (.error e), p, q)

/-! ### Calls -/

/-- What the calls of `actrust_init` answer. -/
structure StartCoreEnv where
  logInit : Except Err Unit
  mutexCreate : Except Err Unit
  poolInit : Except Err Unit
  queueInit : Except Err Unit
  post : PostEnv
  serviceStart : Except Err Unit

/-- The pool and the queue of `actrust_init`, with its job. -/
def initJobs (config : CoreConfig) (env : StartCoreEnv) (request : Request) :
    Except Err (JobPool × JobQueue) := do
  env.logInit
  env.mutexCreate
  env.poolInit
  env.queueInit
  let (idx, p) ← actrustJobAlloc (actrustJobPoolInit config.jobPoolSize) request
  coreCopyParams env.post request.type
  let q ← actrustJobQueueEnqueue (actrustJobQueueInit config.jobQueueCapacity) env.post.semPost idx
  env.serviceStart
  return (p, q)

/-- The call is rejected. -/
def CoreLog.reject (log : CoreLog) (call : ℕ) : CoreLog :=
  { log with rejected := log.rejected ++ [call] }

/-- The request is in the ring. -/
def CoreLog.enqueue (log : CoreLog) (request : Request) : CoreLog :=
  { log with enqueued := log.enqueued ++ [request] }

/-- Behind an `actrust_init` that succeeds. -/
def CoreSystem.started (c : CoreSystem) (p : JobPool) (q : JobQueue) (log : CoreLog) :
    CoreSystem :=
  { c with
    state := .initing
    lock := true
    jobPool := p
    jobQueue := q
    serviceTask := true
    serviceResult := .ok ()
    service := .dequeuing
    log }

/-- `actrust_init`; everything is under the lifecycle lock. When it fails, what it has made is given
back. -/
def actrustInit (config : CoreConfig) (env : StartCoreEnv) (c : CoreSystem) : CoreSystem :=
  let request := ⟨.init, c.log.nextCall⟩
  let log := { c.log with nextCall := c.log.nextCall + 1 }
  if c.lock = true ∨ c.state ≠ .uninit ∨ c.callback = false then
    { c with log := log.reject request.call }
  else
    match initJobs config env request with
    | .error _ => { c with log := log.reject request.call }
    | .ok (p, q) => c.started p q (log.enqueue request)

/-- The states in which a call is admitted. -/
def coreAdmits : JobType → CoreState → Bool
  | .connect, .ready => true
  | .disconnect, .unregistered => true
  | .disconnect, .registered => true
  | .register, .unregistered => true
  | .send, .registered => true
  | _, _ => false

/-- `core_submit_job` up to `core_post_job`, for `actrust_connect`, `actrust_disconnect`,
`actrust_register` and `actrust_data_publish`. -/
def CoreSystem.submit (c : CoreSystem) (type : JobType) : CoreSystem :=
  let request := ⟨type, c.log.nextCall⟩
  let log := { c.log with nextCall := c.log.nextCall + 1 }
  if c.lock = false ∨ c.deinitPending = true ∨ coreAdmits type c.state = false then
    { c with log := log.reject request.call }
  else { c with api := .posting request .allocating, log }

/-- `core_submit_job` from `core_post_job` on. -/
def CoreSystem.apiStep (env : PostEnv) (c : CoreSystem) : CoreSystem :=
  match c.api with
  | .idle => c
  | .posting request pc =>
    match corePostJob env request c.jobPool c.jobQueue pc with
    | (.next pc, jobPool, jobQueue) => { c with jobPool, jobQueue, api := .posting request pc }
    | (.returned (.error _), jobPool, jobQueue) =>
      { c with jobPool, jobQueue, api := .idle, log := c.log.reject request.call }
    | (.returned (.ok _), jobPool, jobQueue) =>
      { c with jobPool, jobQueue, api := .idle, log := c.log.enqueue request }

/-! ### Deinit -/

/-- `actrust_deinit` behind its first section: a job is posted, the service is waited for, or what
has been begun goes on. -/
def CoreSystem.attempt (c : CoreSystem) (new : Bool) (previous : CoreState) (request : Request) :
    DeinitPc :=
  if c.deinitPhase = .job then
    if new = true ∨
        c.serviceTask = false ∧ (c.deinitJobDone = false ∨ c.deinitResult.isOk = false) then
      .posting request previous (decide (c.serviceTask = false)) .allocating
    else .joining
  else .finishing

/-- The first section of `actrust_deinit`. -/
def actrustDeinit (c : CoreSystem) : CoreSystem :=
  let request := ⟨.deinit, c.log.nextCall⟩
  let log := { c.log with nextCall := c.log.nextCall + 1 }
  if c.lock = false ∨ c.callbackActive = true ∨ c.deinitFinalizing = true then
    { c with log := log.reject request.call }
  else if c.state = .ready ∨ c.state = .initFailed then
    let new :=
      { c with
        deinitPending := true
        deinitFinalizing := true
        deinitJobDone := false
        deinitResult := .ok ()
        deinitPhase := .job
        state := .deinit
        log }
    { new with deinit := new.attempt true c.state request }
  else if c.state ≠ .deinit ∨ c.deinitPending = false then
    { c with log := log.reject request.call }
  else
    { c with
      deinitFinalizing := true
      deinit := c.attempt false .ready request
      log }

/-- What the calls behind `core_service_stop` answer. -/
structure FinishEnv where
  close : Except Err Unit
  /-- Behind `actrust_job_queue_dequeue` in `core_drain_pending_jobs`. -/
  drain : List (Except Err Unit)
  queueDeinit : Except Err Unit
  poolDeinit : Except Err Unit
  lockDestroy : Except Err Unit

/-- What the calls of `actrust_deinit` answer. -/
structure DeinitEnv where
  post : PostEnv
  serviceStart : Except Err Unit
  /-- Behind a service that cannot be started. -/
  drain : List (Except Err Unit)
  join : Except Err Unit
  finish : FinishEnv

/-- `core_deinit_restore_state`. -/
def coreDeinitRestoreState (c : CoreSystem) (previous : CoreState) : CoreSystem :=
  { c with
    state := previous
    deinitPending := false
    deinitFinalizing := false
    deinitJobDone := false
    deinitResult := .ok ()
    deinitPhase := .job
    deinit := .idle }

/-- `core_deinit_clear_finalizing`; the attempt fails, and the deinit stays pending. -/
def coreDeinitClearFinalizing (c : CoreSystem) : CoreSystem :=
  { c with deinitFinalizing := false, deinit := .idle }

/-- What follows `core_service_stop`. -/
def CoreSystem.checkDeinitJob (c : CoreSystem) : CoreSystem :=
  if c.deinitJobDone = false then coreDeinitClearFinalizing c
  else
    match c.deinitResult with
    | .error _ => coreDeinitClearFinalizing c
    | .ok _ => { c with deinitPhase := .queue, deinit := .finishing }

/-- `core_service_stop`, and the section behind it. The join waits until the task has ended. -/
def CoreSystem.joinService (c : CoreSystem) (join : Except Err Unit) : CoreSystem :=
  if c.serviceTask = false then c.checkDeinitJob
  else
    match join, c.service with
    | .error _, _ => coreDeinitClearFinalizing c
    | .ok _, .exited =>
      let c := { c with serviceTask := false, service := .stopped }
      match c.serviceResult with
      | .error _ => coreDeinitClearFinalizing c
      | .ok _ => c.checkDeinitJob
    | .ok _, _ => c

/-- The last section of `actrust_deinit`, in the phase LOCK. -/
def CoreSystem.finishLock (env : FinishEnv) (c : CoreSystem) : CoreSystem :=
  match env.lockDestroy with
  | .error _ => coreDeinitClearFinalizing { c with deinitPhase := .lock }
  | .ok _ => { coreDeinitRestoreState c .uninit with lock := false }

/-- From the phase POOL on. -/
def CoreSystem.finishPool (env : FinishEnv) (c : CoreSystem) : CoreSystem :=
  match env.poolDeinit with
  | .error _ => coreDeinitClearFinalizing { c with deinitPhase := .pool }
  | .ok _ => c.finishLock env

/-- From the phase QUEUE on. -/
def CoreSystem.finishQueue (env : FinishEnv) (c : CoreSystem) : CoreSystem :=
  match env.close with
  | .error _ => coreDeinitClearFinalizing c
  | .ok _ =>
    let drained := coreDrainPendingJobs c.jobPool (actrustJobQueueClose c.jobQueue) env.drain
    let c := { c with jobPool := drained.1, jobQueue := drained.2 }
    match actrustJobQueueDeinit drained.2, env.queueDeinit with
    | .error _, _ => coreDeinitClearFinalizing c
    | .ok _, .error _ => coreDeinitClearFinalizing c
    | .ok _, .ok _ => c.finishPool env

/-- `actrust_deinit` goes on at the stage an earlier attempt left behind. -/
def CoreSystem.finishDeinit (env : FinishEnv) (c : CoreSystem) : CoreSystem :=
  match c.deinitPhase with
  | .job => { c with deinit := .idle }
  | .queue => c.finishQueue env
  | .pool => c.finishPool env
  | .lock => c.finishLock env

/-- An admitted `actrust_deinit` from its first section on. -/
def CoreSystem.deinitStep (env : DeinitEnv) (c : CoreSystem) : CoreSystem :=
  match c.deinit with
  | .idle => c
  | .posting request previous start pc =>
    match corePostJob env.post request c.jobPool c.jobQueue pc with
    | (.next pc, jobPool, jobQueue) =>
      { c with jobPool, jobQueue, deinit := .posting request previous start pc }
    | (.returned (.error _), jobPool, jobQueue) =>
      { c with jobPool, jobQueue, deinit := .restoring previous, log := c.log.reject request.call }
    | (.returned (.ok _), jobPool, jobQueue) =>
      { c with
        jobPool
        jobQueue
        deinit := if start then .starting previous else .joining
        log := c.log.enqueue request }
  | .starting previous =>
    match env.serviceStart with
    | .error _ =>
      let drained := coreDrainPendingJobs c.jobPool c.jobQueue env.drain
      { c with jobPool := drained.1, jobQueue := drained.2, deinit := .restoring previous }
    | .ok _ =>
      { c with
        serviceTask := true
        serviceResult := .ok ()
        service := .dequeuing
        deinit := .joining }
  | .restoring previous => coreDeinitRestoreState c previous
  | .joining => c.joinService env.join
  | .finishing => c.finishDeinit env.finish

/-! ### The service -/

/-- What the calls of the service's operations answer. -/
structure ServiceEnv where
  semWait : Except Err Unit
  init : InitEnv
  connect : ConnectEnv
  disconnect : LeaveEnv
  register : RegisterEnv
  send : Except Err Unit
  deinit : DeinitOpEnv

/-- An operation has returned. -/
def CoreSystem.executed (c : CoreSystem) (idx : ℕ) (r : OpsResult) : CoreSystem :=
  { c with
    state := r.state.getD c.state
    contexts := r.contexts
    service := .completing idx r.result
    log := { c.log with executed := c.log.executed ++ [(c.jobPool.pool idx).request] } }

/-- `core_service_dispatch_job`. -/
def CoreSystem.dispatchJob (env : ServiceEnv) (c : CoreSystem) (idx : ℕ) : CoreSystem :=
  match (c.jobPool.pool idx).request.type with
  | .init => c.executed idx (coreOpsInit env.init c.contexts)
  | .connect => c.executed idx (coreOpsConnect env.connect c.contexts)
  | .disconnect => c.executed idx (coreOpsDisconnect env.disconnect c.contexts)
  | .register =>
    if c.state ≠ .unregistered then c.executed idx ⟨.error (coreErr .badState), none, c.contexts⟩
    else { c with service := .registering idx }
  | .send => c.executed idx ⟨env.send, none, c.contexts⟩
  | .deinit => c.executed idx (coreOpsDeinit env.deinit c.contexts)
  | .none => c.executed idx ⟨.error (coreErr .unsupported), none, c.contexts⟩

/-- The first section of `core_service_complete_job`. -/
def CoreSystem.completeJob (c : CoreSystem) (idx : ℕ) (result : Except Err Unit) : CoreSystem :=
  let isDeinit := decide ((c.jobPool.pool idx).request.type = .deinit)
  { c with
    deinitResult := if isDeinit then result else c.deinitResult
    deinitJobDone := if isDeinit then true else c.deinitJobDone
    callbackActive := c.callback || c.callbackActive
    service := .releasing idx }

/-- Where `core_service_main` goes on behind a job. -/
def ServicePc.next (type : JobType) : ServicePc :=
  if type = .deinit then .exited else .dequeuing

/-- The slot is released, before the callback is called. -/
def CoreSystem.releaseJob (c : CoreSystem) (idx : ℕ) : CoreSystem :=
  let request := (c.jobPool.pool idx).request
  { c with
    jobPool :=
      match actrustJobRelease c.jobPool idx with
      | .error _ => c.jobPool
      | .ok jobPool => jobPool
    service := if c.callback then .calling request else .next request.type }

/-- One section of `core_service_main`. -/
def CoreSystem.serviceStep (env : ServiceEnv) (c : CoreSystem) : CoreSystem :=
  match c.service with
  | .stopped => c
  | .exited => c
  | .dequeuing =>
    match jobQueueEnter c.jobQueue with
    | .error _ => { c with service := .exited }
    | .ok jobQueue => { c with jobQueue, service := .waiting }
  | .waiting =>
    match env.semWait, c.jobQueue.semItems with
    | .error e, _ =>
      let left := jobQueueGiveUp c.jobQueue e
      { c with
        jobQueue := left.2
        serviceResult := if left.1 = coreErr .badState then c.serviceResult else .error left.1
        service := .exited }
    -- the wait goes on
    | .ok _, 0 => c
    | .ok _, n + 1 => { c with jobQueue := { c.jobQueue with semItems := n }, service := .taking }
  | .taking =>
    match jobQueueTake c.jobQueue with
    | (.error e, jobQueue) =>
      { c with
        jobQueue
        serviceResult := if e = coreErr .badState then c.serviceResult else .error e
        service := .exited }
    | (.ok idx, jobQueue) => { c with jobQueue, service := .running idx }
  | .running idx => c.dispatchJob env idx
  | .registering idx => c.executed idx (coreOpsRegister env.register c.contexts)
  | .completing idx result => c.completeJob idx result
  | .releasing idx => c.releaseJob idx
  | .calling request =>
    { c with
      callbackActive := false
      service := .next request.type
      log := { c.log with callbacks := c.log.callbacks ++ [request] } }

/-! ### Runs -/

/-- An action of one thread, or of the MQTT client. -/
inductive CoreAction where
  | setCallback
  | init (env : StartCoreEnv)
  /-- `actrust_connect`, `actrust_disconnect`, `actrust_register` or `actrust_data_publish`. -/
  | call (type : JobType)
  | api (env : PostEnv)
  | deinit
  | deinitStep (env : DeinitEnv)
  | service (env : ServiceEnv)
  /-- The MQTT client moves by itself. -/
  | mqtt (event : MqttEvent)

/-- The section that comes next of the service is under the core's lock. -/
def ServicePc.Locks : ServicePc → Prop
  | .running _ => True
  | .registering _ => True
  | .completing _ _ => True
  | .calling _ => True
  | _ => False

/-- The same of an admitted `actrust_deinit`. -/
def DeinitPc.Locks : DeinitPc → Prop
  | .restoring _ => True
  | .joining => True
  | .finishing => True
  | _ => False

instance (pc : ServicePc) : Decidable pc.Locks := by
  cases pc <;> unfold ServicePc.Locks <;> infer_instance

instance (pc : DeinitPc) : Decidable pc.Locks := by
  cases pc <;> unfold DeinitPc.Locks <;> infer_instance

instance (pc : ApiPc) : Decidable (pc = .idle) :=
  match pc with
  | .idle => isTrue rfl
  | .posting _ _ => isFalse nofun

/-- A section that needs a lock which the call holds that posts its job has to wait. -/
def CoreSystem.step (config : CoreConfig) (c : CoreSystem) : CoreAction → Unit × CoreSystem
  | .setCallback =>
    ((), if c.api = .idle ∧ c.lock = false ∧ c.state = .uninit then { c with callback := true }
      else c)
  | .init env => ((), if c.api = .idle then actrustInit config env c else c)
  | .call type => ((), if c.api = .idle then c.submit type else c)
  | .api env => ((), c.apiStep env)
  | .deinit => ((), if c.api = .idle then actrustDeinit c else c)
  | .deinitStep env =>
    ((), if c.deinit.Locks ∧ c.api ≠ .idle then c else c.deinitStep env)
  | .service env =>
    ((), if c.service.Locks ∧ c.api ≠ .idle then c else c.serviceStep env)
  | .mqtt event =>
    ((), { c with contexts := { c.contexts with mqtt := c.contexts.mqtt.after event } })

/-- Before the first call; nothing is done with the pool and the queue before `actrust_init` makes
them. -/
def CoreSystem.initial (config : CoreConfig) : CoreSystem where
  state := .uninit
  lock := false
  callback := false
  deinitPending := false
  callbackActive := false
  deinitFinalizing := false
  deinitJobDone := false
  deinitResult := .ok ()
  deinitPhase := .job
  jobPool := actrustJobPoolInit config.jobPoolSize
  jobQueue := actrustJobQueueInit config.jobQueueCapacity
  serviceTask := false
  serviceResult := .ok ()
  contexts := ⟨false, false, false, false, false, ⟨false, false⟩, ⟨false, false⟩, .disconnected⟩
  api := .idle
  deinit := .idle
  service := .stopped
  log := ⟨0, [], [], [], []⟩

/-! ### An environment in which every call succeeds -/

/-- Starting succeeds. -/
def StartEnv.works : StartEnv := ⟨.ok (), .ok ()⟩

/-- Stopping succeeds. -/
def StopEnv.works : StopEnv := ⟨.ok (), .ok ()⟩

/-- The cloud layer succeeds. -/
def CloudEnv.works : CloudEnv := ⟨.ok (), .disconnected⟩

/-- Leaving succeeds. -/
def LeaveEnv.works : LeaveEnv := ⟨.works, .works, .works⟩

/-- Posting succeeds. -/
def PostEnv.works : PostEnv := ⟨.ok (), .ok ()⟩

/-- `actrust_init` succeeds. -/
def StartCoreEnv.works : StartCoreEnv :=
  ⟨.ok (), .ok (), .ok (), .ok (), .works, .ok ()⟩

/-- `actrust_deinit` succeeds. -/
def DeinitEnv.works : DeinitEnv :=
  ⟨.works, .ok (), [], .ok (), ⟨.ok (), [], .ok (), .ok (), .ok ()⟩⟩

/-- The device is not registered, and has its signing key. -/
def ServiceEnv.works : ServiceEnv where
  semWait := .ok ()
  init := ⟨.ok (), .ok (), .ok false, .ok (), .ok (), .ok (), .ok (), .ok (), .ok (), .ok (), .ok ()⟩
  connect := ⟨.works, .works, .ok false, .works, .works⟩
  disconnect := .works
  register := ⟨.ok (), true, .ok ()⟩
  send := .ok ()
  deinit := ⟨.works, .works, .ok (), .ok (), .ok (), .ok ()⟩

/-- `actrust_init`, and its job; the service executes a job in seven sections. -/
def initRun : List CoreAction :=
  [.setCallback, .init .works] ++ List.replicate 7 (.service .works)

end TrustSdk.Core.Service
