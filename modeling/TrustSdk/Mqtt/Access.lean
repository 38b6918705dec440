import TrustSdk.Lib.Threads
import TrustSdk.Mqtt.System

/-!
# The accesses of the MQTT client's calls

The calls of `MqttSystem`, one access to the client's lock or to a semaphore after the other. A
section is a step that takes the lock, with what leads up to it; the unlock and the post behind it
are steps of their own, and other calls can come in between. A call that finds the lock taken stays
where it is. What a wait for a semaphore answers is up to the environment.

* `MqttClosing` — `actrust_mqtt_deinit`, with its looks at the client and its waits;
* `MqttPlace.step` — one access of one call.
-/

namespace TrustSdk.Mqtt

/-- The semaphores of the client. -/
inductive MqttSem where
  | processDone
  | commandDone
  | lifecycleDone
  deriving DecidableEq, Repr

/-- What the calls share. -/
structure MqttShared where
  core : MqttCore
  lock : Bool
  /-- The client is freed. -/
  freed : Bool

/-- `actrust_mqtt_deinit`. A look is a section that reads, a wait is one on a semaphore. -/
inductive MqttClosing where
  | beginning
  | checking
  | signalling
  | terminating
  /-- `mqtt_wait_for_process_stop`. -/
  | stopLooking
  | stopWaiting
  | stopLooked
  /-- `mqtt_wait_for_command_claim`. -/
  | claimLooking
  | claimWaiting
  /-- In `MQTTAgent_CancelAll`. -/
  | cancelling (work : MqttWork)
  | cancelled (status : MqttStatus)
  | releasing
  /-- `mqtt_wait_for_lifecycle_idle`. -/
  | idleLooking
  | idleWaiting
  | destroying
  | aborting (e : Err)
  | returned (result : Except Err Unit)

/-- What a call does next. -/
inductive MqttTask where
  | call (thread : MqttThread)
  | deinit (pc : MqttClosing)

/-- Where a call is: before an access, in a section, or with a post left behind one. -/
inductive MqttPlace where
  | ready (task : MqttTask)
  | locked (post : Option MqttSem) (next : MqttTask)
  | posting (sem : MqttSem) (next : MqttTask)

/-- Where a call starts. -/
def MqttCall.place (api : MqttCall) : MqttPlace := .ready (.call (.call api))

/-! ### Which steps are sections -/

/-- The step of the replay takes the mutex. -/
def MqttReplay.locks : MqttReplay → Bool
  | .slot i => i < mqttSubscriptionMax
  | .handOver _ => true
  | .rollBack _ => true

/-- The agent completes a command, or returns, without the client's lock. -/
def MqttWork.locks (env : MqttEnv) : MqttWork → Bool
  | .idle =>
    match env.agent with
    | .receive | .deliver _ => true
    | .complete _ _ | .quit _ => false
  | .replaying replay => replay.locks
  | _ => true

/-- The step of the process call takes the mutex. -/
def MqttProcess.locks (env : MqttEnv) : MqttProcess → Bool
  | .looping work => work.locks env
  | .scheduling => !env.expired
  | .opening _ => false
  | .connecting _ => false
  | .resuming _ _ work => !(work = .idle ∧ env.agent.inResume = false) && work.locks env
  | .replaying replay => replay.locks
  | _ => true

/-- The step of the thread takes the mutex. -/
def MqttThread.locks (env : MqttEnv) : MqttThread → Bool
  | .call .process => false
  | .call .deinit => false
  | .call (.subscribe topic _) => !(topic.length = 0 ∨ topic.length ≥ mqttTopicMaxLen)
  | .connectBegun _ _ => env.result.toOption.isSome
  | .connectInstalled _ => false
  | .terminating => false
  | .process pc => pc.locks env
  | .returned _ => false
  | _ => true

/-- The step of deinit takes the mutex. -/
def MqttClosing.locks (env : MqttEnv) : MqttClosing → Bool
  | .terminating => false
  | .stopWaiting => false
  | .claimWaiting => false
  | .cancelling work => work.locks env
  | .cancelled status => status ≠ .success
  | .idleWaiting => false
  | .destroying => false
  | .returned _ => false
  | _ => true

/-! ### What is posted behind a section -/

/-- `mqtt_signal_lifecycle_idle`, when the section finds the closing client idle. -/
def mqttSignalLifecycleIdle (mqtt : MqttClient) : Option MqttSem :=
  if mqtt.lifecycle = .closing ∧ mqttLifecycleIdleLocked mqtt = true then some .lifecycleDone
  else none

/-- `mqtt_release_command_claim`. -/
def mqttReleaseCommandClaimLocked (m : MqttCore) : MqttCore × Option MqttSem :=
  (mqttReleaseClaim m, if m.client.commandActive then some .commandDone else none)

/-- The client before and behind the section. -/
def MqttWork.posts (env : MqttEnv) (before m : MqttCore) : MqttWork → Option MqttSem
  | .idle =>
    if env.agent = .receive then (mqttReleaseCommandClaimLocked before).2 else none
  | .dropped => mqttSignalLifecycleIdle m.client
  | .leaving => mqttSignalLifecycleIdle m.client
  | .delivering => mqttSignalLifecycleIdle m.client
  | _ => none

/-- The client before and behind the section. -/
def MqttThread.posts (env : MqttEnv) (before m : MqttCore) : MqttThread → Option MqttSem
  | .leaving _ => mqttSignalLifecycleIdle m.client
  | .process (.looping work) => work.posts env before m
  -- nothing is received while a session is resumed
  | .process (.resuming _ _ work) => if work = .idle then none else work.posts env before m
  | .process (.looped _) => (mqttReleaseCommandClaimLocked before).2
  | .process (.stopping _) => some .processDone
  | _ => none

/-! ### Steps -/

/-- One step of `actrust_mqtt_deinit`: the client, what is to be posted, and where it goes on. -/
def MqttClosing.step (env : MqttEnv) (m : MqttCore) :
    MqttClosing → MqttCore × Option MqttSem × MqttClosing
  | .beginning =>
    match mqttBeginDeinit m.client with
    | .error e => (m, none, .returned (.error e))
    | .ok client => ({ m with client }, none, .checking)
  | .checking => (m, none, if m.client.processRunning then .signalling else .claimLooking)
  | .signalling =>
    ({ m with client := { m.client with processStopRequested := true } }, none,
      if m.client.processRunning then .terminating else .stopLooking)
  | .terminating =>
    match mqttEnqueue m .terminate env.refusal with
    | (status, m') =>
      match mqttEnqueueStatusToErr status with
      | .error e => (m', none, .aborting e)
      | .ok _ => (m', none, .stopLooking)
  | .stopLooking => (m, none, if m.client.processRunning then .stopWaiting else .claimLooking)
  | .stopWaiting =>
    match env.result with
    | .error _ => (m, none, .aborting (mqttErr .timeout))
    | .ok _ => (m, none, .stopLooked)
  | .stopLooked =>
    (m, none, if m.client.processRunning then .aborting (mqttErr .busy) else .claimLooking)
  | .claimLooking =>
    if m.client.commandActive = false then
      (m, none, if m.client.agentCancelled then .releasing else .cancelling .idle)
    else if env.expired then (m, none, .aborting (mqttErr .timeout))
    else (m, none, .claimWaiting)
  | .claimWaiting => (m, none, .claimLooking)
  | .cancelling work =>
    match mqttAgentCancel env m work with
    | (m', .inl work') => (m', work.posts env m m', .cancelling work')
    | (m', .inr status) => (m', none, .cancelled status)
  | .cancelled status =>
    if status = .success then
      ({ m with client := { m.client with agentCancelled := true } }, none, .releasing)
    else
      ({ m with client := mqttDeinitAbort m.client }, none, .returned (mqttStatusToErr status))
  | .releasing => ((mqttReleaseCommandClaimLocked m).1, (mqttReleaseCommandClaimLocked m).2, .idleLooking)
  | .idleLooking =>
    if mqttLifecycleIdleLocked m.client then (m, none, .destroying)
    else if env.expired then (m, none, .aborting (mqttErr .timeout))
    else (m, none, .idleWaiting)
  | .idleWaiting => (m, none, .idleLooking)
  | .destroying =>
    match env.result with
    | .error e => (m, none, .aborting e)
    | .ok _ => (m, none, .returned (.ok ()))
  | .aborting e =>
    ({ m with client := mqttDeinitAbort m.client }, none, .returned (.error e))
  | .returned result => (m, none, .returned result)

/-- The thread is about to deinit. -/
def MqttThread.deiniting : MqttThread → Bool
  | .call .deinit => true
  | _ => false

/-- The step takes the mutex. -/
def MqttTask.locks (env : MqttEnv) : MqttTask → Bool
  | .call thread => thread.locks env
  | .deinit pc => pc.locks env

/-- A step of a call or of deinit, with the semaphore it posts. -/
def MqttTask.step (env : MqttEnv) (m : MqttCore) :
    MqttTask → MqttCore × Option MqttSem × MqttTask
  | .call thread =>
    if thread.deiniting then (m, none, .deinit .beginning)
    else
      ((thread.step env m).1, thread.posts env m (thread.step env m).1,
        .call (thread.step env m).2)
  | .deinit pc => ((pc.step env m).1, (pc.step env m).2.1, .deinit (pc.step env m).2.2)

/-- The step with which `actrust_mqtt_deinit` frees the client. -/
def MqttTask.frees (env : MqttEnv) : MqttTask → Bool
  | .deinit .destroying => env.result.toOption.isSome
  | _ => false

/-- One access of a call. -/
def MqttPlace.step (env : MqttEnv) (s : MqttShared) : MqttPlace → MqttShared × MqttPlace
  | .ready task =>
    if task.locks env then
      if s.lock then (s, .ready task)
      else
        ({ s with core := (task.step env s.core).1, lock := true },
          .locked (task.step env s.core).2.1 (task.step env s.core).2.2)
    else
      ({ s with core := (task.step env s.core).1, freed := s.freed || task.frees env },
        .ready (task.step env s.core).2.2)
  | .locked post next =>
    ({ s with lock := false }, match post with
      | none => .ready next
      | some sem => .posting sem next)
  | .posting _ next => (s, .ready next)

/-- The threads inside the calls, with the mutex and the semaphores. -/
abbrev AccessSystem := Threads.System MqttShared MqttPlace

/-- A new call, or an access of one. -/
abbrev AccessAction := Threads.Action MqttCall MqttEnv

/-- One access of one thread. -/
def AccessSystem.step : AccessSystem → AccessAction → Unit × AccessSystem :=
  Threads.step MqttCall.place MqttPlace.step

/-- The client after `actrust_mqtt_init`. -/
def AccessSystem.initial : AccessSystem := ⟨⟨⟨.initial, [], []⟩, false, false⟩, []⟩

end TrustSdk.Mqtt
