import TrustSdk.Lib.Machine
import TrustSdk.Mqtt.Client

/-!
# The MQTT client with its threads and its agent

Any number of calls run at a time, each a program counter (`MqttThread`) that advances from
one section under the client's lock to the next. The agent is coreMQTT-Agent: it owns the
operations it has accepted, first in the command queue, then in its own hands (`taken`), and
calls each completion once. What it decides, and what the transport, the clock and the broker
decide, are the answers of the environment (`MqttEnv`), so that a run is a list of actions.

* `MqttProcess` — the process loop, with the agent's command loop inside it;
* `MqttThread.step` — one section of one call;
* `MqttSystem.step` — one action: a call starts, or a call under way takes its next step.
-/

namespace TrustSdk.Mqtt

/-! ### Program counters -/

/-- `mqtt_replay_subscriptions`: at a slot, handing the command for a marked slot to the
agent, or taking the mark back. -/
inductive MqttReplay where
  | slot (i : ℕ)
  | handOver (op : MqttReplayOperation)
  | rollBack (op : MqttReplayOperation)
  deriving DecidableEq, Repr

/-- What the thread in the agent does: nothing yet, or something inside `mqtt_agent_recv` or another
callback. -/
inductive MqttWork where
  | idle
  /-- In `mqtt_agent_recv`: the claim is released, and a command is to be popped. -/
  | receiving
  /-- In `mqtt_agent_recv`, which completes a command of another connection. -/
  | dropping (op : MqttOperation)
  /-- In `mqtt_agent_recv`: the operation is freed; `mqtt_operation_leave` is left. -/
  | dropped
  /-- In `mqtt_agent_command_complete`, before its section. -/
  | completing (op : MqttOperation) (info : MqttReturnInfo)
  | replaying (replay : MqttReplay)
  /-- The operation is freed; `mqtt_operation_leave` is left. -/
  | leaving
  /-- In the user's message callback. -/
  | delivering
  deriving DecidableEq, Repr

/-- `actrust_mqtt_process`, with `mqtt_reconnect_with_backoff` and `mqtt_try_schedule_connect`. -/
inductive MqttProcess where
  | start
  | entered
  | top
  | looping (work : MqttWork)
  /-- The command loop has returned; the claim is released, then the state and the stop flag
  are read. -/
  | looped (status : MqttStatus)
  | claimReleased (status : MqttStatus)
  | stateRead (status : MqttStatus) (state : MqttState)
  | lost
  | backOff
  | retry
  | scheduling
  | rescheduling
  | opening (generation : UInt32)
  | openFailed (generation : UInt32)
  | connecting (generation : UInt32)
  | resuming (generation : UInt32) (sessionPresent : Bool) (work : MqttWork)
  | resumed (generation : UInt32) (sessionPresent : Bool)
  | replaying (replay : MqttReplay)
  | giveUp (result : Except Err Unit)
  | ending (result : Except Err Unit)
  | settling (result : Except Err Unit)
  | stopping (result : Except Err Unit)

/-- `actrust_mqtt_deinit` after its first section. What the semaphores answer is up to the
environment, and so is whether the resources are released. -/
inductive MqttDeinit where
  | begun
  | signalling
  | terminating
  | waiting
  | claiming
  /-- In `MQTTAgent_CancelAll`. -/
  | cancelling (work : MqttWork)
  | cancelled (status : MqttStatus)
  | releasing
  | draining
  | destroying
  | aborting (e : Err)

/-- A call of the client. -/
inductive MqttCall where
  | connect
  | disconnect
  | subscribe (topic : Topic) (unsubscribe : Bool)
  | publish
  | process
  | stopProcess
  | deinit

/-- A call under way, or its result. -/
inductive MqttThread where
  | call (api : MqttCall)
  | connectEntered
  | connectBegun (previous : MqttState) (generation : UInt32)
  | connectReleasing (previous : MqttState) (generation : UInt32) (e : Err)
  | connectInstalled (generation : UInt32)
  | connectOpened (generation : UInt32)
  | connectFailed (e : Err)
  | connectWaiting (generation : UInt32)
  | connectCancelling (generation : UInt32) (e : Err)
  | disconnectEntered
  | disconnectWaiting (generation : UInt32)
  | disconnectAborting (generation : UInt32) (e : Err)
  | subscribeEntered (topic : Topic) (unsubscribe : Bool)
  | publishEntered
  | stopProcessEntered
  | stopProcessChecked
  | terminating
  | deinit (pc : MqttDeinit)
  | process (pc : MqttProcess)
  | leaving (result : Except Err Unit)
  | returned (result : Except Err Unit)

/-! ### The agent and the environment -/

/-- An entry of the command queue. -/
inductive MqttCommand where
  | operation (op : MqttOperation)
  | terminate
  deriving DecidableEq, Repr

/-- The client and the agent: the commands in the queue, and the operations that the agent has
taken from it and not completed yet. -/
structure MqttCore where
  client : MqttClient
  queue : List MqttCommand
  taken : List MqttOperation

/-- What the agent does next. -/
inductive MqttAgentAction where
  | receive
  | complete (k : ℕ) (info : MqttReturnInfo)
  | deliver (hasCallback : Bool)
  | quit (status : MqttStatus)
  deriving DecidableEq, Repr

/-- A status with which the agent refuses a command. It answers `MQTTNeedMoreBytes`, which the
client takes for success, to a receive only. -/
abbrev MqttRefusal := { status : MqttStatus // status ≠ .success ∧ status ≠ .needMoreBytes }

/-- The answers that the environment gives to one step. -/
structure MqttEnv where
  agent : MqttAgentAction
  /-- The agent refuses a command. -/
  refusal : Option MqttRefusal
  /-- The status of `MQTT_Connect`. -/
  status : MqttStatus
  /-- The result of a call into the adapter, or of copying a configuration. -/
  result : Except Err Unit
  sessionPresent : Bool
  /-- The deadline of a wait has passed, or the backoff has no retry left. -/
  expired : Bool

/-- Hand a command to the agent. It may refuse it, and does when the queue is full. -/
def mqttEnqueue (m : MqttCore) (command : MqttCommand) (refusal : Option MqttRefusal) :
    MqttStatus × MqttCore :=
  match refusal with
  | some refused => (refused.1, m)
  | none =>
    if m.queue.length ≥ mqttQueueCapacity then (.sendFailed, m)
    else (.success, { m with queue := m.queue ++ [command] })

/-- Hand an operation to the agent; an accepted one is in flight. -/
def mqttEnqueueOperation (m : MqttCore) (op : MqttOperation) (refusal : Option MqttRefusal) :
    Except Err Unit × MqttCore :=
  match mqttEnqueue m (.operation op) refusal with
  | (.success, m') => (.ok (), { m' with client := mqttOperationEnter m'.client })
  | (refused, _) => (mqttEnqueueStatusToErr refused, m)

/-! ### Steps -/

/-- `mqtt_release_command_claim`, with which `mqtt_agent_recv` begins. -/
def mqttReleaseClaim (m : MqttCore) : MqttCore :=
  { m with client := { m.client with commandActive := false } }

/-- A round of the loop in `mqtt_agent_recv`: the agent gets control back with the claim, or a
command of another connection is to be completed at once. `none` is a terminate command. -/
def mqttAgentRecv (m : MqttCore) : MqttCore × Option MqttWork :=
  match m.queue with
  | [] => ({ m with client := { m.client with commandActive := true } }, some .idle)
  | .terminate :: queue =>
    ({ m with queue, client := { m.client with commandActive := true } }, none)
  | .operation op :: queue =>
    if mqttCommandValid m.client op then
      ({ client := { m.client with commandActive := true }, queue, taken := m.taken ++ [op] },
        some .idle)
    else ({ m with queue }, some (.dropping op))

/-- What a command is completed with that `mqtt_agent_recv` drops. -/
def mqttDropInfo : MqttReturnInfo := ⟨.recvFailed, none, false⟩

/-- One step of `mqtt_replay_subscriptions`; `none` at its end. -/
def MqttReplay.step (env : MqttEnv) (m : MqttCore) : MqttReplay → MqttCore × Option MqttReplay
  | .slot i =>
    if h : i < mqttSubscriptionMax then
      match mqttReplayMark m.client ⟨i, h⟩ with
      | none => (m, some (.slot (i + 1)))
      | some (op, client) => ({ m with client }, some (.handOver op))
    else (m, none)
  | .handOver op =>
    match mqttEnqueueOperation m op.1 env.refusal with
    | (.ok _, m') => (m', some (.slot (op.1.subscriptionIndex + 1)))
    | (.error _, m') => (m', some (.rollBack op))
  | .rollBack op =>
    ({ m with
        client := mqttSubscriptionRollbackLocked m.client op.1.subscriptionIndex
          op.1.subscriptionToken .active },
      some (.slot (op.1.subscriptionIndex + 1)))

/-- The section of `mqtt_agent_command_complete`, and what is left of the callback. -/
def mqttAgentCommandComplete (m : MqttCore) (op : MqttOperation) (info : MqttReturnInfo) :
    MqttCore × MqttWork :=
  match op.type with
  | .connect =>
    let (accepted, client) :=
      mqttCompleteConnectAttempt m.client op.generation info.returnCode
    ({ m with client },
      if accepted ∧ info.returnCode = .success ∧ info.sessionPresent = false then
        .replaying (.slot 0)
      else .leaving)
  | .disconnect => ({ m with client := mqttDisconnectComplete m.client op info }, .leaving)
  | .publish => ({ m with client := mqttPublishComplete m.client op info }, .leaving)
  | .subscribe | .unsubscribe =>
    ({ m with client := mqttSubscribeComplete m.client op info }, .leaving)

/-- One step inside the agent; an action that is not possible changes nothing, and `Sum.inr`
is the status the agent returns with. -/
def MqttWork.step (env : MqttEnv) (m : MqttCore) : MqttWork → MqttCore × (MqttWork ⊕ MqttStatus)
  | .idle =>
    match env.agent with
    | .receive => (mqttReleaseClaim m, .inl .receiving)
    | .complete k info =>
      match m.taken[k]? with
      | none => (m, .inl .idle)
      | some op => ({ m with taken := m.taken.eraseIdx k }, .inl (.completing op info))
    | .deliver hasCallback =>
      match mqttCallbackEnter hasCallback m.client with
      | none => (m, .inl .idle)
      | some client => ({ m with client }, .inl .delivering)
    | .quit status => (m, .inr status)
  | .receiving =>
    match mqttAgentRecv m with
    | (m', some work) => (m', .inl work)
    | (m', none) => (m', .inr .success)
  | .dropping op => ((mqttAgentCommandComplete m op mqttDropInfo).1, .inl .dropped)
  | .dropped => ({ m with client := mqttOperationLeave m.client }, .inl .receiving)
  | .completing op info =>
    let (m', work) := mqttAgentCommandComplete m op info
    (m', .inl work)
  | .replaying replay =>
    match replay.step env m with
    | (m', some replay') => (m', .inl (.replaying replay'))
    | (m', none) => (m', .inl .leaving)
  | .leaving => ({ m with client := mqttOperationLeave m.client }, .inl .idle)
  | .delivering => ({ m with client := mqttCallbackLeave m.client }, .inl .idle)

/-- While it resumes a session the agent completes operations, and receives nothing. -/
def MqttAgentAction.inResume : MqttAgentAction → Bool
  | .complete _ _ | .quit _ => true
  | .receive | .deliver _ => false

/-- `mqtt_set_state`, a section of its own. -/
def mqttSetState (m : MqttCore) (state : MqttState) : MqttCore :=
  { m with client := { m.client with state } }

/-- One step of the process loop. -/
def MqttProcess.step (env : MqttEnv) (m : MqttCore) : MqttProcess → MqttCore × MqttThread
  | .start =>
    match mqttApiEnter m.client with
    | .error e => (m, .returned (.error e))
    | .ok client => ({ m with client }, .process .entered)
  | .entered =>
    match mqttMarkProcessStarted m.client with
    | .error e => (m, .leaving (.error e))
    | .ok client => ({ m with client }, .process .top)
  | .top =>
    if m.client.processStopRequested then (m, .process (.ending (.ok ())))
    else (m, .process (.looping .idle))
  | .looping work =>
    match work.step env m with
    | (m', .inl work') => (m', .process (.looping work'))
    | (m', .inr status) => (m', .process (.looped status))
  | .looped status =>
    ({ m with client := { m.client with commandActive := false } },
      .process (.claimReleased status))
  | .claimReleased status => (m, .process (.stateRead status m.client.state))
  | .stateRead status state =>
    if status = .success ∨ m.client.processStopRequested then (m, .process (.ending (.ok ())))
    else if state = .waitingReconnect ∨ status.lost then (m, .process .lost)
    else (m, .process (.ending (mqttStatusToErr status)))
  | .lost =>
    if m.client.lifecycle = .closing then (m, .process (.ending (.ok ())))
    else (m, .process .backOff)
  | .backOff => (mqttSetState m .waitingReconnect, .process .retry)
  | .retry =>
    if m.client.processStopRequested then (m, .process (.giveUp (.error (mqttErr .badState))))
    else (m, .process .scheduling)
  | .scheduling =>
    if env.expired then (m, .process (.giveUp (.error (mqttErr .mqttReconnectFailed))))
    else if m.client.processStopRequested then (m, .process .backOff)
    else (m, .process .rescheduling)
  | .rescheduling =>
    let (generation, client) := mqttRescheduleConnect m.client
    ({ m with client }, .process (.opening generation))
  | .opening generation =>
    match env.result with
    | .error _ => (m, .process (.openFailed generation))
    | .ok _ => (m, .process (.connecting generation))
  | .openFailed generation =>
    (if m.client.connectGeneration = generation then mqttSetState m .waitingReconnect else m,
      .process .backOff)
  | .connecting generation =>
    if env.status = .success then (m, .process (.resuming generation env.sessionPresent .idle))
    else
      match mqttStatusToErr env.status with
      | .error _ => (m, .process .backOff)
      | .ok _ => (m, .process .top)
  | .resuming generation sessionPresent work =>
    if work = .idle ∧ env.agent.inResume = false then
      (m, .process (.resuming generation sessionPresent work))
    else
      match work.step env m with
      | (m', .inl work') => (m', .process (.resuming generation sessionPresent work'))
      | (m', .inr status) =>
        if status = .success then (m', .process (.resumed generation sessionPresent))
        else
          match mqttStatusToErr status with
          | .error _ => (m', .process .backOff)
          | .ok _ => (m', .process .top)
  | .resumed generation sessionPresent =>
    (if m.client.connectGeneration = generation ∧ m.client.state = .connecting then
        mqttSetState m .connected
      else m,
      .process (if sessionPresent then .top else .replaying (.slot 0)))
  | .replaying replay =>
    match replay.step env m with
    | (m', some replay') => (m', .process (.replaying replay'))
    | (m', none) => (m', .process .top)
  | .giveUp result =>
    (m, .process (.ending (if m.client.processStopRequested then .ok () else result)))
  | .ending result =>
    if m.client.lifecycle = .closing then (m, .process (.stopping result))
    else (m, .process (.settling result))
  | .settling result => (mqttSetState m .disconnected, .process (.stopping result))
  | .stopping result => ({ m with client := mqttMarkProcessStopped m.client }, .leaving result)

/-- The beginning of a call: its checks, and `mqtt_api_enter`. -/
def MqttCall.step (m : MqttCore) (api : MqttCall) : MqttCore × MqttThread :=
  let enter (next : MqttThread) : MqttCore × MqttThread :=
    match mqttApiEnter m.client with
    | .error e => (m, .returned (.error e))
    | .ok client => ({ m with client }, next)
  match api with
  | .connect => enter .connectEntered
  | .disconnect => enter .disconnectEntered
  | .subscribe topic unsubscribe =>
    if topic.length = 0 ∨ topic.length ≥ mqttTopicMaxLen then
      (m, .returned (.error (mqttErr .invalidArg)))
    else enter (.subscribeEntered topic unsubscribe)
  | .publish => enter .publishEntered
  | .process => (m, .process .start)
  | .stopProcess => enter .stopProcessEntered
  | .deinit =>
    match mqttBeginDeinit m.client with
    | .error e => (m, .returned (.error e))
    | .ok client => ({ m with client }, .deinit .begun)

/-- The agent completes what it has taken, and takes what is left in the queue: a terminate
command does not end it. -/
def mqttAgentCancel (env : MqttEnv) (m : MqttCore) (work : MqttWork) :
    MqttCore × (MqttWork ⊕ MqttStatus) :=
  match work, env.agent with
  | .receiving, _ => let (m', work') := mqttAgentRecv m; (m', .inl (work'.getD .idle))
  | .idle, .deliver _ => (m, .inl .idle)
  | _, _ => work.step env m

/-- The sections of `actrust_mqtt_deinit`, in order; each failing one leaves through `.aborting`. -/
def MqttDeinit.step (env : MqttEnv) (m : MqttCore) : MqttDeinit → MqttCore × MqttThread
  | .begun => (m, .deinit (if m.client.processRunning then .signalling else .claiming))
  | .signalling =>
    ({ m with client := { m.client with processStopRequested := true } },
      .deinit (if m.client.processRunning then .terminating else .waiting))
  | .terminating =>
    match mqttEnqueue m .terminate env.refusal with
    | (status, m') =>
      match mqttEnqueueStatusToErr status with
      | .error e => (m', .deinit (.aborting e))
      | .ok _ => (m', .deinit .waiting)
  | .waiting =>
    if m.client.processRunning = false then (m, .deinit .claiming)
    else if env.expired then (m, .deinit (.aborting (mqttErr .timeout)))
    else
      match env.result with
      | .error _ => (m, .deinit .waiting)
      -- a semaphore that was posted too early
      | .ok _ => (m, .deinit (.aborting (mqttErr .busy)))
  | .claiming =>
    if m.client.commandActive = false then
      (m, .deinit (if m.client.agentCancelled then .releasing else .cancelling .idle))
    else if env.expired then (m, .deinit (.aborting (mqttErr .timeout)))
    else (m, .deinit .claiming)
  | .cancelling work =>
    match mqttAgentCancel env m work with
    | (m', .inl work') => (m', .deinit (.cancelling work'))
    | (m', .inr status) => (m', .deinit (.cancelled status))
  | .cancelled status =>
    if status = .success then
      ({ m with client := { m.client with agentCancelled := true } }, .deinit .releasing)
    else
      ({ m with client := mqttDeinitAbort m.client }, .returned (mqttStatusToErr status))
  | .releasing =>
    ({ m with client := { m.client with commandActive := false } }, .deinit .draining)
  | .draining =>
    if mqttLifecycleIdleLocked m.client then (m, .deinit .destroying)
    else if env.expired then (m, .deinit (.aborting (mqttErr .timeout)))
    else (m, .deinit .draining)
  | .destroying =>
    match env.result with
    | .error e => (m, .deinit (.aborting e))
    | .ok _ => (m, .returned (.ok ()))
  | .aborting e => ({ m with client := mqttDeinitAbort m.client }, .returned (.error e))

/-- The section of `actrust_mqtt_disconnect`, which hands the command over under the lock. -/
def mqttDisconnectLocked (m : MqttCore) (refusal : Option MqttRefusal) : MqttCore × MqttThread :=
  if m.client.state ≠ .connected then (m, .leaving (.error (mqttErr .badState)))
  else
    let client := { m.client with state := .disconnecting, disconnectResultValid := false }
    let op := ⟨.disconnect, m.client.connectGeneration, 0, 0, []⟩
    match mqttEnqueueOperation { m with client } op refusal with
    | (.ok _, m') => (m', .disconnectWaiting m.client.connectGeneration)
    | (.error e, m') => (mqttSetState m' .connected, .leaving (.error e))

/-- The section of `actrust_mqtt_subscribe` and `actrust_mqtt_unsubscribe`: the reservation
and the command are one step. -/
def mqttSubscribeLocked (m : MqttCore) (topic : Topic) (unsubscribe : Bool)
    (refusal : Option MqttRefusal) : MqttCore × Except Err Unit :=
  if m.client.state ≠ .connected then (m, .error (mqttErr .badState))
  else
    match mqttSubscriptionReserveLocked m.client topic unsubscribe with
    | .error e => (m, .error e)
    | .ok ((index, token), client) =>
      let type := if unsubscribe then .unsubscribe else .subscribe
      let op := ⟨type, m.client.connectGeneration, index, token, topic⟩
      match mqttEnqueueOperation { m with client } op refusal with
      | (.ok _, m') => (m', .ok ())
      | (.error e, m') =>
        ({ m' with
            client := mqttSubscriptionRollbackLocked m'.client index token
              (if unsubscribe then .active else .empty) },
          .error e)

/-- `actrust_mqtt_publish` between its lock and unlock: the operation is handed over or refused. -/
def mqttPublishLocked (m : MqttCore) (refusal : Option MqttRefusal) :
    MqttCore × Except Err Unit :=
  if m.client.state ≠ .connected then (m, .error (mqttErr .badState))
  else
    match mqttEnqueueOperation m ⟨.publish, m.client.connectGeneration, 0, 0, []⟩ refusal with
    | (result, m') => (m', result)

/-- One step of a call. -/
def MqttThread.step (env : MqttEnv) (m : MqttCore) : MqttThread → MqttCore × MqttThread
  | .call api => api.step m
  | .connectEntered =>
    match mqttBeginConnect m.client with
    | .error e => (m, .leaving (.error e))
    | .ok ((previous, generation), client) =>
      ({ m with client }, .connectBegun previous generation)
  | .connectBegun previous generation =>
    match env.result with
    | .error e => (m, .connectReleasing previous generation e)
    | .ok _ =>
      match mqttInstallConfig m.client generation with
      | .error e => (m, .connectReleasing previous generation e)
      | .ok _ => (m, .connectInstalled generation)
  | .connectReleasing previous generation e =>
    ({ m with client := mqttReleaseConnectReservation m.client generation previous },
      .leaving (.error e))
  | .connectInstalled generation =>
    match env.result with
    | .error e => (m, .connectFailed e)
    | .ok _ => (m, .connectOpened generation)
  | .connectOpened generation =>
    match mqttEnqueueOperation m ⟨.connect, generation, 0, 0, []⟩ env.refusal with
    | (.ok _, m') => (m', .connectWaiting generation)
    | (.error e, m') => (m', .connectFailed e)
  | .connectFailed e => (mqttSetState m .disconnected, .leaving (.error e))
  | .connectWaiting generation =>
    match mqttConnectResult m.client generation with
    | some (.ok _) => (m, .leaving (.ok ()))
    | some (.error e) => (m, .connectCancelling generation e)
    | none =>
      if env.expired then (m, .connectCancelling generation (mqttErr .timeout))
      else (m, .connectWaiting generation)
  | .connectCancelling generation e =>
    ({ m with client := mqttCancelConnectAttempt m.client generation }, .leaving (.error e))
  | .disconnectEntered => mqttDisconnectLocked m env.refusal
  | .disconnectWaiting generation =>
    match mqttDisconnectResult m.client generation with
    | some (.ok _) => (m, .leaving (.ok ()))
    | some (.error e) => (m, .disconnectAborting generation e)
    | none =>
      if env.expired then (m, .disconnectAborting generation (mqttErr .timeout))
      else (m, .disconnectWaiting generation)
  | .disconnectAborting generation e =>
    ({ m with client := mqttAbortDisconnect m.client generation }, .leaving (.error e))
  | .subscribeEntered topic unsubscribe =>
    match mqttSubscribeLocked m topic unsubscribe env.refusal with
    | (m', result) => (m', .leaving result)
  | .publishEntered =>
    match mqttPublishLocked m env.refusal with
    | (m', result) => (m', .leaving result)
  | .stopProcessEntered =>
    if m.client.lifecycle ≠ .isOpen then (m, .leaving (.error (mqttErr .badState)))
    else (m, .stopProcessChecked)
  | .stopProcessChecked =>
    ({ m with client := { m.client with processStopRequested := true } },
      if m.client.processRunning then .terminating else .leaving (.ok ()))
  | .terminating =>
    match mqttEnqueue m .terminate env.refusal with
    | (status, m') => (m', .leaving (mqttEnqueueStatusToErr status))
  | .deinit pc => pc.step env m
  | .process pc => pc.step env m
  | .leaving result => ({ m with client := mqttApiLeave m.client }, .returned result)
  | .returned result => (m, .returned result)

/-! ### The system -/

/-- The client, the agent and the calls. -/
structure MqttSystem where
  core : MqttCore
  threads : List MqttThread

/-- A call starts, or the `k`-th call takes a step. -/
inductive MqttAction where
  | start (api : MqttCall)
  | advance (k : ℕ) (env : MqttEnv)

/-- A call starts as a new thread, or the thread at `k` takes its next access. -/
def MqttSystem.step (s : MqttSystem) : MqttAction → Unit × MqttSystem
  | .start api => ((), { s with threads := s.threads ++ [.call api] })
  | .advance k env =>
    match s.threads[k]? with
    | none => ((), s)
    | some thread =>
      let (core, thread') := thread.step env s.core
      ((), ⟨core, s.threads.set k thread'⟩)

/-- The client after `actrust_mqtt_init`. -/
def MqttSystem.initial : MqttSystem := ⟨⟨.initial, [], []⟩, []⟩

end TrustSdk.Mqtt
