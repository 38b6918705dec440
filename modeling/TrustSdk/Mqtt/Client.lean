import Mathlib.Algebra.GroupWithZero.Nat
import Mathlib.Data.List.FinRange
import Mathlib.Logic.Function.Basic
import TrustSdk.Common.Errno

/-!
# The MQTT client: its context and the sections under its lock

The fields of `actrust_mqtt_ctx` that the client's lock protects, and every section of
`mqtt.c` that runs under it, each a function on the context. A section that may refuse to act
returns an `Except`. What the sections do to the subscription table:

* `mqttSubscriptionReserveLocked`, `mqttSubscriptionRollbackLocked` — user calls;
* `mqttReplayMark` — one slot of `mqtt_replay_subscriptions`;
* `mqttSubscribeComplete` — a completion;
* `mqttRescheduleConnect` — the section of `mqtt_try_schedule_connect` that takes a new
  generation.

The rest of the context (configuration, transport, buffers, the agent's own state) is not
looked at by any of them.
-/

namespace TrustSdk.Mqtt

/-- A topic filter, without its terminator. -/
abbrev Topic := List UInt8

/-- An error of this component. -/
def mqttErr (code : ErrCode) : Err := ⟨.mqtt, code⟩

/-- `ACTRUST_MQTT_SUBSCRIPTION_MAX`. -/
abbrev mqttSubscriptionMax : ℕ := 16

instance : NeZero mqttSubscriptionMax := ⟨by decide⟩

/-- `ACTRUST_MQTT_QUEUE_CAPACITY`. -/
def mqttQueueCapacity : ℕ := 16

/-- `ACTRUST_MQTT_TOPIC_MAX_LEN`. -/
def mqttTopicMaxLen : ℕ := 128

/-- `actrust_mqtt_state_t` -/
inductive MqttState where
  | initialized
  | connected
  | connecting
  | disconnected
  | disconnecting
  | waitingReconnect
  deriving DecidableEq, Repr

/-- `mqtt_lifecycle_t` -/
inductive MqttLifecycle where
  | isOpen
  | closing
  deriving DecidableEq, Repr

/-- `mqtt_subscription_state_t` -/
inductive MqttSubscriptionState where
  | empty
  | pending
  | active
  | unsubPending
  deriving DecidableEq, Repr

/-- `mqtt_subscription_topic_t` -/
structure MqttSubscriptionTopic where
  state : MqttSubscriptionState
  token : UInt32
  topic : Topic
  deriving DecidableEq, Repr

/-- `mqtt_operation_type_t` -/
inductive MqttOperationType where
  | connect
  | disconnect
  | publish
  | subscribe
  | unsubscribe
  deriving DecidableEq, Repr

/-- `mqtt_operation_base_t` and the topic of the operations that have one. The index of an
operation always comes from the table, so it is in range. -/
structure MqttOperation where
  type : MqttOperationType
  generation : UInt32
  subscriptionIndex : Fin mqttSubscriptionMax
  subscriptionToken : UInt32
  topic : Topic
  deriving DecidableEq, Repr

/-- An operation of a replay: always a SUBSCRIBE. -/
abbrev MqttReplayOperation := { op : MqttOperation // op.type = .subscribe }

/-- `MQTTStatus_t`, as far as the client tells its values apart. -/
inductive MqttStatus where
  | success
  | badParameter
  | noMemory
  | sendFailed
  | recvFailed
  | badResponse
  | serverRefused
  | illegalState
  | stateCollision
  | keepAliveTimeout
  | noDataAvailable
  | needMoreBytes
  | other
  deriving DecidableEq, Repr

/-- The first SUBACK code. -/
inductive MqttSubAck where
  | granted
  | failure
  deriving DecidableEq, Repr

/-- `MQTTAgentReturnInfo_t` of a completed command, with the session flag of a CONNECT. -/
structure MqttReturnInfo where
  returnCode : MqttStatus
  subackCode : Option MqttSubAck
  sessionPresent : Bool
  deriving DecidableEq, Repr

/-- The fields of `actrust_mqtt_ctx` under the lock. -/
structure MqttClient where
  state : MqttState
  lifecycle : MqttLifecycle
  connectGeneration : UInt32
  nextSubscriptionToken : UInt32
  apiInflight : ℕ
  callbackInflight : ℕ
  operationInflight : ℕ
  connectResult : Except Err Unit
  disconnectResult : Except Err Unit
  connectResultValid : Bool
  disconnectResultValid : Bool
  commandActive : Bool
  processRunning : Bool
  processStopRequested : Bool
  deinitInflight : Bool
  agentCancelled : Bool
  subscriptions : Fin mqttSubscriptionMax → MqttSubscriptionTopic

/-! ### Status codes -/

/-- `mqtt_status_to_err` -/
def mqttStatusToErr : MqttStatus → Except Err Unit
  | .success | .needMoreBytes => .ok ()
  | .badParameter => .error (mqttErr .invalidArg)
  | .noMemory => .error (mqttErr .noMem)
  | .sendFailed | .recvFailed => .error (mqttErr .io)
  | .badResponse | .serverRefused | .illegalState | .stateCollision =>
      .error (mqttErr .badState)
  | .keepAliveTimeout | .noDataAvailable => .error (mqttErr .timeout)
  | .other => .error (mqttErr .io)

/-- `mqtt_enqueue_status_to_err` -/
def mqttEnqueueStatusToErr : MqttStatus → Except Err Unit
  | .success => .ok ()
  | .noMemory => .error (mqttErr .noMem)
  | .sendFailed => .error (mqttErr .queueFull)
  | .badParameter => .error (mqttErr .invalidArg)
  | status => mqttStatusToErr status

/-- The statuses after which the process loop reconnects. -/
def MqttStatus.lost (status : MqttStatus) : Bool :=
  status = .sendFailed ∨ status = .recvFailed ∨ status = .keepAliveTimeout

/-! ### Counting what is in flight -/

/-- `mqtt_api_enter` -/
def mqttApiEnter (mqtt : MqttClient) : Except Err MqttClient :=
  if mqtt.lifecycle ≠ .isOpen then .error (mqttErr .badState)
  else .ok { mqtt with apiInflight := mqtt.apiInflight + 1 }

/-- The count of `mqtt_api_leave`. -/
def mqttApiLeave (mqtt : MqttClient) : MqttClient :=
  { mqtt with apiInflight := mqtt.apiInflight - 1 }

/-- `mqtt_operation_enter` -/
def mqttOperationEnter (mqtt : MqttClient) : MqttClient :=
  { mqtt with operationInflight := mqtt.operationInflight + 1 }

/-- The count of `mqtt_operation_leave`. -/
def mqttOperationLeave (mqtt : MqttClient) : MqttClient :=
  { mqtt with operationInflight := mqtt.operationInflight - 1 }

/-- The section of `mqtt_incoming_publish_callback` before the user's callback; `none` when
the message is dropped. `hasCallback` is `callbacks.on_message != NULL`. -/
def mqttCallbackEnter (hasCallback : Bool) (mqtt : MqttClient) : Option MqttClient :=
  if mqtt.lifecycle ≠ .isOpen ∨ hasCallback = false then none
  else some { mqtt with callbackInflight := mqtt.callbackInflight + 1 }

/-- The count of `mqtt_callback_leave`. -/
def mqttCallbackLeave (mqtt : MqttClient) : MqttClient :=
  { mqtt with callbackInflight := mqtt.callbackInflight - 1 }

/-- `mqtt_lifecycle_idle_locked` -/
def mqttLifecycleIdleLocked (mqtt : MqttClient) : Bool :=
  mqtt.apiInflight = 0 ∧ mqtt.callbackInflight = 0 ∧ mqtt.operationInflight = 0 ∧
    mqtt.commandActive = false ∧ mqtt.processRunning = false

/-! ### The subscription table -/

/-- The counter skips zero when it wraps. -/
def mqttNextSubscriptionTokenLocked (mqtt : MqttClient) : UInt32 × MqttClient :=
  let token := if mqtt.nextSubscriptionToken + 1 = 0 then 1 else mqtt.nextSubscriptionToken + 1
  (token, { mqtt with nextSubscriptionToken := token })

/-- One slot of the table changes. -/
def mqttSetSlot (mqtt : MqttClient) (index : Fin mqttSubscriptionMax)
    (slot : MqttSubscriptionTopic) : MqttClient :=
  { mqtt with subscriptions := Function.update mqtt.subscriptions index slot }

/-- The slot that holds a topic: the first one. -/
def mqttFindTopic (mqtt : MqttClient) (topic : Topic) : Option (Fin mqttSubscriptionMax) :=
  (List.finRange mqttSubscriptionMax).find? fun i =>
    (mqtt.subscriptions i).state ≠ .empty ∧ (mqtt.subscriptions i).topic = topic

/-- The first empty slot. -/
def mqttFindFree (mqtt : MqttClient) : Option (Fin mqttSubscriptionMax) :=
  (List.finRange mqttSubscriptionMax).find? fun i => (mqtt.subscriptions i).state = .empty

/-- A slot and a new token for a subscribe or an unsubscribe. -/
def mqttSubscriptionReserveLocked (mqtt : MqttClient) (topic : Topic) (unsubscribe : Bool) :
    Except Err ((Fin mqttSubscriptionMax × UInt32) × MqttClient) :=
  let (token, mqtt') := mqttNextSubscriptionTokenLocked mqtt
  match unsubscribe, mqttFindTopic mqtt topic with
  | true, none => .error (mqttErr .mqttUnsubscribeFailed)
  | true, some index =>
    if (mqtt.subscriptions index).state ≠ .active then .error (mqttErr .mqttUnsubscribeFailed)
    else .ok ((index, token),
      mqttSetSlot mqtt' index { mqtt.subscriptions index with state := .unsubPending, token })
  | false, some _ => .error (mqttErr .already)
  | false, none =>
    match mqttFindFree mqtt with
    | none => .error (mqttErr .noMem)
    | some index => .ok ((index, token), mqttSetSlot mqtt' index ⟨.pending, token, topic⟩)

/-- `mqtt_subscription_clear_locked` -/
def mqttSubscriptionClearLocked (mqtt : MqttClient) (index : Fin mqttSubscriptionMax)
    (token : UInt32) : MqttClient :=
  if (mqtt.subscriptions index).token ≠ token then mqtt
  else mqttSetSlot mqtt index ⟨.empty, 0, []⟩

/-- `mqtt_subscription_rollback_locked` -/
def mqttSubscriptionRollbackLocked (mqtt : MqttClient) (index : Fin mqttSubscriptionMax)
    (token : UInt32) (state : MqttSubscriptionState) : MqttClient :=
  if (mqtt.subscriptions index).token ≠ token then mqtt
  else if state = .empty then mqttSubscriptionClearLocked mqtt index token
  else mqttSetSlot mqtt index { mqtt.subscriptions index with state }

/-- The section of `mqtt_replay_subscriptions` for one slot: an active subscription becomes
pending again, under a new token. -/
def mqttReplayMark (mqtt : MqttClient) (index : Fin mqttSubscriptionMax) :
    Option (MqttReplayOperation × MqttClient) :=
  if (mqtt.subscriptions index).state ≠ .active then none
  else
    let (token, mqtt') := mqttNextSubscriptionTokenLocked mqtt
    some (⟨⟨.subscribe, mqtt.connectGeneration, index, token, (mqtt.subscriptions index).topic⟩,
        rfl⟩,
      mqttSetSlot mqtt' index { mqtt.subscriptions index with state := .pending, token })

/-! ### Connecting -/

/-- The counter skips zero when it wraps. -/
def mqttNextConnectGenerationLocked (mqtt : MqttClient) : UInt32 × MqttClient :=
  let generation := if mqtt.connectGeneration + 1 = 0 then 1 else mqtt.connectGeneration + 1
  (generation, { mqtt with connectGeneration := generation })

/-- `mqtt_begin_connect` -/
def mqttBeginConnect (mqtt : MqttClient) : Except Err ((MqttState × UInt32) × MqttClient) :=
  if mqtt.state ≠ .initialized ∧ (mqtt.state ≠ .disconnected ∨ mqtt.processRunning = true) then
    .error (mqttErr .badState)
  else
    let (generation, mqtt') := mqttNextConnectGenerationLocked mqtt
    .ok ((mqtt.state, generation), { mqtt' with state := .connecting, connectResultValid := false })

/-- `mqtt_release_connect_reservation` -/
def mqttReleaseConnectReservation (mqtt : MqttClient) (generation : UInt32) (state : MqttState) :
    MqttClient :=
  if mqtt.connectGeneration = generation ∧ mqtt.state = .connecting then { mqtt with state }
  else mqtt

/-- The check of `mqtt_install_config`; the configuration itself is left out. -/
def mqttInstallConfig (mqtt : MqttClient) (generation : UInt32) : Except Err Unit :=
  if mqtt.connectGeneration ≠ generation ∨ mqtt.state ≠ .connecting then
    .error (mqttErr .badState)
  else .ok ()

/-- `mqtt_complete_connect_attempt` -/
def mqttCompleteConnectAttempt (mqtt : MqttClient) (generation : UInt32) (status : MqttStatus) :
    Bool × MqttClient :=
  if mqtt.connectGeneration = generation ∧ mqtt.state = .connecting then
    (true,
      { mqtt with
        connectResult := mqttStatusToErr status
        connectResultValid := true
        state := if status = .success then .connected else .disconnected })
  else (false, mqtt)

/-- `mqtt_cancel_connect_attempt` -/
def mqttCancelConnectAttempt (mqtt : MqttClient) (generation : UInt32) : MqttClient :=
  if mqtt.connectGeneration = generation ∧ mqtt.connectResultValid = false then
    { (mqttNextConnectGenerationLocked mqtt).2 with
      connectResultValid := false
      state := .disconnected }
  else mqtt

/-- `mqtt_abort_disconnect` -/
def mqttAbortDisconnect (mqtt : MqttClient) (generation : UInt32) : MqttClient :=
  if mqtt.connectGeneration = generation ∧ mqtt.state = .disconnecting ∧
      mqtt.disconnectResultValid = false then
    { (mqttNextConnectGenerationLocked mqtt).2 with
      disconnectResultValid := false
      state := .disconnected }
  else mqtt

/-- One look of `mqtt_wait_for_connect_result`; `none` goes on waiting. -/
def mqttConnectResult (mqtt : MqttClient) (generation : UInt32) : Option (Except Err Unit) :=
  if mqtt.connectResultValid then some mqtt.connectResult
  else if mqtt.connectGeneration ≠ generation then some (.error (mqttErr .badState))
  else none

/-- One look of `mqtt_wait_for_disconnect_result`; `none` goes on waiting. -/
def mqttDisconnectResult (mqtt : MqttClient) (generation : UInt32) : Option (Except Err Unit) :=
  if mqtt.disconnectResultValid then some mqtt.disconnectResult
  else if mqtt.connectGeneration ≠ generation then some (.error (mqttErr .badState))
  else none

/-- The slot a reconnect leaves: a subscription that waits for its SUBACK is dropped, an
unsubscribe that waits is taken back. -/
def mqttRescheduleSlot (slot : MqttSubscriptionTopic) : MqttSubscriptionTopic :=
  match slot.state with
  | .pending => ⟨.empty, 0, []⟩
  | .unsubPending => { slot with state := .active }
  | _ => slot

/-- The section of `mqtt_try_schedule_connect` that takes a new generation. -/
def mqttRescheduleConnect (mqtt : MqttClient) : UInt32 × MqttClient :=
  let (generation, mqtt') := mqttNextConnectGenerationLocked mqtt
  (generation,
    { mqtt' with
      state := .connecting
      subscriptions := fun i => mqttRescheduleSlot (mqtt.subscriptions i) })

/-! ### The process loop -/

/-- `mqtt_mark_process_started` -/
def mqttMarkProcessStarted (mqtt : MqttClient) : Except Err MqttClient :=
  if mqtt.lifecycle ≠ .isOpen then .error (mqttErr .badState)
  else if mqtt.processRunning = true then .error (mqttErr .busy)
  else .ok { mqtt with processRunning := true }

/-- `mqtt_mark_process_stopped` -/
def mqttMarkProcessStopped (mqtt : MqttClient) : MqttClient :=
  { mqtt with processRunning := false, processStopRequested := false }

/-- The first section of `actrust_mqtt_deinit`. -/
def mqttBeginDeinit (mqtt : MqttClient) : Except Err MqttClient :=
  if mqtt.callbackInflight > 0 ∨ mqtt.deinitInflight = true then .error (mqttErr .badState)
  else if mqtt.lifecycle = .isOpen ∧ (mqtt.state = .connected ∨ mqtt.state = .connecting) then
    .error (mqttErr .badState)
  else
    .ok { mqtt with lifecycle := .closing, deinitInflight := true, processStopRequested := true }

/-- `mqtt_deinit_abort` -/
def mqttDeinitAbort (mqtt : MqttClient) : MqttClient := { mqtt with deinitInflight := false }

/-! ### Commands of the agent -/

/-- The check of `mqtt_agent_recv`: a command of another generation, or one that the state of
the client no longer allows, is dropped. -/
def mqttCommandValid (mqtt : MqttClient) (base : MqttOperation) : Bool :=
  decide (base.generation = mqtt.connectGeneration) &&
    match base.type with
    | .connect => decide (mqtt.state = .connecting)
    | .disconnect => decide (mqtt.state = .disconnecting)
    | .publish | .subscribe | .unsubscribe => decide (mqtt.state = .connected)

/-- A completion is the slot's own: its generation and its token are current. -/
def mqttCompletionCurrent (mqtt : MqttClient) (base : MqttOperation) : Bool :=
  base.generation = mqtt.connectGeneration ∧
    (mqtt.subscriptions base.subscriptionIndex).token = base.subscriptionToken

/-- A SUBSCRIBE is accepted by its SUBACK, an UNSUBSCRIBE by its status. -/
def mqttCompletionAccepted (base : MqttOperation) (info : MqttReturnInfo) : Bool :=
  info.returnCode = .success ∧
    (base.type = .subscribe → info.subackCode = some .granted)

/-- The section of `mqtt_agent_command_complete` for a SUBSCRIBE or an UNSUBSCRIBE. -/
def mqttSubscribeComplete (mqtt : MqttClient) (base : MqttOperation) (info : MqttReturnInfo) :
    MqttClient :=
  let activate := mqttSetSlot mqtt base.subscriptionIndex
    { mqtt.subscriptions base.subscriptionIndex with state := .active }
  let clear := mqttSubscriptionClearLocked mqtt base.subscriptionIndex base.subscriptionToken
  if mqttCompletionCurrent mqtt base then
    if base.type = .subscribe then
      if mqttCompletionAccepted base info then activate else clear
    else if mqttCompletionAccepted base info then clear
    else activate
  else mqtt

/-- The section for a DISCONNECT. -/
def mqttDisconnectComplete (mqtt : MqttClient) (base : MqttOperation) (info : MqttReturnInfo) :
    MqttClient :=
  if base.generation = mqtt.connectGeneration ∧ mqtt.state = .disconnecting then
    { mqtt with
      disconnectResult := mqttStatusToErr info.returnCode
      disconnectResultValid := true
      state := if info.returnCode = .success then .disconnected else .connected }
  else mqtt

/-- The section for a PUBLISH. -/
def mqttPublishComplete (mqtt : MqttClient) (base : MqttOperation) (info : MqttReturnInfo) :
    MqttClient :=
  if info.returnCode.lost ∧ base.generation = mqtt.connectGeneration ∧
      mqtt.state = .connected then
    { mqtt with state := .waitingReconnect }
  else mqtt

/-- `actrust_mqtt_init`. -/
def MqttClient.initial : MqttClient where
  state := .initialized
  lifecycle := .isOpen
  connectGeneration := 0
  nextSubscriptionToken := 0
  apiInflight := 0
  callbackInflight := 0
  operationInflight := 0
  connectResult := .ok ()
  disconnectResult := .ok ()
  connectResultValid := false
  disconnectResultValid := false
  commandActive := false
  processRunning := false
  processStopRequested := false
  deinitInflight := false
  agentCancelled := false
  subscriptions := fun _ => ⟨.empty, 0, []⟩

end TrustSdk.Mqtt
