import TrustSdk.Mqtt.Subscriptions

/-!
# How runs of the process loop begin and end

A run of the process loop begins when `mqtt_mark_process_started` marks it and ends when
`mqtt_mark_process_stopped` does. A stop request has two carriers, the flag
`process_stop_requested` and a TERMINATE command, and both outlive the step that leaves them.

* `LoopStep` — every step of a call, as far as the loop goes: one of five, or it leaves the flag, the
  mark and the lifecycle alone and queues no TERMINATE;
* `stop_requests_isolated` — as long as a stop is requested while the loop runs, and the loop ends
  after the command of the request has been taken, a request is pending only in the run in which it
  was made;
* `connect_order_iff` — after a session, a connect that comes before the mark of a new run is
  admitted, and one that comes after it is not, unless the client is being closed.
-/

namespace TrustSdk.Mqtt

open Machine

/-! ### What a step does to the loop -/

/-- Nothing happens that begins, ends or stops a run. -/
structure Quiet (m m' : MqttCore) : Prop where
  lifecycle : m'.client.lifecycle = m.client.lifecycle
  running : m'.client.processRunning = m.client.processRunning
  stop : m'.client.processStopRequested = m.client.processStopRequested
  deinit : m'.client.deinitInflight = m.client.deinitInflight
  queue : .terminate ∈ m'.queue → .terminate ∈ m.queue

/-- The call is in `actrust_mqtt_deinit`, past its first section. -/
def MqttThread.deinits : MqttThread → Bool
  | .deinit _ => true
  | _ => false

/-- The call has requested a stop, and its TERMINATE command is not queued yet. -/
def MqttThread.terminates : MqttThread → Bool
  | .terminating => true
  | _ => false

/-- The call is in its run of the process loop, behind the mark. -/
def MqttProcess.loops : MqttProcess → Bool
  | .start => false
  | .entered => false
  | _ => true

/-- The same of a thread. -/
def MqttThread.loops : MqttThread → Bool
  | .process pc => pc.loops
  | _ => false

/-- The later sections of `actrust_mqtt_deinit`, which find that no process loop runs. -/
def MqttDeinit.cancels : MqttDeinit → Bool
  | .claiming => true
  | .cancelling _ => true
  | .cancelled _ => true
  | .releasing => true
  | .draining => true
  | .destroying => true
  | _ => false

/-- The call is a connect that has taken the client. -/
def MqttThread.connects : MqttThread → Bool
  | .connectBegun _ _ => true
  | _ => false

/-- All that one access of a thread can do to the fields a stop request lives in: nothing, mark the
loop running, mark it stopped, ask for a stop, queue TERMINATE, open a deinit, go on in one or leave
it. -/
inductive LoopStep (m : MqttCore) : MqttThread → MqttCore → MqttThread → Prop
  | quiet {thread thread' : MqttThread} {m' : MqttCore} : Quiet m m' →
      thread'.terminates = false → thread'.deinits = false →
      thread'.loops = thread.loops → LoopStep m thread m' thread'
  | started : m.client.processRunning = false → m.client.lifecycle = .isOpen →
      LoopStep m (.process .entered)
        { m with client := { m.client with processRunning := true } } (.process .top)
  | stopped (result : Except Err Unit) :
      LoopStep m (.process (.stopping result))
        { m with client := mqttMarkProcessStopped m.client } (.leaving result)
  | requested :
      LoopStep m .stopProcessChecked
        { m with client := { m.client with processStopRequested := true } }
        (if m.client.processRunning then .terminating else .leaving (.ok ()))
  | terminate (result : Except Err Unit) :
      LoopStep m .terminating { m with queue := m.queue ++ [.terminate] } (.leaving result)
  | closing : m.client.deinitInflight = false →
      LoopStep m (.call .deinit)
        { m with client := { m.client with
            lifecycle := .closing, deinitInflight := true, processStopRequested := true } }
        (.deinit .begun)
  | deinit (pc pc' : MqttDeinit) {m' : MqttCore} : m'.client.lifecycle = m.client.lifecycle →
      m'.client.processRunning = m.client.processRunning →
      m'.client.deinitInflight = m.client.deinitInflight →
      (pc'.cancels = true → pc.cancels = true ∨ m.client.processRunning = false) →
      LoopStep m (.deinit pc) m' (.deinit pc')
  | returned (pc : MqttDeinit) (result : Except Err Unit) {m' : MqttCore} :
      m'.client.lifecycle = m.client.lifecycle →
      m'.client.processRunning = m.client.processRunning →
      LoopStep m (.deinit pc) m' (.returned result)

section Steps

variable {m m' : MqttCore} {thread thread' : MqttThread}

theorem Quiet.rfl : Quiet m m := ⟨.refl _, .refl _, .refl _, .refl _, id⟩

theorem Quiet.trans {m'' : MqttCore} (h : Quiet m m') (h' : Quiet m' m'') : Quiet m m'' where
  lifecycle := h'.lifecycle.trans h.lifecycle
  running := h'.running.trans h.running
  stop := h'.stop.trans h.stop
  deinit := h'.deinit.trans h.deinit
  queue := fun hmem => h.queue (h'.queue hmem)

/-- The sections on the subscription table. -/
theorem mqttSubscriptionRollbackLocked_quiet (m : MqttCore) (i : Fin mqttSubscriptionMax)
    (token : UInt32) (state : MqttSubscriptionState) :
    Quiet m { m with client := mqttSubscriptionRollbackLocked m.client i token state } := by
  unfold mqttSubscriptionRollbackLocked mqttSubscriptionClearLocked
  split_ifs <;> exact ⟨.refl _, .refl _, .refl _, .refl _, id⟩

theorem mqttEnqueueOperation_quiet (m : MqttCore) (op : MqttOperation)
    (refusal : Option MqttRefusal) : Quiet m (mqttEnqueueOperation m op refusal).2 := by
  rcases mqttEnqueueOperation_cases m op refusal with ⟨e, heq⟩ | heq
  · rw [heq]
    exact .rfl
  · rw [heq]
    refine ⟨.refl _, .refl _, .refl _, .refl _, fun hmem => ?_⟩
    rcases List.mem_append.mp hmem with hmem | hmem
    · exact hmem
    · cases List.mem_singleton.mp hmem

theorem MqttReplay.step_quiet (env : MqttEnv) (m : MqttCore) (replay : MqttReplay) :
    Quiet m (replay.step env m).1 := by
  -- One case per point of `mqtt_replay`; none of them touches the queue's TERMINATE or the flags.
  cases replay with
  | slot i =>
    dsimp only [MqttReplay.step]
    split_ifs with hi
    · cases hmark : mqttReplayMark m.client ⟨i, hi⟩ with
      | none => exact .rfl
      | some marked =>
        obtain ⟨op, client⟩ := marked
        obtain ⟨-, -, rfl⟩ := mqttReplayMark_some hmark
        exact ⟨.refl _, .refl _, .refl _, .refl _, id⟩
    · exact .rfl
  | handOver op =>
    have hquiet := mqttEnqueueOperation_quiet m op.1 env.refusal
    simp only [MqttReplay.step]
    rcases hstep : mqttEnqueueOperation m op.1 env.refusal with ⟨_ | _, m'⟩ <;>
      rw [hstep] at hquiet <;> exact hquiet
  | rollBack op => exact mqttSubscriptionRollbackLocked_quiet m _ _ _

/-- The command taken leaves the queue, so no TERMINATE appears. -/
theorem mqttAgentRecv_quiet (m : MqttCore) : Quiet m (mqttAgentRecv m).1 := by
  obtain ⟨client, queue, taken⟩ := m
  cases queue with
  | nil => exact ⟨.refl _, .refl _, .refl _, .refl _, id⟩
  | cons command queue =>
    have hqueue : .terminate ∈ queue → .terminate ∈ command :: queue := List.mem_cons_of_mem _
    -- TERMINATE itself only changes where the loop stands; the other commands are handed to
    -- coreMQTT.
    cases command with
    | terminate => exact ⟨.refl _, .refl _, .refl _, .refl _, hqueue⟩
    | operation op =>
      dsimp only [mqttAgentRecv]
      split_ifs
      · exact ⟨.refl _, .refl _, .refl _, .refl _, hqueue⟩
      · exact ⟨.refl _, .refl _, .refl _, .refl _, hqueue⟩

/-- The completion callback writes the slot, the result and the state, never the fields of a stop.
-/
theorem mqttAgentCommandComplete_quiet (m : MqttCore) (op : MqttOperation)
    (info : MqttReturnInfo) : Quiet m (mqttAgentCommandComplete m op info).1 := by
  have hslot : Quiet m { m with client := mqttSubscribeComplete m.client op info } := by
    unfold mqttSubscribeComplete mqttSubscriptionClearLocked
    split_ifs <;> exact ⟨.refl _, .refl _, .refl _, .refl _, id⟩
  unfold mqttAgentCommandComplete
  -- One case per kind of operation: each completes into its own fields.
  cases op.type with
  | connect =>
    dsimp only [mqttCompleteConnectAttempt]
    split_ifs <;> exact ⟨.refl _, .refl _, .refl _, .refl _, id⟩
  | disconnect =>
    dsimp only [mqttDisconnectComplete]
    split_ifs <;> exact ⟨.refl _, .refl _, .refl _, .refl _, id⟩
  | publish =>
    dsimp only [mqttPublishComplete]
    split_ifs <;> exact ⟨.refl _, .refl _, .refl _, .refl _, id⟩
  | subscribe => exact hslot
  | unsubscribe => exact hslot

/-- No point of the loop's work touches the fields of a stop. -/
theorem MqttWork.step_quiet (env : MqttEnv) (m : MqttCore) (work : MqttWork) :
    Quiet m (work.step env m).1 := by
  cases work with
  -- Whatever coreMQTT does here, the flags of the loop are not its business.
  | idle =>
    simp only [MqttWork.step]
    cases env.agent with
    | receive => exact ⟨.refl _, .refl _, .refl _, .refl _, id⟩
    | complete k info =>
      dsimp only
      cases m.taken[k]? with
      | none => exact .rfl
      | some op => exact ⟨.refl _, .refl _, .refl _, .refl _, id⟩
    | deliver hasCallback =>
      dsimp only [mqttCallbackEnter]
      split_ifs
      · exact .rfl
      · exact ⟨.refl _, .refl _, .refl _, .refl _, id⟩
    | quit status => exact .rfl
  | receiving =>
    have hrecv := mqttAgentRecv_quiet m
    dsimp only [MqttWork.step]
    rcases hstep : mqttAgentRecv m with ⟨m', _ | work⟩ <;> rw [hstep] at hrecv <;> exact hrecv
  -- A completion may wake a caller, who is not in the loop.
  | dropping op => exact mqttAgentCommandComplete_quiet m op mqttDropInfo
  | dropped => exact ⟨.refl _, .refl _, .refl _, .refl _, id⟩
  | completing op info => exact mqttAgentCommandComplete_quiet m op info
  | replaying replay =>
    -- The replay queues operations, and may be refused.
    have hreplay := replay.step_quiet env m
    simp only [MqttWork.step]
    rcases hstep : replay.step env m with ⟨m', _ | replay'⟩ <;> rw [hstep] at hreplay <;>
      exact hreplay
  | leaving => exact ⟨.refl _, .refl _, .refl _, .refl _, id⟩
  | delivering => exact ⟨.refl _, .refl _, .refl _, .refl _, id⟩

/-- `mqtt_set_state` writes the state alone. -/
theorem mqttSetState_quiet (m : MqttCore) (state : MqttState) : Quiet m (mqttSetState m state) :=
  ⟨.refl _, .refl _, .refl _, .refl _, id⟩

/-- A quiet step of a call that stays out of `actrust_mqtt_deinit`. -/
theorem LoopStep.of_quiet (h : Quiet m m') (hterm : thread'.terminates = false)
    (hdeinit : thread'.deinits = false) (hloops : thread'.loops = thread.loops) :
    LoopStep m thread m' thread' :=
  .quiet h hterm hdeinit hloops

/-- `actrust_mqtt_process`: the flag is raised on entry and lowered on the way out, nowhere between.
-/
theorem MqttProcess.step_loop (env : MqttEnv) (m : MqttCore) (pc : MqttProcess) :
    LoopStep m (.process pc) (pc.step env m).1 (pc.step env m).2 := by
  cases pc with
  | start =>
    -- The call enters the API; it is in no loop yet.
    dsimp only [MqttProcess.step, mqttApiEnter]
    split_ifs
    · exact .of_quiet .rfl rfl rfl rfl
    · exact .of_quiet ⟨.refl _, .refl _, .refl _, .refl _, id⟩ rfl rfl rfl
  | entered =>
    dsimp only [MqttProcess.step, mqttMarkProcessStarted]
    split_ifs with hopen hrun
    · exact .of_quiet .rfl rfl rfl rfl
    · exact .of_quiet .rfl rfl rfl rfl
    · -- Only here does the loop begin, and only where none runs.
      exact .started (Bool.not_eq_true _ ▸ hrun) (not_not.mp hopen)
  | looping work =>
    -- The work leaves the flags; the loop goes on or ends its work.
    have hwork := work.step_quiet env m
    dsimp only [MqttProcess.step]
    rcases hstep : work.step env m with ⟨m', work' | status⟩ <;> rw [hstep] at hwork <;>
      exact .of_quiet hwork rfl rfl rfl
  | resuming generation sessionPresent work =>
    have hwork := work.step_quiet env m
    dsimp only [MqttProcess.step]
    split_ifs
    · exact .of_quiet .rfl rfl rfl rfl
    · rcases hstep : work.step env m with ⟨m', work' | status⟩ <;> rw [hstep] at hwork
      · exact .of_quiet hwork rfl rfl rfl
      · dsimp only
        split_ifs
        · exact .of_quiet hwork rfl rfl rfl
        · cases mqttStatusToErr status <;> exact .of_quiet hwork rfl rfl rfl
  | replaying replay =>
    have hreplay := replay.step_quiet env m
    dsimp only [MqttProcess.step]
    rcases hstep : replay.step env m with ⟨m', _ | replay'⟩ <;> rw [hstep] at hreplay <;>
      exact .of_quiet hreplay rfl rfl rfl
  -- Only here does it end.
  | stopping result => exact .stopped result
  | looped status => exact .of_quiet ⟨.refl _, .refl _, .refl _, .refl _, id⟩ rfl rfl rfl
  -- A state of the client is none of the flags of its loop.
  | backOff => exact .of_quiet (mqttSetState_quiet m _) rfl rfl rfl
  | settling result => exact .of_quiet (mqttSetState_quiet m _) rfl rfl rfl
  | rescheduling => exact .of_quiet ⟨.refl _, .refl _, .refl _, .refl _, id⟩ rfl rfl rfl
  | openFailed generation =>
    dsimp only [MqttProcess.step]
    split_ifs
    · exact .of_quiet (mqttSetState_quiet m _) rfl rfl rfl
    · exact .of_quiet .rfl rfl rfl rfl
  | resumed generation sessionPresent =>
    dsimp only [MqttProcess.step]
    split_ifs
    · exact .of_quiet (mqttSetState_quiet m _) rfl rfl rfl
    · exact .of_quiet (mqttSetState_quiet m _) rfl rfl rfl
    · exact .of_quiet .rfl rfl rfl rfl
    · exact .of_quiet .rfl rfl rfl rfl
  | connecting generation =>
    dsimp only [MqttProcess.step]
    split_ifs
    · exact .of_quiet .rfl rfl rfl rfl
    · cases mqttStatusToErr env.status <;> exact .of_quiet .rfl rfl rfl rfl
  | opening generation =>
    dsimp only [MqttProcess.step]
    cases env.result <;> exact .of_quiet .rfl rfl rfl rfl
  | _ =>
    -- the steps that only choose where to go on
    dsimp only [MqttProcess.step]
    try split_ifs
    all_goals exact .of_quiet .rfl rfl rfl rfl

/-- A call's first access: only deinit does more than enter. -/
theorem MqttCall.step_loop (m : MqttCore) (api : MqttCall) :
    LoopStep m (.call api) (api.step m).1 (api.step m).2 := by
  cases api with
  | process => exact .of_quiet .rfl rfl rfl rfl
  | subscribe topic unsubscribe =>
    dsimp only [MqttCall.step, mqttApiEnter]
    split_ifs
    · exact .of_quiet .rfl rfl rfl rfl
    · exact .of_quiet .rfl rfl rfl rfl
    · exact .of_quiet ⟨.refl _, .refl _, .refl _, .refl _, id⟩ rfl rfl rfl
  -- Deinit sets the closing state and the stop flag together, so it counts as a request.
  | deinit =>
    dsimp only [MqttCall.step, mqttBeginDeinit]
    split_ifs with hbusy
    · exact .of_quiet .rfl rfl rfl rfl
    · exact .of_quiet .rfl rfl rfl rfl
    · exact .closing (Bool.eq_false_iff.mpr fun hdeinit => hbusy (.inr hdeinit))
  | _ =>
    dsimp only [MqttCall.step, mqttApiEnter]
    split_ifs
    · exact .of_quiet .rfl rfl rfl rfl
    · exact .of_quiet ⟨.refl _, .refl _, .refl _, .refl _, id⟩ rfl rfl rfl

/-- The cancellation during deinit completes operations, which is quiet. -/
theorem mqttAgentCancel_quiet (env : MqttEnv) (m : MqttCore) (work : MqttWork) :
    Quiet m (mqttAgentCancel env m work).1 := by
  unfold mqttAgentCancel
  split
  · exact mqttAgentRecv_quiet m
  · exact .rfl
  · exact MqttWork.step_quiet env m _

/-- The later sections of `actrust_mqtt_deinit` leave the lifecycle closing, and get to the claim
only when no process loop runs. -/
theorem MqttDeinit.step_loop (env : MqttEnv) (m : MqttCore) (pc : MqttDeinit) :
    LoopStep m (.deinit pc) (pc.step env m).1 (pc.step env m).2 := by
  -- A deinit that stays where no loop runs may cancel, or has cancelled before.
  have hsame {pc' : MqttDeinit}
      (hcancels : pc'.cancels = true → pc.cancels = true ∨ m.client.processRunning = false) :
      LoopStep m (.deinit pc) m (.deinit pc') := .deinit pc pc' rfl rfl rfl hcancels
  have hearly {pc' : MqttDeinit} (hcancels : pc'.cancels = false) :
      pc'.cancels = true → pc.cancels = true ∨ m.client.processRunning = false := fun h =>
    absurd (hcancels.symm.trans h) Bool.false_ne_true
  -- By the stages of deinit: the queue is cancelled only once no loop runs.
  cases pc with
  -- No loop runs, so the deinit goes on to cancel at once.
  | begun =>
    dsimp only [MqttDeinit.step]
    split_ifs with hrun
    · exact hsame (hearly rfl)
    · exact hsame fun _ => .inr (Bool.eq_false_iff.mpr hrun)
  | signalling =>
    dsimp only [MqttDeinit.step]
    split_ifs <;> exact .deinit _ _ rfl rfl rfl (hearly rfl)
  | terminating =>
    -- TERMINATE is queued or refused; a refusal keeps the core as it is.
    dsimp only [MqttDeinit.step]
    rcases mqttEnqueue_cases m .terminate env.refusal with ⟨refused, heq⟩ | heq
    · rw [heq]
      obtain ⟨e, he⟩ := mqttEnqueueStatusToErr_refusal refused
      simp only [he]
      exact hsame (hearly rfl)
    · rw [heq]
      exact .deinit _ _ rfl rfl rfl (hearly rfl)
  -- The wait ends where the loop has ended.
  | waiting =>
    dsimp only [MqttDeinit.step]
    split_ifs with hrun
    · exact hsame fun _ => .inr hrun
    · exact hsame (hearly rfl)
    · cases env.result <;> exact hsame (hearly rfl)
  | claiming =>
    dsimp only [MqttDeinit.step]
    split_ifs <;> exact hsame fun _ => .inl rfl
  -- The cancellation is the same work, run by the deinit.
  | cancelling work =>
    have hcancel := mqttAgentCancel_quiet env m work
    dsimp only [MqttDeinit.step]
    rcases hstep : mqttAgentCancel env m work with ⟨m', work' | status⟩ <;>
      rw [hstep] at hcancel <;>
      exact .deinit _ _ hcancel.lifecycle hcancel.running hcancel.deinit fun _ => .inl rfl
  -- A cancellation that failed ends the deinit and gives the client back.
  | cancelled status =>
    dsimp only [MqttDeinit.step]
    split_ifs
    · exact .deinit _ _ rfl rfl rfl fun _ => .inl rfl
    · exact .returned _ _ rfl rfl
  | releasing => exact .deinit _ _ rfl rfl rfl fun _ => .inl rfl
  | draining =>
    dsimp only [MqttDeinit.step]
    split_ifs <;> exact hsame fun _ => .inl rfl
  -- The client is freed, or the deinit stays.
  | destroying =>
    dsimp only [MqttDeinit.step]
    cases env.result with
    | error e => exact hsame fun _ => .inl rfl
    | ok _ => exact .returned _ _ rfl rfl
  | aborting e => exact .returned _ _ rfl rfl

/-- Subscribe and unsubscribe under the lock reserve a slot and queue an operation. -/
theorem mqttSubscribeLocked_quiet (m : MqttCore) (topic : Topic) (unsubscribe : Bool)
    (refusal : Option MqttRefusal) : Quiet m (mqttSubscribeLocked m topic unsubscribe refusal).1 := by
  unfold mqttSubscribeLocked
  by_cases hstate : m.client.state ≠ .connected
  · rw [if_pos hstate]
    exact .rfl
  rw [if_neg hstate]
  cases hres : mqttSubscriptionReserveLocked m.client topic unsubscribe with
  | error e => exact .rfl
  | ok reserved =>
    obtain ⟨⟨i, token⟩, client⟩ := reserved
    have hreserve : Quiet m { m with client } := by
      obtain ⟨slot, -, -, -, rfl, -⟩ := mqttSubscriptionReserveLocked_ok hres
      exact ⟨.refl _, .refl _, .refl _, .refl _, id⟩
    -- The reserved slot and the queued operation are each quiet; a refused post rolls the slot
    -- back.
    dsimp only
    generalize (⟨if unsubscribe then .unsubscribe else .subscribe, m.client.connectGeneration, i,
      token, topic⟩ : MqttOperation) = op
    have hquiet := hreserve.trans (mqttEnqueueOperation_quiet { m with client } op refusal)
    rcases hstep : mqttEnqueueOperation { m with client } op refusal with ⟨_ | _, m'⟩ <;>
      rw [hstep] at hquiet
    · exact hquiet.trans (mqttSubscriptionRollbackLocked_quiet m' i token _)
    · exact hquiet

/-- DISCONNECT under the lock changes the state and queues an operation. -/
theorem mqttDisconnectLocked_loop (m : MqttCore) (refusal : Option MqttRefusal) :
    LoopStep m .disconnectEntered (mqttDisconnectLocked m refusal).1
      (mqttDisconnectLocked m refusal).2 := by
  unfold mqttDisconnectLocked
  split_ifs
  · exact .of_quiet .rfl rfl rfl rfl
  dsimp only
  have hquiet := mqttEnqueueOperation_quiet
    { m with client := { m.client with state := .disconnecting, disconnectResultValid := false } }
    ⟨.disconnect, m.client.connectGeneration, 0, 0, []⟩ refusal
  rcases hstep : mqttEnqueueOperation _ _ refusal with ⟨_ | _, m'⟩ <;> rw [hstep] at hquiet
  · exact .of_quiet ⟨hquiet.lifecycle, hquiet.running, hquiet.stop, hquiet.deinit,
      hquiet.queue⟩ rfl rfl rfl
  · exact .of_quiet ⟨hquiet.lifecycle, hquiet.running, hquiet.stop, hquiet.deinit,
      hquiet.queue⟩ rfl rfl rfl

/-- Every step of a call is one of these. -/
theorem MqttThread.step_loop (env : MqttEnv) (m : MqttCore) (thread : MqttThread) :
    LoopStep m thread (thread.step env m).1 (thread.step env m).2 := by
  -- One case per kind of thread; each is the lemma of its function.
  cases thread with
  -- A call of the API has its own lemma.
  | call api => exact api.step_loop m
  | process pc => exact pc.step_loop env m
  | deinit pc => exact pc.step_loop env m
  | disconnectEntered => exact mqttDisconnectLocked_loop m env.refusal
  | stopProcessChecked => exact .requested
  | terminating =>
    -- `mqtt_stop_process` queues TERMINATE, or the ring refuses it.
    dsimp only [MqttThread.step]
    rcases mqttEnqueue_cases m .terminate env.refusal with ⟨refused, heq⟩ | heq
    · rw [heq]
      exact .of_quiet .rfl rfl rfl rfl
    · rw [heq]
      exact .terminate _
  -- A caller's post leaves the loop as it is.
  | subscribeEntered topic unsubscribe =>
    have hquiet := mqttSubscribeLocked_quiet m topic unsubscribe env.refusal
    dsimp only [MqttThread.step]
    rcases hstep : mqttSubscribeLocked m topic unsubscribe env.refusal with ⟨m', result⟩
    rw [hstep] at hquiet
    exact .of_quiet hquiet rfl rfl rfl
  | publishEntered =>
    have hquiet := mqttEnqueueOperation_quiet m ⟨.publish, m.client.connectGeneration, 0, 0, []⟩
      env.refusal
    dsimp only [MqttThread.step, mqttPublishLocked]
    split_ifs
    · exact .of_quiet .rfl rfl rfl rfl
    · rcases hstep : mqttEnqueueOperation m _ env.refusal with ⟨result, m'⟩
      rw [hstep] at hquiet
      exact .of_quiet hquiet rfl rfl rfl
  | connectOpened generation =>
    have hquiet := mqttEnqueueOperation_quiet m ⟨.connect, generation, 0, 0, []⟩ env.refusal
    dsimp only [MqttThread.step]
    rcases hstep : mqttEnqueueOperation m _ env.refusal with ⟨_ | _, m'⟩ <;> rw [hstep] at hquiet <;>
      exact .of_quiet hquiet rfl rfl rfl
  -- A connect is another thread than the loop, and only writes its own attempt.
  | connectEntered =>
    dsimp only [MqttThread.step, mqttBeginConnect]
    split_ifs
    · exact .of_quiet .rfl rfl rfl rfl
    · exact .of_quiet ⟨.refl _, .refl _, .refl _, .refl _, id⟩ rfl rfl rfl
  | connectBegun previous generation =>
    dsimp only [MqttThread.step, mqttInstallConfig]
    cases env.result with
    | error e => exact .of_quiet .rfl rfl rfl rfl
    | ok _ =>
      dsimp only
      split_ifs <;> exact .of_quiet .rfl rfl rfl rfl
  | connectReleasing previous generation e =>
    dsimp only [MqttThread.step, mqttReleaseConnectReservation]
    split_ifs <;> exact .of_quiet ⟨.refl _, .refl _, .refl _, .refl _, id⟩ rfl rfl rfl
  | connectInstalled generation =>
    dsimp only [MqttThread.step]
    cases env.result <;> exact .of_quiet .rfl rfl rfl rfl
  | connectFailed e => exact .of_quiet (mqttSetState_quiet m _) rfl rfl rfl
  -- A wait that ends reads the result and writes nothing.
  | connectWaiting generation =>
    dsimp only [MqttThread.step]
    rcases mqttConnectResult m.client generation with _ | _ | _
    · dsimp only
      split_ifs <;> exact .of_quiet .rfl rfl rfl rfl
    · exact .of_quiet .rfl rfl rfl rfl
    · exact .of_quiet .rfl rfl rfl rfl
  | connectCancelling generation e =>
    dsimp only [MqttThread.step, mqttCancelConnectAttempt]
    split_ifs <;> exact .of_quiet ⟨.refl _, .refl _, .refl _, .refl _, id⟩ rfl rfl rfl
  | disconnectWaiting generation =>
    dsimp only [MqttThread.step]
    rcases mqttDisconnectResult m.client generation with _ | _ | _
    · dsimp only
      split_ifs <;> exact .of_quiet .rfl rfl rfl rfl
    · exact .of_quiet .rfl rfl rfl rfl
    · exact .of_quiet .rfl rfl rfl rfl
  | disconnectAborting generation e =>
    dsimp only [MqttThread.step, mqttAbortDisconnect]
    split_ifs <;> exact .of_quiet ⟨.refl _, .refl _, .refl _, .refl _, id⟩ rfl rfl rfl
  | stopProcessEntered =>
    dsimp only [MqttThread.step]
    split_ifs <;> exact .of_quiet .rfl rfl rfl rfl
  | leaving result => exact .of_quiet ⟨.refl _, .refl _, .refl _, .refl _, id⟩ rfl rfl rfl
  | returned result => exact .of_quiet .rfl rfl rfl rfl

end Steps

/-! ### Stop requests -/

/-- What happens to the runs of the loop. -/
inductive LoopEvent where
  | started
  | requested
  deriving DecidableEq, Repr

/-- The stop requests since the last run began. -/
def requests (h : List LoopEvent) : ℕ :=
  h.foldl (fun n e => if e = .started then 0 else n + 1) 0

@[simp] theorem requests_append_started (h : List LoopEvent) :
    requests (h ++ [.started]) = 0 := by simp [requests]

@[simp] theorem requests_append_requested (h : List LoopEvent) :
    requests (h ++ [.requested]) = requests h + 1 := by simp [requests]

namespace MqttSystem

/-- A run begins when its mark is set. -/
def loopEvents (s : MqttSystem) (a : MqttAction) : List LoopEvent :=
  if s.core.client.processRunning = false ∧ (s.step a).2.core.client.processRunning = true then
    [.started]
  else
    match s.acting a with
    | some .stopProcessChecked => [.requested]
    | _ => []

/-- A request is pending: in the flag, in the queue, or in a call that has set the flag and is about
to queue its command. -/
def StopPending (s : MqttSystem) : Prop :=
  s.core.client.processStopRequested = true ∨ .terminate ∈ s.core.queue ∨
    ∃ thread ∈ s.threads, thread.terminates = true

/-- While the client is open, a stop is requested only while the loop runs, and the loop ends only
when the command of every request has been taken. -/
def InTime (s : MqttSystem) (a : MqttAction) : Prop :=
  s.core.client.lifecycle = .isOpen →
    match s.acting a with
    | some .stopProcessChecked => s.core.client.processRunning = true
    | some (.process (.stopping _)) =>
      .terminate ∉ s.core.queue ∧ ∀ thread ∈ s.threads, thread.terminates = false
    | _ => True

instance (s : MqttSystem) (a : MqttAction) : Decidable (s.InTime a) := by
  unfold InTime
  split <;> infer_instance

/-- While the client is open, what is pending belongs to the run under way. -/
def StopsIsolated (h : List LoopEvent) (s : MqttSystem) : Prop :=
  s.core.client.lifecycle = .isOpen →
    (∀ thread ∈ s.threads, thread.deinits = false) ∧
    (s.StopPending → s.core.client.processRunning = true ∧ 0 < requests h)

variable {s : MqttSystem} {h : List LoopEvent}

/-- A step that does not raise `process_running` records no start. -/
theorem loopEvents_of_not_started {a : MqttAction}
    (hrun : (s.step a).2.core.client.processRunning = s.core.client.processRunning ∨
      (s.step a).2.core.client.processRunning = false) :
    s.loopEvents a = [] ∨ s.loopEvents a = [.requested] := by
  have hno : ¬ (s.core.client.processRunning = false ∧
      (s.step a).2.core.client.processRunning = true) := by
    rintro ⟨hbefore, hafter⟩
    rcases hrun with h | h
    · exact absurd (hafter.symm.trans (h.trans hbefore)) (by decide)
    · exact absurd (hafter.symm.trans h) (by decide)
  rw [loopEvents, if_neg hno]
  split
  · exact Or.inr rfl
  · exact Or.inl rfl

/-- A request that has been made stays made until the next run begins. -/
theorem requests_pos {ev : List LoopEvent} (hpos : 0 < requests h)
    (hev : ev = [] ∨ ev = [.requested]) : 0 < requests (h ++ ev) := by
  rcases hev with rfl | rfl
  · rw [List.append_nil]
    exact hpos
  · rw [requests_append_requested]
    exact Nat.succ_pos _

/-- The calls after one of them has moved on. -/
theorem forall_mem_set {p : MqttThread → Prop} {k : ℕ} {thread' : MqttThread}
    (hall : ∀ thread ∈ s.threads, p thread) (hnew : p thread') :
    ∀ thread ∈ s.threads.set k thread', p thread := by
  intro thread hmem
  rcases List.mem_or_eq_of_mem_set hmem with hmem | rfl
  · exact hall thread hmem
  · exact hnew

/-- Whatever is pending was pending before. -/
theorem StopPending.of_quiet {k : ℕ} {thread' : MqttThread} {core : MqttCore}
    (hquiet : Quiet s.core core) (hterm : thread'.terminates = false)
    (h : StopPending ⟨core, s.threads.set k thread'⟩) : s.StopPending := by
  rcases h with hstop | hqueue | ⟨thread, hmem, hthread⟩
  · exact Or.inl (hquiet.stop ▸ hstop)
  · exact Or.inr (Or.inl (hquiet.queue hqueue))
  · rcases List.mem_or_eq_of_mem_set hmem with hmem | rfl
    · exact Or.inr (Or.inr ⟨thread, hmem, hthread⟩)
    · exact absurd (hterm.symm.trans hthread) (by decide)

/-- An advancing thread keeps the invariant: by the cases of `LoopStep`. -/
theorem StopsIsolated.advance (hinv : StopsIsolated h s) {k : ℕ} {env : MqttEnv}
    {thread : MqttThread} (hk : s.threads[k]? = some thread) (hok : s.InTime (.advance k env)) :
    StopsIsolated (h ++ s.loopEvents (.advance k env)) (s.step (.advance k env)).2 := by
  -- What the step did to the flags is `step_loop`; its events are read off the same case.
  have hstep := thread.step_loop env s.core
  have hnext : (s.step (.advance k env)).2 =
      ⟨(thread.step env s.core).1, s.threads.set k (thread.step env s.core).2⟩ := by
    simp only [MqttSystem.step, hk]
  have hmem : thread ∈ s.threads := List.mem_of_getElem? hk
  have hacting : s.acting (.advance k env) = some thread := hk
  have hevents := @loopEvents_of_not_started s (.advance k env)
  unfold InTime at hok
  rw [hacting] at hok
  -- A loop that begins in this step is the one event there is.
  have hbegin : s.core.client.processRunning = false →
      (s.step (.advance k env)).2.core.client.processRunning = true →
      s.loopEvents (.advance k env) = [.started] := fun h h' => if_pos ⟨h, h'⟩
  rw [hnext] at hevents hbegin ⊢
  dsimp only at hevents hbegin
  generalize (thread.step env s.core).1 = core at *
  generalize (thread.step env s.core).2 = thread' at *
  intro hopen
  cases hstep with
  -- Nothing of the loop changed, so what is pending was pending before.
  | quiet hquiet hterm hdeinit _ =>
    obtain ⟨hcalls, hpending⟩ := hinv (hquiet.lifecycle ▸ hopen)
    refine ⟨forall_mem_set hcalls hdeinit, fun hp => ?_⟩
    obtain ⟨hrun, hpos⟩ := hpending (hp.of_quiet hquiet hterm)
    exact ⟨hquiet.running.trans hrun, requests_pos hpos (hevents (Or.inl hquiet.running))⟩
  | started hidle _ =>
    -- between two runs nothing was pending
    obtain ⟨hcalls, hpending⟩ := hinv hopen
    refine ⟨forall_mem_set hcalls rfl, fun hp => ?_⟩
    have hbefore : s.StopPending := by
      rcases hp with hstop | hqueue | ⟨thread, hmem, hthread⟩
      · exact Or.inl hstop
      · exact Or.inr (Or.inl hqueue)
      · rcases List.mem_or_eq_of_mem_set hmem with hmem | rfl
        · exact Or.inr (Or.inr ⟨thread, hmem, hthread⟩)
        · cases hthread
    exact absurd (hidle.symm.trans (hpending hbefore).1) (by decide)
  -- The loop has ended in time, so no stop is left over.
  | stopped result =>
    obtain ⟨hcalls, -⟩ := hinv hopen
    obtain ⟨hqueue, hterm⟩ := hok hopen
    refine ⟨forall_mem_set hcalls rfl, fun hp => ?_⟩
    rcases hp with hstop | hmem | ⟨thread, hmem, hthread⟩
    · cases hstop
    · exact absurd hmem hqueue
    · have hno := @forall_mem_set s (fun thread => thread.terminates = false) k (.leaving result) hterm rfl
        thread hmem
      exact absurd (hno.symm.trans hthread) (by decide)
  -- The stop is requested in this run, and that is its event.
  | requested =>
    obtain ⟨hcalls, -⟩ := hinv hopen
    have hrun : s.core.client.processRunning = true := hok hopen
    refine ⟨forall_mem_set hcalls ?_, fun _ => ⟨hrun, ?_⟩⟩
    · rw [hrun]
      rfl
    · have hno : ¬ (s.core.client.processRunning = false ∧
          (s.step (.advance k env)).2.core.client.processRunning = true) := by
        rw [hrun]
        exact fun h => absurd h.1 (by decide)
      rw [loopEvents, if_neg hno, hacting, requests_append_requested]
      exact Nat.succ_pos _
  | terminate result =>
    -- the call has set the flag in this run
    obtain ⟨hcalls, hpending⟩ := hinv hopen
    obtain ⟨hrun, hpos⟩ := hpending (Or.inr (Or.inr ⟨_, hmem, rfl⟩))
    exact ⟨forall_mem_set hcalls rfl, fun _ => ⟨hrun, requests_pos hpos (hevents (Or.inl rfl))⟩⟩
  -- A deinit that begins closes the client, against `hopen`.
  | closing _ => cases hopen
  -- No deinit goes on in an open client.
  | deinit pc pc' hsame _ _ _ =>
    obtain ⟨hcalls, -⟩ := hinv (hsame ▸ hopen)
    exact Bool.noConfusion (hcalls _ hmem)
  | returned pc result hsame _ =>
    obtain ⟨hcalls, -⟩ := hinv (hsame ▸ hopen)
    exact Bool.noConfusion (hcalls _ hmem)

/-- Every action keeps the invariant; a new call carries no request of its own. -/
theorem StopsIsolated.step (hinv : StopsIsolated h s) (a : MqttAction) (hok : s.InTime a) :
    StopsIsolated (h ++ s.loopEvents a) (s.step a).2 := by
  cases a with
  | start api =>
    intro hopen
    obtain ⟨hcalls, hpending⟩ := hinv hopen
    refine ⟨fun thread hmem => ?_, fun hp => ?_⟩
    · -- A thread that was there before, or the new one.
      rcases List.mem_append.mp hmem with hmem | hmem
      · exact hcalls thread hmem
      · rw [List.mem_singleton.mp hmem]
        rfl
    · have hbefore : s.StopPending := by
        rcases hp with hstop | hqueue | ⟨thread, hmem, hthread⟩
        · exact Or.inl hstop
        · exact Or.inr (Or.inl hqueue)
        · rcases List.mem_append.mp hmem with hmem | hmem
          · exact Or.inr (Or.inr ⟨thread, hmem, hthread⟩)
          · rw [List.mem_singleton.mp hmem] at hthread
            cases hthread
      obtain ⟨hrun, hpos⟩ := hpending hbefore
      exact ⟨hrun, requests_pos hpos (loopEvents_of_not_started (Or.inl rfl))⟩
  | advance k env =>
    -- A thread that does not exist changes nothing and records nothing.
    cases hk : s.threads[k]? with
    | none =>
      have hsame : s.step (.advance k env) = ((), s) := by simp only [MqttSystem.step, hk]
      have hev := @loopEvents_of_not_started s (.advance k env) (Or.inl (by rw [hsame]))
      rw [hsame]
      intro hopen
      obtain ⟨hcalls, hpending⟩ := hinv hopen
      exact ⟨hcalls, fun hp => ⟨(hpending hp).1, requests_pos (hpending hp).2 hev⟩⟩
    | some thread => exact hinv.advance hk hok

/-- In every run whose stop requests come in time, and as long as the client is open: the flag is
set only while the loop runs; when a new run begins neither the flag nor a TERMINATE command is
left; and what is pending has been requested since the last run began. -/
theorem stop_requests_isolated {actions : List MqttAction}
    (hmeets : Meets MqttSystem.step InTime actions .initial)
    (hopen : (run MqttSystem.step actions .initial).2.core.client.lifecycle = .isOpen) :
    ((run MqttSystem.step actions .initial).2.core.client.processStopRequested = true →
      (run MqttSystem.step actions .initial).2.core.client.processRunning = true) ∧
    ((run MqttSystem.step actions .initial).2.core.client.processRunning = false →
      ¬ (run MqttSystem.step actions .initial).2.StopPending) ∧
    ((run MqttSystem.step actions .initial).2.StopPending →
      0 < requests (history MqttSystem.step loopEvents actions .initial)) := by
  -- The invariant is carried by the run; at the start there is no thread and no TERMINATE.
  have hinv : StopsIsolated (history MqttSystem.step loopEvents actions .initial)
      (run MqttSystem.step actions .initial).2 := by
    refine history_invariant_of_meets (I := StopsIsolated) (fun h s a hI hok => hI.step a hok) ?_
      hmeets
    refine fun _ => ⟨fun thread hmem => absurd hmem List.not_mem_nil, fun hp => ?_⟩
    rcases hp with hstop | hqueue | ⟨thread, hmem, -⟩
    · cases hstop
    · exact absurd hqueue List.not_mem_nil
    · exact absurd hmem List.not_mem_nil
  obtain ⟨-, hpending⟩ := hinv hopen
  refine ⟨fun hstop => (hpending (Or.inl hstop)).1, fun hidle hp => ?_, fun hp => (hpending hp).2⟩
  exact absurd (hidle.symm.trans (hpending hp).1) (by decide)

/-- Call 0 runs the loop, call 1 asks it to stop, and the loop takes the command and ends. -/
def stoppedRun : List MqttAction :=
  [.start .process] ++ goOn 0 4 ++ [.start .stopProcess] ++ goOn 1 5 ++ receiveRun 0 ++ goOn 0 7

/-- A run whose loop is stopped by a request ends with no request pending. -/
theorem stop_requests_isolated_stopped :
    (run MqttSystem.step stoppedRun .initial).2.core.client.processRunning = false ∧
      ¬ (run MqttSystem.step stoppedRun .initial).2.StopPending :=
  ⟨by decide +kernel, (stop_requests_isolated (by decide +kernel) (by decide +kernel)).2.1
    (by decide +kernel)⟩

/-- A stop is requested while no loop runs. -/
theorem not_stop_requests_isolated :
    ¬ ∀ actions : List MqttAction,
      (run MqttSystem.step actions .initial).2.core.client.lifecycle = .isOpen →
      (run MqttSystem.step actions .initial).2.core.client.processStopRequested = true →
      (run MqttSystem.step actions .initial).2.core.client.processRunning = true := by
  intro h
  have hrun := h ([.start .stopProcess] ++ goOn 0 4) (by decide +kernel) (by decide +kernel)
  exact absurd hrun (by decide +kernel)

/-! ### Connecting while a run begins -/

/-- The `j`-th call is a connect that has been admitted. -/
def Admitted (s : MqttSystem) (j : ℕ) : Prop := (s.threads[j]?.map MqttThread.connects) = some true

instance (s : MqttSystem) (j : ℕ) : Decidable (s.Admitted j) :=
  inferInstanceAs (Decidable (_ = _))

section Orders

variable (s : MqttSystem) (i j : ℕ) (env env' : MqttEnv)

/-- The `i`-th call marks its run, and then the `j`-th call takes the client. -/
def loopFirst : MqttSystem := (run MqttSystem.step [.advance i env, .advance j env'] s).2

/-- The other way round. -/
def connectFirst : MqttSystem := (run MqttSystem.step [.advance j env', .advance i env] s).2

/-- It does not matter how far the new run has come, and while it runs a connect is admitted. -/
structure OrderIrrelevant : Prop where
  admitted : (s.loopFirst i j env env').Admitted j ↔ (s.connectFirst i j env env').Admitted j
  same : (s.connectFirst i j env env').Admitted j →
    (s.loopFirst i j env env').core.client = (s.connectFirst i j env env').core.client
  running : (s.step (.advance i env)).2.core.client.processRunning = true →
    (s.loopFirst i j env env').Admitted j

end Orders

section Orders

variable {i j : ℕ} {env env' : MqttEnv}

/-- Advancing an existing thread is its step on the shared state. -/
theorem step_advance {k : ℕ} {thread : MqttThread} (hk : s.threads[k]? = some thread)
    (env : MqttEnv) :
    (s.step (.advance k env)).2 =
      ⟨(thread.step env s.core).1, s.threads.set k (thread.step env s.core).2⟩ := by
  simp only [MqttSystem.step, hk]

/-- Whatever the first call does, the second is where it was. -/
theorem other_thread {thread : MqttThread} (hij : i ≠ j) (hj : s.threads[j]? = some thread)
    (env : MqttEnv) : (s.step (.advance i env)).2.threads[j]? = some thread := by
  cases hi : s.threads[i]? with
  | none => simpa only [MqttSystem.step, hi] using hj
  | some thread' =>
    rw [step_advance hi]
    exact (List.getElem?_set_ne hij).trans hj

/-- A connect call is admitted when its own step says so. -/
theorem admitted_advance {thread : MqttThread} (hj : s.threads[j]? = some thread)
    (env : MqttEnv) :
    (s.step (.advance j env)).2.Admitted j ↔ (thread.step env s.core).2.connects = true := by
  obtain ⟨hlt, -⟩ := List.getElem?_eq_some_iff.mp hj
  rw [step_advance hj, Admitted]
  simp only [List.getElem?_set_self hlt, Option.map_some, Option.some.injEq]

/-- A connect after a session is admitted while no loop runs, -/
theorem connectEntered_step_idle {m : MqttCore} (hdis : m.client.state = .disconnected)
    (hidle : m.client.processRunning = false) :
    MqttThread.step env' m .connectEntered =
      ({ m with client := { (mqttNextConnectGenerationLocked m.client).2 with
          state := .connecting, connectResultValid := false } },
        .connectBegun .disconnected (mqttNextConnectGenerationLocked m.client).1) := by
  simp [MqttThread.step, mqttBeginConnect, hdis, hidle]

/-- and refused while one does. -/
theorem connectEntered_step_running {m : MqttCore} (hdis : m.client.state = .disconnected)
    (hrun : m.client.processRunning = true) :
    MqttThread.step env' m .connectEntered = (m, .leaving (.error (mqttErr .badState))) := by
  simp [MqttThread.step, mqttBeginConnect, hdis, hrun]

/-- `actrust_mqtt_process` on a closing client answers BAD_STATE. -/
theorem entered_step_closing {m : MqttCore} (hclosing : m.client.lifecycle = .closing) :
    MqttThread.step env m (.process .entered) = (m, .leaving (.error (mqttErr .badState))) := by
  simp [MqttThread.step, MqttProcess.step, mqttMarkProcessStarted, hclosing]

/-- On an open, idle client it marks the loop running. -/
theorem entered_step_open {m : MqttCore} (hopen : m.client.lifecycle = .isOpen)
    (hidle : m.client.processRunning = false) :
    MqttThread.step env m (.process .entered) =
      ({ m with client := { m.client with processRunning := true } }, .process .top) := by
  simp [MqttThread.step, MqttProcess.step, mqttMarkProcessStarted, hopen, hidle]

/-- After a session, the order of a connect and of the mark of a new run matters exactly as long as
the client is open. -/
theorem connect_order_iff (hdis : s.core.client.state = .disconnected)
    (hidle : s.core.client.processRunning = false)
    (hi : s.threads[i]? = some (.process .entered)) (hj : s.threads[j]? = some .connectEntered) :
    s.OrderIrrelevant i j env env' ↔ s.core.client.lifecycle = .closing := by
  have hij : i ≠ j := by
    rintro rfl
    cases hi.symm.trans hj
  have hloop := step_advance hi env
  have hconnect := step_advance hj env'
  have hj' := other_thread hij hj env
  have hi' := other_thread hij.symm hi env'
  have hadmitted : (s.step (.advance j env')).2.Admitted j := by
    rw [admitted_advance hj, connectEntered_step_idle hdis hidle]
    rfl
  have hconnectFirst : (s.connectFirst i j env env').Admitted j := by
    -- the step of the loop is another call's
    show (((s.step (.advance j env')).2.step (.advance i env)).2).Admitted j
    rw [step_advance hi', Admitted, List.getElem?_set_ne hij]
    exact hadmitted
  constructor
  · intro horder
    by_contra hopen
    have hopen : s.core.client.lifecycle = .isOpen := by
      cases hl : s.core.client.lifecycle with
      | isOpen => rfl
      | closing => exact absurd hl hopen
    -- the run is marked, and the connect is refused
    have hrun : (s.step (.advance i env)).2.core.client.processRunning = true := by
      rw [hloop, entered_step_open hopen hidle]
    have hstate : (s.step (.advance i env)).2.core.client.state = .disconnected := by
      rw [hloop, entered_step_open hopen hidle]
      exact hdis
    have hrefused := (admitted_advance hj' env').mp (horder.admitted.mpr hconnectFirst)
    rw [connectEntered_step_running hstate hrun] at hrefused
    cases hrefused
  · intro hclosing
    have hcore : (s.step (.advance i env)).2.core = s.core := by
      rw [hloop, entered_step_closing hclosing]
    have hfirst : (s.loopFirst i j env env').Admitted j := by
      refine (admitted_advance hj' env').mpr ?_
      rw [hcore, connectEntered_step_idle hdis hidle]
      rfl
    refine ⟨⟨fun _ => hconnectFirst, fun _ => hfirst⟩, fun _ => ?_, fun _ => hfirst⟩
    have hlate : (s.step (.advance j env')).2.core.client.lifecycle = .closing := by
      rw [hconnect, connectEntered_step_idle hdis hidle]
      exact hclosing
    -- the loop is not marked in either order
    calc (s.loopFirst i j env env').core.client
        = (MqttThread.step env' (s.step (.advance i env)).2.core .connectEntered).1.client := by
          rw [loopFirst, run_cons, run_cons, run_nil, step_advance hj']
      _ = (s.step (.advance j env')).2.core.client := by
          rw [hcore, hconnect]
      _ = (s.connectFirst i j env env').core.client := by
          rw [connectFirst, run_cons, run_cons, run_nil, step_advance hi',
            entered_step_closing hlate]

/-- Another run of the loop and a connect, of a client whose first run has ended; the client is
being closed. -/
def closingRun : List MqttAction :=
  stoppedRun ++ [.start .process] ++ goOn 2 2 ++ [.start .connect] ++ goOn 3 1 ++
    [.start .deinit] ++ goOn 4 1

/-- On a closing client the order does not matter: both calls are refused. -/
theorem connect_order_closing : (run MqttSystem.step closingRun .initial).2.OrderIrrelevant 2 3
    (answer .receive) (answer .receive) :=
  (connect_order_iff (by decide +kernel) (by decide +kernel) rfl rfl).mpr (by decide +kernel)

/-- The order does matter on a disconnected open client: connect is refused once the loop is marked.
-/
theorem not_connect_order :
    ¬ ∀ (actions : List MqttAction) (i j : ℕ) (env env' : MqttEnv),
      (run MqttSystem.step actions .initial).2.core.client.state = .disconnected →
      (run MqttSystem.step actions .initial).2.core.client.processRunning = false →
      (run MqttSystem.step actions .initial).2.threads[i]? = some (.process .entered) →
      (run MqttSystem.step actions .initial).2.threads[j]? = some .connectEntered →
      (run MqttSystem.step actions .initial).2.OrderIrrelevant i j env env' := by
  intro h
  have horder := h (stoppedRun ++ [.start .process] ++ goOn 2 2 ++ [.start .connect] ++ goOn 3 1)
    2 3 (answer .receive) (answer .receive) (by decide +kernel) (by decide +kernel) rfl rfl
  exact absurd (horder.running (by decide +kernel)) (by decide +kernel)

end Orders

end MqttSystem

end TrustSdk.Mqtt
