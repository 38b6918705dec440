import TrustSdk.Mqtt.Client
import TrustSdk.Queue.Destroy

/-!
# Tearing the client down

`actrust_mqtt_deinit` in attempts that follow each other, with nobody else in the client: what each
attempt uses and releases, when its release calls fail in whatever pattern. The command queue is
destroyed in the middle of it, with its own retries.

The counters and flags of the client are those of `MqttClient`; `MQTTAgent_CancelAll`, which is not
part of the repository, is a parameter.
-/

namespace TrustSdk.Mqtt

open Release Queue

/-- What a client holds. The network handle and the owned strings of the configuration are
released too, by calls whose result is not looked at. -/
inductive MqttResource where
  | transport
  | config
  | cryptoCtx
  | commandQueue (r : QueueResource)
  | subscriptions
  | networkBuffer
  | lifecycleDoneSem
  | commandDoneSem
  | processDoneSem
  | lock
  | memory
  deriving DecidableEq, Repr

/-- The handles of a client, of which each may be `NULL`. -/
structure MqttHandles where
  client : MqttClient
  transport : Bool
  config : Bool
  cryptoCtx : Bool
  commandQueue : Option QueueHandles
  subscriptions : Bool
  networkBuffer : Bool
  lifecycleDoneSem : Bool
  commandDoneSem : Bool
  processDoneSem : Bool
  lock : Bool
  /-- The client has not been freed. -/
  memory : Bool

/-- The client still holds the resource. -/
def MqttHandles.Holds (m : MqttHandles) : MqttResource → Prop
  | .transport => m.transport = true
  | .config => m.config = true
  | .cryptoCtx => m.cryptoCtx = true
  | .commandQueue r => r ∈ Queue.held m.commandQueue
  | .subscriptions => m.subscriptions = true
  | .networkBuffer => m.networkBuffer = true
  | .lifecycleDoneSem => m.lifecycleDoneSem = true
  | .commandDoneSem => m.commandDoneSem = true
  | .processDoneSem => m.processDoneSem = true
  | .lock => m.lock = true
  | .memory => m.memory = true

/-- What deinit has still to free. -/
def MqttHandles.held (m : MqttHandles) : Set MqttResource := {r | m.Holds r}

/-- What the calls of one attempt answer; `none` is success. -/
structure MqttDeinitEnv where
  /-- The end of the process loop, should it run. -/
  processStop : Err
  cryptoCtx : Option Err
  commandQueue : QueueDestroyEnv
  lifecycleDoneSem : Option Err
  commandDoneSem : Option Err
  processDoneSem : Option Err
  lock : Option Err

/-- A stage of deinit over the handles. -/
abbrev MqttStage := Stage MqttResource Fault MqttHandles

/-! ### The attempt -/

section Deinit

variable (cancelAll : MqttClient → MqttStatus × MqttClient) (env : MqttDeinitEnv)

/-- `mqtt_begin_deinit` is the head of `actrust_mqtt_deinit`. -/
def mqttEnterDeinit : MqttStage := fun m =>
  match mqttBeginDeinit m.client with
  | .error e => ⟨[.use .lock], .error (.err e), m⟩
  | .ok client => ⟨[.use .lock], .ok (), { m with client }⟩

/-- The loop that is to be stopped is nobody's: its end is not posted. -/
def mqttStopProcess : MqttStage := fun m =>
  if m.client.processRunning then
    ⟨[.use .lock, .use .processDoneSem], .error (.err env.processStop), m⟩
  else ⟨[.use .lock], .ok (), m⟩

/-- `mqtt_wait_for_command_claim`: a claim that nobody releases outlasts the wait. -/
def mqttWaitForCommandClaim : MqttStage := fun m =>
  if m.client.commandActive then
    ⟨[.use .lock, .use .commandDoneSem], .error (.err (mqttErr .timeout)), m⟩
  else ⟨[.use .lock], .ok (), m⟩

/-- What `MQTTAgent_CancelAll` uses: it empties the command queue through `mqtt_agent_recv`, and
completes each command. -/
def cancelAllUses : List MqttResource :=
  [.commandQueue .stateLock, .commandQueue .filledSlots, .commandQueue .lock,
    .commandQueue .emptySlots, .commandQueue .memory, .lock, .subscriptions, .commandDoneSem,
    .lifecycleDoneSem]

/-- `mqtt_cancel_all`, by `MQTTAgent_CancelAll`: the list is marked cancelled only if it succeeds.
-/
def mqttCancelAll : MqttStage := fun m =>
  if m.client.agentCancelled then ⟨[], .ok (), m⟩
  else
    match cancelAll m.client with
    | (status, client) =>
      if status ≠ .success then
        ⟨cancelAllUses.map .use,
          match mqttStatusToErr status with
          | .error e => .error (.err e)
          | .ok _ => .ok (),
          { m with client }⟩
      else
        ⟨cancelAllUses.map .use, .ok (), { m with client := { client with agentCancelled := true } }⟩

/-- `mqtt_release_command_claim`: a waiting deinit is posted when a command was active. -/
def mqttReleaseCommandClaim : MqttStage := fun m =>
  ⟨.use .lock :: if m.client.commandActive then [.use .commandDoneSem] else [], .ok (),
    { m with client := { m.client with commandActive := false } }⟩

/-- `mqtt_wait_for_lifecycle_idle`: what is still in flight stays so. -/
def mqttWaitForLifecycleIdle : MqttStage := fun m =>
  if mqttLifecycleIdleLocked m.client then ⟨[.use .lock], .ok (), m⟩
  else ⟨[.use .lock, .use .lifecycleDoneSem], .error (.err (mqttErr .timeout)), m⟩

/-- The stage of the command queue. -/
def mqttDestroyQueue : MqttStage := fun m =>
  if m.commandQueue.isSome then
    let o := actrustQueueDestroy env.commandQueue m.commandQueue
    ⟨o.log.map (.map .commandQueue), o.result, { m with commandQueue := o.state }⟩
  else ⟨[], .ok (), m⟩

/-- The release of the resources, in the order of `actrust_mqtt_deinit`. -/
def mqttReleaseResources : MqttStage :=
  andThen (fun m => ⟨[.use .lock], .ok (), m⟩) <|
  andThen (releaseIf .transport MqttHandles.transport (fun m => { m with transport := false }) none) <|
  andThen (releaseIf .config MqttHandles.config (fun m => { m with config := false }) none) <|
  andThen (releaseIf .cryptoCtx MqttHandles.cryptoCtx (fun m => { m with cryptoCtx := false })
    (env.cryptoCtx.map .err)) <|
  andThen (mqttDestroyQueue env) <|
  andThen (releaseIf .subscriptions MqttHandles.subscriptions
    (fun m => { m with subscriptions := false }) none) <|
  andThen (releaseIf .networkBuffer MqttHandles.networkBuffer
    (fun m => { m with networkBuffer := false }) none) <|
  andThen (releaseIf .lifecycleDoneSem MqttHandles.lifecycleDoneSem
    (fun m => { m with lifecycleDoneSem := false }) (env.lifecycleDoneSem.map .err)) <|
  andThen (releaseIf .commandDoneSem MqttHandles.commandDoneSem
    (fun m => { m with commandDoneSem := false }) (env.commandDoneSem.map .err)) <|
  andThen (releaseIf .processDoneSem MqttHandles.processDoneSem
    (fun m => { m with processDoneSem := false }) (env.processDoneSem.map .err)) <|
  andThen (releaseIf .lock MqttHandles.lock (fun m => { m with lock := false })
    (env.lock.map .err)) <|
  releaseIf .memory MqttHandles.memory (fun m => { m with memory := false }) none

/-- `mqtt_leave_deinit`: the client stays closing, a later attempt may enter. -/
def mqttLeaveDeinit : MqttStage := fun m =>
  ⟨[.use .lock], .ok (), { m with client := mqttDeinitAbort m.client }⟩

/-- `actrust_mqtt_deinit` in its order; a failing stage leaves through `mqtt_leave_deinit`. -/
def actrustMqttDeinit : MqttStage :=
  andThen mqttEnterDeinit <|
    onError
      (andThen (mqttStopProcess env) <| andThen mqttWaitForCommandClaim <|
        andThen (mqttCancelAll cancelAll) <| andThen mqttReleaseCommandClaim <|
        andThen mqttWaitForLifecycleIdle <| mqttReleaseResources env)
      mqttLeaveDeinit

end Deinit

/-! ### What the stages do -/

/-- Nobody else is in the client. -/
structure MqttHandles.Alone (m : MqttHandles) : Prop where
  memory : m.memory = true
  lock : m.lock = true
  apiInflight : m.client.apiInflight = 0
  callbackInflight : m.client.callbackInflight = 0
  processRunning : m.client.processRunning = false
  commandQueue : ∀ q, m.commandQueue = some q → q.Unused

/-- The client between two attempts: nothing that the agent may still use is gone before it has
been cancelled, and nothing is in flight after that. -/
structure MqttHandles.Between (m : MqttHandles) : Prop extends m.Alone where
  commandActive : m.client.commandActive = false
  whole : m.client.agentCancelled = false → ∀ r, r ≠ .transport → r ≠ .config → r ∈ m.held
  idle : m.client.agentCancelled = true → m.client.operationInflight = 0

/-- A client that an attempt can begin with. -/
structure MqttHandles.Ready (m : MqttHandles) : Prop extends m.Between where
  deinitInflight : m.client.deinitInflight = false
  disconnected : m.client.lifecycle = .isOpen →
    m.client.state ≠ .connected ∧ m.client.state ≠ .connecting

/-- Inside an attempt. -/
structure MqttHandles.Closing (m : MqttHandles) : Prop extends m.Between where
  closing : m.client.lifecycle = .closing

/-- Inside an attempt, behind `MQTTAgent_CancelAll`. -/
structure MqttHandles.Cancelled (m : MqttHandles) : Prop extends m.Closing where
  agentCancelled : m.client.agentCancelled = true

/-- `MQTTAgent_CancelAll`: it completes all there is, and each completion leaves the operation. -/
structure CancelsAll (cancelAll : MqttClient → MqttStatus × MqttClient) : Prop where
  status : ∀ mqtt, (cancelAll mqtt).1 = .success
  operationInflight : ∀ mqtt, (cancelAll mqtt).2.operationInflight = 0
  apiInflight : ∀ mqtt, (cancelAll mqtt).2.apiInflight = mqtt.apiInflight
  callbackInflight : ∀ mqtt, (cancelAll mqtt).2.callbackInflight = mqtt.callbackInflight
  processRunning : ∀ mqtt, (cancelAll mqtt).2.processRunning = mqtt.processRunning
  lifecycle : ∀ mqtt, (cancelAll mqtt).2.lifecycle = mqtt.lifecycle

section Stages

variable {cancelAll : MqttClient → MqttStatus × MqttClient} {env : MqttDeinitEnv} {works : Prop}

/-- Alone means that nobody else holds the lock. -/
theorem lock_held {m : MqttHandles} (h : m.Alone) : ∀ r ∈ [MqttResource.lock], r ∈ m.held := by
  intro r hr
  rw [List.mem_singleton.mp hr]
  exact h.lock

/-- Entering deinit: `Ready` rules both refusals out. -/
theorem mqttEnterDeinit_meets : Meets works MqttHandles.held MqttHandles.Ready mqttEnterDeinit
    MqttHandles.Closing MqttHandles.Ready := by
  refine .of_ok (fun _ => [.lock]) (fun m => { m with client := { m.client with
      lifecycle := .closing, deinitInflight := true, processStopRequested := true } })
    ?_ (fun m hm => lock_held hm.toAlone) (fun _ _ => rfl) ?_
  · intro m hm
    -- Neither refusal of `mqtt_begin_deinit` applies: no callback, no other deinit, not connected.
    have hbusy : ¬(m.client.callbackInflight > 0 ∨ m.client.deinitInflight = true) := by
      rw [hm.callbackInflight, hm.deinitInflight]
      decide
    have hopen : ¬(m.client.lifecycle = .isOpen ∧
        (m.client.state = .connected ∨ m.client.state = .connecting)) := by
      rintro ⟨hopen, hstate | hstate⟩
      · exact (hm.disconnected hopen).1 hstate
      · exact (hm.disconnected hopen).2 hstate
    unfold mqttEnterDeinit mqttBeginDeinit
    rw [if_neg hbusy, if_neg hopen]
    rfl
  · intro m hm
    exact ⟨⟨⟨hm.memory, hm.lock, hm.apiInflight, hm.callbackInflight, hm.processRunning,
      hm.commandQueue⟩, hm.commandActive, hm.whole, hm.idle⟩, rfl⟩

/-- No loop runs, so there is nothing to stop. -/
theorem mqttStopProcess_meets (env : MqttDeinitEnv) : Meets works MqttHandles.held MqttHandles.Closing
    (mqttStopProcess env) MqttHandles.Closing MqttHandles.Closing := by
  refine .of_ok (fun _ => [.lock]) id ?_ (fun m hm => lock_held hm.toAlone)
    (fun _ _ => rfl) fun _ hm => hm
  intro m hm
  unfold mqttStopProcess
  rw [hm.processRunning, if_neg Bool.false_ne_true]
  rfl

/-- No command is claimed, so the wait returns at once. -/
theorem mqttWaitForCommandClaim_meets : Meets works MqttHandles.held MqttHandles.Closing
    mqttWaitForCommandClaim MqttHandles.Closing MqttHandles.Closing := by
  refine .of_ok (fun _ => [.lock]) id ?_ (fun m hm => lock_held hm.toAlone)
    (fun _ _ => rfl) fun _ hm => hm
  intro m hm
  unfold mqttWaitForCommandClaim
  rw [hm.commandActive, if_neg Bool.false_ne_true]
  rfl

/-- `MQTTAgent_CancelAll` leaves the claim to the agent, and the semaphore it will be posted on. -/
structure MqttHandles.Claimed (m : MqttHandles) : Prop extends m.Alone where
  closing : m.client.lifecycle = .closing
  agentCancelled : m.client.agentCancelled = true
  operationInflight : m.client.operationInflight = 0
  commandDoneSem : m.client.commandActive = true → .commandDoneSem ∈ m.held

/-- Cancelling leaves no operation in flight, or fails and leaves the list as it was. -/
theorem mqttCancelAll_meets (hcancel : CancelsAll cancelAll) : Meets works MqttHandles.held
    MqttHandles.Closing (mqttCancelAll cancelAll) MqttHandles.Claimed MqttHandles.Closing := by
  refine .of_ok (fun m => if m.client.agentCancelled then [] else cancelAllUses)
    (fun m => if m.client.agentCancelled then m else
      { m with client := { (cancelAll m.client).2 with agentCancelled := true } }) ?_ ?_ ?_ ?_
  · intro m _
    unfold mqttCancelAll
    split_ifs with hcancelled
    · rfl
    · have hstatus := hcancel.status m.client
      dsimp only
      rw [hstatus, if_neg (not_not.mpr rfl)]
  · intro m hm r hr
    split_ifs at hr with hcancelled
    · cases hr
    · -- nothing has been released before the agent is cancelled
      refine hm.whole (Bool.eq_false_iff.mpr hcancelled) r ?_ ?_ <;>
        rintro rfl <;> revert hr <;> decide
  · intro m _
    split_ifs <;> rfl
  · intro m hm
    split_ifs with hcancelled
    · exact ⟨hm.toAlone, hm.closing, hcancelled, hm.idle hcancelled,
        fun hactive => Bool.noConfusion (hm.commandActive.symm.trans hactive)⟩
    · refine ⟨⟨hm.memory, hm.lock, ?_, ?_, ?_, hm.commandQueue⟩, ?_, rfl, ?_, fun _ => ?_⟩
      · exact (hcancel.apiInflight _).trans hm.apiInflight
      · exact (hcancel.callbackInflight _).trans hm.callbackInflight
      · exact (hcancel.processRunning _).trans hm.processRunning
      · exact (hcancel.lifecycle _).trans hm.closing
      · exact hcancel.operationInflight _
      · exact hm.whole (Bool.eq_false_iff.mpr hcancelled) .commandDoneSem nofun nofun

/-- Releasing the claim uses the lock, and the semaphore only if a command was active. -/
theorem mqttReleaseCommandClaim_meets : Meets works MqttHandles.held MqttHandles.Claimed
    mqttReleaseCommandClaim MqttHandles.Cancelled MqttHandles.Closing := by
  refine .of_ok (fun m => .lock :: if m.client.commandActive then [.commandDoneSem] else [])
    (fun m => { m with client := { m.client with commandActive := false } })
    ?_ ?_ (fun _ _ => rfl) ?_
  · -- The uses are those of the branch taken.
    intro m _
    unfold mqttReleaseCommandClaim
    split_ifs <;> rfl
  · -- Both resources are still there: the lock always, the semaphore while a command is active.
    intro m hm r hr
    rcases List.mem_cons.mp hr with rfl | hr
    · exact hm.lock
    · split_ifs at hr with hactive
      · rw [List.mem_singleton.mp hr]
        exact hm.commandDoneSem hactive
      · cases hr
  · -- The claim is gone, the cancellation stands.
    intro m hm
    exact ⟨⟨⟨⟨hm.memory, hm.lock, hm.apiInflight, hm.callbackInflight, hm.processRunning,
      hm.commandQueue⟩, rfl, fun hnot => Bool.noConfusion (hnot.symm.trans hm.agentCancelled),
      fun _ => hm.operationInflight⟩, hm.closing⟩, hm.agentCancelled⟩

/-- Everything is idle after the cancellation, so the last wait returns at once. -/
theorem mqttWaitForLifecycleIdle_meets : Meets works MqttHandles.held MqttHandles.Cancelled
    mqttWaitForLifecycleIdle MqttHandles.Cancelled MqttHandles.Closing := by
  refine .of_ok (fun _ => [.lock]) id ?_ (fun m hm => lock_held hm.toAlone)
    (fun _ _ => rfl) fun _ hm => hm
  intro m hm
  have hidle : mqttLifecycleIdleLocked m.client = true := by
    rw [mqttLifecycleIdleLocked, decide_eq_true_eq]
    exact ⟨hm.apiInflight, hm.callbackInflight, hm.idle hm.agentCancelled, hm.commandActive,
      hm.processRunning⟩
  unfold mqttWaitForLifecycleIdle
  rw [hidle, if_pos rfl]
  rfl

/-- One handle is gone. -/
def MqttHandles.without (m : MqttHandles) : MqttResource → MqttHandles
  | .transport => { m with transport := false }
  | .config => { m with config := false }
  | .cryptoCtx => { m with cryptoCtx := false }
  | .commandQueue _ => m
  | .subscriptions => { m with subscriptions := false }
  | .networkBuffer => { m with networkBuffer := false }
  | .lifecycleDoneSem => { m with lifecycleDoneSem := false }
  | .commandDoneSem => { m with commandDoneSem := false }
  | .processDoneSem => { m with processDoneSem := false }
  | .lock => { m with lock := false }
  | .memory => { m with memory := false }

/-- Clearing one handle takes out one resource. -/
theorem MqttHandles.held_without (m : MqttHandles) {r : MqttResource}
    (hr : ∀ q, r ≠ .commandQueue q) : (m.without r).held = m.held \ {r} := by
  ext r'
  cases r with
  | commandQueue q => exact absurd rfl (hr q)
  | _ => cases r' <;> simp [MqttHandles.held, MqttHandles.Holds, MqttHandles.without]

/-- Freeing anything but the lock and the memory keeps the cancelled client. -/
theorem MqttHandles.Cancelled.without {m : MqttHandles} (h : m.Cancelled) {r : MqttResource}
    (hlock : r ≠ .lock) (hmemory : r ≠ .memory) : (m.without r).Cancelled := by
  -- These two stay; every other handle is free to go.
  have hsame : (m.without r).client = m.client ∧ (m.without r).commandQueue = m.commandQueue ∧
      (m.without r).lock = true ∧ (m.without r).memory = true := by
    cases r with
    | lock => exact absurd rfl hlock
    | memory => exact absurd rfl hmemory
    | _ => exact ⟨rfl, rfl, h.lock, h.memory⟩
  obtain ⟨hclient, hqueue, hlock, hmemory⟩ := hsame
  refine ⟨⟨⟨⟨hmemory, hlock, ?_, ?_, ?_, hqueue ▸ h.commandQueue⟩, ?_, ?_, ?_⟩, ?_⟩, ?_⟩
  · exact hclient ▸ h.apiInflight
  · exact hclient ▸ h.callbackInflight
  · exact hclient ▸ h.processRunning
  · exact hclient ▸ h.commandActive
  · intro hnot
    rw [hclient, h.agentCancelled] at hnot
    cases hnot
  · exact hclient ▸ h.idle
  · exact hclient ▸ h.closing
  · exact hclient ▸ h.agentCancelled

/-- A handle behind which the teardown goes on. -/
theorem mqttRelease_meets {r : MqttResource} {present : MqttHandles → Bool} {fails : Option Fault}
    (hpresent : ∀ m, present m = true ↔ r ∈ m.held) (hr : ∀ q, r ≠ .commandQueue q)
    (hlock : r ≠ .lock) (hmemory : r ≠ .memory) :
    Meets works MqttHandles.held MqttHandles.Cancelled
      (releaseIf r present (fun m => m.without r) fails)
      (fun m => m.Cancelled ∧ Disjoint {r} m.held) MqttHandles.Closing :=
  .releaseIf hpresent (fun m => m.held_without hr)
    (fun _ hm hgone => ⟨hm, Set.disjoint_singleton_left.mpr hgone⟩)
    (fun _ hm hgone => ⟨hm.without hlock hmemory, Set.disjoint_singleton_left.mpr hgone⟩)
    fun _ hm _ => hm.toClosing

/-- The resources of the command queue, among the others. -/
theorem MqttHandles.held_queue (m : MqttHandles) (handle : Option QueueHandles) :
    { m with commandQueue := handle }.held = MqttResource.commandQueue '' Queue.held handle ∪
      {r | r ∈ m.held ∧ ∀ q, r ≠ .commandQueue q} := by
  ext r
  constructor
  · intro hr
    cases r with
    | commandQueue q => exact .inl ⟨q, hr, rfl⟩
    | _ => exact .inr ⟨hr, nofun⟩
  · rintro (⟨q, hq, rfl⟩ | ⟨hr, hother⟩)
    · exact hq
    · cases r with
      | commandQueue q => exact absurd rfl (hother q)
      | _ => exact hr

/-- Destroying the command queue is the queue's own destroy, seen through `commandQueue`. -/
theorem mqttDestroyQueue_meets : Meets env.commandQueue.Locks MqttHandles.held
    MqttHandles.Cancelled (mqttDestroyQueue env)
    (fun m => m.Cancelled ∧ Disjoint (Set.range MqttResource.commandQueue) m.held)
    MqttHandles.Closing := by
  -- The queue's attempts and outcomes carry over; only the naming of its resources changes.
  have hmeets := actrustQueueDestroy_meets env.commandQueue
  have hkeeps : ∀ (m : MqttHandles) (handle : Option QueueHandles), m.Cancelled →
      (∀ q, handle = some q → q.Unused) → { m with commandQueue := handle }.Cancelled := by
    intro m handle hm hhandle
    exact ⟨⟨⟨⟨hm.memory, hm.lock, hm.apiInflight, hm.callbackInflight, hm.processRunning, hhandle⟩,
      hm.commandActive, fun hnot => Bool.noConfusion (hnot.symm.trans hm.agentCancelled), hm.idle⟩,
      hm.closing⟩, hm.agentCancelled⟩
  have hgone : ∀ m : MqttHandles, m.commandQueue = none →
      Disjoint (Set.range MqttResource.commandQueue) m.held := by
    intro m hnone
    rw [Set.disjoint_left]
    rintro r ⟨q, rfl⟩ hq
    have hq : q ∈ Queue.held m.commandQueue := hq
    rw [hnone] at hq
    exact hq
  -- An absent queue is skipped, which holds as nothing of it is left.
  refine .ite ?_ ?_
  · have hunused : ∀ m : MqttHandles, m.Cancelled ∧ m.commandQueue.isSome = true →
        HandleUnused m.commandQueue := by
      rintro m ⟨hm, hsome⟩
      obtain ⟨q, hq⟩ := Option.isSome_iff_exists.mp hsome
      exact ⟨q, hq, hm.commandQueue q hq⟩
    refine ⟨?_, ?_, ?_, ?_⟩
    · intro m hm
      have hlawful := (hmeets.lawful _ (hunused m hm)).map (f := MqttResource.commandQueue)
        (fun _ _ h => MqttResource.commandQueue.inj h)
        {r | r ∈ m.held ∧ ∀ q, r ≠ .commandQueue q} fun q hq => hq.2 q rfl
      rw [← m.held_queue, ← m.held_queue] at hlawful
      exact hlawful
    · intro m hm hok
      have hnone := hmeets.done _ (hunused m hm) hok
      refine ⟨hkeeps m _ hm.1 fun q hq => ?_, hgone _ hnone⟩
      cases hnone.symm.trans hq
    · intro m e hm herr
      obtain ⟨q, hq, hqunused⟩ := hmeets.failed _ e (hunused m hm) herr
      refine (hkeeps m _ hm.1 fun q' hq' => ?_).toClosing
      cases hq.symm.trans hq'
      exact hqunused
    · intro hw m hm
      show _ ↔ Clean (List.map _ _)
      rw [clean_map]
      exact hmeets.clean hw _ (hunused m hm)
  · refine .skip fun m hm => ⟨hm.1, hgone m ?_⟩
    exact Option.not_isSome_iff_eq_none.mp hm.2

/-- The lock is the last to go, and then the client. -/
theorem mqttFree_meets {fails : Option Fault} : Meets works MqttHandles.held MqttHandles.Cancelled
    (andThen (releaseIf .lock MqttHandles.lock (fun m => { m with lock := false }) fails)
      (releaseIf .memory MqttHandles.memory (fun m => { m with memory := false }) none))
    (fun m => Disjoint ({.lock} ∪ {.memory}) m.held) MqttHandles.Closing := by
  refine .andThen_gone (Q := fun _ => True) ?_ ?_
  · exact .releaseIf (fun _ => .rfl) (fun m => m.held_without (r := .lock) nofun)
      (fun m _ hgone => ⟨trivial, Set.disjoint_singleton_left.mpr hgone⟩)
      (fun m _ hgone => ⟨trivial, Set.disjoint_singleton_left.mpr hgone⟩)
      fun m hm _ => hm.toClosing
  · exact .releaseIf (fun _ => .rfl) (fun m => m.held_without (r := .memory) nofun)
      (fun m _ hgone => Set.disjoint_singleton_left.mpr hgone)
      (fun m _ hgone => Set.disjoint_singleton_left.mpr hgone) fun m _ hne => absurd rfl hne

/-- The free stages in the order of the source, each releasing what it finds. -/
theorem mqttReleaseResources_meets (env : MqttDeinitEnv) : Meets env.commandQueue.Locks MqttHandles.held
    MqttHandles.Cancelled (mqttReleaseResources env) (fun m => m.held = ∅) MqttHandles.Closing := by
  have hlocked : Meets env.commandQueue.Locks MqttHandles.held MqttHandles.Cancelled
      (fun m => (⟨[.use .lock], .ok (), m⟩ : Outcome MqttResource Fault MqttHandles))
      MqttHandles.Cancelled MqttHandles.Closing :=
    .of_ok (fun _ => [.lock]) id (fun _ _ => rfl)
      (fun m hm => lock_held hm.toAlone) (fun _ _ => rfl) fun _ hm => hm
  refine (hlocked.andThen <|
    (mqttRelease_meets (r := .transport) (fun _ => .rfl) nofun nofun nofun).andThen_gone <|
    (mqttRelease_meets (r := .config) (fun _ => .rfl) nofun nofun nofun).andThen_gone <|
    (mqttRelease_meets (r := .cryptoCtx) (fun _ => .rfl) nofun nofun nofun).andThen_gone <|
    mqttDestroyQueue_meets.andThen_gone <|
    (mqttRelease_meets (r := .subscriptions) (fun _ => .rfl) nofun nofun nofun).andThen_gone <|
    (mqttRelease_meets (r := .networkBuffer) (fun _ => .rfl) nofun nofun nofun).andThen_gone <|
    (mqttRelease_meets (r := .lifecycleDoneSem) (fun _ => .rfl) nofun nofun nofun).andThen_gone <|
    (mqttRelease_meets (r := .commandDoneSem) (fun _ => .rfl) nofun nofun nofun).andThen_gone <|
    (mqttRelease_meets (r := .processDoneSem) (fun _ => .rfl) nofun nofun nofun).andThen_gone
      mqttFree_meets).weaken id (fun _ hm => hm) ?_ fun _ hm => hm
  -- the stages cover every resource
  intro m hgone
  refine Set.eq_empty_of_forall_notMem fun r hr => Set.disjoint_left.mp hgone ?_ hr
  cases r <;> simp

/-- One attempt of deinit: on success nothing is held, on failure the client is ready for another.
-/
theorem actrustMqttDeinit_meets (hcancel : CancelsAll cancelAll) :
    Meets env.commandQueue.Locks MqttHandles.held MqttHandles.Ready (actrustMqttDeinit cancelAll env)
      (fun m => m.held = ∅) MqttHandles.Ready := by
  -- The stages are chained by their own specifications, in the order of the source.
  have hbody := (mqttStopProcess_meets env).andThen <| mqttWaitForCommandClaim_meets.andThen <|
    (mqttCancelAll_meets hcancel).andThen <| mqttReleaseCommandClaim_meets.andThen <|
    mqttWaitForLifecycleIdle_meets.andThen <| mqttReleaseResources_meets env
  refine mqttEnterDeinit_meets.andThen (hbody.onError ?_ ?_)
  · intro m hm
    exact .use hm.lock .nil
  · -- A failed stage leaves the client closing, so the `disconnected` part holds of itself.
    intro m hm
    refine ⟨⟨⟨hm.memory, hm.lock, hm.apiInflight, hm.callbackInflight, hm.processRunning,
      hm.commandQueue⟩, hm.commandActive, hm.whole, hm.idle⟩, rfl, fun hopen => ?_⟩
    cases hm.closing.symm.trans hopen

/-- **The teardown of a client that nobody else is in can be tried again, and so can that of a
queue on its own, whose handle is cleared exactly when nothing of it is left.** -/
theorem teardown_retryable (hcancel : CancelsAll cancelAll) :
    (∀ (envs : List MqttDeinitEnv) (m : MqttHandles), m.Ready →
      Retryable (fun env : MqttDeinitEnv => env.commandQueue.Locks) MqttHandles.held
        (actrustMqttDeinit cancelAll) envs m) ∧
      ∀ (envs : List QueueDestroyEnv) (q : QueueHandles), q.Unused →
        Retryable QueueDestroyEnv.Locks Queue.held actrustQueueDestroy envs (some q) ∧
          ∀ o ∈ attempts actrustQueueDestroy envs (some q),
            o.state = none ↔ Queue.held o.state = ∅ :=
  ⟨fun envs _ hm => retryable (fun _ => actrustMqttDeinit_meets hcancel) (fun _ h => h) envs hm,
    fun envs _ hq => ⟨actrustQueueDestroy_retryable envs hq, fun _ _ => held_eq_empty.symm⟩⟩

end Stages

/-- The client as `actrust_mqtt_init` leaves it, without a connection. -/
def MqttHandles.created : MqttHandles where
  client := .initial
  transport := false
  config := false
  cryptoCtx := true
  commandQueue := some .created
  subscriptions := true
  networkBuffer := true
  lifecycleDoneSem := true
  commandDoneSem := true
  processDoneSem := true
  lock := true
  memory := true

/-- A created client meets the condition of deinit. -/
theorem MqttHandles.ready_created : MqttHandles.created.Ready where
  memory := rfl
  lock := rfl
  apiInflight := rfl
  callbackInflight := rfl
  processRunning := rfl
  commandQueue q hq := by
    cases hq
    exact ⟨rfl, rfl, rfl⟩
  commandActive := rfl
  whole := by
    intro _ r htransport hconfig
    cases r with
    | transport => exact absurd rfl htransport
    | config => exact absurd rfl hconfig
    | commandQueue q => cases q <;> trivial
    | _ => exact rfl
  idle := nofun
  deinitInflight := rfl
  disconnected _ := ⟨nofun, nofun⟩

/-- A `MQTTAgent_CancelAll` with nothing but the operations to complete. -/
def cancelOperations (mqtt : MqttClient) : MqttStatus × MqttClient :=
  (.success, { mqtt with operationInflight := 0, commandActive := true })

/-- An attempt in which two semaphores of the command queue, or one of the client, cannot be
released. -/
def failing (queue : Option Err) (client : Option Err) : MqttDeinitEnv where
  processStop := mqttErr .timeout
  cryptoCtx := none
  commandQueue := ⟨none, none, none, queue, queue, none, none⟩
  lifecycleDoneSem := none
  commandDoneSem := client
  processDoneSem := none
  lock := none

/-- Two attempts that fail, and a third one. -/
def threeAttempts : List MqttDeinitEnv :=
  [failing (some (queueErr .busy)) none, failing none (some (queueErr .busy)), failing none none]

/-- Two failed attempts and a third that succeeds, from a created client. -/
theorem teardown_retryable_created :
    CancelsAll cancelOperations ∧
      ∃ o, (attempts (actrustMqttDeinit cancelOperations) threeAttempts .created)[2]? = some o ∧
        o.result = .ok () ∧ o.state.held = ∅ := by
  have hcancel : CancelsAll cancelOperations :=
    ⟨fun _ => rfl, fun _ => rfl, fun _ => rfl, fun _ => rfl, fun _ => rfl, fun _ => rfl⟩
  have hretryable := (teardown_retryable hcancel).1 threeAttempts .created
    MqttHandles.ready_created
  obtain ⟨o, ho, hok⟩ : ∃ o, (attempts (actrustMqttDeinit cancelOperations) threeAttempts
      .created)[2]? = some o ∧ o.result = .ok () := ⟨_, rfl, rfl⟩
  exact ⟨hcancel, o, ho, hok, hretryable.released o (List.mem_of_getElem? ho) hok⟩

end TrustSdk.Mqtt
