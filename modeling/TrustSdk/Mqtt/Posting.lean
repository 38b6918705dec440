import Mathlib.Tactic.Abel
import Mathlib.Algebra.Order.Group.Multiset
import TrustSdk.Mqtt.Ledger
import TrustSdk.Mqtt.System

/-!
# The client keeps the ledger

Every section of every call posts one entry of the subscription ledger
(`MqttSystem.step_ledger`). An operation is on its way from the section that creates it to
the section of its completion: in the command queue, in the agent's hands, or in the hands of
the thread that completes it or hands it over (`held`).

`Explains` says which section an entry comes from, for the entries that may cost a
subscription: a new generation, a reconnect and a completion.
-/

namespace TrustSdk.Mqtt

open Ledger Function

/-! ### Operations on their way -/

/-- The operation is about a slot. -/
def MqttOperation.isSubscription (op : MqttOperation) : Bool :=
  op.type = .subscribe ∨ op.type = .unsubscribe

/-- The subscribe and unsubscribe operations of a list. -/
def subscriptionOps (ops : List MqttOperation) : Multiset MqttOperation :=
  ops.filter MqttOperation.isSubscription

@[simp] theorem subscriptionOps_nil : subscriptionOps [] = 0 := rfl

@[simp] theorem subscriptionOps_append (as bs : List MqttOperation) :
    subscriptionOps (as ++ bs) = subscriptionOps as + subscriptionOps bs := by
  rw [subscriptionOps, List.filter_append, ← Multiset.coe_add]
  rfl

/-- The first operation and the rest. -/
theorem subscriptionOps_cons (op : MqttOperation) (ops : List MqttOperation) :
    subscriptionOps (op :: ops) = subscriptionOps [op] + subscriptionOps ops :=
  subscriptionOps_append [op] ops

/-- An operation about a slot. -/
theorem subscriptionOps_singleton {op : MqttOperation} (h : op.isSubscription) :
    subscriptionOps [op] = {op} := by
  rw [subscriptionOps, List.filter_cons_of_pos h, List.filter_nil]
  rfl

/-- Another one. -/
theorem subscriptionOps_other {op : MqttOperation} (h : op.isSubscription = false) :
    subscriptionOps [op] = 0 := by
  rw [subscriptionOps, List.filter_cons_of_neg (by simp [h]), List.filter_nil]
  rfl

/-- Taking an operation out of a list. -/
theorem subscriptionOps_eraseIdx {ops : List MqttOperation} {k : ℕ} {op : MqttOperation}
    (h : ops[k]? = some op) :
    subscriptionOps ops = subscriptionOps [op] + subscriptionOps (ops.eraseIdx k) := by
  induction ops generalizing k with
  | nil => simp at h
  | cons o ops ih =>
    cases k with
    | zero =>
      rw [List.getElem?_cons_zero, Option.some.injEq] at h
      rw [h, List.eraseIdx_cons_zero, subscriptionOps_cons]
    | succ k =>
      rw [List.getElem?_cons_succ] at h
      rw [List.eraseIdx_cons_succ, subscriptionOps_cons, ih h,
        subscriptionOps_cons o (ops.eraseIdx k), add_left_comm]

/-- The operation a command carries. -/
def MqttCommand.operation? : MqttCommand → Option MqttOperation
  | .operation op => some op
  | .terminate => none

/-- The operations that the agent has accepted and not completed. -/
def MqttCore.operations (m : MqttCore) : List MqttOperation :=
  m.queue.filterMap MqttCommand.operation? ++ m.taken

/-- The operations a replay has in its hands. -/
def MqttReplay.held : MqttReplay → List MqttOperation
  | .slot _ => []
  | .handOver op | .rollBack op => [op.1]

/-- The operations the work has in its hands. -/
def MqttWork.held : MqttWork → List MqttOperation
  | .completing op _ | .dropping op => [op]
  | .replaying replay => replay.held
  | _ => []

/-- The operations a process call has in its hands. -/
def MqttProcess.held : MqttProcess → List MqttOperation
  | .looping work | .resuming _ _ work => work.held
  | .replaying replay => replay.held
  | _ => []

/-- The operations in the hands of a call: one whose completion is about to be taken in, or
one that a replay is about to hand to the agent or to take back. -/
def MqttThread.held : MqttThread → List MqttOperation
  | .process pc => pc.held
  | .deinit (.cancelling work) => work.held
  | _ => []

/-- The ledger of the client, its agent and one call. -/
def MqttCore.ledger (m : MqttCore) (held : List MqttOperation) : Ledger where
  slots := m.client.subscriptions
  generation := m.client.connectGeneration
  nextToken := m.client.nextSubscriptionToken
  ops := subscriptionOps (m.operations ++ held)

/-- The operation in the hands of the call is one of those on their way. -/
theorem MqttCore.ledger_held {op : MqttOperation} (hop : op.isSubscription) (m : MqttCore) :
    (m.ledger [op]).ops = op ::ₘ (m.ledger []).ops := by
  simp only [MqttCore.ledger, subscriptionOps_append, subscriptionOps_singleton hop,
    subscriptionOps_nil, add_zero]
  rw [add_comm, Multiset.singleton_add]

/-- The operations between the section that creates them and that of their completion. -/
def MqttSystem.inFlight (s : MqttSystem) : List MqttOperation :=
  s.core.operations ++ s.threads.flatMap MqttThread.held

/-- The ledger of the system: its slots, and the operations in the queue, at the agent and in the
hands of threads. -/
def MqttSystem.ledger (s : MqttSystem) : Ledger := s.core.ledger (s.threads.flatMap MqttThread.held)

/-- The operations of the ledger are those in flight. -/
theorem MqttSystem.ledger_ops (s : MqttSystem) : s.ledger.ops = subscriptionOps s.inFlight := rfl

/-! ### Where an entry comes from -/

/-- The call is about to take a new generation: `mqtt_begin_connect`,
`mqtt_cancel_connect_attempt` or `mqtt_abort_disconnect`, with its guard met. -/
def MqttThread.Renews (mqtt : MqttClient) : MqttThread → Prop
  | .connectEntered =>
    mqtt.state = .initialized ∨ mqtt.state = .disconnected ∧ mqtt.processRunning = false
  | .connectCancelling generation _ =>
    mqtt.connectGeneration = generation ∧ mqtt.connectResultValid = false
  | .disconnectAborting generation _ =>
    mqtt.connectGeneration = generation ∧ mqtt.state = .disconnecting ∧
      mqtt.disconnectResultValid = false
  | _ => False

instance (mqtt : MqttClient) : DecidablePred (MqttThread.Renews mqtt) := fun thread => by
  cases thread <;> unfold MqttThread.Renews <;> infer_instance

/-- The completion the work is about to report. -/
def MqttWork.completes : MqttWork → Option (MqttOperation × MqttReturnInfo)
  | .completing op info => some (op, info)
  | .dropping op => some (op, mqttDropInfo)
  | _ => none

/-- The completion that the call is about to take in. -/
def MqttThread.completes : MqttThread → Option (MqttOperation × MqttReturnInfo)
  | .process (.looping work) => work.completes
  | .process (.resuming _ _ work) => work.completes
  | .deinit (.cancelling work) => work.completes
  | _ => none

/-- The call is about to take a new generation for a reconnect. -/
def MqttThread.Reconnects : MqttThread → Prop
  | .process .rescheduling => True
  | _ => False

instance : DecidablePred MqttThread.Reconnects := fun thread => by
  unfold MqttThread.Reconnects
  split <;> infer_instance

/-- The call explains the entry. -/
def MqttThread.Explains (mqtt : MqttClient) (thread : MqttThread) : Entry → Prop
  | .renew => thread.Renews mqtt
  | .reconnect => thread.Reconnects
  | .complete op info => thread.completes = some (op, info)
  | _ => True

/-- A step from `m` to `m'` posts an entry that `thread` explains. -/
def Posts (thread : MqttThread) (m : MqttCore) (held : List MqttOperation) (m' : MqttCore)
    (held' : List MqttOperation) : Prop :=
  ∃ e, thread.Explains m.client e ∧ Step (m.ledger held) e (m'.ledger held')

variable {thread : MqttThread} {m m' : MqttCore} {held held' : List MqttOperation}

/-- A step that leaves the ledger alone. -/
theorem Posts.other (hslots : m'.client.subscriptions = m.client.subscriptions)
    (hgen : m'.client.connectGeneration = m.client.connectGeneration)
    (htoken : m'.client.nextSubscriptionToken = m.client.nextSubscriptionToken)
    (hops : subscriptionOps (m'.operations ++ held') = subscriptionOps (m.operations ++ held)) :
    Posts thread m held m' held' := by
  refine ⟨.other, trivial, ?_⟩
  have hsame : m'.ledger held' = m.ledger held := by
    rw [MqttCore.ledger, hslots, hgen, htoken, hops]
    rfl
  rw [hsame]
  exact .other

/-- A step that changes nothing. -/
theorem Posts.same : Posts thread m held m held := .other rfl rfl rfl rfl

/-! ### Handing operations to the agent -/

/-- The agent takes a command, or it refuses and nothing has changed. -/
theorem mqttEnqueue_cases (m : MqttCore) (command : MqttCommand) (refusal : Option MqttRefusal) :
    (∃ refused : MqttRefusal, mqttEnqueue m command refusal = (refused.1, m)) ∨
      mqttEnqueue m command refusal = (.success, { m with queue := m.queue ++ [command] }) := by
  cases refusal with
  | some refused => exact Or.inl ⟨refused, rfl⟩
  | none =>
    unfold mqttEnqueue
    dsimp only
    split_ifs
    · exact Or.inl ⟨⟨.sendFailed, by decide⟩, rfl⟩
    · exact Or.inr rfl

/-- A refusal is an error. -/
theorem mqttEnqueueStatusToErr_refusal (refused : MqttRefusal) :
    ∃ e, mqttEnqueueStatusToErr refused.1 = .error e := by
  obtain ⟨status, hne, hmore⟩ := refused
  cases status with
  | success => exact absurd rfl hne
  | needMoreBytes => exact absurd rfl hmore
  | _ => exact ⟨_, rfl⟩

/-- An accepted operation is in the queue, after a refusal nothing has changed. -/
theorem mqttEnqueueOperation_cases (m : MqttCore) (op : MqttOperation)
    (refusal : Option MqttRefusal) :
    (∃ e, mqttEnqueueOperation m op refusal = (.error e, m)) ∨
      mqttEnqueueOperation m op refusal =
        (.ok (), ⟨mqttOperationEnter m.client, m.queue ++ [.operation op], m.taken⟩) := by
  unfold mqttEnqueueOperation
  rcases mqttEnqueue_cases m (.operation op) refusal with ⟨refused, heq⟩ | heq
  · rw [heq]
    obtain ⟨e, he⟩ := mqttEnqueueStatusToErr_refusal refused
    obtain ⟨status, hne, hmore⟩ := refused
    cases status with
    | success => exact absurd rfl hne
    | _ => exact Or.inl ⟨e, by rw [← he]⟩
  · rw [heq]
    exact Or.inr rfl

/-- The operations on their way after one has been accepted. -/
theorem subscriptionOps_enqueued (client : MqttClient) (m : MqttCore) (op : MqttOperation)
    (held : List MqttOperation) :
    subscriptionOps ((⟨client, m.queue ++ [.operation op], m.taken⟩ : MqttCore).operations ++ held) =
      subscriptionOps [op] + subscriptionOps (m.operations ++ held) := by
  simp only [MqttCore.operations, List.filterMap_append, subscriptionOps_append]
  change subscriptionOps _ + subscriptionOps [op] + _ + _ = _
  abel

/-- A request joins the operations in flight. -/
theorem subscriptionOps_enqueued_request (client : MqttClient) (m : MqttCore) {op : MqttOperation}
    (hop : op.isSubscription) (held : List MqttOperation) :
    subscriptionOps ((⟨client, m.queue ++ [.operation op], m.taken⟩ : MqttCore).operations ++ held) =
      op ::ₘ subscriptionOps (m.operations ++ held) := by
  rw [subscriptionOps_enqueued, subscriptionOps_singleton hop, Multiset.singleton_add]

/-- An operation without a slot is not in the ledger. -/
theorem Posts.enqueueOther {m₁ : MqttCore} {op : MqttOperation} {result : Except Err Unit}
    {refusal : Option MqttRefusal} (h : mqttEnqueueOperation m₁ op refusal = (result, m'))
    (hop : op.isSubscription = false) (hledger : m₁.ledger held = m.ledger held) :
    Posts thread m held m' held := by
  refine ⟨.other, trivial, ?_⟩
  rw [← hledger]
  rcases mqttEnqueueOperation_cases m₁ op refusal with ⟨e, heq⟩ | heq
  all_goals
    rw [h, Prod.mk.injEq] at heq
    obtain ⟨-, rfl⟩ := heq
  · exact .other
  · have hsame : MqttCore.ledger ⟨mqttOperationEnter m₁.client, m₁.queue ++ [.operation op],
        m₁.taken⟩ held = m₁.ledger held := by
      rw [MqttCore.ledger, subscriptionOps_enqueued, subscriptionOps_other hop, zero_add]
      rfl
    rw [hsame]
    exact .other

/-- A terminate command is no operation. -/
theorem Posts.enqueuedTerminate :
    Posts thread m held { m with queue := m.queue ++ [.terminate] } held := by
  refine .other rfl rfl rfl ?_
  rw [MqttCore.operations, List.filterMap_append]
  simp [MqttCore.operations, MqttCommand.operation?, List.filterMap_cons]

/-! ### Reserving a slot -/

/-- A topic that was found. -/
theorem mqttFindTopic_some {mqtt : MqttClient} {topic : Topic} {i : Fin mqttSubscriptionMax}
    (h : mqttFindTopic mqtt topic = some i) :
    (mqtt.subscriptions i).state ≠ .empty ∧ (mqtt.subscriptions i).topic = topic := by
  have hi := List.find?_some h
  simpa using hi

/-- A topic that is not found is in no slot. -/
theorem mqttFindTopic_none {mqtt : MqttClient} {topic : Topic} (h : mqttFindTopic mqtt topic = none)
    (i : Fin mqttSubscriptionMax) (hi : (mqtt.subscriptions i).state ≠ .empty) :
    (mqtt.subscriptions i).topic ≠ topic := by
  have hnone := List.find?_eq_none.mp h i (List.mem_finRange i)
  intro htopic
  exact hnone (decide_eq_true ⟨hi, htopic⟩)

/-- A free slot that was found. -/
theorem mqttFindFree_some {mqtt : MqttClient} {i : Fin mqttSubscriptionMax}
    (h : mqttFindFree mqtt = some i) : (mqtt.subscriptions i).state = .empty := by
  have hi := List.find?_some h
  simpa using hi

/-- What a reservation has done: a subscribe takes a free slot for the topic, an unsubscribe
the active slot that holds it. -/
theorem mqttSubscriptionReserveLocked_ok {mqtt mqtt' : MqttClient} {topic : Topic}
    {unsubscribe : Bool} {i : Fin mqttSubscriptionMax} {token : UInt32}
    (h : mqttSubscriptionReserveLocked mqtt topic unsubscribe = .ok ((i, token), mqtt')) :
    ∃ slot : MqttSubscriptionTopic, token = (mqttNextSubscriptionTokenLocked mqtt).1 ∧
      slot.token = token ∧ slot.topic = topic ∧
      mqtt' = { mqtt with
        nextSubscriptionToken := token
        subscriptions := update mqtt.subscriptions i slot } ∧
      (if unsubscribe then
        slot.state = .unsubPending ∧ (mqtt.subscriptions i).state = .active ∧
          (mqtt.subscriptions i).topic = topic
      else slot.state = .pending ∧ (mqtt.subscriptions i).state = .empty ∧
        ∀ j, (mqtt.subscriptions j).state ≠ .empty → (mqtt.subscriptions j).topic ≠ topic) := by
  unfold mqttSubscriptionReserveLocked at h
  -- an unsubscribe takes the active slot of its topic, a subscribe a free slot, and only if no slot
  -- has the topic
  cases unsubscribe with
  | true =>
    cases hfind : mqttFindTopic mqtt topic with
    | none => simp [hfind] at h
    | some j =>
      obtain ⟨-, htopic⟩ := mqttFindTopic_some hfind
      simp only [hfind] at h
      split_ifs at h with hactive
      rw [not_not] at hactive
      simp only [Except.ok.injEq, Prod.mk.injEq] at h
      obtain ⟨⟨rfl, rfl⟩, rfl⟩ := h
      refine ⟨⟨.unsubPending, (mqttNextSubscriptionTokenLocked mqtt).1,
        (mqtt.subscriptions j).topic⟩, rfl, rfl, htopic, rfl, ?_⟩
      exact ⟨rfl, hactive, htopic⟩
  | false =>
    cases hfind : mqttFindTopic mqtt topic with
    | some j => simp [hfind] at h
    | none =>
      cases hfree : mqttFindFree mqtt with
      | none => simp [hfind, hfree] at h
      | some j =>
        simp only [hfind, hfree, Except.ok.injEq, Prod.mk.injEq] at h
        obtain ⟨⟨rfl, rfl⟩, rfl⟩ := h
        refine ⟨⟨.pending, (mqttNextSubscriptionTokenLocked mqtt).1, topic⟩, rfl, rfl, rfl, rfl, ?_⟩
        exact ⟨rfl, mqttFindFree_some hfree, mqttFindTopic_none hfind⟩

/-- A step whose entry is known. -/
theorem Posts.of_step {e : Entry} {l : Ledger} (hstep : Step (m.ledger held) e l)
    (hexplains : thread.Explains m.client e) (heq : m'.ledger held' = l) :
    Posts thread m held m' held' :=
  ⟨e, hexplains, heq ▸ hstep⟩

/-- `mqtt_subscribe_locked` posts its operation, or puts the slot back. -/
theorem mqttSubscribeLocked_posts (topic : Topic) (unsubscribe : Bool)
    (refusal : Option MqttRefusal) :
    Posts thread m held (mqttSubscribeLocked m topic unsubscribe refusal).1 held := by
  unfold mqttSubscribeLocked
  by_cases hstate : m.client.state ≠ .connected
  · -- Outside CONNECTED nothing is reserved.
    rw [if_pos hstate]
    exact .same
  rw [if_neg hstate]
  cases hres : mqttSubscriptionReserveLocked m.client topic unsubscribe with
  | error e => exact .same
  | ok reserved =>
    obtain ⟨⟨i, token⟩, client⟩ := reserved
    obtain ⟨⟨state, token', topic'⟩, htoken, rfl, rfl, hclient, hbefore⟩ :=
      mqttSubscriptionReserveLocked_ok hres
    -- the token of the reservation is the ledger's
    obtain rfl : token' = (m.ledger held).token := htoken
    dsimp only at hclient ⊢
    rcases mqttEnqueueOperation_cases { m with client } ⟨if unsubscribe then .unsubscribe else
      .subscribe, m.client.connectGeneration, i, (m.ledger held).token, topic'⟩ refusal with
      ⟨e, heq⟩ | heq
    · -- The queue refused: the slot goes back, to ACTIVE for an unsubscribe and to empty else.
      rw [heq]
      subst hclient
      simp only [mqttSubscriptionRollbackLocked, mqttSubscriptionClearLocked, update_self, ne_eq,
        not_true_eq_false, if_false]
      cases unsubscribe with
      | true =>
        obtain ⟨-, hactive, rfl⟩ := hbefore
        refine .of_step (.unsubscribeRefused hactive) trivial ?_
        simp [MqttCore.ledger, mqttSetSlot, hactive, MqttCore.operations]
      | false =>
        obtain ⟨-, hempty, -⟩ := hbefore
        refine .of_step (.subscribeRefused hempty) trivial ?_
        simp [MqttCore.ledger, mqttSetSlot, MqttCore.operations, MqttSubscriptionTopic.cleared]
    · -- Queued: the operation with the token of its slot is in flight from here.
      rw [heq]
      subst hclient
      cases unsubscribe with
      | true =>
        obtain ⟨rfl, hactive, rfl⟩ := hbefore
        refine .of_step (.unsubscribe hactive rfl) trivial ?_
        rw [MqttCore.ledger, subscriptionOps_enqueued_request _ _ (by rfl)]
        rfl
      | false =>
        obtain ⟨rfl, hempty, hnew⟩ := hbefore
        have hstep := @Step.subscribe (m.ledger held) i topic' _ hempty hnew rfl
        refine .of_step hstep trivial ?_
        rw [MqttCore.ledger, subscriptionOps_enqueued_request _ _ (by rfl)]
        rfl

/-! ### Replaying -/

/-- A replay marks an active slot and takes a new token. -/
theorem mqttReplayMark_some {mqtt mqtt' : MqttClient} {i : Fin mqttSubscriptionMax}
    {op : MqttReplayOperation} (h : mqttReplayMark mqtt i = some (op, mqtt')) :
    (mqtt.subscriptions i).state = .active ∧
      op.1 = ⟨.subscribe, mqtt.connectGeneration, i, (mqttNextSubscriptionTokenLocked mqtt).1,
        (mqtt.subscriptions i).topic⟩ ∧
      mqtt' = { mqtt with
        nextSubscriptionToken := (mqttNextSubscriptionTokenLocked mqtt).1
        subscriptions := update mqtt.subscriptions i
          { mqtt.subscriptions i with
            state := .pending
            token := (mqttNextSubscriptionTokenLocked mqtt).1 } } := by
  unfold mqttReplayMark at h
  split_ifs at h with hactive
  rw [not_not] at hactive
  simp only [Option.some.injEq, Prod.mk.injEq] at h
  obtain ⟨rfl, rfl⟩ := h
  exact ⟨hactive, rfl, rfl⟩

/-- A step of the replay. -/
theorem MqttReplay.step_posts (env : MqttEnv) (replay : MqttReplay) :
    Posts thread m replay.held (replay.step env m).1
      ((replay.step env m).2.elim [] MqttReplay.held) := by
  cases replay with
  | slot i =>
    dsimp only [MqttReplay.step]
    split_ifs with hi
    · -- A slot is replayed where it is ACTIVE, and becomes pending with a token of its own.
      cases hmark : mqttReplayMark m.client ⟨i, hi⟩ with
      | none => exact .same
      | some marked =>
        obtain ⟨op, client⟩ := marked
        obtain ⟨hactive, hop, rfl⟩ := mqttReplayMark_some hmark
        have hstep := @Step.replay (m.ledger []) ⟨i, hi⟩ op.1 hactive hop
        refine .of_step hstep trivial ?_
        have hsub : op.1.isSubscription := by simp [MqttOperation.isSubscription, op.2]
        rw [← MqttCore.ledger_held hsub]
        rfl
    · exact .same
  | handOver op =>
    simp only [MqttReplay.step]
    rcases mqttEnqueueOperation_cases m op.1 env.refusal with ⟨e, heq⟩ | heq
    · -- The queue refused, and the mark is taken back in the next section.
      rw [heq]
      exact .same
    · -- In hand before, the operation is in the queue now.
      rw [heq]
      refine .other rfl rfl rfl ?_
      change subscriptionOps (MqttCore.operations _ ++ []) = _
      rw [subscriptionOps_enqueued, List.append_nil, subscriptionOps_append, add_comm]
      rfl
  | rollBack op =>
    have hsub : op.1.isSubscription := by simp [MqttOperation.isSubscription, op.2]
    refine .of_step (.withdraw (m.ledger_held hsub)) trivial ?_
    -- taking the mark back leaves the slot alone if its token has changed since
    simp only [MqttReplay.step, mqttSubscriptionRollbackLocked, withdrawn, Option.elim]
    by_cases htoken : (m.client.subscriptions op.1.subscriptionIndex).token =
        op.1.subscriptionToken
    · rw [if_neg (not_not.mpr htoken), if_neg (by decide), if_pos (by exact htoken)]
      rfl
    · rw [if_pos htoken, if_neg (by exact htoken)]
      rfl

/-! ### The agent -/

/-- The completion section of an operation with a slot settles the slot in the ledger. -/
theorem mqttSubscribeComplete_eq (mqtt : MqttClient) {op : MqttOperation}
    (info : MqttReturnInfo) (h : op.type = .subscribe ∨ op.type = .unsubscribe) {l : Ledger}
    (hslots : l.slots = mqtt.subscriptions) (hgen : l.generation = mqtt.connectGeneration) :
    mqttSubscribeComplete mqtt op info = { mqtt with subscriptions := l.settle op info } := by
  have hcurrent : mqttCompletionCurrent mqtt op = decide (l.Current op) := by
    simp only [mqttCompletionCurrent, Ledger.Current, hslots, hgen]
  by_cases hcur : l.Current op
  · have htoken : (mqtt.subscriptions op.subscriptionIndex).token = op.subscriptionToken :=
      hslots ▸ hcur.2
    simp only [mqttSubscribeComplete, hcurrent, hcur, decide_true, if_true, settle, hslots,
      MqttSubscriptionTopic.settled, mqttSubscriptionClearLocked, htoken, ne_eq, not_true_eq_false,
      if_false]
    rcases h with h | h <;> cases hacc : mqttCompletionAccepted op info <;>
      simp [h, mqttSetSlot, MqttSubscriptionTopic.cleared]
  · simp only [mqttSubscribeComplete, hcurrent, hcur, decide_false, Bool.false_eq_true, if_false,
      settle, hslots]

/-- `mqtt_agent_recv` takes a command out of the queue. -/
theorem mqttAgentRecv_posts :
    Posts thread m [] (mqttAgentRecv m).1 ((mqttAgentRecv m).2.elim [] MqttWork.held) := by
  obtain ⟨client, queue, taken⟩ := m
  cases queue with
  | nil => exact .other rfl rfl rfl rfl
  | cons command queue =>
    cases command with
    | terminate => exact .other rfl rfl rfl rfl
    | operation op =>
      have hops (cs : List MqttOperation) :
          subscriptionOps (op :: (cs ++ taken)) = subscriptionOps [op] + subscriptionOps cs +
            subscriptionOps taken := by
        rw [subscriptionOps_cons, subscriptionOps_append, add_assoc]
      dsimp only [mqttAgentRecv]
      split_ifs
      · -- from the queue into the agent's hands
        refine .other rfl rfl rfl ?_
        change subscriptionOps ((_ ++ (taken ++ [op])) ++ []) =
          subscriptionOps ((op :: _ ++ taken) ++ [])
        rw [List.append_nil, List.append_nil, List.cons_append, hops]
        simp only [subscriptionOps_append]
        abel
      · -- from the queue into the hands of the call
        refine .other rfl rfl rfl ?_
        change subscriptionOps ((_ ++ taken) ++ [op]) = subscriptionOps ((op :: _ ++ taken) ++ [])
        rw [List.append_nil, List.cons_append, hops]
        simp only [subscriptionOps_append]
        abel

/-- A completion settles the slot of its operation. -/
theorem mqttAgentCommandComplete_posts {op : MqttOperation} {info : MqttReturnInfo}
    (hthread : thread.completes = some (op, info)) :
    Posts thread m [op] (mqttAgentCommandComplete m op info).1
      (mqttAgentCommandComplete m op info).2.held := by
  -- without a slot the operation was not in the ledger
  have hnone (hop : op.isSubscription = false) :
      subscriptionOps (m.operations ++ []) = subscriptionOps (m.operations ++ [op]) := by
    rw [subscriptionOps_append, subscriptionOps_append, subscriptionOps_other hop]
    rfl
  -- An answer settles the slot only where the token is still its own.
  have hsettle (hop : op.type = .subscribe ∨ op.type = .unsubscribe) :
      Posts thread m [op] { m with client := mqttSubscribeComplete m.client op info } [] := by
    have hsub : op.isSubscription := by simpa [MqttOperation.isSubscription] using hop
    have heq := @mqttSubscribeComplete_eq m.client op info hop (m.ledger [op]) rfl rfl
    refine .of_step (@Step.complete _ op _ info (m.ledger_held hsub)) hthread ?_
    rw [MqttCore.ledger, heq]
    rfl
  unfold mqttAgentCommandComplete
  cases htype : op.type with
  -- The completion of CONNECT writes the attempt's result and no slot.
  | connect =>
    have hop : op.isSubscription = false := by simp [MqttOperation.isSubscription, htype]
    refine .other ?_ ?_ ?_ ?_
    all_goals
      dsimp only [mqttCompleteConnectAttempt]
      split_ifs <;> first | rfl | exact hnone hop
  | disconnect =>
    have hop : op.isSubscription = false := by simp [MqttOperation.isSubscription, htype]
    refine .other ?_ ?_ ?_ (hnone hop)
    all_goals
      dsimp only [mqttDisconnectComplete]
      split_ifs <;> rfl
  | publish =>
    have hop : op.isSubscription = false := by simp [MqttOperation.isSubscription, htype]
    refine .other ?_ ?_ ?_ (hnone hop)
    all_goals
      dsimp only [mqttPublishComplete]
      split_ifs <;> rfl
  -- SUBACK and UNSUBACK are the completions that the ledger knows.
  | subscribe => exact hsettle (Or.inl htype)
  | unsubscribe => exact hsettle (Or.inr htype)

/-- Nothing is in hands behind a completion: a replay only begins. -/
theorem mqttAgentCommandComplete_held (m : MqttCore) (op : MqttOperation) (info : MqttReturnInfo) :
    (mqttAgentCommandComplete m op info).2.held = [] := by
  unfold mqttAgentCommandComplete
  cases op.type with
  | connect =>
    dsimp only
    split_ifs <;> rfl
  | disconnect | publish | subscribe | unsubscribe => rfl

/-- A step of the work. -/
theorem MqttWork.step_posts (env : MqttEnv) (work : MqttWork)
    (hthread : thread.completes = work.completes) :
    Posts thread m work.held (work.step env m).1
      ((work.step env m).2.elim MqttWork.held fun _ => []) := by
  -- only a completion or a drop leaves the operations in flight
  cases work with
  | idle =>
    simp only [MqttWork.step]
    cases env.agent with
    | receive => exact .other rfl rfl rfl rfl
    -- coreMQTT hands the operation over: still in flight, now in the hands of this thread.
    | complete k info =>
      dsimp only
      cases hk : m.taken[k]? with
      | none => exact .same
      | some op =>
        refine .other rfl rfl rfl ?_
        simp only [MqttCore.operations, subscriptionOps_append, subscriptionOps_eraseIdx hk]
        change _ + subscriptionOps [op] = _ + _ + 0
        abel
    -- The callback takes a user of the client, which is not in the ledger.
    | deliver hasCallback =>
      dsimp only [mqttCallbackEnter]
      split_ifs
      · exact .same
      · exact .other rfl rfl rfl rfl
    | quit status => exact .same
  -- The receive moves the operation from the queue to coreMQTT, or drops it.
  | receiving =>
    have hrecv : Posts thread m [] _ _ := mqttAgentRecv_posts
    dsimp only [MqttWork.step]
    cases heq : mqttAgentRecv m with
    | mk m' work =>
      rw [heq] at hrecv
      cases work with
      | none => exact hrecv
      | some work => exact hrecv
  -- A dropped operation is completed as one that failed.
  | dropping op =>
    have hcomplete := @mqttAgentCommandComplete_posts thread m op mqttDropInfo hthread
    rw [mqttAgentCommandComplete_held] at hcomplete
    exact hcomplete
  | dropped => exact .other rfl rfl rfl rfl
  | completing op info => exact mqttAgentCommandComplete_posts hthread
  -- The work of the agent may replay slots, in the loop or while a session resumes.
  | replaying replay =>
    simp only [MqttWork.step]
    have hreplay : Posts thread m replay.held _ _ := replay.step_posts env
    cases heq : replay.step env m with
    | mk m' replay' =>
      rw [heq] at hreplay
      cases replay' with
      | none => exact hreplay
      | some replay' => exact hreplay
  | leaving => exact .other rfl rfl rfl rfl
  | delivering => exact .other rfl rfl rfl rfl

/-! ### Calls -/

/-- The state plays no part in the ledger. -/
theorem mqttSetState_posts (state : MqttState) :
    Posts thread m [] (mqttSetState m state) [] := .other rfl rfl rfl rfl

/-- A step of the process call. -/
theorem MqttProcess.step_posts (env : MqttEnv) (m : MqttCore) (pc : MqttProcess) :
    Posts (.process pc) m pc.held (pc.step env m).1 (pc.step env m).2.held := by
  -- the loop and the replay move operations, the other steps do not
  cases pc with
  | start =>
    dsimp only [MqttProcess.step, mqttApiEnter]
    split_ifs
    · exact .same
    · exact .other rfl rfl rfl rfl
  | entered =>
    dsimp only [MqttProcess.step, mqttMarkProcessStarted]
    split_ifs
    · exact .same
    · exact .same
    · exact .other rfl rfl rfl rfl
  | top =>
    dsimp only [MqttProcess.step]
    split_ifs <;> exact .same
  | looping work =>
    have hwork : Posts (.process (.looping work)) m work.held _ _ :=
      work.step_posts env rfl
    dsimp only [MqttProcess.step]
    rcases hstep : work.step env m with ⟨m', work' | status⟩ <;> rw [hstep] at hwork <;>
      exact hwork
  | looped status => exact .other rfl rfl rfl rfl
  | claimReleased status => exact .same
  | stateRead status state =>
    dsimp only [MqttProcess.step]
    split_ifs <;> exact .same
  | lost =>
    dsimp only [MqttProcess.step]
    split_ifs <;> exact .same
  -- A state alone: the slots are as they were.
  | backOff => exact mqttSetState_posts _
  | retry =>
    dsimp only [MqttProcess.step]
    split_ifs <;> exact .same
  | scheduling =>
    dsimp only [MqttProcess.step]
    split_ifs <;> exact .same
  -- A new generation for the reconnect; what is in flight belongs to the old one.
  | rescheduling => exact .of_step (.reconnect _) trivial rfl
  | opening generation =>
    dsimp only [MqttProcess.step]
    cases env.result <;> exact .same
  | openFailed generation =>
    dsimp only [MqttProcess.step]
    split_ifs
    · exact mqttSetState_posts _
    · exact .same
  | connecting generation =>
    dsimp only [MqttProcess.step]
    split_ifs
    · exact .same
    · cases mqttStatusToErr env.status <;> exact .same
  | resuming generation sessionPresent work =>
    have hwork : Posts (.process (.resuming generation sessionPresent work)) m work.held _ _ :=
      work.step_posts env rfl
    dsimp only [MqttProcess.step]
    -- The work of a resumed session, unless it waits.
    split_ifs with hidle
    · exact .same
    · rcases hstep : work.step env m with ⟨m', work' | status⟩ <;> rw [hstep] at hwork
      · exact hwork
      · dsimp only
        split_ifs
        · exact hwork
        · cases mqttStatusToErr status <;> exact hwork
  | resumed generation sessionPresent =>
    dsimp only [MqttProcess.step]
    split_ifs
    · exact mqttSetState_posts _
    · exact mqttSetState_posts _
    · exact .same
    · exact .same
  -- The slots are replayed one by one, each by its own step.
  | replaying replay =>
    have hreplay : Posts (.process (.replaying replay)) m replay.held _ _ := replay.step_posts env
    dsimp only [MqttProcess.step]
    rcases hstep : replay.step env m with ⟨m', _ | replay'⟩ <;> rw [hstep] at hreplay <;>
      exact hreplay
  | giveUp result => exact .same
  | ending result =>
    dsimp only [MqttProcess.step]
    split_ifs <;> exact .same
  | settling result => exact mqttSetState_posts _
  | stopping result => exact .other rfl rfl rfl rfl

/-- A call that starts. -/
theorem MqttCall.step_posts (m : MqttCore) (api : MqttCall) :
    Posts thread m [] (api.step m).1 (api.step m).2.held := by
  cases api with
  | process => exact .same
  | subscribe topic unsubscribe =>
    dsimp only [MqttCall.step, mqttApiEnter]
    split_ifs
    · exact .same
    · exact .same
    · exact .other rfl rfl rfl rfl
  | deinit =>
    dsimp only [MqttCall.step, mqttBeginDeinit]
    split_ifs
    · exact .same
    · exact .same
    · exact .other rfl rfl rfl rfl
  | _ =>
    dsimp only [MqttCall.step, mqttApiEnter]
    split_ifs
    · exact .same
    · exact .other rfl rfl rfl rfl

/-- Cancelling completes what is in flight. -/
theorem mqttAgentCancel_posts (env : MqttEnv) (work : MqttWork)
    (hthread : thread.completes = work.completes) :
    Posts thread m work.held (mqttAgentCancel env m work).1
      ((mqttAgentCancel env m work).2.elim MqttWork.held fun _ => []) := by
  unfold mqttAgentCancel
  split
  · have hrecv : Posts thread m [] _ _ := mqttAgentRecv_posts
    rcases hstep : mqttAgentRecv m with ⟨m', _ | work'⟩ <;> rw [hstep] at hrecv <;> exact hrecv
  · exact .same
  · exact MqttWork.step_posts env _ hthread

/-- A step of deinit. -/
theorem MqttDeinit.step_posts (env : MqttEnv) (m : MqttCore) (pc : MqttDeinit) :
    Posts (.deinit pc) m (MqttThread.deinit pc).held (pc.step env m).1 (pc.step env m).2.held := by
  -- deinit posts a terminate, which is no operation, and cancels what is left
  cases pc with
  | begun =>
    dsimp only [MqttDeinit.step]
    split_ifs <;> exact .same
  | signalling =>
    dsimp only [MqttDeinit.step]
    split_ifs <;> exact .other rfl rfl rfl rfl
  | terminating =>
    dsimp only [MqttDeinit.step]
    -- TERMINATE is refused or queued, and is no operation of the ledger.
    rcases mqttEnqueue_cases m .terminate env.refusal with ⟨refused, heq⟩ | heq
    · rw [heq]
      obtain ⟨e, he⟩ := mqttEnqueueStatusToErr_refusal refused
      simp only [he]
      exact .same
    · rw [heq]
      exact .enqueuedTerminate
  | waiting =>
    dsimp only [MqttDeinit.step]
    split_ifs
    · exact .same
    · exact .same
    · cases env.result <;> exact .same
  | claiming =>
    dsimp only [MqttDeinit.step]
    split_ifs <;> exact .same
  -- What is cancelled completes with a failure, as any operation.
  | cancelling work =>
    have hwork : Posts (.deinit (.cancelling work)) m work.held _ _ :=
      mqttAgentCancel_posts env work rfl
    dsimp only [MqttDeinit.step]
    rcases hstep : mqttAgentCancel env m work with ⟨m', work' | status⟩ <;> rw [hstep] at hwork <;>
      exact hwork
  | cancelled status =>
    dsimp only [MqttDeinit.step]
    split_ifs <;> exact .other rfl rfl rfl rfl
  | releasing => exact .other rfl rfl rfl rfl
  | draining =>
    dsimp only [MqttDeinit.step]
    split_ifs <;> exact .same
  | destroying =>
    dsimp only [MqttDeinit.step]
    cases env.result <;> exact .same
  | aborting e => exact .other rfl rfl rfl rfl

/-- A disconnect is not about a slot. -/
theorem mqttDisconnectLocked_posts (refusal : Option MqttRefusal) :
    Posts thread m [] (mqttDisconnectLocked m refusal).1 (mqttDisconnectLocked m refusal).2.held := by
  unfold mqttDisconnectLocked
  split_ifs
  · exact .same
  · dsimp only
    rcases hop : mqttEnqueueOperation _ _ refusal with ⟨_ | _, m'⟩
    · -- the state that is taken back is not in the ledger
      have hposts : Posts thread m [] m' [] := .enqueueOther hop rfl rfl
      exact hposts
    · exact .enqueueOther hop rfl rfl

/-- A step of any thread. -/
theorem MqttThread.step_posts (env : MqttEnv) (m : MqttCore) (thread : MqttThread) :
    Posts thread m thread.held (thread.step env m).1 (thread.step env m).2.held := by
  cases thread with
  | call api => exact api.step_posts m
  | connectEntered =>
    dsimp only [MqttThread.step, mqttBeginConnect]
    split_ifs with hstate
    · -- a connect is refused unless the client is new, or disconnected and without its loop
      exact .same
    · refine .of_step (.renew _) ?_ rfl
      rcases not_and_or.mp hstate with h | h
      · exact Or.inl (not_not.mp h)
      · obtain ⟨hdis, hrun⟩ := not_or.mp h
        exact Or.inr ⟨not_not.mp hdis, Bool.not_eq_true _ ▸ hrun⟩
  | connectBegun previous generation =>
    dsimp only [MqttThread.step, mqttInstallConfig]
    cases env.result with
    | error e => exact .same
    | ok _ =>
      dsimp only
      split_ifs <;> exact .same
  | connectReleasing previous generation e =>
    dsimp only [MqttThread.step, mqttReleaseConnectReservation]
    split_ifs
    · exact .other rfl rfl rfl rfl
    · exact .same
  -- The transport is made outside the lock.
  | connectInstalled generation =>
    dsimp only [MqttThread.step]
    cases env.result <;> exact .same
  | connectOpened generation =>
    dsimp only [MqttThread.step]
    -- CONNECT is an operation without a slot.
    rcases hop : mqttEnqueueOperation _ _ env.refusal with ⟨_ | _, m'⟩ <;>
      exact .enqueueOther hop rfl rfl
  | connectFailed e => exact mqttSetState_posts _
  | connectWaiting generation =>
    dsimp only [MqttThread.step]
    rcases mqttConnectResult m.client generation with _ | _ | _
    · dsimp only
      split_ifs <;> exact .same
    · exact .same
    · exact .same
  | connectCancelling generation e =>
    dsimp only [MqttThread.step, mqttCancelConnectAttempt]
    split_ifs with h
    · -- The attempt that is given up renews the generation, where it is still its own.
      exact .of_step (.renew _) h rfl
    · exact .same
  | disconnectEntered => exact mqttDisconnectLocked_posts _
  | disconnectWaiting generation =>
    dsimp only [MqttThread.step]
    rcases mqttDisconnectResult m.client generation with _ | _ | _
    · dsimp only
      split_ifs <;> exact .same
    · exact .same
    · exact .same
  | disconnectAborting generation e =>
    dsimp only [MqttThread.step, mqttAbortDisconnect]
    split_ifs with h
    · exact .of_step (.renew _) h rfl
    · exact .same
  -- Subscribe and unsubscribe, by the one lemma.
  | subscribeEntered topic unsubscribe => exact mqttSubscribeLocked_posts _ _ _
  | publishEntered =>
    dsimp only [MqttThread.step, mqttPublishLocked]
    split_ifs
    · exact .same
    · rcases hop : mqttEnqueueOperation _ _ env.refusal with ⟨result, m'⟩
      -- PUBLISH is an operation without a slot.
      exact .enqueueOther hop rfl rfl
  | stopProcessEntered =>
    dsimp only [MqttThread.step]
    split_ifs <;> exact .same
  | stopProcessChecked =>
    dsimp only [MqttThread.step]
    split_ifs <;> exact .other rfl rfl rfl rfl
  | terminating =>
    dsimp only [MqttThread.step]
    rcases mqttEnqueue_cases m .terminate env.refusal with ⟨refused, heq⟩ | heq
    · rw [heq]
      exact .same
    · rw [heq]
      exact .enqueuedTerminate
  | deinit pc => exact pc.step_posts env m
  | process pc => exact pc.step_posts env m
  | leaving result => exact .other rfl rfl rfl rfl
  | returned result => exact .same

/-! ### The system -/

/-- The hands of one call among those of all calls. -/
theorem subscriptionOps_set {threads : List MqttThread} {k : ℕ} {thread : MqttThread}
    (h : threads[k]? = some thread) :
    ∃ rest, subscriptionOps (threads.flatMap MqttThread.held) =
        subscriptionOps thread.held + rest ∧
      ∀ thread', subscriptionOps ((threads.set k thread').flatMap MqttThread.held) =
        subscriptionOps thread'.held + rest := by
  induction threads generalizing k with
  | nil => simp at h
  | cons t threads ih =>
    cases k with
    | zero =>
      rw [List.getElem?_cons_zero, Option.some.injEq] at h
      subst h
      refine ⟨subscriptionOps (threads.flatMap MqttThread.held), ?_, fun thread' => ?_⟩
      · rw [List.flatMap_cons, subscriptionOps_append]
      · rw [List.set_cons_zero, List.flatMap_cons, subscriptionOps_append]
    | succ k =>
      rw [List.getElem?_cons_succ] at h
      obtain ⟨rest, hbefore, hafter⟩ := ih h
      refine ⟨subscriptionOps t.held + rest, ?_, fun thread' => ?_⟩
      · rw [List.flatMap_cons, subscriptionOps_append, hbefore, add_left_comm]
      · rw [List.set_cons_succ, List.flatMap_cons, subscriptionOps_append, hafter, add_left_comm]

/-- More operations in flight. -/
theorem MqttCore.ledger_add (m : MqttCore) {ops ops' : List MqttOperation}
    {rest : Multiset MqttOperation} (h : subscriptionOps ops = subscriptionOps ops' + rest) :
    m.ledger ops = { m.ledger ops' with ops := (m.ledger ops').ops + rest } := by
  simp only [MqttCore.ledger, subscriptionOps_append, h, add_assoc]

/-- The call that an action steps. -/
def MqttSystem.acting (s : MqttSystem) : MqttAction → Option MqttThread
  | .start _ => none
  | .advance k _ => s.threads[k]?

/-- Every action posts one entry of the ledger, and the call that steps explains it. -/
theorem MqttSystem.step_ledger (s : MqttSystem) (a : MqttAction) :
    ∃ e, Step s.ledger e (s.step a).2.ledger ∧
      (e = .other ∨ ∃ thread, s.acting a = some thread ∧ thread.Explains s.core.client e) := by
  cases a with
  | start api =>
    refine ⟨.other, ?_, Or.inl rfl⟩
    simp only [MqttSystem.step, MqttSystem.ledger, List.flatMap_append]
    simp only [List.flatMap_cons, List.flatMap_nil, MqttThread.held, List.append_nil]
    exact .other
  | advance k env =>
    simp only [MqttSystem.step, MqttSystem.acting]
    cases hk : s.threads[k]? with
    | none => exact ⟨.other, .other, Or.inl rfl⟩
    | some thread =>
      obtain ⟨e, hexplains, hstep⟩ := thread.step_posts env s.core
      obtain ⟨rest, hbefore, hafter⟩ := subscriptionOps_set hk
      refine ⟨e, ?_, Or.inr ⟨thread, rfl, hexplains⟩⟩
      have hframe := hstep.frame rest
      rw [← MqttCore.ledger_add _ hbefore, ← MqttCore.ledger_add _ (hafter _)] at hframe
      exact hframe

end TrustSdk.Mqtt
