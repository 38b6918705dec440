import TrustSdk.Mqtt.ProcessLoop
import TrustSdk.Mqtt.Subscriptions

/-!
# The operations of the client

An operation object is allocated by the call that hands it to the agent, or by a replay. It ends
where the agent refuses it, or in its completion: behind the agent, or in `mqtt_agent_recv` for a
command that is dropped. In between it is in the command queue, in the hands of the agent, or in the
completion that is being taken in (`inHands`).

* `Tallied` — what one step allocates and ends, what it does to `operation_inflight`, and which
  command the agent receives;
* `MqttThread.step_active` — only a return from `mqtt_agent_recv` sets `command_active`, and neither
  a call of it nor the end of the loop leaves it set;
* `operations_accounted` — over a run, every object that has been allocated has ended or is in
  hands, `operation_inflight` counts those whose completion has not been left yet, and
  `command_active` is set only between a return from `mqtt_agent_recv` and the next call of it.
-/

namespace TrustSdk.Mqtt

open Machine

/-! ### Objects -/

/-- The operation that a replay hands over. -/
def MqttReplay.allocates : MqttReplay → List MqttOperation
  | .handOver op => [op.1]
  | _ => []

/-- Only a replay makes operations. -/
def MqttWork.allocates : MqttWork → List MqttOperation
  | .replaying replay => replay.allocates
  | _ => []

/-- The operation the process call is about to make. -/
def MqttProcess.allocates : MqttProcess → List MqttOperation
  | .looping work => work.allocates
  | .resuming _ _ work => work.allocates
  | .replaying replay => replay.allocates
  | _ => []

/-- The operation that a step allocates and hands to the agent. -/
def MqttThread.allocates (mqtt : MqttClient) : MqttThread → List MqttOperation
  | .connectOpened generation => [⟨.connect, generation, 0, 0, []⟩]
  | .disconnectEntered =>
    if mqtt.state ≠ .connected then [] else [⟨.disconnect, mqtt.connectGeneration, 0, 0, []⟩]
  | .publishEntered =>
    if mqtt.state ≠ .connected then [] else [⟨.publish, mqtt.connectGeneration, 0, 0, []⟩]
  | .subscribeEntered topic unsubscribe =>
    if mqtt.state ≠ .connected then []
    else
      match mqttSubscriptionReserveLocked mqtt topic unsubscribe with
      | .error _ => []
      | .ok ((index, token), _) =>
        [⟨if unsubscribe then .unsubscribe else .subscribe, mqtt.connectGeneration, index, token,
          topic⟩]
  | .process pc => pc.allocates
  | .deinit (.cancelling work) => work.allocates
  | _ => []

/-- The agent takes no command now. -/
def MqttCore.Refuses (m : MqttCore) (refusal : Option MqttRefusal) : Prop :=
  refusal ≠ none ∨ m.queue.length ≥ mqttQueueCapacity

instance (m : MqttCore) (refusal : Option MqttRefusal) : Decidable (m.Refuses refusal) :=
  inferInstanceAs (Decidable (_ ∨ _))

/-- The operation whose completion callback runs. -/
def MqttWork.completed : MqttWork → List MqttOperation
  | .completing op _ | .dropping op => [op]
  | _ => []

/-- The operation whose completion is about to be taken in. -/
def MqttThread.completed : MqttThread → List MqttOperation
  | .process (.looping work) => work.completed
  | .process (.resuming _ _ work) => work.completed
  | .deinit (.cancelling work) => work.completed
  | _ => []

/-- The operations that end in a step: refused, or completed. -/
def MqttThread.ends (env : MqttEnv) (m : MqttCore) (thread : MqttThread) : List MqttOperation :=
  (if m.Refuses env.refusal then thread.allocates m.client else []) ++ thread.completed

/-- An object whose `mqtt_operation_leave` is still to come is in the hands of the callback. -/
def MqttWork.unfinished : MqttWork → ℕ
  | .completing _ _ | .dropping _ => 1
  | .replaying _ => 1
  | .leaving | .dropped => 1
  | _ => 0

/-- Of the process call: the work it is in, also when it takes it up again. -/
def MqttProcess.unfinished : MqttProcess → ℕ
  | .looping work => work.unfinished
  | .resuming _ _ work => work.unfinished
  | _ => 0

/-- Of a thread: the process call's, or that of the cancellation in deinit. -/
def MqttThread.unfinished : MqttThread → ℕ
  | .process pc => pc.unfinished
  | .deinit (.cancelling work) => work.unfinished
  | _ => 0

/-- In `mqtt_agent_recv`. -/
def MqttWork.InRecv : MqttWork → Prop
  | .receiving => True
  | .dropping _ => True
  | .dropped => True
  | _ => False

/-- The agent of the call is in `mqtt_agent_recv`, behind the release of the claim. -/
def MqttThread.InRecv : MqttThread → Prop
  | .process (.looping work) => work.InRecv
  | .deinit (.cancelling work) => work.InRecv
  | _ => False

/-- The agent of the call resumes a session, in `mqtt_agent_recv`. -/
def MqttThread.ResumesInRecv : MqttThread → Prop
  | .process (.resuming _ _ work) => work.InRecv
  | _ => False

/-- The agent has control, outside of `mqtt_agent_recv`; or its loop has ended and the claim is
being released. -/
def MqttThread.InCommand : MqttThread → Prop
  | .process (.looping work) => ¬work.InRecv
  | .process (.looped _) => True
  | .deinit (.cancelling work) => ¬work.InRecv
  | .deinit (.cancelled _) => True
  | .deinit .releasing => True
  | _ => False

/-- `MQTTAgent_CancelAll` fails; it does so only without its context. -/
def MqttThread.CancelFails : MqttThread → Prop
  | .deinit (.cancelled status) => status ≠ .success
  | _ => False

instance : DecidablePred MqttThread.CancelFails := fun thread => by
  unfold MqttThread.CancelFails
  split <;> infer_instance

/-- One step, from `m` to `m'`: the objects it allocates and ends, how many completions the call has
not left, and which it is about to take in, before and behind it. -/
structure Tallied (allocated ended : List MqttOperation) (m : MqttCore) (unfinished : ℕ)
    (completing : List MqttOperation) (m' : MqttCore) (unfinished' : ℕ)
    (completing' : List MqttOperation) : Prop where
  objects : (m'.operations ++ completing' ++ ended).Perm (m.operations ++ completing ++ allocated)
  inflight : ∀ others, m.client.operationInflight = m.operations.length + unfinished + others →
    m'.client.operationInflight = m'.operations.length + unfinished' + others
  /-- The agent gets a command that fits. -/
  taken : m'.taken.Sublist m.taken ∨
    ∃ op, m'.taken = m.taken ++ [op] ∧ mqttCommandValid m.client op = true

section Steps

variable {allocated ended completing completing' : List MqttOperation} {m m' : MqttCore}
  {unfinished unfinished' : ℕ}

/-- A step that leaves the operations alone. -/
theorem Tallied.quiet (hoperations : m'.operations = m.operations)
    (htaken : m'.taken.Sublist m.taken)
    (hinflight : m'.client.operationInflight = m.client.operationInflight) :
    Tallied [] [] m unfinished completing m' unfinished completing where
  objects := by rw [hoperations]
  inflight others h := by rw [hinflight, hoperations, h]
  taken := .inl htaken

/-- A step that changes nothing. -/
theorem Tallied.same : Tallied [] [] m unfinished completing m unfinished completing :=
  .quiet rfl (.refl _) rfl

/-- A refused enqueue leaves the core as it was. -/
theorem mqttEnqueueOperation_refuses (op : MqttOperation) {refusal : Option MqttRefusal}
    (h : m.Refuses refusal) : ∃ e, mqttEnqueueOperation m op refusal = (.error e, m) := by
  -- The enqueue answers an error, or it took the operation, which the refusal excludes.
  rcases mqttEnqueueOperation_cases m op refusal with herror | hok
  · exact herror
  · unfold mqttEnqueueOperation mqttEnqueue at hok
    cases refusal with
    | none =>
      dsimp only at hok
      rw [if_pos (h.resolve_left fun hne => hne rfl)] at hok
      exact absurd (Prod.mk.inj hok).1 nofun
    | some refused =>
      obtain ⟨e, he⟩ := mqttEnqueueStatusToErr_refusal refused
      obtain ⟨status, hne, hmore⟩ := refused
      cases status with
      | success => exact absurd rfl hne
      | _ => exact absurd (he.symm.trans (Prod.mk.inj hok).1) nofun

/-- An enqueue that is not refused counts the operation and puts it at the end of the ring. -/
theorem mqttEnqueueOperation_takes (op : MqttOperation) {refusal : Option MqttRefusal}
    (h : ¬m.Refuses refusal) : mqttEnqueueOperation m op refusal =
      (.ok (), ⟨mqttOperationEnter m.client, m.queue ++ [.operation op], m.taken⟩) := by
  obtain ⟨hnone, hroom⟩ := not_or.mp h
  rw [not_not] at hnone
  unfold mqttEnqueueOperation mqttEnqueue
  rw [hnone]
  dsimp only
  rw [if_neg hroom]

/-- An operation is handed to the agent, which takes it or refuses it. -/
theorem Tallied.enqueue {m₁ : MqttCore} {op : MqttOperation} {refusal : Option MqttRefusal}
    {result : Except Err Unit} (h : mqttEnqueueOperation m₁ op refusal = (result, m'))
    (hqueue : m₁.queue = m.queue) (htaken : m₁.taken = m.taken)
    (hinflight : m₁.client.operationInflight = m.client.operationInflight) :
    Tallied [op] (if m.Refuses refusal then [op] else []) m unfinished completing m'
      unfinished completing := by
  have hsame : m₁.Refuses refusal ↔ m.Refuses refusal := by
    unfold MqttCore.Refuses
    rw [hqueue]
  by_cases hrefuses : m.Refuses refusal
  · -- the object is freed where it was allocated
    obtain ⟨e, he⟩ := mqttEnqueueOperation_refuses op (hsame.mpr hrefuses)
    obtain rfl : m' = m₁ := (Prod.mk.inj (h.symm.trans he)).2
    have hoperations : m'.operations = m.operations := by
      unfold MqttCore.operations
      rw [hqueue, htaken]
    rw [if_pos hrefuses]
    refine ⟨by rw [hoperations], ?_, .inl (htaken ▸ .refl _)⟩
    intro others ho
    rw [hinflight, hoperations, ho]
  · -- it is counted, and in the queue
    rw [if_neg hrefuses]
    have htakes := mqttEnqueueOperation_takes op fun hr => hrefuses (hsame.mp hr)
    have hm := (Prod.mk.inj (h.symm.trans htakes)).2
    have hoperations : (m.operations ++ [op]).Perm m'.operations := by
      rw [hm]
      unfold MqttCore.operations
      rw [List.filterMap_append, hqueue, htaken, List.append_assoc, List.append_assoc]
      exact List.Perm.append_left _ List.perm_append_comm
    refine ⟨?_, ?_, .inl ?_⟩
    · rw [List.append_nil, List.append_assoc]
      refine (hoperations.symm.append_right completing).trans ?_
      rw [List.append_assoc]
      exact List.Perm.append_left _ List.perm_append_comm
    · intro others ho
      have hlength := hoperations.length_eq
      rw [List.length_append, List.length_singleton] at hlength
      rw [← hlength, hm]
      show m₁.client.operationInflight + 1 = _
      rw [hinflight, ho]
      omega
    · rw [hm]
      exact htaken ▸ .refl _

end Steps

/-! ### The agent -/

/-- Clearing a slot touches the table alone. -/
theorem mqttSubscriptionClearLocked_slots (mqtt : MqttClient) (i : Fin mqttSubscriptionMax)
    (token : UInt32) : ∃ slots,
      mqttSubscriptionClearLocked mqtt i token = { mqtt with subscriptions := slots } := by
  unfold mqttSubscriptionClearLocked
  split_ifs
  · exact ⟨_, rfl⟩
  · exact ⟨_, rfl⟩

/-- Rolling a slot back touches the table alone. -/
theorem mqttSubscriptionRollbackLocked_slots (mqtt : MqttClient) (i : Fin mqttSubscriptionMax)
    (token : UInt32) (state : MqttSubscriptionState) : ∃ slots,
      mqttSubscriptionRollbackLocked mqtt i token state = { mqtt with subscriptions := slots } := by
  unfold mqttSubscriptionRollbackLocked
  split_ifs
  · exact ⟨_, rfl⟩
  · exact mqttSubscriptionClearLocked_slots mqtt i token
  · exact ⟨_, rfl⟩

/-- The replay accounts for the operation it makes: handed over, or freed as refused. -/
theorem MqttReplay.step_tallied (env : MqttEnv) (m : MqttCore) (replay : MqttReplay)
    (unfinished : ℕ) :
    Tallied replay.allocates (if m.Refuses env.refusal then replay.allocates else []) m unfinished
      [] (replay.step env m).1 unfinished [] := by
  -- One case per point of `mqtt_replay`; only the hand-over touches operations.
  cases replay with
  | slot i =>
    -- Marking a slot and rolling one back keep the operations.
    have hquiet : ∀ m' : MqttCore, m'.queue = m.queue → m'.taken = m.taken →
        m'.client.operationInflight = m.client.operationInflight →
        Tallied [] [] m unfinished [] m' unfinished [] := by
      intro m' hq ht hi
      refine .quiet ?_ (ht ▸ .refl _) hi
      unfold MqttCore.operations
      rw [hq, ht]
    dsimp only [MqttReplay.step, MqttReplay.allocates]
    rw [ite_self]
    split_ifs with hi
    · cases hmark : mqttReplayMark m.client ⟨i, hi⟩ with
      | none => exact .same
      | some marked =>
        obtain ⟨op, client⟩ := marked
        obtain ⟨-, -, hclient⟩ := mqttReplayMark_some hmark
        rw [hclient]
        exact hquiet _ rfl rfl rfl
    · exact hquiet _ rfl rfl rfl
  | handOver op =>
    dsimp only [MqttReplay.step, MqttReplay.allocates]
    rcases hop : mqttEnqueueOperation m op.1 env.refusal with ⟨_ | _, m'⟩ <;>
      exact .enqueue hop rfl rfl rfl
  | rollBack op =>
    dsimp only [MqttReplay.step, MqttReplay.allocates]
    rw [ite_self]
    obtain ⟨slots, hslots⟩ := mqttSubscriptionRollbackLocked_slots m.client
      op.1.subscriptionIndex op.1.subscriptionToken .active
    rw [hslots]
    exact .quiet rfl (.refl _) rfl

/-- What `mqtt_agent_recv` does with a command: it is in the queue, and then in the hands of the
agent or of the completion. -/
theorem mqttAgentRecv_tallied (m : MqttCore) :
    Tallied [] [] m 0 [] (mqttAgentRecv m).1 ((mqttAgentRecv m).2.elim 0 MqttWork.unfinished)
      ((mqttAgentRecv m).2.elim [] MqttWork.completed) := by
  obtain ⟨client, queue, taken⟩ := m
  cases queue with
  -- An empty ring, TERMINATE, or an operation: it fits and coreMQTT takes it, or it is dropped.
  | nil => exact ⟨.refl _, fun others h => h, .inl (.refl _)⟩
  | cons command queue =>
    cases command with
    | terminate => exact ⟨.refl _, fun others h => h, .inl (.refl _)⟩
    | operation op =>
      dsimp only [mqttAgentRecv]
      split_ifs with hvalid
      · -- The operation moves from the ring to coreMQTT; the permutation puts it at the end.
        refine ⟨?_, ?_, .inr ⟨op, rfl, hvalid⟩⟩
        · simp only [MqttCore.operations, Option.elim, MqttWork.completed, List.append_nil,
            List.filterMap_cons, MqttCommand.operation?, ← List.append_assoc]
          exact List.perm_append_singleton op _
        · intro others h
          simp only [MqttCore.operations, List.filterMap_cons, MqttCommand.operation?,
            List.length_append, List.length_cons, List.length_nil] at h ⊢
          rw [h]
          simp only [Option.elim, MqttWork.unfinished]
          omega
      · -- The dropped operation is now the one in the callback.
        refine ⟨?_, ?_, .inl (.refl _)⟩
        · simp only [MqttCore.operations, Option.elim, MqttWork.completed, List.append_nil,
            List.filterMap_cons, MqttCommand.operation?]
          exact List.perm_append_singleton op _
        · intro others h
          simp only [MqttCore.operations, List.filterMap_cons, MqttCommand.operation?,
            List.length_append, List.length_cons] at h ⊢
          rw [h]
          simp only [Option.elim, MqttWork.unfinished]
          omega

/-- A completion changes neither the counts nor the claim. -/
theorem mqttAgentCommandComplete_frame (m : MqttCore) (op : MqttOperation) (info : MqttReturnInfo) :
    (mqttAgentCommandComplete m op info).1.queue = m.queue ∧
      (mqttAgentCommandComplete m op info).1.taken = m.taken ∧
      (mqttAgentCommandComplete m op info).1.client.operationInflight
        = m.client.operationInflight ∧
      (mqttAgentCommandComplete m op info).1.client.commandActive = m.client.commandActive ∧
      (mqttAgentCommandComplete m op info).2.unfinished = 1 ∧
      (mqttAgentCommandComplete m op info).2.completed = [] := by
  -- The table is all that subscribe and unsubscribe change.
  have hsub : (mqttSubscribeComplete m.client op info).operationInflight
        = m.client.operationInflight ∧
      (mqttSubscribeComplete m.client op info).commandActive = m.client.commandActive := by
    obtain ⟨slots, hslots⟩ := mqttSubscriptionClearLocked_slots m.client op.subscriptionIndex
      op.subscriptionToken
    unfold mqttSubscribeComplete
    rw [hslots]
    split_ifs <;> exact ⟨rfl, rfl⟩
  unfold mqttAgentCommandComplete
  -- By the kind of operation: no completion touches queue, count or claim.
  cases op.type with
  | connect =>
    dsimp only [mqttCompleteConnectAttempt]
    split_ifs <;> exact ⟨rfl, rfl, rfl, rfl, rfl, rfl⟩
  | disconnect =>
    dsimp only [mqttDisconnectComplete]
    split_ifs <;> exact ⟨rfl, rfl, rfl, rfl, rfl, rfl⟩
  | publish =>
    dsimp only [mqttPublishComplete]
    split_ifs <;> exact ⟨rfl, rfl, rfl, rfl, rfl, rfl⟩
  | subscribe => exact ⟨rfl, rfl, hsub.1, hsub.2, rfl, rfl⟩
  | unsubscribe => exact ⟨rfl, rfl, hsub.1, hsub.2, rfl, rfl⟩

/-- The operations of a core are those of its queue and of coreMQTT. -/
theorem MqttCore.operations_congr {m m' : MqttCore} (hqueue : m'.queue = m.queue)
    (htaken : m'.taken = m.taken) : m'.operations = m.operations := by
  unfold MqttCore.operations
  rw [hqueue, htaken]

/-- A completion takes its operation in, whether it was the agent's or one of a dropped command. -/
theorem mqttAgentCommandComplete_tallied (m : MqttCore) (op : MqttOperation) (info : MqttReturnInfo) :
    Tallied [] [op] m 1 [op] (mqttAgentCommandComplete m op info).1 1 [] := by
  obtain ⟨hqueue, htaken, hinflight, -, -, -⟩ := mqttAgentCommandComplete_frame m op info
  have hoperations := MqttCore.operations_congr hqueue htaken
  refine ⟨?_, ?_, .inl (htaken ▸ .refl _)⟩
  · rw [hoperations, List.append_nil, List.append_nil]
  · intro others ho
    rw [hinflight, hoperations, ho]

/-- Leaving the operation is what its count goes down by. -/
theorem mqttOperationLeave_tallied (m : MqttCore) :
    Tallied [] [] m 1 [] { m with client := mqttOperationLeave m.client } 0 [] := by
  refine ⟨.refl _, ?_, .inl (.refl _)⟩
  intro others ho
  show m.client.operationInflight - 1 = m.operations.length + 0 + others
  rw [ho]
  omega

/-- A step inside the agent. -/
theorem MqttWork.step_tallied (env : MqttEnv) (m : MqttCore) (work : MqttWork) :
    Tallied work.allocates
      ((if m.Refuses env.refusal then work.allocates else []) ++ work.completed) m work.unfinished
      work.completed (work.step env m).1
      ((work.step env m).2.elim MqttWork.unfinished fun _ => 0)
      ((work.step env m).2.elim MqttWork.completed fun _ => []) := by
  -- One case per point of the work: what coreMQTT completes leaves `taken` for the callback.
  cases work with
  | idle =>
    dsimp only [MqttWork.step, MqttWork.allocates, MqttWork.completed, MqttWork.unfinished]
    rw [ite_self, List.append_nil]
    cases hagent : env.agent with
    -- Between two commands: coreMQTT may call recv, complete, deliver or leave its loop.
    | receive => exact .quiet rfl (.refl _) rfl
    | complete k info =>
      dsimp only
      cases hk : m.taken[k]? with
      | none => exact .same
      | some op =>
        -- The operation completed is one of those taken; the rest is a permutation.
        have hperm : (m.taken.eraseIdx k ++ [op]).Perm m.taken := by
          obtain ⟨hlt, rfl⟩ := List.getElem?_eq_some_iff.mp hk
          exact (List.perm_append_singleton _ _).trans (List.getElem_cons_eraseIdx_perm hlt)
        have hoperations : (MqttCore.operations
            ⟨m.client, m.queue, m.taken.eraseIdx k⟩ ++ [op]).Perm m.operations := by
          unfold MqttCore.operations
          rw [List.append_assoc]
          exact List.Perm.append_left _ hperm
        refine ⟨?_, ?_, .inl (List.eraseIdx_sublist _ _)⟩
        · simp only [Sum.elim_inl, MqttWork.completed, List.append_nil]
          exact hoperations
        · intro others ho
          have hlength := hoperations.length_eq
          rw [List.length_append, List.length_singleton] at hlength
          show m.client.operationInflight = _ + 1 + others
          rw [ho, ← hlength, Nat.add_zero]
    | deliver hasCallback =>
      dsimp only [mqttCallbackEnter]
      split_ifs
      · exact .same
      · exact .quiet rfl (.refl _) rfl
    | quit status => exact .same
  | receiving =>
    -- The pop moves an operation from the queue to `taken`, or to the drop path.
    have htallied := mqttAgentRecv_tallied m
    dsimp only [MqttWork.step, MqttWork.allocates, MqttWork.completed, MqttWork.unfinished]
    rw [ite_self, List.append_nil]
    rcases heq : mqttAgentRecv m with ⟨m', _ | work⟩ <;> rw [heq] at htallied <;> exact htallied
  | dropping op =>
    -- Dropping completes the operation with a failure; its object is freed here.
    dsimp only [MqttWork.step, MqttWork.allocates, MqttWork.completed, MqttWork.unfinished]
    rw [ite_self, List.nil_append]
    exact mqttAgentCommandComplete_tallied m op mqttDropInfo
  | dropped =>
    dsimp only [MqttWork.step, MqttWork.allocates, MqttWork.completed, MqttWork.unfinished]
    rw [ite_self, List.append_nil]
    exact mqttOperationLeave_tallied m
  -- The completion counts the operation out only where it says so, by its frame lemma.
  | completing op info =>
    obtain ⟨-, -, -, -, hunfinished, hcompleted⟩ := mqttAgentCommandComplete_frame m op info
    dsimp only [MqttWork.step, MqttWork.allocates, MqttWork.completed, MqttWork.unfinished]
    rw [ite_self, List.nil_append, Sum.elim_inl, Sum.elim_inl, hunfinished, hcompleted]
    exact mqttAgentCommandComplete_tallied m op info
  -- A retained publish is queued anew: one operation more, or the old one refused.
  | replaying replay =>
    have htallied := replay.step_tallied env m 1
    dsimp only [MqttWork.step, MqttWork.allocates, MqttWork.completed, MqttWork.unfinished]
    rw [List.append_nil]
    rcases heq : replay.step env m with ⟨m', _ | replay'⟩ <;> rw [heq] at htallied <;>
      exact htallied
  | leaving =>
    dsimp only [MqttWork.step, MqttWork.allocates, MqttWork.completed, MqttWork.unfinished]
    rw [ite_self, List.append_nil]
    exact mqttOperationLeave_tallied m
  | delivering =>
    dsimp only [MqttWork.step, MqttWork.allocates, MqttWork.completed, MqttWork.unfinished]
    rw [ite_self, List.append_nil]
    exact .quiet rfl (.refl _) rfl

/-! ### Calls -/

section Calls

variable {m m' : MqttCore} {env : MqttEnv}

/-- What a step of a call does, with what the call says of itself before and behind it. -/
def MqttThread.Tallies (env : MqttEnv) (m : MqttCore) (thread : MqttThread) (m' : MqttCore)
    (thread' : MqttThread) : Prop :=
  Tallied (thread.allocates m.client) (thread.ends env m) m thread.unfinished thread.completed
    m' thread'.unfinished thread'.completed

/-- A call that has nothing to do with the agent, in this step. -/
theorem MqttThread.Tallies.quiet {thread thread' : MqttThread}
    (hthread : thread.allocates m.client = [] ∧ thread.unfinished = 0 ∧ thread.completed = [])
    (hthread' : thread'.unfinished = 0 ∧ thread'.completed = [])
    (hoperations : m'.operations = m.operations) (htaken : m'.taken = m.taken)
    (hinflight : m'.client.operationInflight = m.client.operationInflight) :
    thread.Tallies env m m' thread' := by
  obtain ⟨hallocates, hunfinished, hcompleted⟩ := hthread
  obtain ⟨hunfinished', hcompleted'⟩ := hthread'
  unfold MqttThread.Tallies MqttThread.ends
  rw [hallocates, hunfinished, hcompleted, hunfinished', hcompleted', ite_self]
  exact .quiet hoperations (htaken ▸ .refl _) hinflight

/-- A call that changes nothing. -/
theorem MqttThread.Tallies.same {thread thread' : MqttThread}
    (hthread : thread.allocates m.client = [] ∧ thread.unfinished = 0 ∧ thread.completed = [])
    (hthread' : thread'.unfinished = 0 ∧ thread'.completed = []) :
    thread.Tallies env m m thread' :=
  .quiet hthread hthread' rfl rfl rfl

/-- The process call accounts for every operation at every section. -/
theorem MqttProcess.step_tallies (env : MqttEnv) (m : MqttCore) (pc : MqttProcess) :
    (MqttThread.process pc).Tallies env m (pc.step env m).1 (pc.step env m).2 := by
  -- The work a call starts with carries nothing.
  have hnone : ∀ {work : MqttWork}, work = .idle →
      work.allocates = [] ∧ work.unfinished = 0 ∧ work.completed = [] := by
    rintro work rfl
    exact ⟨rfl, rfl, rfl⟩
  -- Only the sections that run the work touch operations; each other is quiet.
  cases pc with
  | start =>
    dsimp only [MqttProcess.step, mqttApiEnter]
    split_ifs <;> exact .quiet ⟨rfl, rfl, rfl⟩ ⟨rfl, rfl⟩ rfl rfl rfl
  | entered =>
    dsimp only [MqttProcess.step, mqttMarkProcessStarted]
    split_ifs <;> exact .quiet ⟨rfl, rfl, rfl⟩ ⟨rfl, rfl⟩ rfl rfl rfl
  | top =>
    dsimp only [MqttProcess.step]
    split_ifs <;> exact .same ⟨rfl, rfl, rfl⟩ ⟨rfl, rfl⟩
  -- The loop: what the work of the agent tallies is what the process tallies.
  | looping work =>
    have htallied := work.step_tallied env m
    dsimp only [MqttProcess.step]
    rcases heq : work.step env m with ⟨m', work' | status⟩ <;> rw [heq] at htallied <;>
      exact htallied
  | looped status => exact .quiet ⟨rfl, rfl, rfl⟩ ⟨rfl, rfl⟩ rfl rfl rfl
  | claimReleased status => exact .same ⟨rfl, rfl, rfl⟩ ⟨rfl, rfl⟩
  | stateRead status state =>
    dsimp only [MqttProcess.step]
    split_ifs <;> exact .same ⟨rfl, rfl, rfl⟩ ⟨rfl, rfl⟩
  | lost =>
    dsimp only [MqttProcess.step]
    split_ifs <;> exact .same ⟨rfl, rfl, rfl⟩ ⟨rfl, rfl⟩
  | backOff => exact .quiet ⟨rfl, rfl, rfl⟩ ⟨rfl, rfl⟩ rfl rfl rfl
  | retry =>
    dsimp only [MqttProcess.step]
    split_ifs <;> exact .same ⟨rfl, rfl, rfl⟩ ⟨rfl, rfl⟩
  | scheduling =>
    dsimp only [MqttProcess.step]
    split_ifs <;> exact .same ⟨rfl, rfl, rfl⟩ ⟨rfl, rfl⟩
  | rescheduling => exact .quiet ⟨rfl, rfl, rfl⟩ ⟨rfl, rfl⟩ rfl rfl rfl
  | opening generation =>
    dsimp only [MqttProcess.step]
    cases env.result <;> exact .same ⟨rfl, rfl, rfl⟩ ⟨rfl, rfl⟩
  | openFailed generation =>
    dsimp only [MqttProcess.step]
    split_ifs <;> exact .quiet ⟨rfl, rfl, rfl⟩ ⟨rfl, rfl⟩ rfl rfl rfl
  | connecting generation =>
    dsimp only [MqttProcess.step]
    split_ifs
    · exact .same ⟨rfl, rfl, rfl⟩ ⟨rfl, rfl⟩
    · cases mqttStatusToErr env.status <;> exact .same ⟨rfl, rfl, rfl⟩ ⟨rfl, rfl⟩
  | resuming generation sessionPresent work =>
    dsimp only [MqttProcess.step]
    -- While a session resumes, the work is coreMQTT's own; waiting moves nothing.
    split_ifs with hwait
    · exact .same (hnone hwait.1) (hnone hwait.1).2
    · have htallied := work.step_tallied env m
      rcases heq : work.step env m with ⟨m', work' | status⟩ <;> rw [heq] at htallied
      · exact htallied
      · dsimp only
        split_ifs
        · exact htallied
        · cases mqttStatusToErr status <;> exact htallied
  | resumed generation sessionPresent =>
    dsimp only [MqttProcess.step]
    split_ifs <;> exact .quiet ⟨rfl, rfl, rfl⟩ ⟨rfl, rfl⟩ rfl rfl rfl
  -- The replay between two connections carries no operation of the work.
  | replaying replay =>
    have htallied := replay.step_tallied env m 0
    unfold MqttThread.Tallies MqttThread.ends
    dsimp only [MqttProcess.step, MqttThread.completed]
    rw [List.append_nil]
    rcases heq : replay.step env m with ⟨m', _ | replay'⟩ <;> rw [heq] at htallied <;>
      exact htallied
  | giveUp result => exact .same ⟨rfl, rfl, rfl⟩ ⟨rfl, rfl⟩
  | ending result =>
    dsimp only [MqttProcess.step]
    split_ifs <;> exact .same ⟨rfl, rfl, rfl⟩ ⟨rfl, rfl⟩
  | settling result => exact .quiet ⟨rfl, rfl, rfl⟩ ⟨rfl, rfl⟩ rfl rfl rfl
  | stopping result => exact .quiet ⟨rfl, rfl, rfl⟩ ⟨rfl, rfl⟩ rfl rfl rfl

/-- Entering a call counts no operation. -/
theorem MqttCall.step_tallies (env : MqttEnv) (m : MqttCore) (api : MqttCall) :
    (MqttThread.call api).Tallies env m (api.step m).1 (api.step m).2 := by
  cases api with
  | subscribe topic unsubscribe =>
    dsimp only [MqttCall.step, mqttApiEnter]
    split_ifs
    · exact .same ⟨rfl, rfl, rfl⟩ ⟨rfl, rfl⟩
    · exact .same ⟨rfl, rfl, rfl⟩ ⟨rfl, rfl⟩
    · exact .quiet ⟨rfl, rfl, rfl⟩ ⟨rfl, rfl⟩ rfl rfl rfl
  | process => exact .same ⟨rfl, rfl, rfl⟩ ⟨rfl, rfl⟩
  | deinit =>
    dsimp only [MqttCall.step, mqttBeginDeinit]
    split_ifs <;> exact .quiet ⟨rfl, rfl, rfl⟩ ⟨rfl, rfl⟩ rfl rfl rfl
  | _ =>
    dsimp only [MqttCall.step, mqttApiEnter]
    split_ifs
    · exact .same ⟨rfl, rfl, rfl⟩ ⟨rfl, rfl⟩
    · exact .quiet ⟨rfl, rfl, rfl⟩ ⟨rfl, rfl⟩ rfl rfl rfl

/-- A terminate command is no operation. -/
theorem mqttEnqueue_terminate (m : MqttCore) (refusal : Option MqttRefusal) :
    (mqttEnqueue m .terminate refusal).2.operations = m.operations ∧
      (mqttEnqueue m .terminate refusal).2.taken = m.taken ∧
      (mqttEnqueue m .terminate refusal).2.client = m.client := by
  rcases mqttEnqueue_cases m .terminate refusal with ⟨refused, heq⟩ | heq
  · rw [heq]
    exact ⟨rfl, rfl, rfl⟩
  · rw [heq]
    refine ⟨?_, rfl, rfl⟩
    unfold MqttCore.operations
    rw [List.filterMap_append]
    show m.queue.filterMap _ ++ [] ++ _ = _
    rw [List.append_nil]

/-- The cancellation works through the same steps as the loop. -/
theorem mqttAgentCancel_tallied (env : MqttEnv) (m : MqttCore) (work : MqttWork) :
    Tallied work.allocates
      ((if m.Refuses env.refusal then work.allocates else []) ++ work.completed) m work.unfinished
      work.completed (mqttAgentCancel env m work).1
      ((mqttAgentCancel env m work).2.elim MqttWork.unfinished fun _ => 0)
      ((mqttAgentCancel env m work).2.elim MqttWork.completed fun _ => []) := by
  have hstep := work.step_tallied env m
  cases work with
  | idle =>
    unfold mqttAgentCancel
    cases hagent : env.agent with
    | deliver hasCallback =>
      dsimp only [MqttWork.allocates, MqttWork.completed]
      rw [ite_self, List.append_nil]
      exact .same
    | receive | complete k info | quit status => exact hstep
  | receiving =>
    -- a terminate command does not end it
    have hrecv := mqttAgentRecv_tallied m
    dsimp only [mqttAgentCancel, MqttWork.allocates, MqttWork.completed, MqttWork.unfinished]
    rw [ite_self, List.append_nil]
    rcases heq : mqttAgentRecv m with ⟨m', _ | work'⟩ <;> rw [heq] at hrecv <;> exact hrecv
  | _ => exact hstep

/-- Deinit accounts for every operation unless the cancellation fails. -/
theorem MqttDeinit.step_tallies (env : MqttEnv) (m : MqttCore) (pc : MqttDeinit)
    (hcancel : ¬(MqttThread.deinit pc).CancelFails) :
    (MqttThread.deinit pc).Tallies env m (pc.step env m).1 (pc.step env m).2 := by
  cases pc with
  | begun =>
    dsimp only [MqttDeinit.step]
    split_ifs <;> exact .same ⟨rfl, rfl, rfl⟩ ⟨rfl, rfl⟩
  | signalling =>
    dsimp only [MqttDeinit.step]
    split_ifs <;> exact .quiet ⟨rfl, rfl, rfl⟩ ⟨rfl, rfl⟩ rfl rfl rfl
  | terminating =>
    -- TERMINATE is a command of its own, not an operation.
    have hterminate := mqttEnqueue_terminate m env.refusal
    dsimp only [MqttDeinit.step]
    generalize mqttEnqueue m .terminate env.refusal = out at hterminate ⊢
    obtain ⟨status, m'⟩ := out
    obtain ⟨hoperations, htaken, hclient⟩ := hterminate
    dsimp only at hoperations htaken hclient ⊢
    cases mqttEnqueueStatusToErr status <;>
      exact .quiet ⟨rfl, rfl, rfl⟩ ⟨rfl, rfl⟩ hoperations htaken
        (congrArg MqttClient.operationInflight hclient)
  | waiting =>
    dsimp only [MqttDeinit.step]
    split_ifs
    · exact .same ⟨rfl, rfl, rfl⟩ ⟨rfl, rfl⟩
    · exact .same ⟨rfl, rfl, rfl⟩ ⟨rfl, rfl⟩
    · cases env.result <;> exact .same ⟨rfl, rfl, rfl⟩ ⟨rfl, rfl⟩
  | claiming =>
    dsimp only [MqttDeinit.step]
    split_ifs <;> exact .same ⟨rfl, rfl, rfl⟩ ⟨rfl, rfl⟩
  | cancelling work =>
    have htallied := mqttAgentCancel_tallied env m work
    dsimp only [MqttDeinit.step]
    rcases heq : mqttAgentCancel env m work with ⟨m', work' | status⟩ <;> rw [heq] at htallied <;>
      exact htallied
  -- `MQTTAgent_CancelAll` went well, so the claim goes and nothing is left behind.
  | cancelled status =>
    have hsuccess : status = .success := not_not.mp hcancel
    dsimp only [MqttDeinit.step]
    rw [if_pos hsuccess]
    exact .quiet ⟨rfl, rfl, rfl⟩ ⟨rfl, rfl⟩ rfl rfl rfl
  | releasing => exact .quiet ⟨rfl, rfl, rfl⟩ ⟨rfl, rfl⟩ rfl rfl rfl
  | draining =>
    dsimp only [MqttDeinit.step]
    split_ifs <;> exact .same ⟨rfl, rfl, rfl⟩ ⟨rfl, rfl⟩
  | destroying =>
    dsimp only [MqttDeinit.step]
    cases env.result <;> exact .same ⟨rfl, rfl, rfl⟩ ⟨rfl, rfl⟩
  | aborting e => exact .quiet ⟨rfl, rfl, rfl⟩ ⟨rfl, rfl⟩ rfl rfl rfl

/-- Every access of a thread accounts for what it makes and frees. -/
theorem MqttThread.step_tallies (env : MqttEnv) (m : MqttCore) (thread : MqttThread)
    (hcancel : ¬thread.CancelFails) :
    thread.Tallies env m (thread.step env m).1 (thread.step env m).2 := by
  cases thread with
  | call api => exact api.step_tallies env m
  | connectEntered =>
    dsimp only [MqttThread.step, mqttBeginConnect]
    split_ifs <;> exact .quiet ⟨rfl, rfl, rfl⟩ ⟨rfl, rfl⟩ rfl rfl rfl
  | connectBegun previous generation =>
    dsimp only [MqttThread.step, mqttInstallConfig]
    cases env.result with
    | error e => exact .same ⟨rfl, rfl, rfl⟩ ⟨rfl, rfl⟩
    | ok _ =>
      dsimp only
      split_ifs <;> exact .same ⟨rfl, rfl, rfl⟩ ⟨rfl, rfl⟩
  | connectReleasing previous generation e =>
    dsimp only [MqttThread.step, mqttReleaseConnectReservation]
    split_ifs <;> exact .quiet ⟨rfl, rfl, rfl⟩ ⟨rfl, rfl⟩ rfl rfl rfl
  | connectInstalled generation =>
    dsimp only [MqttThread.step]
    cases env.result <;> exact .same ⟨rfl, rfl, rfl⟩ ⟨rfl, rfl⟩
  -- CONNECT is made, and handed over or freed as refused.
  | connectOpened generation =>
    unfold Tallies ends
    dsimp only [MqttThread.step, allocates, completed]
    rw [List.append_nil]
    rcases hop : mqttEnqueueOperation _ _ env.refusal with ⟨_ | _, m'⟩ <;>
      exact .enqueue hop rfl rfl rfl
  | connectFailed e => exact .quiet ⟨rfl, rfl, rfl⟩ ⟨rfl, rfl⟩ rfl rfl rfl
  | connectWaiting generation =>
    dsimp only [MqttThread.step]
    rcases mqttConnectResult m.client generation with _ | _ | _
    · dsimp only
      split_ifs <;> exact .same ⟨rfl, rfl, rfl⟩ ⟨rfl, rfl⟩
    · exact .same ⟨rfl, rfl, rfl⟩ ⟨rfl, rfl⟩
    · exact .same ⟨rfl, rfl, rfl⟩ ⟨rfl, rfl⟩
  -- The attempt is given up in the client's record; its CONNECT stays where it is.
  | connectCancelling generation e =>
    dsimp only [MqttThread.step, mqttCancelConnectAttempt]
    split_ifs <;> exact .quiet ⟨rfl, rfl, rfl⟩ ⟨rfl, rfl⟩ rfl rfl rfl
  | disconnectEntered =>
    unfold Tallies ends
    dsimp only [MqttThread.step, mqttDisconnectLocked, allocates, completed]
    rw [List.append_nil]
    -- DISCONNECT is made only in CONNECTED; a refused one is freed by the caller.
    by_cases hstate : m.client.state ≠ .connected
    · rw [if_pos hstate, if_pos hstate, ite_self]
      exact .same
    · rw [if_neg hstate, if_neg hstate]
      rcases hop : mqttEnqueueOperation _ _ env.refusal with ⟨_ | _, m'⟩
      · have htallied : Tallied [_] _ m 0 [] m' 0 [] :=
          .enqueue hop rfl rfl rfl
        exact { htallied with }
      · exact .enqueue hop rfl rfl rfl
  | disconnectWaiting generation =>
    dsimp only [MqttThread.step]
    rcases mqttDisconnectResult m.client generation with _ | _ | _
    · dsimp only
      split_ifs <;> exact .same ⟨rfl, rfl, rfl⟩ ⟨rfl, rfl⟩
    · exact .same ⟨rfl, rfl, rfl⟩ ⟨rfl, rfl⟩
    · exact .same ⟨rfl, rfl, rfl⟩ ⟨rfl, rfl⟩
  | disconnectAborting generation e =>
    dsimp only [MqttThread.step, mqttAbortDisconnect]
    split_ifs <;> exact .quiet ⟨rfl, rfl, rfl⟩ ⟨rfl, rfl⟩ rfl rfl rfl
  | subscribeEntered topic unsubscribe =>
    unfold Tallies ends
    dsimp only [MqttThread.step, mqttSubscribeLocked, allocates, completed]
    rw [List.append_nil]
    -- A subscription takes a slot first: refusing it makes no operation at all.
    by_cases hstate : m.client.state ≠ .connected
    · rw [if_pos hstate, if_pos hstate, ite_self]
      exact .same
    · rw [if_neg hstate, if_neg hstate]
      cases hres : mqttSubscriptionReserveLocked m.client topic unsubscribe with
      | error e =>
        dsimp only
        rw [ite_self]
        exact .same
      | ok reserved =>
        obtain ⟨⟨i, token⟩, client⟩ := reserved
        obtain ⟨slot, -, -, -, hclient, -⟩ := mqttSubscriptionReserveLocked_ok hres
        subst hclient
        dsimp only
        rcases hop : mqttEnqueueOperation _ _ env.refusal with ⟨_ | _, m'⟩
        · -- The queue refused the operation, so the slot is rolled back and nothing else.
          have htallied : Tallied [_] _ m 0 [] m' 0 [] :=
            .enqueue hop rfl rfl rfl
          obtain ⟨slots, hslots⟩ := mqttSubscriptionRollbackLocked_slots m'.client i token
            (if unsubscribe then .active else .empty)
          dsimp only
          rw [hslots]
          exact { htallied with }
        · exact .enqueue hop rfl rfl rfl
  | publishEntered =>
    unfold Tallies ends
    dsimp only [MqttThread.step, mqttPublishLocked, allocates, completed]
    rw [List.append_nil]
    -- A publish makes its operation in the same section it checks the state in.
    by_cases hstate : m.client.state ≠ .connected
    · rw [if_pos hstate, if_pos hstate, ite_self]
      exact .same
    · rw [if_neg hstate, if_neg hstate]
      rcases hop : mqttEnqueueOperation _ _ env.refusal with ⟨result, m'⟩
      exact .enqueue hop rfl rfl rfl
  | stopProcessEntered =>
    dsimp only [MqttThread.step]
    split_ifs <;> exact .same ⟨rfl, rfl, rfl⟩ ⟨rfl, rfl⟩
  | stopProcessChecked =>
    dsimp only [MqttThread.step]
    split_ifs <;> exact .quiet ⟨rfl, rfl, rfl⟩ ⟨rfl, rfl⟩ rfl rfl rfl
  -- stop_process queues TERMINATE, which is no operation either.
  | terminating =>
    have hterminate := mqttEnqueue_terminate m env.refusal
    dsimp only [MqttThread.step]
    generalize mqttEnqueue m .terminate env.refusal = out at hterminate ⊢
    obtain ⟨status, m'⟩ := out
    obtain ⟨hoperations, htaken, hclient⟩ := hterminate
    exact .quiet ⟨rfl, rfl, rfl⟩ ⟨rfl, rfl⟩ hoperations htaken
      (congrArg MqttClient.operationInflight hclient)
  | deinit pc => exact pc.step_tallies env m hcancel
  | process pc => exact pc.step_tallies env m
  | leaving result => exact .quiet ⟨rfl, rfl, rfl⟩ ⟨rfl, rfl⟩ rfl rfl rfl
  | returned result => exact .same ⟨rfl, rfl, rfl⟩ ⟨rfl, rfl⟩

end Calls

/-! ### The claim of the command -/

/-- The agent calls `mqtt_agent_recv` in this step. -/
def MqttThread.Calls (env : MqttEnv) : MqttThread → Prop
  | .process (.looping .idle) => env.agent = .receive
  | .deinit (.cancelling .idle) => env.agent = .receive
  | _ => False

/-- `mqtt_agent_recv` returns behind what it pops now: no command at all, a terminate command, or
an operation that fits. -/
def MqttCore.RecvReturns (m : MqttCore) : Prop :=
  match m.queue with
  | .operation op :: _ => mqttCommandValid m.client op = true
  | _ => True

/-- The agent gets control back from `mqtt_agent_recv` in this step. -/
def MqttThread.Receives (m : MqttCore) : MqttThread → Prop
  | .process (.looping .receiving) => m.RecvReturns
  | .deinit (.cancelling .receiving) => m.RecvReturns
  | _ => False

/-- The loop of the agent is over, and the claim is given up in this step. -/
def MqttThread.Releases : MqttThread → Prop
  | .process (.looped _) => True
  | .deinit .releasing => True
  | _ => False

instance (env : MqttEnv) : DecidablePred (MqttThread.Calls env) := fun thread => by
  unfold MqttThread.Calls
  split <;> infer_instance

instance (m : MqttCore) : Decidable m.RecvReturns := by
  unfold MqttCore.RecvReturns
  split <;> infer_instance

instance (m : MqttCore) : DecidablePred (MqttThread.Receives m) := fun thread => by
  unfold MqttThread.Receives
  split <;> infer_instance

instance : DecidablePred MqttThread.Releases := fun thread => by
  unfold MqttThread.Releases
  split <;> infer_instance

/-- Handing an operation over does not touch the claim. -/
theorem mqttEnqueueOperation_active (m : MqttCore) (op : MqttOperation)
    (refusal : Option MqttRefusal) :
    (mqttEnqueueOperation m op refusal).2.client.commandActive = m.client.commandActive := by
  by_cases h : m.Refuses refusal
  · obtain ⟨e, he⟩ := mqttEnqueueOperation_refuses op h
    rw [he]
  · rw [mqttEnqueueOperation_takes op h]
    rfl

/-- Subscribe and unsubscribe do not touch the claim. -/
theorem mqttSubscribeLocked_active (m : MqttCore) (topic : Topic) (unsubscribe : Bool)
    (refusal : Option MqttRefusal) :
    (mqttSubscribeLocked m topic unsubscribe refusal).1.client.commandActive
      = m.client.commandActive := by
  unfold mqttSubscribeLocked
  -- Only the enqueueing could touch the flag, and its lemma says it does not.
  by_cases hstate : m.client.state ≠ .connected
  · rw [if_pos hstate]
  · rw [if_neg hstate]
    cases hres : mqttSubscriptionReserveLocked m.client topic unsubscribe with
    | error e => rfl
    | ok reserved =>
      obtain ⟨⟨i, token⟩, client⟩ := reserved
      obtain ⟨slot, -, -, -, hclient, -⟩ := mqttSubscriptionReserveLocked_ok hres
      subst hclient
      have hkeeps := mqttEnqueueOperation_active
        ⟨{ m.client with
            subscriptions := Function.update m.client.subscriptions i slot
            nextSubscriptionToken := token }, m.queue, m.taken⟩
        ⟨if unsubscribe then .unsubscribe else .subscribe, m.client.connectGeneration, i, token,
          topic⟩ refusal
      dsimp only at hkeeps ⊢
      rcases hop : mqttEnqueueOperation _ _ refusal with ⟨_ | _, m'⟩
      · -- The refused one also rolls its slot back, in the table alone.
        obtain ⟨slots, hslots⟩ := mqttSubscriptionRollbackLocked_slots m'.client i token
          (if unsubscribe then .active else .empty)
        rw [hop] at hkeeps
        dsimp only
        rw [hslots]
        exact hkeeps
      · rw [hop] at hkeeps
        exact hkeeps

/-- The replay does not touch the claim. -/
theorem MqttReplay.step_active (env : MqttEnv) (m : MqttCore) (replay : MqttReplay) :
    (replay.step env m).1.client.commandActive = m.client.commandActive := by
  cases replay with
  | slot i =>
    dsimp only [MqttReplay.step]
    split_ifs with hi
    · cases hmark : mqttReplayMark m.client ⟨i, hi⟩ with
      | none => rfl
      | some marked =>
        obtain ⟨op, client⟩ := marked
        obtain ⟨-, -, hclient⟩ := mqttReplayMark_some hmark
        dsimp only
        rw [hclient]
    · rfl
  | handOver op =>
    have hkeeps := mqttEnqueueOperation_active m op.1 env.refusal
    dsimp only [MqttReplay.step]
    rcases hop : mqttEnqueueOperation m op.1 env.refusal with ⟨_ | _, m'⟩ <;> rw [hop] at hkeeps <;>
      exact hkeeps
  | rollBack op =>
    obtain ⟨slots, hslots⟩ := mqttSubscriptionRollbackLocked_slots m.client
      op.1.subscriptionIndex op.1.subscriptionToken .active
    dsimp only [MqttReplay.step]
    rw [hslots]

/-- The claim is raised only by a receive that returns an operation. -/
theorem mqttAgentRecv_active {m : MqttCore}
    (h : (mqttAgentRecv m).1.client.commandActive = true) :
    m.RecvReturns ∨ m.client.commandActive = true := by
  obtain ⟨client, queue, taken⟩ := m
  cases queue with
  | nil => exact .inl trivial
  | cons command queue =>
    cases command with
    | terminate => exact .inl trivial
    | operation op =>
      dsimp only [mqttAgentRecv] at h
      split_ifs at h with hvalid
      · exact .inl hvalid
      · exact .inr h

/-- If a command is active after a step of the work, a receive raised it or it was active before,
and the work did not call receive. -/
theorem MqttWork.step_active {env : MqttEnv} {m : MqttCore} {work : MqttWork}
    (h : (work.step env m).1.client.commandActive = true) :
    ¬(work = .idle ∧ env.agent = .receive) ∧
      ((work = .receiving ∧ m.RecvReturns) ∨ m.client.commandActive = true) := by
  have hnot {work : MqttWork} (hwork : work ≠ .idle) : ¬(work = .idle ∧ env.agent = .receive) :=
    fun hidle => hwork hidle.1
  cases work with
  | idle =>
    dsimp only [MqttWork.step] at h
    cases hagent : env.agent with
    | receive =>
      -- the claim is released
      -- `mqtt_agent_recv` begins with the release, so the flag cannot be up after it.
      rw [hagent] at h
      exact absurd h Bool.noConfusion
    | complete k info =>
      rw [hagent] at h
      cases hk : m.taken[k]? <;> simp only [hk] at h <;>
        exact ⟨fun hidle => MqttAgentAction.noConfusion hidle.2, .inr h⟩
    | deliver hasCallback =>
      rw [hagent] at h
      dsimp only [mqttCallbackEnter] at h
      split_ifs at h <;> exact ⟨fun hidle => MqttAgentAction.noConfusion hidle.2, .inr h⟩
    | quit status =>
      rw [hagent] at h
      exact ⟨fun hidle => MqttAgentAction.noConfusion hidle.2, .inr h⟩
  | receiving =>
    -- The flag is up behind the receive only where this receive claimed the command.
    have hrecv : (mqttAgentRecv m).1.client.commandActive = true := by
      dsimp only [MqttWork.step] at h
      rcases heq : mqttAgentRecv m with ⟨m', _ | work⟩ <;> rw [heq] at h <;> exact h
    refine ⟨hnot MqttWork.noConfusion, ?_⟩
    exact (mqttAgentRecv_active hrecv).imp_left fun hreturns => ⟨rfl, hreturns⟩
  -- A completion leaves the flag as it finds it, so it was up before.
  | dropping op =>
    obtain ⟨-, -, -, hactive, -⟩ := mqttAgentCommandComplete_frame m op mqttDropInfo
    exact ⟨hnot MqttWork.noConfusion, .inr (hactive.symm.trans h)⟩
  | completing op info =>
    obtain ⟨-, -, -, hactive, -⟩ := mqttAgentCommandComplete_frame m op info
    exact ⟨hnot MqttWork.noConfusion, .inr (hactive.symm.trans h)⟩
  | replaying replay =>
    have hkeeps := replay.step_active env m
    dsimp only [MqttWork.step] at h
    rcases heq : replay.step env m with ⟨m', _ | replay'⟩ <;> rw [heq] at hkeeps h <;>
      exact ⟨hnot MqttWork.noConfusion, .inr (hkeeps.symm.trans h)⟩
  | dropped | leaving | delivering => exact ⟨hnot MqttWork.noConfusion, .inr h⟩

/-- The claim behind a step of the call, if there is one: it is given back by this step or was there
before, and the step neither calls `mqtt_agent_recv` nor ends the loop. -/
structure MqttThread.Claims (env : MqttEnv) (m : MqttCore) (thread : MqttThread) : Prop where
  releases : ¬thread.Releases
  calls : ¬thread.Calls env
  receives : thread.Receives m ∨ m.client.commandActive = true

/-- The two threads that run the agent claim what its work claims. -/
theorem MqttThread.Claims.of_work {env : MqttEnv} {m : MqttCore} {work : MqttWork}
    {thread : MqttThread}
    (hthread : thread = .process (.looping work) ∨ thread = .deinit (.cancelling work))
    (h : ¬(work = .idle ∧ env.agent = .receive) ∧
      ((work = .receiving ∧ m.RecvReturns) ∨ m.client.commandActive = true)) :
    thread.Claims env m := by
  obtain ⟨hcalls, hreceives⟩ := h
  rcases hthread with rfl | rfl
  -- Only an idle work calls recv, and only a receiving one comes back from it.
  all_goals
    refine ⟨id, fun hcall => hcalls ?_, hreceives.imp_left ?_⟩
    · cases work with
      | idle => exact ⟨rfl, hcall⟩
      | _ => exact hcall.elim
    · rintro ⟨rfl, hreturns⟩
      exact hreturns

/-- The same of a section of the process call. -/
theorem MqttProcess.step_active {env : MqttEnv} {m : MqttCore} {pc : MqttProcess}
    (hresumes : ¬(MqttThread.process pc).ResumesInRecv)
    (h : (pc.step env m).1.client.commandActive = true) :
    (MqttThread.process pc).Claims env m := by
  cases pc with
  | start =>
    dsimp only [MqttProcess.step, mqttApiEnter] at h
    split_ifs at h <;> exact ⟨id, id, .inr h⟩
  | entered =>
    dsimp only [MqttProcess.step, mqttMarkProcessStarted] at h
    split_ifs at h <;> exact ⟨id, id, .inr h⟩
  | looping work =>
    dsimp only [MqttProcess.step] at h
    -- The loop only passes on what the work did to the flag.
    have hwork : (work.step env m).1.client.commandActive = true := by
      rcases heq : work.step env m with ⟨m', _ | _⟩ <;> rw [heq] at h <;> exact h
    exact .of_work (.inl rfl) (MqttWork.step_active hwork)
  -- The end of the loop lowers the flag.
  | looped status => exact absurd h Bool.noConfusion
  | connecting generation =>
    dsimp only [MqttProcess.step] at h
    split_ifs at h
    · exact ⟨id, id, .inr h⟩
    · cases hstatus : mqttStatusToErr env.status <;> rw [hstatus] at h <;> exact ⟨id, id, .inr h⟩
  | opening generation =>
    dsimp only [MqttProcess.step] at h
    cases hresult : env.result <;> rw [hresult] at h <;> exact ⟨id, id, .inr h⟩
  | openFailed generation =>
    dsimp only [MqttProcess.step] at h
    split_ifs at h <;> exact ⟨id, id, .inr h⟩
  | resuming generation sessionPresent work =>
    dsimp only [MqttProcess.step] at h
    split_ifs at h with hwait
    · exact ⟨id, id, .inr h⟩
    · have hwork : (work.step env m).1.client.commandActive = true := by
        rcases heq : work.step env m with ⟨m', _ | status⟩ <;> rw [heq] at h <;> dsimp only at h
        · exact h
        · split_ifs at h
          · exact h
          · cases hstatus : mqttStatusToErr status <;> rw [hstatus] at h <;> exact h
      -- while it resumes a session the agent is not in `mqtt_agent_recv`
      rcases (MqttWork.step_active hwork).2 with ⟨hreceiving, -⟩ | hactive
      · rw [hreceiving] at hresumes
        exact absurd trivial hresumes
      · exact ⟨id, id, .inr hactive⟩
  | resumed generation sessionPresent =>
    dsimp only [MqttProcess.step] at h
    split_ifs at h <;> exact ⟨id, id, .inr h⟩
  -- The replay never raises the flag.
  | replaying replay =>
    have hkeeps := replay.step_active env m
    dsimp only [MqttProcess.step] at h
    rcases heq : replay.step env m with ⟨m', _ | replay'⟩ <;> rw [heq] at hkeeps h <;>
      exact ⟨id, id, .inr (hkeeps.symm.trans h)⟩
  -- Every other point of the call keeps the flag, whatever branch it takes.
  | top | claimReleased _ | stateRead _ _ | lost | backOff | retry | scheduling | rescheduling
    | giveUp _ | ending _ | settling _ | stopping _ =>
    dsimp only [MqttProcess.step] at h
    first
      | exact ⟨id, id, .inr h⟩
      | split_ifs at h <;> exact ⟨id, id, .inr h⟩

/-- The same of the cancellation. -/
theorem mqttAgentCancel_active {env : MqttEnv} {m : MqttCore} {work : MqttWork}
    (h : (mqttAgentCancel env m work).1.client.commandActive = true) :
    ¬(work = .idle ∧ env.agent = .receive) ∧
      ((work = .receiving ∧ m.RecvReturns) ∨ m.client.commandActive = true) := by
  cases work with
  -- Except for the delivery, which deinit ignores, the cancellation takes the loop's own step.
  | idle =>
    have hstep := @MqttWork.step_active env m .idle
    unfold mqttAgentCancel at h
    cases hagent : env.agent with
    | deliver hasCallback =>
      rw [hagent] at h
      exact ⟨fun hidle => MqttAgentAction.noConfusion hidle.2, .inr h⟩
    | receive | complete k info | quit status =>
      rw [hagent] at h hstep
      exact hstep h
  | receiving =>
    refine ⟨fun hidle => MqttWork.noConfusion hidle.1, ?_⟩
    exact (mqttAgentRecv_active h).imp_left fun hreturns => ⟨rfl, hreturns⟩
  | _ => exact MqttWork.step_active h

/-- The same of a section of deinit: only the cancellation receives. -/
theorem MqttDeinit.step_active {env : MqttEnv} {m : MqttCore} {pc : MqttDeinit}
    (h : (pc.step env m).1.client.commandActive = true) :
    (MqttThread.deinit pc).Claims env m := by
  cases pc with
  | terminating =>
    -- TERMINATE is queued without touching the client.
    have hclient := (mqttEnqueue_terminate m env.refusal).2.2
    dsimp only [MqttDeinit.step] at h
    generalize mqttEnqueue m .terminate env.refusal = out at hclient h
    obtain ⟨status, m'⟩ := out
    dsimp only at hclient h
    cases hstatus : mqttEnqueueStatusToErr status <;> rw [hstatus] at h <;>
      exact ⟨id, id, .inr (hclient ▸ h)⟩
  | waiting =>
    dsimp only [MqttDeinit.step] at h
    split_ifs at h
    · exact ⟨id, id, .inr h⟩
    · exact ⟨id, id, .inr h⟩
    · cases hresult : env.result <;> rw [hresult] at h <;> exact ⟨id, id, .inr h⟩
  -- The work of the cancellation, by its own lemma.
  | cancelling work =>
    have hcancel : (mqttAgentCancel env m work).1.client.commandActive = true := by
      dsimp only [MqttDeinit.step] at h
      rcases heq : mqttAgentCancel env m work with ⟨m', _ | _⟩ <;> rw [heq] at h <;> exact h
    exact .of_work (.inr rfl) (mqttAgentCancel_active hcancel)
  -- The release behind the cancellation lowers the flag.
  | releasing => exact absurd h Bool.noConfusion
  | destroying =>
    dsimp only [MqttDeinit.step] at h
    cases hresult : env.result <;> rw [hresult] at h <;> exact ⟨id, id, .inr h⟩
  | begun | signalling | claiming | cancelled _ | draining | aborting _ =>
    dsimp only [MqttDeinit.step] at h
    first
      | exact ⟨id, id, .inr h⟩
      | split_ifs at h <;> exact ⟨id, id, .inr h⟩

/-- Entering a call raises no claim. -/
theorem MqttCall.step_active {m : MqttCore} {api : MqttCall}
    (h : (api.step m).1.client.commandActive = true) : m.client.commandActive = true := by
  cases api with
  | process => exact h
  | subscribe topic unsubscribe =>
    dsimp only [MqttCall.step, mqttApiEnter] at h
    split_ifs at h <;> exact h
  | deinit =>
    dsimp only [MqttCall.step] at h
    cases hbegin : mqttBeginDeinit m.client with
    | error e =>
      rw [hbegin] at h
      exact h
    | ok client =>
      rw [hbegin] at h
      unfold mqttBeginDeinit at hbegin
      split_ifs at hbegin
      injection hbegin with hclient
      rw [← hclient] at h
      exact h
  | connect | disconnect | publish | stopProcess =>
    dsimp only [MqttCall.step, mqttApiEnter] at h
    split_ifs at h <;> exact h

/-- Only a return from `mqtt_agent_recv` claims, and neither a call of it nor the end of the loop
leaves a claim. -/
theorem MqttThread.step_active (env : MqttEnv) (m : MqttCore) (thread : MqttThread)
    (hresumes : ¬thread.ResumesInRecv)
    (h : (thread.step env m).1.client.commandActive = true) : thread.Claims env m := by
  have henqueue : ∀ (m₁ : MqttCore) (op : MqttOperation),
      (mqttEnqueueOperation m₁ op env.refusal).2.client.commandActive = m₁.client.commandActive :=
    fun m₁ op => mqttEnqueueOperation_active m₁ op env.refusal
  -- One case per kind of thread; those not named keep the flag as they find it.
  cases thread with
  | call api => exact ⟨id, id, .inr (MqttCall.step_active h)⟩
  | process pc => exact MqttProcess.step_active hresumes h
  | deinit pc => exact MqttDeinit.step_active h
  -- The installation writes the configuration; it fails without a trace in the flag.
  | connectBegun previous generation =>
    dsimp only [MqttThread.step, mqttInstallConfig] at h
    cases hresult : env.result <;> rw [hresult] at h <;> dsimp only at h
    · exact ⟨id, id, .inr h⟩
    · split_ifs at h <;> exact ⟨id, id, .inr h⟩
  | connectInstalled generation =>
    dsimp only [MqttThread.step] at h
    cases hresult : env.result <;> rw [hresult] at h <;> exact ⟨id, id, .inr h⟩
  | connectOpened generation =>
    -- CONNECT is queued by the caller, whose command flag is not its business.
    have hkeeps := henqueue m ⟨.connect, generation, 0, 0, []⟩
    dsimp only [MqttThread.step] at h
    rcases hop : mqttEnqueueOperation m ⟨.connect, generation, 0, 0, []⟩ env.refusal
      with ⟨_ | _, m'⟩ <;> rw [hop] at hkeeps h <;> exact ⟨id, id, .inr (hkeeps.symm.trans h)⟩
  | connectWaiting generation =>
    dsimp only [MqttThread.step] at h
    rcases hresult : mqttConnectResult m.client generation with _ | _ | _ <;> rw [hresult] at h <;>
      dsimp only at h
    · split_ifs at h <;> exact ⟨id, id, .inr h⟩
    · exact ⟨id, id, .inr h⟩
    · exact ⟨id, id, .inr h⟩
  | disconnectEntered =>
    refine ⟨id, id, .inr ?_⟩
    -- Neither the refused DISCONNECT nor the queued one reaches the flag.
    dsimp only [MqttThread.step, mqttDisconnectLocked] at h
    split_ifs at h
    · exact h
    · rcases hop : mqttEnqueueOperation { m with client := { m.client with
          state := .disconnecting, disconnectResultValid := false } }
        ⟨.disconnect, m.client.connectGeneration, 0, 0, []⟩ env.refusal with ⟨_ | _, m'⟩ <;>
        rw [hop] at h <;>
        exact ((congrArg (·.2.client.commandActive) hop).symm.trans (henqueue _ _)).symm.trans h
  | disconnectWaiting generation =>
    dsimp only [MqttThread.step] at h
    rcases hresult : mqttDisconnectResult m.client generation with _ | _ | _ <;>
      rw [hresult] at h <;> dsimp only at h
    · split_ifs at h <;> exact ⟨id, id, .inr h⟩
    · exact ⟨id, id, .inr h⟩
    · exact ⟨id, id, .inr h⟩
  -- The rollback of a refused subscription is in the table alone.
  | subscribeEntered topic unsubscribe =>
    refine ⟨id, id, .inr ?_⟩
    exact (mqttSubscribeLocked_active m topic unsubscribe env.refusal).symm.trans h
  | publishEntered =>
    refine ⟨id, id, .inr ?_⟩
    dsimp only [MqttThread.step, mqttPublishLocked] at h
    split_ifs at h
    · exact h
    · exact (henqueue _ _).symm.trans h
  | terminating =>
    exact ⟨id, id, .inr (congrArg MqttClient.commandActive
      (mqttEnqueue_terminate m env.refusal).2.2 ▸ h)⟩
  | connectEntered | connectReleasing _ _ _ | connectFailed _ | connectCancelling _ _
    | disconnectAborting _ _ | stopProcessEntered | stopProcessChecked | leaving _ | returned _ =>
    dsimp only [MqttThread.step, mqttBeginConnect, mqttReleaseConnectReservation,
      mqttCancelConnectAttempt, mqttAbortDisconnect] at h
    first
      | exact ⟨id, id, .inr h⟩
      | split_ifs at h <;> exact ⟨id, id, .inr h⟩

/-- Outside of `mqtt_agent_recv` the agent stays there unless it calls it. -/
theorem MqttWork.step_outside (env : MqttEnv) (m : MqttCore) {work : MqttWork} (h : ¬work.InRecv)
    (hcalls : ¬(work = .idle ∧ env.agent = .receive)) :
    (work.step env m).2.elim (fun work' => ¬work'.InRecv) fun _ => True := by
  -- Only `idle` with a call of receive enters it, which `hcalls` excludes.
  cases work with
  | idle =>
    dsimp only [MqttWork.step]
    cases hagent : env.agent with
    | receive => exact absurd ⟨rfl, hagent⟩ hcalls
    | complete k info =>
      dsimp only
      cases m.taken[k]? <;> exact id
    | deliver hasCallback =>
      dsimp only [mqttCallbackEnter]
      split_ifs <;> exact id
    | quit status => exact trivial
  | receiving | dropping op | dropped => exact absurd trivial h
  | completing op info =>
    dsimp only [MqttWork.step, mqttAgentCommandComplete]
    cases op.type with
    | connect =>
      dsimp only
      split_ifs <;> exact id
    | disconnect | publish | subscribe | unsubscribe => exact id
  | replaying replay =>
    dsimp only [MqttWork.step]
    rcases replay.step env m with ⟨m', _ | replay'⟩ <;> exact id
  | leaving | delivering => exact id

/-- A round of `mqtt_agent_recv` that returns leaves it. -/
theorem mqttAgentRecv_outside {m : MqttCore} (h : m.RecvReturns) :
    (mqttAgentRecv m).2.elim True fun work => ¬work.InRecv := by
  obtain ⟨client, queue, taken⟩ := m
  cases queue with
  | nil => exact id
  | cons command queue =>
    cases command with
    | terminate => exact trivial
    | operation op =>
      have hvalid : mqttCommandValid client op = true := h
      dsimp only [mqttAgentRecv]
      rw [if_pos hvalid]
      exact id

/-- The agent in a command goes on there, and one that gets control back begins to. -/
theorem MqttThread.step_inCommand (env : MqttEnv) (m : MqttCore) (thread : MqttThread)
    (h : thread.Receives m ∨ thread.InCommand) (hreleases : ¬thread.Releases)
    (hcalls : ¬thread.Calls env) (hcancel : ¬thread.CancelFails) :
    (thread.step env m).2.InCommand := by
  cases thread with
  -- The process call and the cancellation run the same work; `hout` says it stays outside.
  | process pc =>
    cases pc with
    | looping work =>
      have hout : (work.step env m).2.elim (fun work' => ¬work'.InRecv) fun _ => True := by
        -- Either this receive hands a command out, or the thread already had one.
        rcases h with hreceives | hcommand
        · cases work with
          | receiving =>
            have hrecv := mqttAgentRecv_outside hreceives
            dsimp only [MqttWork.step]
            rcases heq : mqttAgentRecv m with ⟨m', _ | work'⟩ <;> rw [heq] at hrecv <;> exact hrecv
          | _ => exact hreceives.elim
        · refine MqttWork.step_outside env m hcommand ?_
          rintro ⟨rfl, hreceive⟩
          exact hcalls hreceive
      dsimp only [MqttThread.step, MqttProcess.step]
      rcases heq : work.step env m with ⟨m', work' | status⟩ <;> rw [heq] at hout <;> exact hout
    -- The loop ended by its release, which `hreleases` excludes.
    | looped status => exact absurd trivial hreleases
    -- No other point of the call is in a command.
    | _ => exact (h.elim id id).elim
  | deinit pc =>
    cases pc with
    | cancelling work =>
      have hout : (mqttAgentCancel env m work).2.elim (fun work' => ¬work'.InRecv)
          fun _ => True := by
        -- The cancellation runs the work of the agent, so the same two cases.
        rcases h with hreceives | hcommand
        · cases work with
          | receiving =>
            have hrecv := mqttAgentRecv_outside hreceives
            dsimp only [mqttAgentCancel]
            rcases heq : mqttAgentRecv m with ⟨m', _ | work'⟩ <;> rw [heq] at hrecv
            · exact id
            · exact hrecv
          | _ => exact hreceives.elim
        · have hstep := MqttWork.step_outside env m hcommand (by
            rintro ⟨rfl, hreceive⟩
            exact hcalls hreceive)
          cases work with
          | idle =>
            unfold mqttAgentCancel
            -- In a cancellation the callback is not entered.
            cases hagent : env.agent with
            | deliver hasCallback => exact id
            | receive | complete k info | quit status => exact hstep
          | receiving => exact absurd trivial hcommand
          | _ => exact hstep
      dsimp only [MqttThread.step, MqttDeinit.step]
      rcases heq : mqttAgentCancel env m work with ⟨m', work' | status⟩ <;> rw [heq] at hout <;>
        exact hout
    -- Behind a cancellation that went well the command is held until the release.
    | cancelled status =>
      have hsuccess : status = .success := not_not.mp hcancel
      dsimp only [MqttThread.step, MqttDeinit.step]
      rw [if_pos hsuccess]
      exact trivial
    | releasing => exact absurd trivial hreleases
    | _ => exact (h.elim id id).elim
  | _ => exact (h.elim id id).elim

/-- A process call that resumes inside receive is in its loop. -/
theorem MqttThread.loops_of_resumes {thread : MqttThread} (h : thread.ResumesInRecv) :
    thread.loops = true := by
  cases thread with
  | process pc =>
    cases pc with
    | resuming generation sessionPresent work => rfl
    | _ => exact h.elim
  | _ => exact h.elim

/-- Only the mark of a run leads into the process loop. -/
theorem MqttThread.step_loops_false {env : MqttEnv} {m : MqttCore} {thread : MqttThread}
    (h : thread.loops = false) (hentered : thread ≠ .process .entered) :
    (thread.step env m).2.loops = false := by
  have hstep := thread.step_loop env m
  generalize (thread.step env m).1 = m' at hstep
  generalize (thread.step env m).2 = thread' at hstep
  -- By what an access can do to the flags.
  cases hstep with
  | quiet _ _ _ hloops => rw [hloops, h]
  | started _ _ => exact absurd rfl hentered
  | stopped result => rfl
  | requested => split_ifs <;> rfl
  | terminate result => rfl
  | closing _ => rfl
  | deinit pc pc' _ _ _ _ => rfl
  | returned pc result _ _ => rfl

/-- A thread inside receive executes no command. -/
theorem MqttThread.not_inCommand_of_inRecv {thread : MqttThread} (h : thread.InRecv) :
    ¬thread.InCommand := by
  cases thread with
  | process pc =>
    cases pc with
    | looping work => exact fun hcommand => hcommand h
    | _ => exact h.elim
  | deinit pc =>
    cases pc with
    | cancelling work => exact fun hcommand => hcommand h
    | _ => exact h.elim
  | _ => exact h.elim

/-- A session is resumed without a call of `mqtt_agent_recv`. -/
theorem MqttThread.step_resumes (env : MqttEnv) (m : MqttCore) {thread : MqttThread}
    (h : ¬thread.ResumesInRecv) : ¬(thread.step env m).2.ResumesInRecv := by
  cases thread with
  | process pc =>
    cases pc with
    | resuming generation sessionPresent work =>
      dsimp only [MqttThread.step, MqttProcess.step]
      split_ifs with hwait
      · exact h
      · -- A session that resumes waits where coreMQTT would receive.
        have hout := MqttWork.step_outside env m h (by
          rintro ⟨hidle, hreceive⟩
          exact hwait ⟨hidle, by rw [hreceive]; rfl⟩)
        rcases heq : work.step env m with ⟨m', work' | status⟩ <;> rw [heq] at hout
        · exact hout
        · dsimp only
          split_ifs
          · exact id
          · cases mqttStatusToErr status <;> exact id
    -- Leaving the loop or going on in it, the process does not resume a session.
    | looping work =>
      dsimp only [MqttThread.step, MqttProcess.step]
      rcases work.step env m with ⟨m', work' | status⟩ <;> exact id
    | replaying replay =>
      dsimp only [MqttThread.step, MqttProcess.step]
      rcases replay.step env m with ⟨m', _ | replay'⟩ <;> exact id
    | connecting generation =>
      dsimp only [MqttThread.step, MqttProcess.step]
      split_ifs
      · exact id
      · cases mqttStatusToErr env.status <;> exact id
    | opening generation =>
      dsimp only [MqttThread.step, MqttProcess.step]
      cases env.result <;> exact id
    | _ =>
      dsimp only [MqttThread.step, MqttProcess.step, mqttApiEnter, mqttMarkProcessStarted]
      try split_ifs
      all_goals exact id
  | _ =>
    -- a call that is not in the process loop does not get into it
    intro hresumes
    have hloops := MqttThread.loops_of_resumes hresumes
    rw [MqttThread.step_loops_false rfl MqttThread.noConfusion] at hloops
    exact Bool.false_ne_true hloops

/-! ### Runs of the loop and deinits -/

section Marks

variable {m m' : MqttCore} {thread thread' : MqttThread} {others : ℕ}

/-- `process_running` counts the calls in a run of the process loop. -/
theorem LoopStep.counts_loops (h : LoopStep m thread m' thread')
    (hcount : (others + if thread.loops = true then 1 else 0) = m.client.processRunning.toNat) :
    (others + if thread'.loops = true then 1 else 0) = m'.client.processRunning.toNat := by
  cases h with
  | quiet hquiet _ _ hsame => rw [hsame, hcount, hquiet.running]
  | started hidle _ =>
    rw [hidle] at hcount
    exact congrArg (· + 1) hcount
  | stopped result =>
    -- the call was the only one
    have hle := Bool.toNat_le m.client.processRunning
    have hone : others + 1 = m.client.processRunning.toNat := hcount
    show others = 0
    omega
  | requested =>
    rw [← show others = m.client.processRunning.toNat from hcount]
    split_ifs <;> first | rfl | contradiction
  | terminate result => exact hcount
  | closing _ => exact hcount
  | deinit pc pc' _ hrunning _ _ => rw [hrunning]; exact hcount
  | returned pc result _ hrunning => rw [hrunning]; exact hcount

/-- `deinit_inflight` lets one deinit in at a time. -/
theorem LoopStep.counts_deinits (h : LoopStep m thread m' thread')
    (hcount : (others + if thread.deinits = true then 1 else 0) ≤ m.client.deinitInflight.toNat) :
    (others + if thread'.deinits = true then 1 else 0) ≤ m'.client.deinitInflight.toNat := by
  have hle := Bool.toNat_le m.client.deinitInflight
  -- A new deinit is counted and finds nobody in; the one that returns takes its count with it.
  cases h with
  | quiet hquiet _ hno _ =>
    rw [hno, hquiet.deinit]
    exact (Nat.le_add_right _ _).trans hcount
  | started _ _ => exact hcount
  | stopped result => exact hcount
  | requested =>
    refine le_trans ?_ hcount
    split_ifs <;> first | exact le_rfl | contradiction
  | terminate result => exact hcount
  | closing hfree =>
    rw [hfree] at hcount
    exact Nat.add_le_add_right hcount 1
  | deinit pc pc' _ _ hinflight _ => rw [hinflight]; exact hcount
  | returned pc result _ _ =>
    have hone : others + 1 ≤ m.client.deinitInflight.toNat := hcount
    have hzero : others = 0 := by omega
    rw [hzero]
    exact Nat.zero_le _

/-- Once the client is closing it stays so, and no process loop begins. -/
theorem LoopStep.stays_closed (h : LoopStep m thread m' thread') :
    (m.client.lifecycle = .closing → m'.client.lifecycle = .closing) ∧
      (m.client.lifecycle = .closing → m.client.processRunning = false →
        m'.client.processRunning = false) := by
  -- The client stays closing, and the loop cannot start any more.
  cases h with
  | quiet hquiet _ _ _ =>
    rw [hquiet.lifecycle, hquiet.running]
    exact ⟨id, fun _ => id⟩
  | started _ hopen =>
    rw [hopen]
    exact ⟨MqttLifecycle.noConfusion, MqttLifecycle.noConfusion⟩
  | stopped result => exact ⟨id, fun _ _ => rfl⟩
  | requested => exact ⟨id, fun _ => id⟩
  | terminate result => exact ⟨id, fun _ => id⟩
  | closing _ => exact ⟨fun _ => rfl, fun _ => id⟩
  | deinit pc pc' hlifecycle hrunning _ _ =>
    rw [hlifecycle, hrunning]
    exact ⟨id, fun _ => id⟩
  | returned pc result hlifecycle hrunning =>
    rw [hlifecycle, hrunning]
    exact ⟨id, fun _ => id⟩

/-- A deinit has closed the client, -/
theorem LoopStep.deinit_closing {pc' : MqttDeinit} (h : LoopStep m thread m' (.deinit pc'))
    (hclosing : ∀ pc, thread = .deinit pc → m.client.lifecycle = .closing) :
    m'.client.lifecycle = .closing := by
  generalize hthread' : MqttThread.deinit pc' = thread' at h
  cases h with
  | quiet _ _ hno _ => rw [← hthread'] at hno; cases hno
  | closing _ => rfl
  | deinit pc _ hlifecycle _ _ _ => exact hlifecycle.trans (hclosing pc rfl)
  | requested => split_ifs at hthread'
  | started _ _ | stopped _ | terminate _ | returned _ _ _ _ => cases hthread'

/-- and gets to the claim when no process loop runs. -/
theorem LoopStep.deinit_stopped {pc' : MqttDeinit} (h : LoopStep m thread m' (.deinit pc'))
    (hstopped : ∀ pc, thread = .deinit pc → pc.cancels = true → m.client.processRunning = false)
    (hcancels : pc'.cancels = true) : m'.client.processRunning = false := by
  generalize hthread' : MqttThread.deinit pc' = thread' at h
  cases h with
  | quiet _ _ hno _ => rw [← hthread'] at hno; cases hno
  | closing _ => cases hthread'; cases hcancels
  | deinit pc _ _ hrunning _ hcancel =>
    cases hthread'
    exact hrunning.trans ((hcancel hcancels).elim (hstopped pc rfl) id)
  | requested => split_ifs at hthread'
  | started _ _ | stopped _ | terminate _ | returned _ _ _ _ => cases hthread'

/-- Where at most one element meets a condition, two that meet it are the same. -/
theorem eq_of_countP_le_one {α : Type} {p : α → Bool} {xs : List α} {x y : α}
    (h : xs.countP p ≤ 1) (hx : x ∈ xs) (hpx : p x = true) (hy : y ∈ xs) (hpy : p y = true) :
    x = y := by
  rw [List.countP_eq_length_filter] at h
  obtain ⟨z, hz⟩ : ∃ z, ∀ w ∈ xs.filter p, w = z := by
    rcases hfilter : xs.filter p with _ | ⟨z, _ | ⟨w, rest⟩⟩
    · exact ⟨x, fun w hw => absurd hw List.not_mem_nil⟩
    · exact ⟨z, fun w hw => List.mem_singleton.mp hw⟩
    · rw [hfilter] at h
      simp only [List.length_cons] at h
      omega
  rw [hz x (List.mem_filter.mpr ⟨hx, hpx⟩), hz y (List.mem_filter.mpr ⟨hy, hpy⟩)]

end Marks

/-! ### Runs -/

/-- What happens to operation objects and to the claim. -/
inductive MqttObjectEvent where
  | allocate (op : MqttOperation)
  | free (op : MqttOperation)
  /-- The agent calls `mqtt_agent_recv`. -/
  | called
  /-- The agent has got control from `mqtt_agent_recv`. -/
  | received
  /-- The loop of the agent has ended. -/
  | ended

/-- The operations allocated in the history, in order. -/
def allocations (h : List MqttObjectEvent) : List MqttOperation :=
  h.filterMap fun e => match e with
    | .allocate op => some op
    | _ => none

/-- The operations freed in the history, in order. -/
def frees (h : List MqttObjectEvent) : List MqttOperation :=
  h.filterMap fun e => match e with
    | .free op => some op
    | _ => none

/-- Allocations of a longer history. -/
theorem allocations_append (h h' : List MqttObjectEvent) :
    allocations (h ++ h') = allocations h ++ allocations h' := List.filterMap_append

/-- Frees of a longer history. -/
theorem frees_append (h h' : List MqttObjectEvent) : frees (h ++ h') = frees h ++ frees h' :=
  List.filterMap_append

/-- What a step says of the claim. -/
def MqttThread.marks (env : MqttEnv) (m : MqttCore) (thread : MqttThread) : List MqttObjectEvent :=
  if thread.Releases then [.ended]
  else if thread.Calls env then [.called]
  else if thread.Receives m then [.received]
  else []

/-- What a step of a call does to objects and to the claim, in this order. -/
def MqttThread.objectEvents (env : MqttEnv) (m : MqttCore) (thread : MqttThread) :
    List MqttObjectEvent :=
  (thread.allocates m.client).map .allocate ++ (thread.ends env m).map .free ++ thread.marks env m

/-- The marks of the claim are neither. -/
theorem MqttThread.marks_objects (env : MqttEnv) (m : MqttCore) (thread : MqttThread) :
    allocations (thread.marks env m) = [] ∧ frees (thread.marks env m) = [] := by
  unfold MqttThread.marks
  constructor <;> split_ifs <;> rfl

/-- A step's events list what it allocated and what it freed. -/
theorem objects_objects (allocated freed : List MqttOperation) :
    allocations (allocated.map .allocate ++ freed.map .free) = allocated ∧
      frees (allocated.map .allocate ++ freed.map .free) = freed := by
  constructor
  · rw [allocations_append, allocations, allocations, List.filterMap_map, List.filterMap_map]
    show allocated.filterMap some ++ freed.filterMap (fun _ => none) = allocated
    rw [List.filterMap_some, List.filterMap_none, List.append_nil]
  · rw [frees_append, frees, frees, List.filterMap_map, List.filterMap_map]
    show allocated.filterMap (fun _ => none) ++ freed.filterMap some = freed
    rw [List.filterMap_some, List.filterMap_none, List.nil_append]

/-- The allocations among a thread's events. -/
theorem MqttThread.allocations_objectEvents (env : MqttEnv) (m : MqttCore) (thread : MqttThread) :
    allocations (thread.objectEvents env m) = thread.allocates m.client := by
  unfold MqttThread.objectEvents
  rw [allocations_append, (thread.marks_objects env m).1, (objects_objects _ _).1, List.append_nil]

/-- The frees among a thread's events. -/
theorem MqttThread.frees_objectEvents (env : MqttEnv) (m : MqttCore) (thread : MqttThread) :
    frees (thread.objectEvents env m) = thread.ends env m := by
  unfold MqttThread.objectEvents
  rw [frees_append, (thread.marks_objects env m).2, (objects_objects _ _).2, List.append_nil]

namespace MqttSystem

variable {s : MqttSystem} {past : List MqttObjectEvent}

/-- The events of an action: those of the thread that takes its access. -/
def objectEvents (s : MqttSystem) : MqttAction → List MqttObjectEvent
  | .start _ => []
  | .advance k env =>
    match s.threads[k]? with
    | none => []
    | some thread => thread.objectEvents env s.core

/-- The objects that have not ended. -/
def inHands (s : MqttSystem) : List MqttOperation :=
  s.core.operations ++ s.threads.flatMap MqttThread.completed

/-- The objects whose completion has not been left. -/
def unfinished (s : MqttSystem) : ℕ :=
  s.core.operations.length + (s.threads.map MqttThread.unfinished).sum

/-- `MQTTAgent_CancelAll` succeeds, as it does for a context that has been initialised. -/
def CancelSucceeds (s : MqttSystem) (a : MqttAction) : Prop :=
  ∀ thread ∈ s.acting a, ¬thread.CancelFails

instance (s : MqttSystem) (a : MqttAction) : Decidable (s.CancelSucceeds a) :=
  inferInstanceAs (Decidable (∀ thread ∈ s.acting a, ¬thread.CancelFails))

/-- The books of the operations: `past` is what has happened to objects so far. -/
structure Accounted (past : List MqttObjectEvent) (s : MqttSystem) : Prop where
  inflight : s.core.client.operationInflight = s.unfinished
  objects : (allocations past).Perm (frees past ++ s.inHands)
  /-- Some agent has control, outside of `mqtt_agent_recv`. -/
  active : s.core.client.commandActive = true → ∃ thread ∈ s.threads, thread.InCommand
  /-- It has received control, and has neither called `mqtt_agent_recv` again nor ended its loop. -/
  claimed : s.core.client.commandActive = true →
    ∃ before since, past = before ++ .received :: since ∧ .called ∉ since ∧ .ended ∉ since
  resumes : ∀ thread ∈ s.threads, ¬thread.ResumesInRecv

/-- Nothing is allocated at the start. -/
theorem accounted_initial : Accounted [] .initial where
  inflight := rfl
  objects := .refl _
  active := nofun
  claimed := nofun
  resumes := fun _ hmem => absurd hmem List.not_mem_nil

/-- The threads around the one that takes its access. -/
theorem threads_split {threads : List MqttThread} {k : ℕ} {thread : MqttThread}
    (h : threads[k]? = some thread) : ∃ before after, threads = before ++ thread :: after ∧
      ∀ thread', threads.set k thread' = before ++ thread' :: after := by
  obtain ⟨hlt, rfl⟩ := List.getElem?_eq_some_iff.mp h
  refine ⟨threads.take k, threads.drop (k + 1), ?_, fun thread' => ?_⟩
  · rw [← List.drop_eq_getElem_cons hlt, List.take_append_drop]
  · rw [List.set_eq_take_append_cons_drop, if_pos hlt]

/-! ### One agent -/

/-- At most one process loop runs and one deinit is under way, and the deinit cancels only when no
process loop runs. -/
structure OneAgent (s : MqttSystem) : Prop where
  loops : s.threads.countP MqttThread.loops = s.core.client.processRunning.toNat
  deinits : s.threads.countP MqttThread.deinits ≤ s.core.client.deinitInflight.toNat
  closing : ∀ pc, .deinit pc ∈ s.threads → s.core.client.lifecycle = .closing
  cancels : ∀ pc, .deinit pc ∈ s.threads → pc.cancels = true →
    s.core.client.processRunning = false

/-- No loop runs and no deinit at the start. -/
theorem oneAgent_initial : OneAgent .initial where
  loops := rfl
  deinits := le_rfl
  closing := fun _ hmem => absurd hmem List.not_mem_nil
  cancels := fun _ hmem => absurd hmem List.not_mem_nil

/-- A new call is neither in the loop nor in deinit. -/
theorem OneAgent.start (h : s.OneAgent) (api : MqttCall) : (s.step (.start api)).2.OneAgent := by
  have hold {pc : MqttDeinit} (hmem : .deinit pc ∈ s.threads ++ [MqttThread.call api]) :
      .deinit pc ∈ s.threads := by
    rcases List.mem_append.mp hmem with hmem | hmem
    · exact hmem
    · cases List.mem_singleton.mp hmem
  -- The counts over one thread more, which counts nothing.
  refine ⟨?_, ?_, fun pc hmem => h.closing pc (hold hmem), fun pc hmem => h.cancels pc (hold hmem)⟩
  · show (s.threads ++ [MqttThread.call api]).countP MqttThread.loops = _
    rw [List.countP_append, h.loops]
    rfl
  · show (s.threads ++ [MqttThread.call api]).countP MqttThread.deinits ≤ _
    rw [List.countP_append]
    exact h.deinits

/-- The thread that takes its access keeps the counts, by what `LoopStep` allows. -/
theorem OneAgent.advance (h : s.OneAgent) {k : ℕ} {thread : MqttThread} {env : MqttEnv}
    (hk : s.threads[k]? = some thread) : (s.step (.advance k env)).2.OneAgent := by
  -- What a step does to loop and deinit is `step_loop`; the state is then generalised away.
  have hstep := thread.step_loop env s.core
  have hmem : thread ∈ s.threads := List.mem_of_getElem? hk
  obtain ⟨before, after, hthreads, hset⟩ := threads_split hk
  rw [step_advance hk]
  generalize (thread.step env s.core).1 = m' at hstep
  generalize (thread.step env s.core).2 = thread' at hstep
  obtain ⟨hclosing, hstopped⟩ := hstep.stays_closed
  -- The counts of the others stay; the thread's own change is `counts_loops` and `counts_deinits`.
  refine ⟨?_, ?_, fun pc hpc => ?_, fun pc hpc hcancels => ?_⟩
  · have hloops := h.loops
    rw [hthreads, List.countP_append, List.countP_cons, ← Nat.add_assoc] at hloops
    show (s.threads.set k thread').countP MqttThread.loops = _
    rw [hset, List.countP_append, List.countP_cons, ← Nat.add_assoc]
    exact hstep.counts_loops hloops
  · have hdeinits := h.deinits
    rw [hthreads, List.countP_append, List.countP_cons, ← Nat.add_assoc] at hdeinits
    show (s.threads.set k thread').countP MqttThread.deinits ≤ _
    rw [hset, List.countP_append, List.countP_cons, ← Nat.add_assoc]
    exact hstep.counts_deinits hdeinits
  · -- A deinit that was there stays closing; a new one began by closing.
    rcases List.mem_or_eq_of_mem_set hpc with hpc | rfl
    · exact hclosing (h.closing pc hpc)
    · refine hstep.deinit_closing ?_
      rintro pc₀ rfl
      exact h.closing pc₀ hmem
  · -- A cancelling deinit has found the loop stopped, and closed clients start none.
    rcases List.mem_or_eq_of_mem_set hpc with hpc | rfl
    · exact hstopped (h.closing pc hpc) (h.cancels pc hpc hcancels)
    · refine hstep.deinit_stopped ?_ hcancels
      rintro pc₀ rfl hcancels₀
      exact h.cancels pc₀ hmem hcancels₀

/-- Every step keeps it. -/
theorem OneAgent.step (h : s.OneAgent) (a : MqttAction) : (s.step a).2.OneAgent := by
  cases a with
  | start api => exact h.start api
  | advance k env =>
    cases hk : s.threads[k]? with
    | none => simpa only [MqttSystem.step, hk] using h
    | some thread => exact h.advance hk

/-- Two agents are the same call: one in `mqtt_agent_recv` is not the one with the claim. -/
theorem OneAgent.not_both (h : s.OneAgent) {thread thread' : MqttThread}
    (hmem : thread ∈ s.threads) (hrecv : thread.InRecv) (hmem' : thread' ∈ s.threads)
    (hcommand : thread'.InCommand) : False := by
  -- One thread is not at both places, so the two are different threads.
  have hne : thread ≠ thread' := by
    rintro rfl
    exact thread.not_inCommand_of_inRecv hrecv hcommand
  -- Both places are inside the process loop or inside a cancelling deinit.
  have hplace (t : MqttThread) (ht : t.InRecv ∨ t.InCommand) :
      t.loops = true ∨ ∃ pc, t = .deinit pc ∧ pc.cancels = true := by
    cases t with
    | process pc =>
      cases pc with
      | looping work => exact .inl rfl
      | looped status => exact .inl rfl
      | _ => exact (ht.elim id id).elim
    | deinit pc =>
      cases pc with
      | cancelling work => exact .inr ⟨_, rfl, rfl⟩
      | cancelled status => exact .inr ⟨_, rfl, rfl⟩
      | releasing => exact .inr ⟨_, rfl, rfl⟩
      | _ => exact (ht.elim id id).elim
    | _ => exact (ht.elim id id).elim
  -- a process loop runs, and a deinit has found that none does
  have hstopped {t : MqttThread} {pc : MqttDeinit} (ht : t ∈ s.threads) (hloops : t.loops = true)
      (hpc : .deinit pc ∈ s.threads) (hcancels : pc.cancels = true) : False := by
    have hpos : 0 < s.threads.countP MqttThread.loops := List.countP_pos_iff.mpr ⟨t, ht, hloops⟩
    rw [h.loops, h.cancels pc hpc hcancels] at hpos
    exact Nat.lt_irrefl 0 hpos
  have hone : s.threads.countP MqttThread.loops ≤ 1 := h.loops ▸ Bool.toNat_le _
  -- Two loops, or two deinits, contradict the counts; one of each contradicts the stop.
  rcases hplace thread (.inl hrecv) with hloops | ⟨pc, rfl, hcancels⟩
  · rcases hplace thread' (.inr hcommand) with hloops' | ⟨pc', rfl, hcancels'⟩
    · exact hne (eq_of_countP_le_one hone hmem hloops hmem' hloops')
    · exact hstopped hmem hloops hmem' hcancels'
  · rcases hplace thread' (.inr hcommand) with hloops' | ⟨pc', rfl, hcancels'⟩
    · exact hstopped hmem' hloops' hmem hcancels
    · exact hne (eq_of_countP_le_one (h.deinits.trans (Bool.toNat_le _)) hmem rfl hmem' rfl)

/-! ### The books -/

/-- A new call carries no operation. -/
theorem Accounted.start (h : Accounted past s) (api : MqttCall) :
    Accounted (past ++ []) (s.step (.start api)).2 := by
  rw [List.append_nil]
  refine ⟨?_, ?_, ?_, h.claimed, ?_⟩
  · show s.core.client.operationInflight
      = _ + ((s.threads ++ [MqttThread.call api]).map MqttThread.unfinished).sum
    rw [List.map_append, List.sum_append]
    exact h.inflight
  · show (allocations past).Perm (frees past ++
      (s.core.operations ++ (s.threads ++ [MqttThread.call api]).flatMap MqttThread.completed))
    rw [List.flatMap_append]
    show (allocations past).Perm
      (frees past ++ (s.core.operations ++ (s.threads.flatMap MqttThread.completed ++ [])))
    rw [List.append_nil]
    exact h.objects
  · intro hactive
    obtain ⟨thread, hmem, hcommand⟩ := h.active hactive
    exact ⟨thread, List.mem_append_left _ hmem, hcommand⟩
  · intro thread hmem
    rcases List.mem_append.mp hmem with hmem | hmem
    · exact h.resumes thread hmem
    · rw [List.mem_singleton.mp hmem]
      exact id

/-- The access of a thread moves operations as `Tallied` says. -/
theorem Accounted.advance (h : Accounted past s) {k : ℕ} {thread : MqttThread} {env : MqttEnv}
    (hk : s.threads[k]? = some thread) (ha : ¬thread.CancelFails) :
    Accounted (past ++ thread.objectEvents env s.core) (s.step (.advance k env)).2 := by
  have htallies := thread.step_tallies env s.core ha
  have hresumes := h.resumes thread (List.mem_of_getElem? hk)
  have hstep := thread.step_active env s.core hresumes
  have hstays := MqttThread.step_inCommand env s.core thread
  have hresumes' := MqttThread.step_resumes env s.core hresumes
  obtain ⟨before, after, hthreads, hset⟩ := threads_split hk
  rw [step_advance hk]
  generalize thread.step env s.core = out at htallies hstep hstays hresumes' ⊢
  obtain ⟨m', thread'⟩ := out
  refine ⟨?_, ?_, ?_, ?_, ?_⟩
  · -- The count: the step moves it by what the thread gained and lost.
    have hinflight := htallies.inflight
      ((before.map MqttThread.unfinished).sum + (after.map MqttThread.unfinished).sum) (by
        rw [h.inflight, unfinished, hthreads, List.map_append, List.sum_append, List.map_cons,
          List.sum_cons]
        omega)
    show m'.client.operationInflight
      = m'.operations.length + ((s.threads.set k thread').map MqttThread.unfinished).sum
    rw [hset, List.map_append, List.sum_append, List.map_cons, List.sum_cons, hinflight]
    dsimp only
    omega
  · -- The objects: what the thread allocated is queued, taken, completed or freed.
    have hobjects := h.objects
    have hmoved := htallies.objects
    rw [inHands, hthreads, List.flatMap_append, List.flatMap_cons] at hobjects
    show (allocations _).Perm (frees _ ++
      (m'.operations ++ (s.threads.set k thread').flatMap MqttThread.completed))
    rw [hset, List.flatMap_append, List.flatMap_cons, allocations_append, frees_append,
      thread.allocations_objectEvents, thread.frees_objectEvents]
    -- As multisets the balance is one equation, and the step's own balance rewrites it.
    rw [← Multiset.coe_eq_coe] at hobjects hmoved ⊢
    simp only [← Multiset.coe_add] at hobjects hmoved ⊢
    rw [hobjects]
    calc
      _ = (↑(frees past) + (↑(before.flatMap MqttThread.completed) +
            ↑(after.flatMap MqttThread.completed)) : Multiset MqttOperation) +
            (↑s.core.operations + ↑thread.completed + ↑(thread.allocates s.core.client)) := by abel
      _ = (↑(frees past) + (↑(before.flatMap MqttThread.completed) +
            ↑(after.flatMap MqttThread.completed)) : Multiset MqttOperation) +
            (↑m'.operations + ↑thread'.completed + ↑(thread.ends env s.core)) := by rw [hmoved]
      _ = _ := by abel
  · -- The flag: who was in the command before still is, or this thread claimed it.
    intro hactive
    obtain ⟨hreleases, hcalls, hreceives⟩ := hstep hactive
    show ∃ t ∈ s.threads.set k thread', t.InCommand
    rw [hset]
    have hhere : thread.Receives s.core ∨ thread.InCommand →
        ∃ t ∈ before ++ thread' :: after, t.InCommand := fun hin =>
      ⟨thread', List.mem_append_right _ List.mem_cons_self, hstays hin hreleases hcalls ha⟩
    rcases hreceives with hreceives | hbefore
    · exact hhere (.inl hreceives)
    · obtain ⟨t, hmem, hcommand⟩ := h.active hbefore
      rw [hthreads] at hmem
      rcases List.mem_append.mp hmem with hmem | hmem
      · exact ⟨t, List.mem_append_left _ hmem, hcommand⟩
      · rcases List.mem_cons.mp hmem with rfl | hmem
        · exact hhere (.inr hcommand)
        · exact ⟨t, List.mem_append_right _ (List.mem_cons_of_mem _ hmem), hcommand⟩
  · -- The claim behind the flag: made by this step, or still the last one before it.
    intro hactive
    obtain ⟨hreleases, hcalls, hreceives⟩ := hstep hactive
    unfold MqttThread.objectEvents MqttThread.marks
    rw [if_neg hreleases, if_neg hcalls]
    by_cases hr : thread.Receives s.core
    · rw [if_pos hr, ← List.append_assoc]
      exact ⟨_, [], rfl, List.not_mem_nil, List.not_mem_nil⟩
    · rw [if_neg hr, List.append_nil]
      obtain ⟨pre, since, hpast, hcalled, hended⟩ := h.claimed (hreceives.resolve_left hr)
      rw [hpast, List.append_assoc, List.cons_append]
      -- the step speaks of objects only
      have hobjects {e : MqttObjectEvent} (he : e = .called ∨ e = .ended) :
          e ∉ (thread.allocates s.core.client).map MqttObjectEvent.allocate ++
            (thread.ends env s.core).map .free := by
        intro hmem
        rcases List.mem_append.mp hmem with hmem | hmem
        · obtain ⟨op, -, rfl⟩ := List.mem_map.mp hmem
          exact he.elim MqttObjectEvent.noConfusion MqttObjectEvent.noConfusion
        · obtain ⟨op, -, rfl⟩ := List.mem_map.mp hmem
          exact he.elim MqttObjectEvent.noConfusion MqttObjectEvent.noConfusion
      refine ⟨pre, _, rfl, fun hmem => ?_, fun hmem => ?_⟩
      · exact (List.mem_append.mp hmem).elim hcalled (hobjects (.inl rfl))
      · exact (List.mem_append.mp hmem).elim hended (hobjects (.inr rfl))
  · -- No thread of the new list is inside a receive while it resumes.
    intro t hmem
    rcases List.mem_or_eq_of_mem_set hmem with hmem | rfl
    · exact h.resumes t hmem
    · exact hresumes'

/-- Every step whose cancellation does not fail keeps the accounts. -/
theorem Accounted.step (h : Accounted past s) {a : MqttAction} (ha : s.CancelSucceeds a) :
    Accounted (past ++ s.objectEvents a) (s.step a).2 := by
  cases a with
  | start api => exact h.start api
  | advance k env =>
    cases hk : s.threads[k]? with
    | none => simpa only [objectEvents, MqttSystem.step, hk, List.append_nil] using h
    | some thread =>
      simp only [objectEvents, hk]
      exact h.advance hk (ha thread hk)

/-- An object that has not ended is one whose completion has not been left. -/
theorem inHands_of_unfinished (h : s.unfinished = 0) : s.inHands = [] := by
  obtain ⟨hoperations, hthreads⟩ := Nat.add_eq_zero_iff.mp h
  rw [inHands, List.eq_nil_of_length_eq_zero hoperations, List.nil_append,
    List.flatMap_eq_nil_iff]
  -- The ring and coreMQTT are empty, so what is left are the threads' own.
  intro thread hmem
  have hzero : thread.unfinished = 0 :=
    List.sum_eq_zero_iff_forall_eq_nat.mp hthreads _ (List.mem_map_of_mem hmem)
  have hwork : ∀ work : MqttWork, work.unfinished = 0 → work.completed = [] := by
    intro work hw
    cases work <;> first | rfl | exact absurd hw Nat.one_ne_zero
  -- A thread without an unfinished operation has none in its callback.
  cases thread with
  | process pc =>
    cases pc with
    | looping work => exact hwork work hzero
    | resuming _ _ work => exact hwork work hzero
    | _ => rfl
  | deinit pc =>
    cases pc with
    | cancelling work => exact hwork work hzero
    | _ => rfl
  | _ => rfl

/-- What a step hands to the agent fits the state at that moment. -/
def HandsOver (s : MqttSystem) (a : MqttAction) : Prop :=
  (s.step a).2.core.taken.Sublist s.core.taken ∨
    ∃ op, (s.step a).2.core.taken = s.core.taken ++ [op] ∧
      mqttCommandValid s.core.client op = true

theorem handsOver {a : MqttAction} (ha : s.CancelSucceeds a) : s.HandsOver a := by
  -- A new call takes nothing, nor does a thread that is not there.
  cases a with
  | start api => exact .inl (.refl _)
  | advance k env =>
    cases hk : s.threads[k]? with
    | none =>
      refine .inl ?_
      simp only [MqttSystem.step, hk]
      exact .refl _
    | some thread =>
      unfold HandsOver
      rw [step_advance hk]
      exact (thread.step_tallies env s.core (ha thread hk)).taken

/-- **The operations are accounted for in every reachable state, and only what fits is handed to
the agent. While an agent is in `mqtt_agent_recv` no claim is held. The client is idle exactly when
no operation is left, and no call, callback, command or process loop: then every object that has
been allocated has been freed.** -/
theorem operations_accounted {actions : List MqttAction}
    (h : Meets MqttSystem.step CancelSucceeds actions .initial) :
    Accounted (history MqttSystem.step objectEvents actions .initial)
        (run MqttSystem.step actions .initial).2 ∧
      (∀ a, (run MqttSystem.step actions .initial).2.CancelSucceeds a →
        (run MqttSystem.step actions .initial).2.HandsOver a) ∧
      (∀ thread ∈ (run MqttSystem.step actions .initial).2.threads, thread.InRecv →
        (run MqttSystem.step actions .initial).2.core.client.commandActive = false) ∧
      (mqttLifecycleIdleLocked (run MqttSystem.step actions .initial).2.core.client = true ↔
        (run MqttSystem.step actions .initial).2.unfinished = 0 ∧
          (run MqttSystem.step actions .initial).2.core.client.apiInflight = 0 ∧
          (run MqttSystem.step actions .initial).2.core.client.callbackInflight = 0 ∧
          (run MqttSystem.step actions .initial).2.core.client.commandActive = false ∧
          (run MqttSystem.step actions .initial).2.core.client.processRunning = false) ∧
      (mqttLifecycleIdleLocked (run MqttSystem.step actions .initial).2.core.client = true →
        (allocations (history MqttSystem.step objectEvents actions .initial)).Perm
          (frees (history MqttSystem.step objectEvents actions .initial))) := by
  have haccounted := history_invariant_of_meets (I := Accounted)
    (fun past s a hI ha => hI.step ha) accounted_initial h
  -- The accounts give all but the exclusion, which needs the single agent as well.
  have hone : OneAgent (run MqttSystem.step actions .initial).2 :=
    run_invariant (I := OneAgent) (fun s a hs _ => hs.step a) oneAgent_initial h
  generalize (run MqttSystem.step actions .initial).2 = s at haccounted hone ⊢
  -- The idle test of the source, read as the count being zero.
  have hidle : mqttLifecycleIdleLocked s.core.client = true ↔ s.unfinished = 0 ∧
      s.core.client.apiInflight = 0 ∧ s.core.client.callbackInflight = 0 ∧
      s.core.client.commandActive = false ∧ s.core.client.processRunning = false := by
    rw [mqttLifecycleIdleLocked, decide_eq_true_eq, ← haccounted.inflight]
    constructor
    · rintro ⟨hapi, hcallback, hoperation, hcommand, hprocess⟩
      exact ⟨hoperation, hapi, hcallback, hcommand, hprocess⟩
    · rintro ⟨hoperation, hapi, hcallback, hcommand, hprocess⟩
      exact ⟨hapi, hcallback, hoperation, hcommand, hprocess⟩
  refine ⟨haccounted, fun a => handsOver, fun thread hmem hrecv => ?_, hidle, fun hi => ?_⟩
  · -- A thread inside receive and an active command would be two agents.
    refine Bool.eq_false_iff.mpr fun hactive => ?_
    obtain ⟨thread', hmem', hcommand⟩ := haccounted.active hactive
    exact hone.not_both hmem hrecv hmem' hcommand
  · have hobjects := haccounted.objects
    rw [inHands_of_unfinished (hidle.mp hi).1, List.append_nil] at hobjects
    exact hobjects

/-- A connect, a subscription, a lost connection and a replay. -/
theorem operations_accounted_replayed :
    Meets MqttSystem.step CancelSucceeds (acknowledgedRun ++ lossRun ++ replayRun) .initial ∧
      (run MqttSystem.step (acknowledgedRun ++ lossRun ++ replayRun)
        .initial).2.core.client.operationInflight =
        (run MqttSystem.step (acknowledgedRun ++ lossRun ++ replayRun) .initial).2.unfinished := by
  have h : Meets MqttSystem.step CancelSucceeds (acknowledgedRun ++ lossRun ++ replayRun)
      .initial := by
    decide +kernel
  exact ⟨h, (operations_accounted h).1.inflight⟩

end MqttSystem

end TrustSdk.Mqtt
