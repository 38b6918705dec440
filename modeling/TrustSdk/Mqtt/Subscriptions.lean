import TrustSdk.Mqtt.Posting

/-!
# Subscriptions over a whole run

Two promises about the subscription table, over any interleaving of calls and any behaviour of
the agent, the transport and the broker.

* **Every waiting slot has its operation.** A slot that is PENDING or UNSUB_PENDING has one
  operation in flight whose completion will move it on (`waiting_slots_served`). A call that
  takes a new generation without looking at the slots breaks this, `mqtt_begin_connect` after a
  disconnect for one: the slot then waits for good (`not_waiting_slots_served`).
* **An acknowledged topic stays.** A topic with an ACTIVE slot stays in the table until the
  broker ends the subscription (`acknowledged_topic_stays`). A replay puts the topic at risk: its
  slot is PENDING again, as if it had never been acknowledged, so a second loss drops it
  (`not_acknowledged_topic_stays`).

Both rest on the ledger: what one step posts (`MqttSystem.step_ledger`) and what an entry keeps.
-/

namespace TrustSdk.Mqtt

open Ledger Machine

namespace MqttSystem

variable {s : MqttSystem} {a : MqttAction} {topic : Topic}

/-- The ledger of a client that was just made: every slot is empty. -/
theorem ledger_initial : MqttSystem.initial.ledger = ⟨fun _ => .cleared, 0, 0, 0⟩ := rfl

/-- It is in order. -/
theorem ordered_initial : MqttSystem.initial.ledger.Ordered := by
  rw [ledger_initial]
  refine ⟨?_, ?_, Multiset.nodup_zero, ?_⟩ <;> exact fun op hop => absurd hop (Multiset.notMem_zero op)

/-- While tokens are fresh, every step keeps the ledger in order. -/
theorem ordered_step (h : s.ledger.Ordered) (hfresh : s.ledger.Fresh) :
    (s.step a).2.ledger.Ordered := by
  obtain ⟨e, hstep, -⟩ := s.step_ledger a
  exact hstep.ordered h fun _ => hfresh

/-! ### Waiting slots -/

/-- A waiting slot has one operation in flight, whose completion moves the slot on whatever it
says; and a topic that can neither be subscribed nor unsubscribed has an operation in flight. -/
structure Served (s : MqttSystem) : Prop where
  one : ∀ i, (s.core.client.subscriptions i).Waits →
    ∃ op, (s.ledger.ops.filter (s.ledger.Carries i)) = {op} ∧
      ∀ info, ¬ ((mqttAgentCommandComplete s.core op info).1.client.subscriptions i).Waits
  locked : ∀ topic,
    mqttSubscriptionReserveLocked s.core.client topic false = .error (mqttErr .already) →
    mqttSubscriptionReserveLocked s.core.client topic true =
      .error (mqttErr .mqttUnsubscribeFailed) →
    ∃ op ∈ s.inFlight, op.topic = topic

/-- The step orphans no slot: it takes a new generation only while no slot waits. -/
structure Orderly (s : MqttSystem) (a : MqttAction) : Prop where
  fresh : s.ledger.Fresh
  renew : ∀ thread ∈ s.acting a, thread.Renews s.core.client →
    ∀ i, ¬ (s.core.client.subscriptions i).Waits

instance (s : MqttSystem) (a : MqttAction) : Decidable (s.Orderly a) :=
  decidable_of_iff (s.ledger.Fresh ∧ ∀ thread ∈ s.acting a, thread.Renews s.core.client →
      ∀ i, ¬ (s.core.client.subscriptions i).Waits)
    ⟨fun h => ⟨h.1, h.2⟩, fun h => ⟨h.1, h.2⟩⟩

/-- At the start no slot waits, so each that waits is carried. -/
theorem carried_initial : MqttSystem.initial.ledger.Carried := by
  rw [ledger_initial]
  rintro i (h | h) <;> cases h

/-- Every orderly step keeps each waiting slot carried by an operation in flight. -/
theorem carried_step (h : s.ledger.Carried) (ha : s.Orderly a) :
    (s.step a).2.ledger.Carried := by
  obtain ⟨e, hstep, hwho⟩ := s.step_ledger a
  refine hstep.carried h fun he => ?_
  rcases hwho with hother | ⟨thread, hacting, hexplains⟩
  · rw [he] at hother
    cases hother
  · rw [he] at hexplains
    exact ha.renew thread hacting hexplains

/-- A topic that is in the table and cannot be unsubscribed has a slot that waits. -/
theorem waits_of_locked {mqtt : MqttClient}
    (hsub : mqttSubscriptionReserveLocked mqtt topic false = .error (mqttErr .already))
    (hunsub : mqttSubscriptionReserveLocked mqtt topic true =
      .error (mqttErr .mqttUnsubscribeFailed)) :
    ∃ i, (mqtt.subscriptions i).Waits ∧ (mqtt.subscriptions i).topic = topic := by
  unfold mqttSubscriptionReserveLocked at hsub hunsub
  cases hfind : mqttFindTopic mqtt topic with
  | none =>
    cases hfree : mqttFindFree mqtt with
    | none => simp [hfind, hfree, mqttErr] at hsub
    | some j => simp [hfind, hfree] at hsub
  -- The reserve refuses subscribe and unsubscribe alike only where the slot's command is on its
  -- way.
  | some i =>
    obtain ⟨hempty, htopic⟩ := mqttFindTopic_some hfind
    simp only [hfind] at hunsub
    split_ifs at hunsub with hactive
    refine ⟨i, ?_, htopic⟩
    cases hstate : (mqtt.subscriptions i).state with
    | empty => exact absurd hstate hempty
    | active => exact absurd hstate hactive
    | pending => exact Or.inl hstate
    | unsubPending => exact Or.inr hstate

/-- The ledger reads the operations of the queue, of coreMQTT and of the threads. -/
theorem mem_inFlight {op : MqttOperation} (h : op ∈ s.ledger.ops) : op ∈ s.inFlight := by
  rw [ledger_ops, subscriptionOps, Multiset.mem_coe] at h
  exact (List.mem_filter.mp h).1

/-- The completion of the operation that a slot waits for moves the slot on. -/
theorem moves_on {i : Fin mqttSubscriptionMax} {op : MqttOperation} (h : s.ledger.Answers i op)
    (info : MqttReturnInfo) :
    ¬ ((mqttAgentCommandComplete s.core op info).1.client.subscriptions i).Waits := by
  have htype : op.type = .subscribe ∨ op.type = .unsubscribe := by
    rw [h.type, MqttSubscriptionTopic.awaited]
    split_ifs
    · exact Or.inl rfl
    · exact Or.inr rfl
  -- Subscribe and unsubscribe complete through the same function.
  have hcomplete : (mqttAgentCommandComplete s.core op info).1.client =
      mqttSubscribeComplete s.core.client op info := by
    rcases htype with htype | htype <;> rw [mqttAgentCommandComplete, htype]
  rw [hcomplete, @mqttSubscribeComplete_eq _ _ info htype s.ledger rfl rfl]
  exact h.settles info

/-- A ledger in order whose waiting slots are carried serves every slot that waits. -/
theorem Served.of_carried (ho : s.ledger.Ordered) (hc : s.ledger.Carried) : s.Served where
  one := by
    intro i hi
    obtain ⟨op, hans, hone⟩ := hc.unique ho hi
    exact ⟨op, hone, moves_on hans⟩
  -- The slot that locks the topic is answered by the operation that carries it.
  locked := by
    intro topic hsub hunsub
    obtain ⟨i, hwaits, htopic⟩ := waits_of_locked hsub hunsub
    obtain ⟨op, hop, hans⟩ := hc i hwaits
    refine ⟨op, mem_inFlight hop, ?_⟩
    rw [← htopic, ← ho.topic op hop (by rw [hans.index, hans.token]), hans.index]
    rfl

/-- As long as no call takes a new generation while a slot waits, every waiting slot has
its operation, in every state of the run. -/
theorem waiting_slots_served {actions : List MqttAction}
    (h : Meets MqttSystem.step Orderly actions .initial) :
    Always MqttSystem.step Served actions .initial := by
  refine always_of_invariant (I := fun s => s.ledger.Ordered ∧ s.ledger.Carried)
    ?_ ?_ ⟨ordered_initial, carried_initial⟩ h
  · rintro s a ⟨ho, hc⟩ ha
    exact ⟨ordered_step ho ha.fresh, carried_step hc ha⟩
  · rintro s ⟨ho, hc⟩
    exact .of_carried ho hc

/-! Schedules for the examples of runs below. -/

/-- The agent takes its next action and everything else goes well. -/
def answer (agent : MqttAgentAction) : MqttEnv := ⟨agent, none, .success, .ok (), false, false⟩

/-- The `k`-th call takes `n` steps, and where it asks the agent, the agent returns. -/
def goOn (k n : ℕ) : List MqttAction := List.replicate n (.advance k (answer (.quit .success)))

/-- The agent in the `k`-th call calls `mqtt_agent_recv`, which pops a command. -/
def receiveRun (k : ℕ) : List MqttAction := .advance k (answer .receive) :: goOn k 1

/-- Calls 0 and 1 connect and run the process loop: the client is CONNECTED. -/
def connectRun : List MqttAction :=
  [.start .connect, .start .process] ++ goOn 0 5 ++ goOn 1 4 ++ receiveRun 1 ++
    [.advance 1 (answer (.complete 0 ⟨.success, none, true⟩))] ++ goOn 1 2 ++ goOn 0 2

/-- Call 2 subscribes, and the agent has sent the SUBSCRIBE. -/
def subscribeRun : List MqttAction :=
  connectRun ++ [.start (.subscribe [116] false)] ++ goOn 2 4 ++ receiveRun 1

/-- A subscribe under way on a reached client. -/
theorem waiting_slots_served_subscribing :
    Meets MqttSystem.step Orderly subscribeRun .initial ∧
      Always MqttSystem.step Served subscribeRun .initial := by
  have h : Meets MqttSystem.step Orderly subscribeRun .initial := by decide +kernel
  exact ⟨h, waiting_slots_served h⟩

/-- Call 3 disconnects before the SUBACK has arrived and call 4 connects again; the completion of
the SUBSCRIBE comes last, and belongs to the old generation. -/
def reconnectRun : List MqttAction :=
  subscribeRun ++ [.start .disconnect] ++ goOn 3 2 ++ receiveRun 1 ++
    [.advance 1 (answer (.complete 1 ⟨.success, none, false⟩))] ++ goOn 1 2 ++ goOn 3 2 ++ goOn 1 8 ++
    [.start .connect, .start .process] ++ goOn 4 5 ++ goOn 5 4 ++
    [.advance 5 (answer (.complete 0 ⟨.success, some .granted, false⟩))] ++ goOn 5 2

/-- Without the orderly steps a slot may wait for nothing. -/
theorem not_waiting_slots_served : ¬ ∀ actions, Always MqttSystem.step Served actions .initial := by
  intro h
  have horphan : ((run MqttSystem.step reconnectRun .initial).2.core.client.subscriptions 0).Waits ∧
      (run MqttSystem.step reconnectRun .initial).2.ledger.ops = 0 := by decide +kernel
  obtain ⟨op, hone, -⟩ := (h reconnectRun).last.one 0 horphan.1
  rw [horphan.2] at hone
  exact absurd hone.symm (Multiset.singleton_ne_zero op)

/-! ### Acknowledged topics -/

/-- The step takes in a completion with which the broker ends the subscription of the topic: an
unsubscribe is acknowledged, or the SUBACK refuses it. -/
def EndsTopic (topic : Topic) (s : MqttSystem) (a : MqttAction) : Prop :=
  ∃ thread ∈ s.acting a, ∃ c ∈ thread.completes, Ends topic c.1 c.2

instance (topic : Topic) (s : MqttSystem) (a : MqttAction) : Decidable (s.EndsTopic topic a) :=
  inferInstanceAs (Decidable (∃ thread ∈ s.acting a, _))

/-- The step puts no replay of the topic at risk: no reconnect begins while the slot of the topic
is PENDING, and no SUBSCRIBE of the topic that its slot still waits for fails without an answer
of the broker. -/
structure Sheltered (topic : Topic) (s : MqttSystem) (a : MqttAction) : Prop where
  fresh : s.ledger.Fresh
  reconnect : ∀ thread ∈ s.acting a, thread.Reconnects → ∀ i,
    (s.core.client.subscriptions i).topic = topic →
      (s.core.client.subscriptions i).state ≠ .pending
  complete : ∀ thread ∈ s.acting a, ∀ c ∈ thread.completes, ¬ s.ledger.Drops topic c.1 c.2

instance (topic : Topic) (s : MqttSystem) (a : MqttAction) : Decidable (s.Sheltered topic a) :=
  decidable_of_iff (s.ledger.Fresh ∧
      (∀ thread ∈ s.acting a, thread.Reconnects → ∀ i,
        (s.core.client.subscriptions i).topic = topic →
          (s.core.client.subscriptions i).state ≠ .pending) ∧
      ∀ thread ∈ s.acting a, ∀ c ∈ thread.completes, ¬ s.ledger.Drops topic c.1 c.2)
    ⟨fun h => ⟨h.1, h.2.1, h.2.2⟩, fun h => ⟨h.1, h.2, h.3⟩⟩

/-- A step in the shelter of the topic that does not end it leaves it held. -/
theorem holds_step (ho : s.ledger.Ordered) (h : s.ledger.Holds topic)
    (ha : s.Sheltered topic a) (hend : ¬ s.EndsTopic topic a) :
    (s.step a).2.ledger.Holds topic := by
  obtain ⟨e, hstep, hwho⟩ := s.step_ledger a
  -- the completions and reconnects of the ledger are steps of the call
  have hcomplete : ∀ op info, e = .complete op info →
      ∃ thread ∈ s.acting a, (op, info) ∈ thread.completes := by
    rintro op info rfl
    rcases hwho with hother | ⟨thread, hacting, hexplains⟩
    · cases hother
    · exact ⟨thread, hacting, hexplains⟩
  refine hstep.holds ho h ?_ ?_ ?_
  · intro op info he hends
    obtain ⟨thread, hacting, hmem⟩ := hcomplete op info he
    exact hend ⟨thread, hacting, (op, info), hmem, hends⟩
  · intro op info he
    obtain ⟨thread, hacting, hmem⟩ := hcomplete op info he
    exact ha.complete thread hacting (op, info) hmem
  · rintro rfl
    rcases hwho with hother | ⟨thread, hacting, hexplains⟩
    · cases hother
    · exact ha.reconnect thread hacting hexplains

/-- The topic has been acknowledged. -/
def Acknowledged (s : MqttSystem) (topic : Topic) : Prop :=
  ∃ i, (s.core.client.subscriptions i).state = .active ∧
    (s.core.client.subscriptions i).topic = topic

instance (s : MqttSystem) (topic : Topic) : Decidable (s.Acknowledged topic) :=
  inferInstanceAs (Decidable (∃ _, _))

/-- The topic is in the subscription table. -/
def Subscribed (topic : Topic) (s : MqttSystem) : Prop :=
  ∃ i, (s.core.client.subscriptions i).state ≠ .empty ∧
    (s.core.client.subscriptions i).topic = topic

/-- A topic that has been acknowledged stays in the table until the broker ends its subscription,
as long as no loss meets a replay of the topic. -/
theorem acknowledged_topic_stays {before after : List MqttAction} {topic : Topic}
    (hfresh : Meets MqttSystem.step (fun s _ => s.ledger.Fresh) before .initial)
    (hack : (run MqttSystem.step before .initial).2.Acknowledged topic)
    (hend : Meets MqttSystem.step (fun s a => ¬ s.EndsTopic topic a) after
      (run MqttSystem.step before .initial).2)
    (hshelter : Meets MqttSystem.step (Sheltered topic) after
      (run MqttSystem.step before .initial).2) :
    Always MqttSystem.step (Subscribed topic) after (run MqttSystem.step before .initial).2 := by
  -- Freshness is kept by the run before the acknowledgement, so the ledger is still in order at it.
  have ho : (run MqttSystem.step before .initial).2.ledger.Ordered :=
    run_invariant (I := fun s => s.ledger.Ordered) (fun s a h hf => ordered_step h hf)
      ordered_initial hfresh
  have hheld : (run MqttSystem.step before .initial).2.ledger.Holds topic := by
    obtain ⟨i, hactive, htopic⟩ := hack
    refine ⟨i, fun hempty => ?_, htopic⟩
    cases hactive.symm.trans hempty
  -- From there the invariant is that the ledger is in order and the topic held.
  refine always_of_invariant (I := fun s => s.ledger.Ordered ∧ s.ledger.Holds topic)
    ?_ (fun s hs => hs.2) ⟨ho, hheld⟩ (hshelter.and hend)
  rintro s a ⟨ho, h⟩ ⟨ha, hend⟩
  exact ⟨ordered_step ho ha.fresh, holds_step ho h ha hend⟩

/-- The subscription of call 2 is acknowledged. -/
def acknowledgedRun : List MqttAction :=
  subscribeRun ++ [.advance 1 (answer (.complete 0 ⟨.success, some .granted, false⟩))] ++ goOn 1 2

/-- The process loop loses the connection and reconnects, up to the new generation. -/
def lossRun : List MqttAction := .advance 1 (answer (.quit .recvFailed)) :: goOn 1 8

/-- The broker has no session, so the process loop replays. -/
def replayRun : List MqttAction := goOn 1 23 ++ receiveRun 1

/-- The acknowledged topic over a lost connection and its replay. -/
theorem acknowledged_topic_stays_replayed :
    Always MqttSystem.step (Subscribed [116]) (lossRun ++ replayRun)
      (run MqttSystem.step acknowledgedRun .initial).2 :=
  acknowledged_topic_stays (by decide +kernel) (by decide +kernel)
    (by decide +kernel) (by decide +kernel)

/-- A loss, a replay whose SUBACK has not arrived, and another loss. -/
theorem not_acknowledged_topic_stays :
    ¬ ∀ (before after : List MqttAction) (topic : Topic),
      (run MqttSystem.step before .initial).2.Acknowledged topic →
      Meets MqttSystem.step (fun s a => ¬ s.EndsTopic topic a) after
        (run MqttSystem.step before .initial).2 →
      Always MqttSystem.step (Subscribed topic) after
        (run MqttSystem.step before .initial).2 := by
  intro h
  have hstays := (h acknowledgedRun (lossRun ++ replayRun ++ lossRun) [116] (by decide +kernel)
    (by decide +kernel)).last
  obtain ⟨i, hstate, -⟩ := hstays
  have hempty : ∀ i, ((run MqttSystem.step (lossRun ++ replayRun ++ lossRun)
      (run MqttSystem.step acknowledgedRun .initial).2).2.core.client.subscriptions i).state =
        .empty := by decide +kernel
  exact hstate (hempty i)

end MqttSystem

end TrustSdk.Mqtt
