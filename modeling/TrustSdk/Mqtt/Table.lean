import TrustSdk.Mqtt.Subscriptions

/-!
# The subscription table over a whole run

As long as the token counter has not come round, no topic is in two slots and no two slots have one
token, in every state that a run reaches (`table_consistent`). A token is then issued once, so that
the completion of an operation that its slot no longer waits for finds another token there, also
when the slot has been cleared and taken for another topic. What fails leaves the table as it was.

The invariant is `Ledger.Numbered`: the tokens in the slots, and of the operations on their way,
are among those that have been issued.
-/

namespace TrustSdk.Mqtt

open Function Machine

namespace Ledger

variable {l l' : Ledger} {n : ℕ} {i : Fin mqttSubscriptionMax}

/-- `n` tokens have been issued. -/
structure Numbered (n : ℕ) (l : Ledger) : Prop where
  next : l.nextToken.toNat = n
  empty : ∀ i, (l.slots i).state = .empty → l.slots i = .cleared
  issued : ∀ i, (l.slots i).token.toNat ≤ n
  ops : ∀ op ∈ l.ops, op.subscriptionToken.toNat ≤ n
  tokens : ∀ i j, (l.slots i).state ≠ .empty → (l.slots j).state ≠ .empty →
    (l.slots i).token = (l.slots j).token → i = j
  topics : ∀ i j, (l.slots i).state ≠ .empty → (l.slots j).state ≠ .empty →
    (l.slots i).topic = (l.slots j).topic → i = j

/-- The next token has not been issued before. -/
theorem Numbered.token_toNat (h : l.Numbered n) (hn : n + 1 < 2 ^ 32) : l.token.toNat = n + 1 := by
  have hnext := h.next
  have hadd : (l.nextToken + 1).toNat = n + 1 := by
    rw [UInt32.toNat_add, hnext]
    exact Nat.mod_eq_of_lt hn
  unfold token
  split_ifs with hzero
  · rw [hzero] at hadd
    cases hadd
  · exact hadd

/-- A token above every issued one is not in use. -/
theorem Numbered.fresh (h : l.Numbered n) (hn : n + 1 < 2 ^ 32) : l.Fresh := by
  intro hmem
  obtain ⟨op, hop, htoken⟩ := Multiset.mem_map.mp hmem
  have hle := h.ops op hop
  rw [htoken, h.token_toNat hn] at hle
  omega

/-- Operations are taken out. -/
theorem Numbered.drop (h : l.Numbered n) {ops : Multiset MqttOperation}
    (hops : ∀ op ∈ ops, op ∈ l.ops) (generation : UInt32) :
    Numbered n ⟨l.slots, generation, l.nextToken, ops⟩ :=
  { h with ops := fun op hop => h.ops op (hops op hop) }

/-- A slot that is in use goes on with its token and its topic, or any slot is cleared. -/
theorem Numbered.keep (h : l.Numbered n) {slots : Fin mqttSubscriptionMax → MqttSubscriptionTopic}
    (hslots : ∀ i, slots i = .cleared ∨ (l.slots i).state ≠ .empty ∧ (slots i).state ≠ .empty ∧
      (slots i).token = (l.slots i).token ∧ (slots i).topic = (l.slots i).topic)
    (generation : UInt32) : Numbered n ⟨slots, generation, l.nextToken, l.ops⟩ := by
  have hused : ∀ i, (slots i).state ≠ .empty → (l.slots i).state ≠ .empty ∧
      (slots i).token = (l.slots i).token ∧ (slots i).topic = (l.slots i).topic := by
    -- A slot in use after the step was in use before it, with its token and topic.
    intro i hi
    rcases hslots i with hclear | ⟨hstate, -, htoken, htopic⟩
    · rw [hclear] at hi
      exact absurd rfl hi
    · exact ⟨hstate, htoken, htopic⟩
  -- Four of the parts look at the slots: empty, issued, tokens, topics.
  refine ⟨h.next, ?_, ?_, h.ops, ?_, ?_⟩
  · intro i hi
    rcases hslots i with hclear | ⟨-, hstate, -⟩
    · exact hclear
    · exact absurd hi hstate
  · intro i
    rcases hslots i with hclear | ⟨-, -, htoken, -⟩
    · show (slots i).token.toNat ≤ n
      rw [hclear]
      exact Nat.zero_le n
    · show (slots i).token.toNat ≤ n
      rw [htoken]
      exact h.issued i
  · intro i j hi hj heq
    obtain ⟨hi', hti, -⟩ := hused i hi
    obtain ⟨hj', htj, -⟩ := hused j hj
    exact h.tokens i j hi' hj' (hti.symm.trans (heq.trans htj))
  · intro i j hi hj heq
    obtain ⟨hi', -, hti⟩ := hused i hi
    obtain ⟨hj', -, htj⟩ := hused j hj
    exact h.topics i j hi' hj' (hti.symm.trans (heq.trans htj))

/-- A slot in use goes on, in another state. -/
theorem Numbered.restate (h : l.Numbered n) (hi : (l.slots i).state ≠ .empty)
    {state : MqttSubscriptionState} (hstate : state ≠ .empty) (generation : UInt32) :
    Numbered n
      ⟨update l.slots i { l.slots i with state }, generation, l.nextToken, l.ops⟩ := by
  refine h.keep (fun j => ?_) generation
  by_cases hj : j = i
  · rw [hj, update_self]
    exact .inr ⟨hi, hstate, rfl, rfl⟩
  · rw [update_of_ne hj]
    by_cases hempty : (l.slots j).state = .empty
    · exact .inl (h.empty j hempty)
    · exact .inr ⟨hempty, hempty, rfl, rfl⟩

/-- Clearing one slot issues no token. -/
theorem Numbered.clear (h : l.Numbered n) (i : Fin mqttSubscriptionMax) (generation : UInt32) :
    Numbered n ⟨update l.slots i .cleared, generation, l.nextToken, l.ops⟩ := by
  refine h.keep (fun j => ?_) generation
  by_cases hj : j = i
  · rw [hj, update_self]
    exact .inl rfl
  · rw [update_of_ne hj]
    by_cases hempty : (l.slots j).state = .empty
    · exact .inl (h.empty j hempty)
    · exact .inr ⟨hempty, hempty, rfl, rfl⟩

/-- A slot gets the next token, for a topic that no other slot holds. -/
theorem Numbered.issue (h : l.Numbered n) (hn : n + 1 < 2 ^ 32) {state : MqttSubscriptionState}
    {topic : Topic} (hstate : state ≠ .empty)
    (htopic : ∀ j, j ≠ i → (l.slots j).state ≠ .empty → (l.slots j).topic ≠ topic) :
    Numbered (n + 1)
      ⟨update l.slots i ⟨state, l.token, topic⟩, l.generation, l.token, l.ops⟩ := by
  -- The new token lies above all that are in use, so no other slot has it.
  have htoken := h.token_toNat hn
  have hold : ∀ j, (l.slots j).token ≠ l.token := by
    intro j heq
    have := h.issued j
    rw [heq, htoken] at this
    omega
  have hother : ∀ {j}, j ≠ i → update l.slots i ⟨state, l.token, topic⟩ j = l.slots j :=
    fun hj => update_of_ne hj _ _
  -- Each part by whether the slot is the one reserved.
  refine ⟨htoken, ?_, ?_, fun op hop => (h.ops op hop).trans (Nat.le_succ n), ?_, ?_⟩
  · -- The slots that are empty: the reserved one is none of them now.
    intro j hj
    by_cases hji : j = i
    · rw [hji] at hj
      simp only [update_self] at hj
      exact absurd hj hstate
    · simp only [hother hji] at hj ⊢
      exact h.empty j hj
  · intro j
    by_cases hji : j = i
    · rw [hji]
      simp only [update_self]
      exact htoken.le
    · simp only [hother hji]
      exact (h.issued j).trans (Nat.le_succ n)
  · -- Two slots with one token: neither is the reserved one, by `hold`.
    intro j k hj hk heq
    by_cases hji : j = i <;> by_cases hki : k = i
    · rw [hji, hki]
    · rw [hji] at heq
      simp only [update_self, hother hki] at heq
      exact absurd heq.symm (hold k)
    · rw [hki] at heq
      simp only [update_self, hother hji] at heq
      exact absurd heq (hold j)
    · simp only [hother hji, hother hki] at hj hk heq
      exact h.tokens j k hj hk heq
  · -- Two slots with one topic: the topic was in no other slot.
    intro j k hj hk heq
    by_cases hji : j = i <;> by_cases hki : k = i
    · rw [hji, hki]
    · rw [hji] at heq
      simp only [update_self, hother hki] at heq hk
      exact absurd heq.symm (htopic k hki hk)
    · rw [hki] at heq
      simp only [update_self, hother hji] at heq hj
      exact absurd heq (htopic j hji hj)
    · simp only [hother hji, hother hki] at hj hk heq
      exact h.topics j k hj hk heq

/-- It gets it with an operation. -/
theorem Numbered.request (h : l.Numbered n) (hn : n + 1 < 2 ^ 32) {state : MqttSubscriptionState}
    {topic : Topic} (hstate : state ≠ .empty)
    (htopic : ∀ j, j ≠ i → (l.slots j).state ≠ .empty → (l.slots j).topic ≠ topic)
    {op : MqttOperation} (hop : op.subscriptionToken = l.token) :
    Numbered (n + 1)
      ⟨update l.slots i ⟨state, l.token, topic⟩, l.generation, l.token, op ::ₘ l.ops⟩ := by
  have hissue := h.issue (i := i) hn hstate htopic
  refine { hissue with ops := fun o ho => ?_ }
  rcases Multiset.mem_cons.mp ho with rfl | ho
  · rw [hop]
    exact (h.token_toNat hn).le
  · exact hissue.ops o ho

/-- Every entry keeps the numbering, as long as the counter does not come round. -/
theorem Step.numbered {e : Entry} (h : Step l e l') (hl : l.Numbered n) (ho : l.Ordered)
    (hn : n + e.issues.toNat < 2 ^ 32) : l'.Numbered (n + e.issues.toNat) := by
  -- the topic of a slot in use is in no other slot
  have hown : ∀ {i : Fin mqttSubscriptionMax}, (l.slots i).state ≠ .empty →
      ∀ j, j ≠ i → (l.slots j).state ≠ .empty → (l.slots j).topic ≠ (l.slots i).topic :=
    fun hi j hji hj heq => hji (hl.topics j _ hj hi heq)
  have hactive : ∀ {i : Fin mqttSubscriptionMax}, (l.slots i).state = .active →
      (l.slots i).state ≠ .empty := by
    intro i hi hempty
    cases hi.symm.trans hempty
  cases h with
  | other => exact hl
  -- A request numbers the slot it reserves and no other.
  | subscribe _ hnew hop =>
    exact hl.request hn (by decide) (fun j _ hj => hnew j hj) (by rw [hop])
  | unsubscribe hi hop => exact hl.request hn (by decide) (hown (hactive hi)) (by rw [hop])
  | replay hi hop => exact hl.request hn (by decide) (hown (hactive hi)) (by rw [hop])
  -- A refused subscribe clears a slot that was empty, so nothing changes but the count.
  | @subscribeRefused i hi =>
    refine ⟨hl.token_toNat hn, ?_, ?_, fun op hop => (hl.ops op hop).trans (Nat.le_succ n), ?_, ?_⟩
    all_goals
      have hsame : update l.slots i .cleared = l.slots := by
        rw [← hl.empty i hi, update_eq_self]
      simp only [hsame]
    · exact hl.empty
    · exact fun j => (hl.issued j).trans (Nat.le_succ n)
    · exact hl.tokens
    · exact hl.topics
  -- A refused unsubscribe keeps the slot, under its new token.
  | unsubscribeRefused hi => exact hl.issue hn (hactive hi) (hown (hactive hi))
  | @withdraw op ops hop =>
    have hmem : op ∈ l.ops := hop ▸ Multiset.mem_cons_self op ops
    have hdrop : Numbered n { l with ops } :=
      hl.drop (fun o h => hop ▸ Multiset.mem_cons_of_mem h) l.generation
    unfold withdrawn
    -- The mark is taken back only where the token is still the operation's.
    split_ifs with hmatch
    · refine hdrop.restate (fun hempty => ho.token_ne op hmem ?_) (by decide) l.generation
      rw [← hmatch, hl.empty _ hempty]
      rfl
    · exact hdrop
  | @complete op ops info hop =>
    have hmem : op ∈ l.ops := hop ▸ Multiset.mem_cons_self op ops
    have hdrop : Numbered n { l with ops } :=
      hl.drop (fun o h => hop ▸ Multiset.mem_cons_of_mem h) l.generation
    unfold settle
    -- An answer to an older token settles nothing.
    split_ifs with hcur
    · unfold MqttSubscriptionTopic.settled
      split_ifs
      · refine hdrop.restate (fun hempty => ho.token_ne op hmem ?_) (by decide) l.generation
        rw [← hcur.2, hl.empty _ hempty]
        rfl
      · exact hdrop.clear _ l.generation
    · exact hdrop
  | renew g => exact hl.drop (fun _ h => h) g
  -- The reconnect makes pending what was in use, and leaves the rest.
  | reconnect g =>
    refine hl.keep (fun i => ?_) g
    unfold mqttRescheduleSlot
    cases hs : (l.slots i).state with
    | pending => exact .inl rfl
    | empty => exact .inl (hl.empty i hs)
    | active => exact .inr ⟨by simp, by simp [hs], rfl, rfl⟩
    | unsubPending => exact .inr ⟨by simp, by simp, rfl, rfl⟩

end Ledger

namespace MqttSystem

variable {s : MqttSystem} {a : MqttAction}

/-- The token that a step issues. -/
def issues (s : MqttSystem) (a : MqttAction) : List UInt32 :=
  if (s.step a).2.core.client.nextSubscriptionToken = s.core.client.nextSubscriptionToken then []
  else [(s.step a).2.core.client.nextSubscriptionToken]

/-- The tokens that a run issues. -/
def tokensIssued (actions : List MqttAction) : List UInt32 :=
  history MqttSystem.step issues actions .initial

/-- The slots that are in use have different topics and different tokens. -/
structure Consistent (s : MqttSystem) : Prop where
  topics : ∀ i j, (s.core.client.subscriptions i).state ≠ .empty →
    (s.core.client.subscriptions j).state ≠ .empty →
    (s.core.client.subscriptions i).topic = (s.core.client.subscriptions j).topic → i = j
  tokens : ∀ i j, (s.core.client.subscriptions i).state ≠ .empty →
    (s.core.client.subscriptions j).state ≠ .empty →
    (s.core.client.subscriptions i).token = (s.core.client.subscriptions j).token → i = j

/-- What a step that fails, or that comes too late, does to the table. -/
structure Harmless (s : MqttSystem) (k : ℕ) (env : MqttEnv) : Prop where
  /-- A completion that is not its slot's own. -/
  stale : ∀ thread op info, s.threads[k]? = some thread → thread.completes = some (op, info) →
    op.type = .subscribe ∨ op.type = .unsubscribe →
    mqttCompletionCurrent s.core.client op = false →
    (thread.step env s.core).1.client.subscriptions = s.core.client.subscriptions
  subscribe : ∀ topic e, s.threads[k]? = some (.subscribeEntered topic false) →
    ((MqttThread.subscribeEntered topic false).step env s.core).2 = .leaving (.error e) →
    ((MqttThread.subscribeEntered topic false).step env s.core).1.client.subscriptions =
      s.core.client.subscriptions
  /-- Every slot stays in its state and with its topic. -/
  unsubscribe : ∀ topic e, s.threads[k]? = some (.subscribeEntered topic true) →
    ((MqttThread.subscribeEntered topic true).step env s.core).2 = .leaving (.error e) →
    ∀ i, (((MqttThread.subscribeEntered topic true).step env s.core).1.client.subscriptions
        i).state = (s.core.client.subscriptions i).state ∧
      (((MqttThread.subscribeEntered topic true).step env s.core).1.client.subscriptions
        i).topic = (s.core.client.subscriptions i).topic
  /-- The broker, or the agent, refuses an unsubscribe. -/
  refused : ∀ thread op info, s.threads[k]? = some thread → thread.completes = some (op, info) →
    op.type = .unsubscribe → mqttCompletionCurrent s.core.client op = true →
    info.returnCode ≠ .success →
    (thread.step env s.core).1.client.subscriptions =
      update s.core.client.subscriptions op.subscriptionIndex
        { s.core.client.subscriptions op.subscriptionIndex with state := .active }

/-- A thread about to complete an operation takes the completion in its next step. -/
theorem completes_step {thread : MqttThread} {op : MqttOperation} {info : MqttReturnInfo}
    (h : thread.completes = some (op, info)) (env : MqttEnv) (m : MqttCore) :
    (thread.step env m).1 = (mqttAgentCommandComplete m op info).1 := by
  -- a completion of the agent, or of a command that is dropped
  have hwork {work : MqttWork} (hcompletes : work.completes = some (op, info)) :
      work ≠ .idle ∧ (work.step env m).1 = (mqttAgentCommandComplete m op info).1 ∧
        (mqttAgentCancel env m work).1 = (mqttAgentCommandComplete m op info).1 := by
    unfold MqttWork.completes at hcompletes
    split at hcompletes
    · cases hcompletes
      exact ⟨MqttWork.noConfusion, rfl, rfl⟩
    · cases hcompletes
      exact ⟨MqttWork.noConfusion, rfl, rfl⟩
    · cases hcompletes
  -- The three threads that can complete: the loop, a resuming session, a deinit.
  unfold MqttThread.completes at h
  split at h
  · obtain ⟨-, hstep, -⟩ := hwork h
    rw [← hstep]
    dsimp only [MqttThread.step, MqttProcess.step]
    rcases hout : MqttWork.step env m _ with ⟨m', _ | _⟩ <;> rfl
  · obtain ⟨hidle, hstep, -⟩ := hwork h
    rw [← hstep]
    dsimp only [MqttThread.step, MqttProcess.step]
    rw [if_neg fun hx => hidle hx.1]
    rcases hout : MqttWork.step env m _ with ⟨m', _ | status⟩
    · rfl
    · dsimp only
      split_ifs
      · rfl
      · cases mqttStatusToErr status <;> rfl
  · obtain ⟨-, -, hcancel⟩ := hwork h
    rw [← hcancel]
    dsimp only [MqttThread.step, MqttDeinit.step]
    rcases hout : mqttAgentCancel env m _ with ⟨m', _ | _⟩ <;> rfl
  · cases h

/-- The section of a subscribe that fails, on a table whose empty slots are clear. -/
-- The refused call has not touched the table unless its operation was refused by the queue; then
-- the rollback restores what the reserve took.
theorem subscribeLocked_error {m : MqttCore} (hempty : ∀ i,
      (m.client.subscriptions i).state = .empty → m.client.subscriptions i = .cleared)
    {topic : Topic} {unsubscribe : Bool} {refusal : Option MqttRefusal} {e : Err}
    (h : (mqttSubscribeLocked m topic unsubscribe refusal).2 = .error e) (i) :
    (unsubscribe = false → (mqttSubscribeLocked m topic unsubscribe refusal).1.client.subscriptions
        i = m.client.subscriptions i) ∧
      ((mqttSubscribeLocked m topic unsubscribe refusal).1.client.subscriptions i).state =
        (m.client.subscriptions i).state ∧
      ((mqttSubscribeLocked m topic unsubscribe refusal).1.client.subscriptions i).topic =
        (m.client.subscriptions i).topic := by
  unfold mqttSubscribeLocked at h ⊢
  by_cases hstate : m.client.state ≠ .connected
  · -- Outside CONNECTED nothing was reserved.
    rw [if_pos hstate]
    exact ⟨fun _ => rfl, rfl, rfl⟩
  rw [if_neg hstate] at h ⊢
  cases hres : mqttSubscriptionReserveLocked m.client topic unsubscribe with
  | error e => exact ⟨fun _ => rfl, rfl, rfl⟩
  -- The slot was reserved, so what remains is what the rollback makes of it.
  | ok reserved =>
    obtain ⟨⟨j, token⟩, client⟩ := reserved
    obtain ⟨slot, -, rfl, rfl, hclient, hbefore⟩ := mqttSubscriptionReserveLocked_ok hres
    subst hclient
    rw [hres] at h
    dsimp only at h ⊢
    generalize hop : (⟨if unsubscribe = true then .unsubscribe else .subscribe,
      m.client.connectGeneration, j, slot.token, slot.topic⟩ : MqttOperation) = op at h ⊢
    rcases mqttEnqueueOperation_cases { m with client := { m.client with
      nextSubscriptionToken := slot.token
      subscriptions := update m.client.subscriptions j slot } } op refusal with ⟨e', heq⟩ | heq
    · rw [heq]
      -- The slot that was reserved is back as it was, with a new token in the unsubscribe.
      by_cases hi : i = j
      · subst hi
        cases unsubscribe with
        | true =>
          obtain ⟨-, hactive, htopic⟩ := hbefore
          simp [mqttSubscriptionRollbackLocked, mqttSetSlot, hactive, htopic]
        | false =>
          obtain ⟨-, hslot, -⟩ := hbefore
          simp [mqttSubscriptionRollbackLocked, mqttSubscriptionClearLocked, mqttSetSlot,
            hempty i hslot, MqttSubscriptionTopic.cleared]
      · -- Every other slot was left alone all along.
        cases unsubscribe <;>
          simp [mqttSubscriptionRollbackLocked, mqttSubscriptionClearLocked, mqttSetSlot, hi]
    · -- Where the queue took the operation there is no error.
      rw [heq] at h
      cases h

/-- While empty slots are clear, no access of a thread breaks the harmless conditions. -/
theorem harmless_of_empty (hempty : ∀ i, (s.core.client.subscriptions i).state = .empty →
    s.core.client.subscriptions i = .cleared) (k : ℕ) (env : MqttEnv) : s.Harmless k env where
  -- A completion of an earlier generation leaves the table.
  stale := by
    intro thread op info _ hcompletes htype hcurrent
    have hcomplete : (mqttAgentCommandComplete s.core op info).1.client =
        mqttSubscribeComplete s.core.client op info := by
      rcases htype with htype | htype <;> rw [mqttAgentCommandComplete, htype]
    rw [completes_step hcompletes, hcomplete]
    unfold mqttSubscribeComplete
    rw [hcurrent]
    rfl
  -- A failed subscribe and a failed unsubscribe roll their own reservation back.
  subscribe := by
    intro topic e _ hfailed
    have hresult : (mqttSubscribeLocked s.core topic false env.refusal).2 = .error e :=
      MqttThread.leaving.inj hfailed
    funext i
    exact (subscribeLocked_error hempty hresult i).1 rfl
  unsubscribe := by
    intro topic e _ hfailed i
    have hresult : (mqttSubscribeLocked s.core topic true env.refusal).2 = .error e :=
      MqttThread.leaving.inj hfailed
    exact (subscribeLocked_error hempty hresult i).2
  -- A refused SUBACK clears the slot that carries the token.
  refused := by
    intro thread op info _ hcompletes htype hcurrent hcode
    have hcomplete : (mqttAgentCommandComplete s.core op info).1.client =
        mqttSubscribeComplete s.core.client op info := by
      rw [mqttAgentCommandComplete, htype]
    have hrefused : mqttCompletionAccepted op info = false := by
      simp [mqttCompletionAccepted, hcode]
    rw [completes_step hcompletes, hcomplete]
    unfold mqttSubscribeComplete
    simp [hcurrent, htype, hrefused, mqttSetSlot]

/-- No token is issued at the start. -/
theorem numbered_initial : MqttSystem.initial.ledger.Numbered 0 := by
  rw [ledger_initial]
  refine ⟨rfl, fun _ _ => rfl, fun _ => le_rfl, ?_, ?_, ?_⟩
  · exact fun op hop => absurd hop (Multiset.notMem_zero op)
  · exact fun _ _ hi => absurd rfl hi
  · exact fun _ _ hi => absurd rfl hi

/-- A step keeps the bookkeeping and the numbering. -/
theorem numbered_step {past : List UInt32} (h : past.length < 2 ^ 32 →
      s.ledger.Ordered ∧ s.ledger.Numbered past.length) :
    (past ++ s.issues a).length < 2 ^ 32 → (s.step a).2.ledger.Ordered ∧
      (s.step a).2.ledger.Numbered (past ++ s.issues a).length := by
  intro hlength
  rw [List.length_append] at hlength ⊢
  obtain ⟨ho, hl⟩ := h (by omega)
  obtain ⟨e, hstep, -⟩ := s.step_ledger a
  -- the counter moves when the entry takes a token
  have hissues : (s.issues a).length = e.issues.toNat := by
    have hsame : (s.step a).2.ledger.nextToken = s.ledger.nextToken ↔ e.issues = false := by
      generalize (s.step a).2.ledger = l' at hstep ⊢
      have hmoves : s.ledger.token ≠ s.ledger.nextToken := by
        unfold Ledger.token
        split_ifs with hzero
        · intro hone
          rw [← hone] at hzero
          cases hzero
        · simp
      cases hstep <;> simp [Ledger.Entry.issues, hmoves]
    have hdef : (s.issues a).length
        = if (s.step a).2.ledger.nextToken = s.ledger.nextToken then 0 else 1 := by
      unfold issues
      show _ = if (s.step a).2.core.client.nextSubscriptionToken
        = s.core.client.nextSubscriptionToken then 0 else 1
      split_ifs <;> rfl
    rw [hdef]
    cases he : e.issues with
    | true => rw [if_neg fun hx => Bool.noConfusion (he.symm.trans (hsame.mp hx))]; rfl
    | false => rw [if_pos (hsame.mpr he)]; rfl
  rw [hissues] at hlength ⊢
  refine ⟨hstep.ordered ho fun he => ?_, hstep.numbered hl ho hlength⟩
  rw [he] at hlength
  exact hl.fresh hlength

/-- **The subscription table is consistent, and what fails or comes too late leaves it alone, in
every state that is reached before the token counter has come round.** -/
theorem table_consistent {actions : List MqttAction}
    (h : (tokensIssued actions).length < 2 ^ 32) :
    (run MqttSystem.step actions .initial).2.Consistent ∧
      ∀ k env, (run MqttSystem.step actions .initial).2.Harmless k env := by
  obtain ⟨-, hl⟩ := history_invariant (I := fun past s => past.length < 2 ^ 32 →
      s.ledger.Ordered ∧ s.ledger.Numbered past.length)
    (fun past s a hI => numbered_step hI) actions
    (fun _ => ⟨ordered_initial, numbered_initial⟩) h
  exact ⟨⟨hl.topics, hl.tokens⟩, harmless_of_empty hl.empty⟩

/-- Two tokens over a lost connection and its replay, and the table is consistent. -/
theorem table_consistent_replayed :
    (tokensIssued (acknowledgedRun ++ lossRun ++ replayRun)).length = 2 ∧
      (run MqttSystem.step (acknowledgedRun ++ lossRun ++ replayRun) .initial).2.Consistent := by
  have h : (tokensIssued (acknowledgedRun ++ lossRun ++ replayRun)).length = 2 := by
    decide +kernel
  exact ⟨h, (table_consistent (by rw [h]; decide)).1⟩

end MqttSystem

end TrustSdk.Mqtt
