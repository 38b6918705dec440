import Mathlib.Data.Multiset.Count
import Mathlib.Data.Multiset.Filter
import Mathlib.Data.Multiset.MapFold
import Mathlib.Data.Multiset.ZeroCons
import TrustSdk.Mqtt.Client

/-!
# The subscription ledger

What the client's threads do together to its subscriptions, without the threads: the slots,
the connection's generation, the token counter, and the subscribe and unsubscribe operations
that are on their way (`Ledger`). Each section of the client is one of a few entries
(`Ledger.Step`).

* `Ledger.Ordered` — the bookkeeping that every entry keeps as long as the token it issues is
  `Fresh`: operations on their way have different tokens, and one that still matches its slot
  is about the topic of the slot;
* `Ledger.Carried` — a slot that waits has an operation on its way. A new generation breaks
  this, unless no slot waits (`Ledger.Step.carried`);
* `Ledger.Holds` — a topic is in the table. Only a completion or a reconnect takes it out
  (`Ledger.Step.holds`).
-/

namespace TrustSdk.Mqtt

open Function

/-- Slots, generation, token counter and operations on their way. -/
structure Ledger where
  slots : Fin mqttSubscriptionMax → MqttSubscriptionTopic
  generation : UInt32
  nextToken : UInt32
  ops : Multiset MqttOperation

/-- The slot waits for the completion of its operation. -/
def MqttSubscriptionTopic.Waits (slot : MqttSubscriptionTopic) : Prop :=
  slot.state = .pending ∨ slot.state = .unsubPending

instance (slot : MqttSubscriptionTopic) : Decidable slot.Waits :=
  inferInstanceAs (Decidable (_ ∨ _))

/-- The operation that a waiting slot waits for. -/
def MqttSubscriptionTopic.awaited (slot : MqttSubscriptionTopic) : MqttOperationType :=
  if slot.state = .pending then .subscribe else .unsubscribe

/-- A slot after `mqtt_subscription_clear_locked`. -/
def MqttSubscriptionTopic.cleared : MqttSubscriptionTopic := ⟨.empty, 0, []⟩

/-- What a completion makes of its slot. -/
def MqttSubscriptionTopic.settled (slot : MqttSubscriptionTopic) (op : MqttOperation)
    (info : MqttReturnInfo) : MqttSubscriptionTopic :=
  if mqttCompletionAccepted op info = decide (op.type = .subscribe) then
    { slot with state := .active }
  else .cleared

/-- A slot that was settled waits no more. -/
theorem MqttSubscriptionTopic.not_waits_settled (slot : MqttSubscriptionTopic)
    (op : MqttOperation) (info : MqttReturnInfo) : ¬ (slot.settled op info).Waits := by
  unfold settled
  split_ifs <;> simp [Waits, cleared]

namespace Ledger

variable {l l' : Ledger} {i : Fin mqttSubscriptionMax} {topic : Topic}

/-- The next token; the counter skips zero when it wraps. -/
def token (l : Ledger) : UInt32 := if l.nextToken + 1 = 0 then 1 else l.nextToken + 1

/-- The completion section takes the operation for the slot's own. -/
def Current (l : Ledger) (op : MqttOperation) : Prop :=
  op.generation = l.generation ∧ (l.slots op.subscriptionIndex).token = op.subscriptionToken

instance (l : Ledger) (op : MqttOperation) : Decidable (l.Current op) :=
  inferInstanceAs (Decidable (_ ∧ _))

/-- The slots after a completion. -/
def settle (l : Ledger) (op : MqttOperation) (info : MqttReturnInfo) :
    Fin mqttSubscriptionMax → MqttSubscriptionTopic :=
  if l.Current op then
    update l.slots op.subscriptionIndex ((l.slots op.subscriptionIndex).settled op info)
  else l.slots

/-- The slots after a replay has taken its mark back. -/
def withdrawn (l : Ledger) (op : MqttOperation) :
    Fin mqttSubscriptionMax → MqttSubscriptionTopic :=
  if (l.slots op.subscriptionIndex).token = op.subscriptionToken then
    update l.slots op.subscriptionIndex
      { l.slots op.subscriptionIndex with state := .active }
  else l.slots

/-! ### Entries -/

/-- What happens to the slots and the operations on their way. -/
inductive Entry where
  | other
  /-- An operation for a slot sets out. -/
  | request (op : MqttOperation)
  /-- The agent refuses an operation, and the slot is as before but for its token. -/
  | refused
  /-- A replay takes its mark back. -/
  | withdraw (op : MqttOperation)
  | complete (op : MqttOperation) (info : MqttReturnInfo)
  /-- A new generation, outside of a reconnect. -/
  | renew
  | reconnect

/-- The entry takes a token. -/
def Entry.issues : Entry → Bool
  | .request _ => true
  | .refused => true
  | _ => false

/-- How each entry changes the ledger. -/
inductive Step (l : Ledger) : Entry → Ledger → Prop
  | other : Step l .other l
  | subscribe {i : Fin mqttSubscriptionMax} {topic : Topic} {op : MqttOperation} :
      (l.slots i).state = .empty → (∀ j, (l.slots j).state ≠ .empty → (l.slots j).topic ≠ topic) →
      op = ⟨.subscribe, l.generation, i, l.token, topic⟩ →
      Step l (.request op)
        ⟨update l.slots i ⟨.pending, l.token, topic⟩, l.generation, l.token, op ::ₘ l.ops⟩
  | unsubscribe {i : Fin mqttSubscriptionMax} {op : MqttOperation} :
      (l.slots i).state = .active →
      op = ⟨.unsubscribe, l.generation, i, l.token, (l.slots i).topic⟩ →
      Step l (.request op)
        ⟨update l.slots i { l.slots i with state := .unsubPending, token := l.token },
          l.generation, l.token, op ::ₘ l.ops⟩
  | replay {i : Fin mqttSubscriptionMax} {op : MqttOperation} :
      (l.slots i).state = .active →
      op = ⟨.subscribe, l.generation, i, l.token, (l.slots i).topic⟩ →
      Step l (.request op)
        ⟨update l.slots i { l.slots i with state := .pending, token := l.token },
          l.generation, l.token, op ::ₘ l.ops⟩
  | subscribeRefused {i : Fin mqttSubscriptionMax} : (l.slots i).state = .empty →
      Step l .refused ⟨update l.slots i .cleared, l.generation, l.token, l.ops⟩
  | unsubscribeRefused {i : Fin mqttSubscriptionMax} : (l.slots i).state = .active →
      Step l .refused
        ⟨update l.slots i { l.slots i with token := l.token }, l.generation, l.token, l.ops⟩
  | withdraw {op : MqttOperation} {ops : Multiset MqttOperation} : l.ops = op ::ₘ ops →
      Step l (.withdraw op) ⟨l.withdrawn op, l.generation, l.nextToken, ops⟩
  | complete {op : MqttOperation} {ops : Multiset MqttOperation} {info : MqttReturnInfo} :
      l.ops = op ::ₘ ops →
      Step l (.complete op info) ⟨l.settle op info, l.generation, l.nextToken, ops⟩
  | renew (generation : UInt32) : Step l .renew ⟨l.slots, generation, l.nextToken, l.ops⟩
  | reconnect (generation : UInt32) :
      Step l .reconnect
        ⟨fun i => mqttRescheduleSlot (l.slots i), generation, l.nextToken, l.ops⟩

/-- Operations that an entry does not look at stay on their way. -/
theorem Step.frame {e : Entry} (h : Step l e l') (ops : Multiset MqttOperation) :
    Step { l with ops := l.ops + ops } e { l' with ops := l'.ops + ops } := by
  cases h with
  | other => exact .other
  | subscribe hi hnew hop => rw [Multiset.cons_add]; exact .subscribe hi hnew hop
  | unsubscribe hi hop => rw [Multiset.cons_add]; exact .unsubscribe hi hop
  | replay hi hop => rw [Multiset.cons_add]; exact .replay hi hop
  | subscribeRefused hi => exact .subscribeRefused hi
  | unsubscribeRefused hi => exact .unsubscribeRefused hi
  | withdraw hop => exact .withdraw (by rw [hop, Multiset.cons_add])
  | complete hop => exact .complete (by rw [hop, Multiset.cons_add])
  | renew g => exact .renew g
  | reconnect g => exact .reconnect g

/-! ### The bookkeeping -/

/-- No operation on its way carries the next token. The counter has 32 bits, so it would have to
come round to an operation that is still outstanding. -/
def Fresh (l : Ledger) : Prop := l.token ∉ l.ops.map MqttOperation.subscriptionToken

instance (l : Ledger) : Decidable l.Fresh := inferInstanceAs (Decidable (¬ _))

/-- The tokens of the operations are different, and each operation is about the topic of its slot.
-/
structure Ordered (l : Ledger) : Prop where
  type : ∀ op ∈ l.ops, op.type = .subscribe ∨ op.type = .unsubscribe
  token_ne : ∀ op ∈ l.ops, op.subscriptionToken ≠ 0
  nodup : (l.ops.map MqttOperation.subscriptionToken).Nodup
  /-- An operation that matches its slot is about the topic of the slot. -/
  topic : ∀ op ∈ l.ops, (l.slots op.subscriptionIndex).token = op.subscriptionToken →
    (l.slots op.subscriptionIndex).topic = op.topic

/-- A token is not zero. -/
theorem token_ne_zero (l : Ledger) : l.token ≠ 0 := by
  unfold token
  split_ifs with h
  · decide
  · exact h

/-- A slot may be changed as long as it keeps its token and its topic, or gets no token. -/
theorem Ordered.slots (h : l.Ordered) {slots : Fin mqttSubscriptionMax → MqttSubscriptionTopic}
    (hslots : ∀ i, ((slots i).token = (l.slots i).token ∧ (slots i).topic = (l.slots i).topic) ∨
      (slots i).token = 0) (generation : UInt32) :
    Ordered ⟨slots, generation, l.nextToken, l.ops⟩ where
  type := h.type
  token_ne := h.token_ne
  nodup := h.nodup
  topic := by
    intro op hop htoken
    rcases hslots op.subscriptionIndex with ⟨heq, htopic⟩ | h0
    · rw [htopic]
      exact h.topic op hop (heq ▸ htoken)
    · exact absurd (htoken.symm.trans h0) (h.token_ne op hop)

/-- An operation is done. -/
theorem Ordered.drop {op : MqttOperation} {ops : Multiset MqttOperation}
    (h : l.Ordered) (hop : l.ops = op ::ₘ ops) :
    Ordered { l with ops } where
  type := fun o ho => h.type o (hop ▸ Multiset.mem_cons_of_mem ho)
  token_ne := fun o ho => h.token_ne o (hop ▸ Multiset.mem_cons_of_mem ho)
  nodup := by
    have hnodup := h.nodup
    rw [hop, Multiset.map_cons] at hnodup
    exact (Multiset.nodup_cons.mp hnodup).2
  topic := fun o ho => h.topic o (hop ▸ Multiset.mem_cons_of_mem ho)

/-- A slot receives a new token. -/
theorem Ordered.issue (h : l.Ordered) (hfresh : l.Fresh)
    (state : MqttSubscriptionState) (topic : Topic) :
    Ordered ⟨update l.slots i ⟨state, l.token, topic⟩, l.generation, l.token, l.ops⟩ where
  type := h.type
  token_ne := h.token_ne
  nodup := h.nodup
  topic := by
    intro op hop htoken
    simp only [update_apply] at htoken ⊢
    split_ifs at htoken ⊢ with hi
    · -- no operation on its way has the new token
      exact absurd (Multiset.mem_map.mpr ⟨op, hop, htoken.symm⟩) hfresh
    · exact h.topic op hop htoken

/-- An operation with a new token sets out. -/
theorem Ordered.request (h : l.Ordered) (hfresh : l.Fresh)
    {state : MqttSubscriptionState} {type : MqttOperationType}
    (htype : type = .subscribe ∨ type = .unsubscribe) :
    Ordered ⟨update l.slots i ⟨state, l.token, topic⟩, l.generation, l.token,
      ⟨type, l.generation, i, l.token, topic⟩ ::ₘ l.ops⟩ := by
  have hissue := h.issue (i := i) hfresh state topic
  refine ⟨?_, ?_, ?_, ?_⟩
  · intro o ho
    rcases Multiset.mem_cons.mp ho with rfl | ho
    · exact htype
    · exact h.type o ho
  · intro o ho
    rcases Multiset.mem_cons.mp ho with rfl | ho
    · exact l.token_ne_zero
    · exact h.token_ne o ho
  · change (Multiset.map _ (_ ::ₘ l.ops)).Nodup
    rw [Multiset.map_cons]
    exact Multiset.nodup_cons.mpr ⟨hfresh, h.nodup⟩
  · intro o ho hmatch
    rcases Multiset.mem_cons.mp ho with rfl | ho
    · simp only [update_self]
    · exact hissue.topic o ho hmatch

/-- An entry keeps the order, as long as a new token is fresh. -/
theorem Step.ordered {e : Entry} (h : Step l e l') (hl : l.Ordered)
    (hfresh : e.issues = true → l.Fresh) : l'.Ordered := by
  cases h with
  | other => exact hl
  | subscribe _ _ hop =>
    subst hop
    exact hl.request (hfresh rfl) (Or.inl rfl)
  | unsubscribe _ hop =>
    subst hop
    exact hl.request (hfresh rfl) (Or.inr rfl)
  | replay _ hop =>
    subst hop
    exact hl.request (hfresh rfl) (Or.inl rfl)
  | @subscribeRefused i _ =>
    -- the cleared slot first gets its token, and then loses it
    refine (hl.issue (i := i) (hfresh rfl) .empty []).slots (fun j => ?_) l.generation
    simp only [update_apply]
    split_ifs
    · exact Or.inr rfl
    · exact Or.inl ⟨rfl, rfl⟩
  | unsubscribeRefused _ => exact hl.issue (hfresh rfl) _ _
  | withdraw hop =>
    refine (hl.drop hop).slots (fun i => Or.inl ?_) l.generation
    unfold withdrawn
    split_ifs
    · rw [update_apply]
      split_ifs with hi
      · rw [hi]
        exact ⟨rfl, rfl⟩
      · exact ⟨rfl, rfl⟩
    · exact ⟨rfl, rfl⟩
  | complete hop =>
    refine (hl.drop hop).slots (fun i => ?_) l.generation
    unfold settle
    split_ifs
    · rw [update_apply]
      split_ifs with hi
      · rw [hi, MqttSubscriptionTopic.settled]
        split_ifs
        · exact Or.inl ⟨rfl, rfl⟩
        · exact Or.inr rfl
      · exact Or.inl ⟨rfl, rfl⟩
    · exact Or.inl ⟨rfl, rfl⟩
  | renew g => exact hl.slots (fun i => Or.inl ⟨rfl, rfl⟩) g
  | reconnect g =>
    refine hl.slots (fun i => ?_) g
    unfold mqttRescheduleSlot
    cases (l.slots i).state with
    | pending => exact Or.inr rfl
    | _ => exact Or.inl ⟨rfl, rfl⟩

/-! ### No slot waits in vain -/

/-- The operation carries the index and the token of slot `i` and the current generation. -/
structure Carries (l : Ledger) (i : Fin mqttSubscriptionMax) (op : MqttOperation) : Prop where
  index : op.subscriptionIndex = i
  token : op.subscriptionToken = (l.slots i).token
  generation : op.generation = l.generation

instance (l : Ledger) (i : Fin mqttSubscriptionMax) : DecidablePred (l.Carries i) := fun op =>
  decidable_of_iff (op.subscriptionIndex = i ∧ op.subscriptionToken = (l.slots i).token ∧
      op.generation = l.generation)
    ⟨fun h => ⟨h.1, h.2.1, h.2.2⟩, fun h => ⟨h.1, h.2, h.3⟩⟩

/-- The operation that slot `i` waits for: its completion will be taken for the slot's own. -/
structure Answers (l : Ledger) (i : Fin mqttSubscriptionMax) (op : MqttOperation) : Prop
    extends l.Carries i op where
  type : op.type = (l.slots i).awaited

/-- An operation that answers a slot is of its generation. -/
theorem Answers.current {op : MqttOperation} (h : l.Answers i op) : l.Current op :=
  ⟨h.generation, by rw [h.index, h.token]⟩

/-- Every waiting slot has an operation on its way. -/
def Carried (l : Ledger) : Prop := ∀ i, (l.slots i).Waits → ∃ op ∈ l.ops, l.Answers i op

/-- It has only one. -/
theorem Carried.unique (h : l.Carried) (ho : l.Ordered) (hi : (l.slots i).Waits) :
    ∃ op, l.Answers i op ∧ l.ops.filter (l.Carries i) = {op} := by
  obtain ⟨op, hop, hans⟩ := h i hi
  obtain ⟨ops, hops⟩ := Multiset.exists_cons_of_mem hop
  have hnodup := ho.nodup
  rw [hops, Multiset.map_cons, Multiset.nodup_cons] at hnodup
  -- another one would carry the same token
  have hother : ops.filter (l.Carries i) = 0 := by
    refine Multiset.filter_eq_nil.mpr fun o ho hcarries => hnodup.1 ?_
    rw [hans.token, ← hcarries.token]
    exact Multiset.mem_map_of_mem _ ho
  refine ⟨op, hans, ?_⟩
  rw [hops, Multiset.filter_cons_of_pos _ hans.toCarries, hother]
  rfl

/-- Its completion, whatever it says, moves the slot on. -/
theorem Answers.settles {op : MqttOperation} (h : l.Answers i op) (info : MqttReturnInfo) :
    ¬ (l.settle op info i).Waits := by
  rw [settle, if_pos h.current, h.index, update_self]
  exact MqttSubscriptionTopic.not_waits_settled _ _ _

/-- A slot that does not change keeps its operation. -/
theorem Answers.congr {op : MqttOperation} (h : l.Answers i op) (hslot : l'.slots i = l.slots i)
    (hgen : l'.generation = l.generation) : l'.Answers i op := by
  refine ⟨⟨h.index, ?_, ?_⟩, ?_⟩
  · rw [hslot]
    exact h.token
  · rw [hgen]
    exact h.generation
  · rw [hslot]
    exact h.type

/-- A request changes one slot, and the operation for this slot sets out with it. -/
theorem Carried.request (h : l.Carried) {slot : MqttSubscriptionTopic} {op : MqttOperation}
    {nextToken : UInt32} (htype : op.type = slot.awaited) (hindex : op.subscriptionIndex = i)
    (htoken : op.subscriptionToken = slot.token) (hgen : op.generation = l.generation) :
    Carried ⟨update l.slots i slot, l.generation, nextToken, op ::ₘ l.ops⟩ := by
  intro j hj
  by_cases hji : j = i
  · subst hji
    refine ⟨op, Multiset.mem_cons_self _ _, ⟨hindex, ?_, hgen⟩, ?_⟩ <;>
      simp only [update_self, htype, htoken]
  · have hslot : update l.slots i slot j = l.slots j := update_of_ne hji _ _
    simp only [hslot] at hj
    obtain ⟨o, ho, hans⟩ := h j hj
    exact ⟨o, Multiset.mem_cons_of_mem ho, hans.congr hslot rfl⟩

/-- A slot that no longer waits needs no operation. -/
theorem Carried.still (h : l.Carried) {slot : MqttSubscriptionTopic} {nextToken : UInt32}
    (hslot : ¬ slot.Waits) :
    Carried ⟨update l.slots i slot, l.generation, nextToken, l.ops⟩ := by
  intro j hj
  by_cases hji : j = i
  · subst hji
    simp only [update_self] at hj
    exact absurd hj hslot
  · have hsame : update l.slots i slot j = l.slots j := update_of_ne hji _ _
    simp only [hsame] at hj
    obtain ⟨o, ho, hans⟩ := h j hj
    exact ⟨o, ho, hans.congr hsame rfl⟩

/-- An operation is done, and its slot no longer waits for it. -/
theorem Carried.drop (h : l.Carried) {op : MqttOperation} {ops : Multiset MqttOperation}
    (hop : l.ops = op ::ₘ ops) {slots : Fin mqttSubscriptionMax → MqttSubscriptionTopic}
    (hsame : ∀ j, slots j = l.slots j ∨ ¬ (slots j).Waits)
    (hdone : ∀ j, l.Answers j op → ¬ (slots j).Waits) :
    Carried ⟨slots, l.generation, l.nextToken, ops⟩ := by
  intro j hj
  rcases hsame j with hslot | hnot
  · obtain ⟨o, ho, hans⟩ := h j (hslot ▸ hj)
    rw [hop] at ho
    rcases Multiset.mem_cons.mp ho with rfl | ho
    · exact absurd hj (hdone j hans)
    · exact ⟨o, ho, hans.congr hslot rfl⟩
  · exact absurd hj hnot

/-- A new generation strands every slot that waits; every other entry keeps the slots
carried. -/
theorem Step.carried {e : Entry} (h : Step l e l') (hl : l.Carried)
    (hrenew : e = .renew → ∀ i, ¬ (l.slots i).Waits) : l'.Carried := by
  -- a request brings its own operation; a refusal, a withdrawal and a completion settle the slot
  -- they leave
  cases h with
  | other => exact hl
  | subscribe _ _ hop =>
    subst hop
    exact hl.request rfl rfl rfl rfl
  | unsubscribe _ hop =>
    subst hop
    exact hl.request rfl rfl rfl rfl
  | replay _ hop =>
    subst hop
    exact hl.request rfl rfl rfl rfl
  | subscribeRefused _ => exact hl.still (by simp [MqttSubscriptionTopic.Waits, MqttSubscriptionTopic.cleared])
  | unsubscribeRefused hactive => exact hl.still (by simp [MqttSubscriptionTopic.Waits, hactive])
  | @withdraw op ops hop =>
    refine hl.drop hop (fun j => ?_) fun j hans => ?_
    · unfold withdrawn
      split_ifs
      · by_cases hj : j = op.subscriptionIndex
        · rw [hj, update_self]
          exact Or.inr (by simp [MqttSubscriptionTopic.Waits])
        · exact Or.inl (update_of_ne hj _ _)
      · exact Or.inl rfl
    · rw [withdrawn, if_pos (by rw [hans.index, hans.token]), hans.index, update_self]
      simp [MqttSubscriptionTopic.Waits]
  | @complete op ops info hop =>
    refine hl.drop hop (fun j => ?_) fun j hans => hans.settles info
    unfold settle
    split_ifs
    · by_cases hj : j = op.subscriptionIndex
      · rw [hj, update_self]
        exact Or.inr (MqttSubscriptionTopic.not_waits_settled _ _ _)
      · exact Or.inl (update_of_ne hj _ _)
    · exact Or.inl rfl
  | renew g => exact fun i hi => absurd hi (hrenew rfl i)
  | reconnect g =>
    intro i hi
    simp only [mqttRescheduleSlot] at hi
    cases hs : (l.slots i).state <;> simp [hs, MqttSubscriptionTopic.Waits] at hi

/-! ### Topics in the table -/

/-- The table holds the topic. -/
def Holds (l : Ledger) (topic : Topic) : Prop :=
  ∃ i, (l.slots i).state ≠ .empty ∧ (l.slots i).topic = topic

/-- An unsubscribe for the topic is acknowledged, or the SUBACK for it refuses it. -/
def Ends (topic : Topic) (op : MqttOperation) (info : MqttReturnInfo) : Prop :=
  op.topic = topic ∧ info.returnCode = .success ∧
    (op.type = .unsubscribe ∨ op.type = .subscribe ∧ info.subackCode = some .failure)

instance (topic : Topic) (op : MqttOperation) (info : MqttReturnInfo) :
    Decidable (Ends topic op info) := inferInstanceAs (Decidable (_ ∧ _))

/-- A completion that is the slot's own fails without an answer of the broker. -/
def Drops (l : Ledger) (topic : Topic) (op : MqttOperation) (info : MqttReturnInfo) : Prop :=
  l.Current op ∧ op.topic = topic ∧ op.type = .subscribe ∧
    ¬ (info.returnCode = .success ∧ info.subackCode.isSome)

instance (l : Ledger) (topic : Topic) (op : MqttOperation) (info : MqttReturnInfo) :
    Decidable (l.Drops topic op info) := inferInstanceAs (Decidable (_ ∧ _))

/-- A completion that clears its slot ends the subscription or drops it. -/
theorem ends_or_drops {op : MqttOperation} {info : MqttReturnInfo} (hcur : l.Current op)
    (htopic : op.topic = topic) (htype : op.type = .subscribe ∨ op.type = .unsubscribe)
    (hclear : mqttCompletionAccepted op info ≠ decide (op.type = .subscribe)) :
    Ends topic op info ∨ l.Drops topic op info := by
  rcases htype with htype | htype
  · by_cases hanswer : info.returnCode = .success ∧ info.subackCode.isSome
    · -- the broker has answered, and has not granted it
      left
      obtain ⟨hcode, hsome⟩ := hanswer
      refine ⟨htopic, hcode, Or.inr ⟨htype, ?_⟩⟩
      obtain ⟨code, hack⟩ := Option.isSome_iff_exists.mp hsome
      cases code with
      | failure => exact hack
      | granted => simp [mqttCompletionAccepted, htype, hcode, hack] at hclear
    · exact Or.inr ⟨hcur, htopic, htype, hanswer⟩
  · left
    refine ⟨htopic, ?_, Or.inl htype⟩
    simpa [mqttCompletionAccepted, htype] using hclear

/-- A slot that keeps its topic keeps the topic in the table. -/
theorem Holds.keep (h : l.Holds topic)
    (hkeep : ∀ i, (l.slots i).state ≠ .empty → (l.slots i).topic = topic →
      (l'.slots i).state ≠ .empty ∧ (l'.slots i).topic = topic) : l'.Holds topic := by
  obtain ⟨i, hstate, htopic⟩ := h
  exact ⟨i, hkeep i hstate htopic⟩

/-- Only a completion for the topic, or a reconnect while its slot is pending, takes a topic
out of the table. -/
theorem Step.holds {e : Entry} (h : Step l e l') (ho : l.Ordered) (hl : l.Holds topic)
    (hends : ∀ op info, e = .complete op info → ¬ Ends topic op info)
    (hdrops : ∀ op info, e = .complete op info → ¬ l.Drops topic op info)
    (hreconnect : e = .reconnect → ∀ i, (l.slots i).topic = topic → (l.slots i).state ≠ .pending) :
    l'.Holds topic := by
  refine hl.keep fun j hstate htopic => ?_
  -- one slot changes and keeps its topic
  have hone : ∀ {i : Fin mqttSubscriptionMax} {slot : MqttSubscriptionTopic},
      (i = j → slot.state ≠ .empty ∧ slot.topic = topic) →
      ((update l.slots i slot) j).state ≠ .empty ∧ ((update l.slots i slot) j).topic = topic := by
    intro i slot hslot
    by_cases hji : j = i
    · rw [hji, update_self]
      exact hslot hji.symm
    · rw [update_of_ne hji]
      exact ⟨hstate, htopic⟩
  cases h with
  | other => exact ⟨hstate, htopic⟩
  | subscribe hempty _ _ => exact hone fun hij => absurd (hij ▸ hempty) hstate
  | unsubscribe _ _ => exact hone fun hij => ⟨by simp, hij ▸ htopic⟩
  | replay _ _ => exact hone fun hij => ⟨by simp, hij ▸ htopic⟩
  | subscribeRefused hempty => exact hone fun hij => absurd (hij ▸ hempty) hstate
  | unsubscribeRefused _ => exact hone fun hij => ⟨hij ▸ hstate, hij ▸ htopic⟩
  | @withdraw op ops hop =>
    simp only [withdrawn]
    split_ifs
    · exact hone fun hij => ⟨by simp, hij ▸ htopic⟩
    · exact ⟨hstate, htopic⟩
  | @complete op ops info hop =>
    have hmem : op ∈ l.ops := by
      rw [hop]
      exact Multiset.mem_cons_self _ _
    simp only [settle]
    split_ifs with hcur
    · refine hone fun hij => ?_
      have htop : op.topic = topic := by
        rw [← ho.topic op hmem hcur.2, hij]
        exact htopic
      unfold MqttSubscriptionTopic.settled
      split_ifs with hacc
      · exact ⟨by simp, hij ▸ htopic⟩
      · rcases ends_or_drops hcur htop (ho.type op hmem) hacc with hend | hdrop
        · exact absurd hend (hends op info rfl)
        · exact absurd hdrop (hdrops op info rfl)
    · exact ⟨hstate, htopic⟩
  | renew g => exact ⟨hstate, htopic⟩
  | reconnect g =>
    have hnot := hreconnect rfl j htopic
    simp only [mqttRescheduleSlot]
    cases hs : (l.slots j).state with
    | pending => exact absurd hs hnot
    | empty => exact absurd hs hstate
    | active => exact ⟨by simp [hs], htopic⟩
    | unsubPending => exact ⟨by simp, htopic⟩

end Ledger

end TrustSdk.Mqtt
