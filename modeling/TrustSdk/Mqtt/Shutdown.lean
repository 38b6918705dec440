import TrustSdk.Mqtt.Access
import TrustSdk.Mqtt.ProcessLoop

/-!
# Releasing the client behind its calls

`actrust_mqtt_deinit` releases the client when it finds that no call is counted. A call gives up its
count in its last section, and posts behind it: in between, deinit can find the client idle, and
free what the post is about to touch (`not_process_gone`).

* `MqttThread.step_counts` — the count is the number of calls that have been let in;
* `Documented` — what the header asks of the callers;
* `Permits` — when deinit finds the client idle, no call has yet to post;
* `process_gone` — in every run whose steps permit it, no call that was let in has an access left
  when deinit begins to release the client, or has freed it.
-/

namespace TrustSdk.Mqtt

open Machine

/-! ### The count of the calls -/

/-- The call has been let in, and not left yet. -/
def MqttThread.counted : MqttThread → ℕ
  | .call _ => 0
  | .process .start => 0
  | .deinit _ => 0
  | .returned _ => 0
  | _ => 1

section Counts

variable {m m' m'' : MqttCore}

/-- A step that leaves the count of the calls alone. -/
def Uncounted (m m' : MqttCore) : Prop := m'.client.apiInflight = m.client.apiInflight

/-- A step that changes nothing. -/
theorem Uncounted.rfl : Uncounted m m := Eq.refl _

/-- Such steps compose. -/
theorem Uncounted.trans (h : Uncounted m m') (h' : Uncounted m' m'') : Uncounted m m'' :=
  Eq.trans h' h

/-- Rolling a slot back touches the table alone. -/
theorem mqttSubscriptionRollbackLocked_uncounted (m : MqttCore) (i : Fin mqttSubscriptionMax)
    (token : UInt32) (state : MqttSubscriptionState) :
    Uncounted m { m with client := mqttSubscriptionRollbackLocked m.client i token state } := by
  unfold mqttSubscriptionRollbackLocked mqttSubscriptionClearLocked
  split_ifs <;> exact .rfl

/-- Handing an operation over counts the operation, not a call. -/
theorem mqttEnqueueOperation_uncounted (m : MqttCore) (op : MqttOperation)
    (refusal : Option MqttRefusal) : Uncounted m (mqttEnqueueOperation m op refusal).2 := by
  rcases mqttEnqueueOperation_cases m op refusal with ⟨e, heq⟩ | heq
  · rw [heq]
    exact .rfl
  · rw [heq]
    exact .rfl

/-- Queueing a command counts no call. -/
theorem mqttEnqueue_uncounted (m : MqttCore) (command : MqttCommand)
    (refusal : Option MqttRefusal) : Uncounted m (mqttEnqueue m command refusal).2 := by
  rcases mqttEnqueue_cases m command refusal with ⟨refused, heq⟩ | heq
  · rw [heq]
    exact .rfl
  · rw [heq]
    exact .rfl

/-- The replay counts no call. -/
theorem MqttReplay.step_uncounted (env : MqttEnv) (m : MqttCore) (replay : MqttReplay) :
    Uncounted m (replay.step env m).1 := by
  -- By the point of `mqtt_replay`, each a step on the table or on the queue.
  cases replay with
  | slot i =>
    dsimp only [MqttReplay.step]
    split_ifs with hi
    · cases hmark : mqttReplayMark m.client ⟨i, hi⟩ with
      | none => exact .rfl
      | some marked =>
        obtain ⟨op, client⟩ := marked
        obtain ⟨-, -, rfl⟩ := mqttReplayMark_some hmark
        exact .rfl
    · exact .rfl
  | handOver op =>
    have henqueue := mqttEnqueueOperation_uncounted m op.1 env.refusal
    simp only [MqttReplay.step]
    rcases hstep : mqttEnqueueOperation m op.1 env.refusal with ⟨_ | _, m'⟩ <;>
      rw [hstep] at henqueue <;> exact henqueue
  | rollBack op => exact mqttSubscriptionRollbackLocked_uncounted m _ _ _

/-- A receive counts no call. -/
theorem mqttAgentRecv_uncounted (m : MqttCore) : Uncounted m (mqttAgentRecv m).1 := by
  obtain ⟨client, queue, taken⟩ := m
  cases queue with
  | nil => exact .rfl
  | cons command queue =>
    cases command with
    | terminate => exact .rfl
    | operation op =>
      simp only [mqttAgentRecv]
      split_ifs <;> exact .rfl

/-- A completion counts no call. -/
theorem mqttAgentCommandComplete_uncounted (m : MqttCore) (op : MqttOperation)
    (info : MqttReturnInfo) : Uncounted m (mqttAgentCommandComplete m op info).1 := by
  -- Subscribe and unsubscribe complete into the table.
  have hslot : Uncounted m { m with client := mqttSubscribeComplete m.client op info } := by
    unfold mqttSubscribeComplete mqttSubscriptionClearLocked
    split_ifs <;> exact .rfl
  unfold mqttAgentCommandComplete
  cases op.type with
  | connect =>
    dsimp only [mqttCompleteConnectAttempt]
    split_ifs <;> exact .rfl
  | disconnect =>
    dsimp only [mqttDisconnectComplete]
    split_ifs <;> exact .rfl
  | publish =>
    dsimp only [mqttPublishComplete]
    split_ifs <;> exact .rfl
  | subscribe => exact hslot
  | unsubscribe => exact hslot

/-- Nor does any point of the loop's work. -/
theorem MqttWork.step_uncounted (env : MqttEnv) (m : MqttCore) (work : MqttWork) :
    Uncounted m (work.step env m).1 := by
  -- By the point of the work; those that change the core are the lemmas above.
  cases work with
  | idle =>
    simp only [MqttWork.step]
    cases env.agent with
    | receive => exact .rfl
    | complete k info =>
      dsimp only
      cases m.taken[k]? <;> exact .rfl
    | deliver hasCallback =>
      dsimp only [mqttCallbackEnter]
      split_ifs <;> exact .rfl
    | quit status => exact .rfl
  | receiving =>
    have hrecv := mqttAgentRecv_uncounted m
    dsimp only [MqttWork.step]
    rcases hstep : mqttAgentRecv m with ⟨m', _ | work⟩ <;> rw [hstep] at hrecv <;> exact hrecv
  | dropping op => exact mqttAgentCommandComplete_uncounted m op mqttDropInfo
  | dropped => exact .rfl
  | completing op info => exact mqttAgentCommandComplete_uncounted m op info
  | replaying replay =>
    have hreplay := replay.step_uncounted env m
    simp only [MqttWork.step]
    rcases hstep : replay.step env m with ⟨m', _ | replay'⟩ <;> rw [hstep] at hreplay <;>
      exact hreplay
  | leaving => exact .rfl
  | delivering => exact .rfl

/-- The cancellation takes the same steps. -/
theorem mqttAgentCancel_uncounted (env : MqttEnv) (m : MqttCore) (work : MqttWork) :
    Uncounted m (mqttAgentCancel env m work).1 := by
  unfold mqttAgentCancel
  split
  · exact mqttAgentRecv_uncounted m
  · exact .rfl
  · exact MqttWork.step_uncounted env m _

/-- Subscribe and unsubscribe were let in before their section. -/
theorem mqttSubscribeLocked_uncounted (m : MqttCore) (topic : Topic) (unsubscribe : Bool)
    (refusal : Option MqttRefusal) :
    Uncounted m (mqttSubscribeLocked m topic unsubscribe refusal).1 := by
  unfold mqttSubscribeLocked
  by_cases hstate : m.client.state ≠ .connected
  · rw [if_pos hstate]
    exact .rfl
  rw [if_neg hstate]
  cases hres : mqttSubscriptionReserveLocked m.client topic unsubscribe with
  | error e => exact .rfl
  | ok reserved =>
    obtain ⟨⟨i, token⟩, client⟩ := reserved
    have hreserve : Uncounted m { m with client } := by
      obtain ⟨slot, -, -, -, rfl, -⟩ := mqttSubscriptionReserveLocked_ok hres
      exact .rfl
    -- The reserve, the hand-over and a rollback: none of them counts a call.
    dsimp only
    generalize (⟨if unsubscribe then .unsubscribe else .subscribe, m.client.connectGeneration, i,
      token, topic⟩ : MqttOperation) = op
    have henqueue := hreserve.trans (mqttEnqueueOperation_uncounted { m with client } op refusal)
    rcases hstep : mqttEnqueueOperation { m with client } op refusal with ⟨_ | _, m'⟩ <;>
      rw [hstep] at henqueue
    · exact henqueue.trans (mqttSubscriptionRollbackLocked_uncounted m' i token _)
    · exact henqueue

/-- The count moves with the call that takes the step. -/
def MqttThread.Counts (m : MqttCore) (thread : MqttThread) (m' : MqttCore) (thread' : MqttThread) :
    Prop :=
  thread.counted ≤ m.client.apiInflight →
    m'.client.apiInflight + thread.counted = m.client.apiInflight + thread'.counted

/-- A step that leaves the count alone and the call where it counts. -/
theorem MqttThread.Counts.same {thread thread' : MqttThread} (h : Uncounted m m')
    (hcounted : thread'.counted = thread.counted) : thread.Counts m m' thread' := by
  intro _
  rw [h, hcounted]

/-- The process call enters once and leaves once. -/
theorem MqttProcess.step_counts (env : MqttEnv) (m : MqttCore) (pc : MqttProcess) :
    (MqttThread.process pc).Counts m (pc.step env m).1 (pc.step env m).2 := by
  cases pc with
  | start =>
    dsimp only [MqttProcess.step, mqttApiEnter]
    split_ifs
    · exact .same .rfl rfl
    · -- The one section that lets it in.
      exact fun _ => rfl
  | entered =>
    dsimp only [MqttProcess.step, mqttMarkProcessStarted]
    split_ifs <;> exact .same .rfl rfl
  | looping work =>
    have hwork := work.step_uncounted env m
    dsimp only [MqttProcess.step]
    rcases hstep : work.step env m with ⟨m', work' | status⟩ <;> rw [hstep] at hwork <;>
      exact .same hwork rfl
  | resuming generation sessionPresent work =>
    have hwork := work.step_uncounted env m
    dsimp only [MqttProcess.step]
    split_ifs
    · exact .same .rfl rfl
    · -- The replay after a resumed session runs the work once more.
      rcases hstep : work.step env m with ⟨m', work' | status⟩ <;> rw [hstep] at hwork
      · exact .same hwork rfl
      · dsimp only
        split_ifs
        · exact .same hwork rfl
        · cases mqttStatusToErr status <;> exact .same hwork rfl
  | replaying replay =>
    have hreplay := replay.step_uncounted env m
    dsimp only [MqttProcess.step]
    rcases hstep : replay.step env m with ⟨m', _ | replay'⟩ <;> rw [hstep] at hreplay <;>
      exact .same hreplay rfl
  | connecting generation =>
    dsimp only [MqttProcess.step]
    split_ifs
    · exact .same .rfl rfl
    · cases mqttStatusToErr env.status <;> exact .same .rfl rfl
  | opening generation =>
    dsimp only [MqttProcess.step]
    cases env.result <;> exact .same .rfl rfl
  | resumed generation sessionPresent =>
    dsimp only [MqttProcess.step]
    cases sessionPresent <;> split_ifs <;> exact .same .rfl rfl
  | _ =>
    dsimp only [MqttProcess.step]
    try split_ifs
    all_goals exact .same .rfl rfl

/-- A call is counted by the section that lets it in. -/
theorem MqttCall.step_counts (m : MqttCore) (api : MqttCall) :
    (MqttThread.call api).Counts m (api.step m).1 (api.step m).2 := by
  cases api with
  | process => exact .same .rfl rfl
  | subscribe topic unsubscribe =>
    dsimp only [MqttCall.step, mqttApiEnter]
    split_ifs
    · exact .same .rfl rfl
    · exact .same .rfl rfl
    · exact fun _ => rfl
  | deinit =>
    dsimp only [MqttCall.step, mqttBeginDeinit]
    split_ifs <;> exact .same .rfl rfl
  | _ =>
    dsimp only [MqttCall.step, mqttApiEnter]
    split_ifs
    · exact .same .rfl rfl
    · exact fun _ => rfl

/-- Deinit is not one of the calls that are counted. -/
theorem MqttDeinit.step_counts (env : MqttEnv) (m : MqttCore) (pc : MqttDeinit) :
    (MqttThread.deinit pc).Counts m (pc.step env m).1 (pc.step env m).2 := by
  cases pc with
  | terminating =>
    have henqueue := mqttEnqueue_uncounted m .terminate env.refusal
    dsimp only [MqttDeinit.step]
    rcases hstep : mqttEnqueue m .terminate env.refusal with ⟨status, m'⟩
    rw [hstep] at henqueue
    dsimp only
    cases mqttEnqueueStatusToErr status <;> exact .same henqueue rfl
  | waiting =>
    dsimp only [MqttDeinit.step]
    split_ifs
    · exact .same .rfl rfl
    · exact .same .rfl rfl
    · cases env.result <;> exact .same .rfl rfl
  -- The cancellation runs callbacks, and counts none of them.
  | cancelling work =>
    have hcancel := mqttAgentCancel_uncounted env m work
    dsimp only [MqttDeinit.step]
    rcases hstep : mqttAgentCancel env m work with ⟨m', work' | status⟩ <;>
      rw [hstep] at hcancel <;> exact .same hcancel rfl
  | destroying =>
    dsimp only [MqttDeinit.step]
    cases env.result <;> exact .same .rfl rfl
  | _ =>
    dsimp only [MqttDeinit.step]
    try split_ifs
    all_goals exact .same .rfl rfl

/-- Whatever a thread does, the count moves as it enters and leaves. -/
theorem MqttThread.step_counts (env : MqttEnv) (m : MqttCore) (thread : MqttThread) :
    thread.Counts m (thread.step env m).1 (thread.step env m).2 := by
  -- By the kind of thread; only entering and leaving move the count.
  cases thread with
  | call api => exact api.step_counts m
  | process pc => exact pc.step_counts env m
  | deinit pc => exact pc.step_counts env m
  | disconnectEntered =>
    dsimp only [MqttThread.step, mqttDisconnectLocked]
    split_ifs
    · exact .same .rfl rfl
    · have henqueue := mqttEnqueueOperation_uncounted
        { m with client := { m.client with
          state := .disconnecting, disconnectResultValid := false } }
        ⟨.disconnect, m.client.connectGeneration, 0, 0, []⟩ env.refusal
      rcases hstep : mqttEnqueueOperation _ _ env.refusal with ⟨_ | _, m'⟩ <;>
        rw [hstep] at henqueue <;> exact .same henqueue rfl
  | terminating =>
    have henqueue := mqttEnqueue_uncounted m .terminate env.refusal
    dsimp only [MqttThread.step]
    rcases hstep : mqttEnqueue m .terminate env.refusal with ⟨status, m'⟩
    rw [hstep] at henqueue
    exact .same henqueue rfl
  | subscribeEntered topic unsubscribe =>
    have hsubscribe := mqttSubscribeLocked_uncounted m topic unsubscribe env.refusal
    dsimp only [MqttThread.step]
    rcases hstep : mqttSubscribeLocked m topic unsubscribe env.refusal with ⟨m', result⟩
    rw [hstep] at hsubscribe
    exact .same hsubscribe rfl
  | publishEntered =>
    have henqueue := mqttEnqueueOperation_uncounted m
      ⟨.publish, m.client.connectGeneration, 0, 0, []⟩ env.refusal
    dsimp only [MqttThread.step, mqttPublishLocked]
    split_ifs
    · exact .same .rfl rfl
    · rcases hstep : mqttEnqueueOperation m _ env.refusal with ⟨result, m'⟩
      rw [hstep] at henqueue
      exact .same henqueue rfl
  | connectOpened generation =>
    have henqueue := mqttEnqueueOperation_uncounted m ⟨.connect, generation, 0, 0, []⟩ env.refusal
    dsimp only [MqttThread.step]
    rcases hstep : mqttEnqueueOperation m _ env.refusal with ⟨_ | _, m'⟩ <;>
      rw [hstep] at henqueue <;> exact .same henqueue rfl
  | connectBegun previous generation =>
    dsimp only [MqttThread.step, mqttInstallConfig]
    cases env.result with
    | error e => exact .same .rfl rfl
    | ok _ =>
      dsimp only
      split_ifs <;> exact .same .rfl rfl
  | connectInstalled generation =>
    dsimp only [MqttThread.step]
    cases env.result <;> exact .same .rfl rfl
  | connectWaiting generation =>
    dsimp only [MqttThread.step]
    rcases mqttConnectResult m.client generation with _ | _ | _
    · dsimp only
      split_ifs <;> exact .same .rfl rfl
    · exact .same .rfl rfl
    · exact .same .rfl rfl
  | disconnectWaiting generation =>
    dsimp only [MqttThread.step]
    rcases mqttDisconnectResult m.client generation with _ | _ | _
    · dsimp only
      split_ifs <;> exact .same .rfl rfl
    · exact .same .rfl rfl
    · exact .same .rfl rfl
  | leaving result =>
    intro hone
    exact Nat.sub_add_cancel hone
  | _ =>
    dsimp only [MqttThread.step, mqttBeginConnect, mqttReleaseConnectReservation,
      mqttCancelConnectAttempt, mqttAbortDisconnect]
    try split_ifs
    all_goals exact .same .rfl rfl

/-- Deinit, taken apart at its accesses, counts no call either. -/
theorem MqttClosing.step_uncounted (env : MqttEnv) (m : MqttCore) (pc : MqttClosing) :
    Uncounted m (pc.step env m).1 := by
  -- As in `MqttDeinit.step_counts`, section by section.
  cases pc with
  | beginning =>
    dsimp only [MqttClosing.step, mqttBeginDeinit]
    split_ifs <;> exact .rfl
  | terminating =>
    have henqueue := mqttEnqueue_uncounted m .terminate env.refusal
    dsimp only [MqttClosing.step]
    rcases hstep : mqttEnqueue m .terminate env.refusal with ⟨status, m'⟩
    rw [hstep] at henqueue
    dsimp only
    cases mqttEnqueueStatusToErr status <;> exact henqueue
  | stopWaiting =>
    dsimp only [MqttClosing.step]
    cases env.result <;> exact .rfl
  | cancelling work =>
    have hcancel := mqttAgentCancel_uncounted env m work
    dsimp only [MqttClosing.step]
    rcases hstep : mqttAgentCancel env m work with ⟨m', work' | status⟩ <;>
      rw [hstep] at hcancel <;> exact hcancel
  | destroying =>
    dsimp only [MqttClosing.step]
    cases env.result <;> exact .rfl
  | _ =>
    dsimp only [MqttClosing.step]
    try split_ifs
    all_goals exact .rfl

end Counts

/-! ### Places -/

/-- The same of a task. -/
def MqttTask.counted : MqttTask → ℕ
  | .call thread => thread.counted
  | .deinit _ => 0

/-- What the call is about to do, whatever it holds. -/
def MqttPlace.task : MqttPlace → MqttTask
  | .ready task => task
  | .locked _ next => next
  | .posting _ next => next

/-- The call is in a section. -/
def MqttPlace.holds : MqttPlace → ℕ
  | .locked _ _ => 1
  | _ => 0

/-- The call that becomes a deinit. -/
theorem MqttThread.eq_of_deiniting {thread : MqttThread} (h : thread.deiniting = true) :
    thread = .call .deinit := by
  cases thread with
  | call api =>
    cases api with
    | deinit => rfl
    | _ => exact nomatch h
  | _ => exact nomatch h

/-- A task moves the count as its thread does. -/
theorem MqttTask.step_counts (env : MqttEnv) (m : MqttCore) (task : MqttTask)
    (h : task.counted ≤ m.client.apiInflight) :
    (task.step env m).1.client.apiInflight + task.counted =
      m.client.apiInflight + (task.step env m).2.2.counted := by
  cases task with
  | call thread =>
    dsimp only [MqttTask.step]
    by_cases hdeinit : thread.deiniting = true
    · rw [if_pos hdeinit, thread.eq_of_deiniting hdeinit]
      rfl
    rw [if_neg hdeinit]
    exact thread.step_counts env m h
  | deinit pc => exact pc.step_uncounted env m

/-- The counts of the client are those of the calls. -/
structure MqttShared.Balanced (s : MqttShared) (counted holds : ℕ) : Prop where
  counted : s.core.client.apiInflight = counted
  holds : s.lock.toNat = holds

/-- The count of the calls and the lock stay what the calls make of them. -/
theorem MqttPlace.step_balanced {s : MqttShared} {counted holds : ℕ} (env : MqttEnv)
    (place : MqttPlace)
    (h : s.Balanced (place.task.counted + counted) (place.holds + holds)) :
    (place.step env s).1.Balanced ((place.step env s).2.task.counted + counted)
      ((place.step env s).2.holds + holds) := by
  -- A call that is ready takes the lock for its section, or waits, or needs no lock.
  cases place with
  | ready task =>
    -- The call's own share of the two sums is set apart from `counted` and `holds`.
    have hcounted : s.core.client.apiInflight = task.counted + counted := h.counted
    have hcounts := task.step_counts env s.core (by omega)
    have hholds : s.lock.toNat = 0 + holds := h.holds
    dsimp only [MqttPlace.step]
    by_cases hlocks : task.locks env = true
    · rw [if_pos hlocks]
      by_cases hheld : s.lock = true
      · rw [if_pos hheld]
        exact h
      · rw [if_neg hheld]
        refine ⟨?_, ?_⟩
        · show (task.step env s.core).1.client.apiInflight = _ + counted
          dsimp only [MqttPlace.task]
          omega
        · rw [Bool.eq_false_iff.mpr hheld] at hholds
          show true.toNat = 1 + holds
          rw [← Nat.zero_add holds, ← hholds]
          rfl
    · rw [if_neg hlocks]
      refine ⟨?_, hholds⟩
      show (task.step env s.core).1.client.apiInflight = _ + counted
      dsimp only [MqttPlace.task]
      omega
  | locked post next =>
    have hholds : s.lock.toNat = 1 + holds := h.holds
    have hnone : holds = 0 := by
      have hle := s.lock.toNat_le
      omega
    refine ⟨?_, ?_⟩
    · cases post <;> exact h.counted
    · cases post <;> exact hnone ▸ rfl
  | posting sem next => exact ⟨h.counted, h.holds⟩

/-- The call has been let in, and has an access to the client left. Those of
`actrust_mqtt_deinit` itself are not meant. -/
def MqttPlace.Inside : MqttPlace → Prop
  | .ready (.call (.call _)) => False
  | .ready (.call (.process .start)) => False
  | .ready (.call (.returned _)) => False
  | .ready (.deinit _) => False
  | .locked _ (.deinit _) => False
  | .posting _ (.deinit _) => False
  | _ => True

/-- The call has not touched the client yet. -/
def MqttPlace.Fresh : MqttPlace → Prop
  | .ready (.call (.call _)) => True
  | .ready (.call (.process .start)) => True
  | .ready (.deinit .beginning) => True
  | _ => False

/-- The call is in `actrust_mqtt_deinit`. -/
def MqttPlace.UnderWay : MqttPlace → Prop
  | .ready (.deinit .beginning) => False
  | .ready (.deinit (.returned _)) => False
  | .ready (.deinit _) => True
  | .locked _ (.deinit _) => True
  | .posting _ (.deinit _) => True
  | _ => False

/-- The call has left its last section, or another one, and has yet to post. -/
def MqttPlace.Posting : MqttPlace → Prop
  | .posting _ (.deinit _) => False
  | .posting _ _ => True
  | _ => False

/-- `actrust_mqtt_deinit` is about to release the client. -/
def MqttPlace.Releases (place : MqttPlace) : Prop :=
  match place.task with
  | .deinit .destroying => True
  | _ => False

/-- The look of `actrust_mqtt_deinit` that is about to find the client idle. -/
def MqttPlace.FindsIdle (s : MqttShared) : MqttPlace → Prop
  | .ready (.deinit .idleLooking) =>
    s.lock = false ∧ mqttLifecycleIdleLocked s.core.client = true
  | _ => False

section Places

variable {s : MqttShared} {place : MqttPlace}

/-- A call of `actrust_mqtt_deinit` is a `MqttClosing`. -/
def MqttTask.Plain : MqttTask → Prop
  | .call thread => thread.deinits = false
  | _ => True

/-- Whoever is inside is counted, in a section, or has yet to post. -/
theorem MqttPlace.Inside.counted (h : place.Inside) (hplain : place.task.Plain)
    (hposting : ¬place.Posting) :
    place.task.counted ≠ 0 ∨ place.holds ≠ 0 := by
  -- A call that is inside is counted, or holds the lock behind the section that took its count
  -- back.
  cases place with
  | ready task =>
    refine .inl ?_
    cases task with
    | call thread =>
      cases thread with
      | process pc =>
        cases pc with
        | start => exact h.elim
        | _ => exact Nat.one_ne_zero
      | call api => exact h.elim
      | deinit pc => cases hplain
      | returned result => exact h.elim
      | _ => exact Nat.one_ne_zero
    | deinit pc => exact h.elim
  | locked post next => exact .inr Nat.one_ne_zero
  | posting sem next =>
    cases next with
    | deinit pc => exact h.elim
    | _ => exact absurd trivial hposting

/-- A call that is not inside gets there only from its beginning. -/
theorem MqttPlace.step_outside (env : MqttEnv) (s : MqttShared) (hinside : ¬place.Inside)
    (hfresh : ¬place.Fresh) : ¬(place.step env s).2.Inside := by
  -- A call that has left stays outside; the fresh one is excluded.
  cases place with
  | ready task =>
    cases task with
    | call thread =>
      cases thread with
      | process pc =>
        cases pc with
        | start => exact absurd trivial hfresh
        | _ => exact absurd trivial hinside
      | call api => exact absurd trivial hfresh
      | returned result => exact id
      | _ => exact absurd trivial hinside
    | deinit pc =>
      dsimp only [MqttPlace.step, MqttTask.step]
      split_ifs <;> exact id
  | locked post next =>
    cases next with
    | deinit pc => cases post <;> exact id
    | _ => exact absurd trivial hinside
  | posting sem next =>
    cases next with
    | deinit pc => exact id
    | _ => exact absurd trivial hinside

/-- A deinit at its release is under way. -/
theorem MqttPlace.Releases.underWay (h : place.Releases) : place.UnderWay := by
  obtain ⟨task⟩ | ⟨post, task⟩ | ⟨sem, task⟩ := place <;>
  · cases task with
    | deinit pc =>
      cases pc with
      | destroying => exact trivial
      | _ => exact h.elim
    | _ => exact h.elim

/-- A section that another call is in is passed by. -/
theorem MqttPlace.step_ready (env : MqttEnv) (s : MqttShared) (task : MqttTask) :
    ((MqttPlace.ready task).step env s = (s, .ready task) ∧ s.lock = true) ∨
    (task.locks env = true ∧ s.lock = false ∧ (MqttPlace.ready task).step env s =
      ({ s with core := (task.step env s.core).1, lock := true },
        .locked (task.step env s.core).2.1 (task.step env s.core).2.2)) ∨
    (task.locks env = false ∧ (MqttPlace.ready task).step env s =
      ({ s with core := (task.step env s.core).1, freed := s.freed || task.frees env },
        .ready (task.step env s.core).2.2)) := by
  -- The three ways of a call that is ready: the lock is taken, it takes the lock, or it needs none.
  dsimp only [MqttPlace.step]
  by_cases hlocks : task.locks env = true
  · rw [if_pos hlocks]
    by_cases hheld : s.lock = true
    · rw [if_pos hheld]
      exact .inl ⟨rfl, hheld⟩
    · rw [if_neg hheld]
      exact .inr (.inl ⟨hlocks, Bool.eq_false_iff.mpr hheld, rfl⟩)
  · rw [if_neg hlocks]
    exact .inr (.inr ⟨Bool.eq_false_iff.mpr hlocks, rfl⟩)

/-- What a step does to the task of a call. -/
theorem MqttPlace.step_task (env : MqttEnv) (s : MqttShared) :
    (place.step env s).2.task = place.task ∨
      place = .ready place.task ∧
        (place.step env s).2.task = (place.task.step env s.core).2.2 := by
  cases place with
  | ready task =>
    rcases MqttPlace.step_ready env s task with ⟨heq, -⟩ | ⟨-, -, heq⟩ | ⟨-, heq⟩
    · rw [heq]
      exact .inl rfl
    · rw [heq]
      exact .inr ⟨rfl, rfl⟩
    · rw [heq]
      exact .inr ⟨rfl, rfl⟩
  | locked post next => cases post <;> exact .inl rfl
  | posting sem next => exact .inl rfl

/-- A call that is no deinit does not turn into one. -/
theorem MqttThread.step_plain (env : MqttEnv) (m : MqttCore) {thread : MqttThread}
    (hplain : thread.deinits = false) (hdeinit : thread.deiniting = false) :
    (thread.step env m).2.deinits = false := by
  have hstep := thread.step_loop env m
  generalize (thread.step env m).1 = m' at hstep
  generalize (thread.step env m).2 = thread' at hstep
  cases hstep with
  | quiet _ _ hplain' _ => exact hplain'
  | started _ _ => rfl
  | stopped result => rfl
  | requested => split_ifs <;> rfl
  | terminate result => rfl
  | closing _ => cases hdeinit
  | deinit pc pc' _ _ _ _ => cases hplain
  | returned pc result _ _ => cases hplain

/-- The same of a task. -/
theorem MqttTask.step_plain (env : MqttEnv) (m : MqttCore) {task : MqttTask} (h : task.Plain) :
    (task.step env m).2.2.Plain := by
  cases task with
  | call thread =>
    dsimp only [MqttTask.step]
    by_cases hdeinit : thread.deiniting = true
    · rw [if_pos hdeinit]
      exact trivial
    rw [if_neg hdeinit]
    exact MqttThread.step_plain env m h (Bool.eq_false_iff.mpr hdeinit)
  | deinit pc => exact trivial

/-- Only the look that finds the client idle leads to the release. -/
theorem MqttClosing.step_destroying (env : MqttEnv) (m : MqttCore) (pc : MqttClosing)
    (h : (pc.step env m).2.2 = .destroying) :
    pc = .idleLooking ∧ mqttLifecycleIdleLocked m.client = true := by
  -- Every other section goes to another place, or back.
  cases pc with
  -- Only the look at the counts leads to the release, and only if all of them are zero.
  | idleLooking =>
    refine ⟨rfl, ?_⟩
    by_contra hidle
    dsimp only [MqttClosing.step] at h
    rw [if_neg hidle] at h
    split_ifs at h
  | beginning =>
    dsimp only [MqttClosing.step, mqttBeginDeinit] at h
    split_ifs at h
  | terminating =>
    dsimp only [MqttClosing.step] at h
    rcases hstep : mqttEnqueue m .terminate env.refusal with ⟨status, m'⟩
    rw [hstep] at h
    dsimp only at h
    cases hstatus : mqttEnqueueStatusToErr status <;> rw [hstatus] at h <;> cases h
  | stopWaiting =>
    dsimp only [MqttClosing.step] at h
    cases hresult : env.result <;> rw [hresult] at h <;> cases h
  | cancelling work =>
    dsimp only [MqttClosing.step] at h
    rcases hstep : mqttAgentCancel env m work with ⟨m', work' | status⟩ <;> rw [hstep] at h <;>
      cases h
  | destroying =>
    dsimp only [MqttClosing.step] at h
    cases hresult : env.result <;> rw [hresult] at h <;> cases h
  | _ =>
    dsimp only [MqttClosing.step] at h
    try split_ifs at h
    all_goals cases h

/-- The same of a task: only the section that finds the client idle leads to the release. -/
theorem MqttTask.step_destroying (env : MqttEnv) (m : MqttCore) {task : MqttTask}
    (h : (task.step env m).2.2 = .deinit .destroying) :
    task = .deinit .idleLooking ∧ mqttLifecycleIdleLocked m.client = true := by
  cases task with
  | call thread =>
    dsimp only [MqttTask.step] at h
    by_cases hdeinit : thread.deiniting = true
    · rw [if_pos hdeinit] at h
      cases h
    rw [if_neg hdeinit] at h
    cases h
  | deinit pc =>
    obtain ⟨rfl, hidle⟩ := pc.step_destroying env m (MqttTask.deinit.inj h)
    exact ⟨rfl, hidle⟩

/-- A call at its release is the deinit about to destroy. -/
theorem MqttPlace.releases_iff : place.Releases ↔ place.task = .deinit .destroying := by
  unfold MqttPlace.Releases
  constructor
  · intro h
    split at h
    · assumption
    · exact h.elim
  · intro h
    rw [h]
    exact trivial

/-- The release begins behind a look that finds the client idle. -/
theorem MqttPlace.step_releases (env : MqttEnv) (s : MqttShared)
    (h : (place.step env s).2.Releases) : place.Releases ∨ place.FindsIdle s := by
  rw [MqttPlace.releases_iff] at h ⊢
  -- A call that holds the lock or posts keeps what it goes on to do.
  cases place with
  | ready task =>
    rcases MqttPlace.step_ready env s task with ⟨heq, -⟩ | ⟨hlocks, hfree, heq⟩ | ⟨hlocks, heq⟩
    · rw [heq] at h
      exact .inl h
    · rw [heq] at h
      obtain ⟨rfl, hidle⟩ := MqttTask.step_destroying env s.core h
      exact .inr ⟨hfree, hidle⟩
    · rw [heq] at h
      obtain ⟨rfl, -⟩ := MqttTask.step_destroying env s.core h
      cases hlocks
  | locked post next => cases post <;> exact .inl h
  | posting sem next => exact .inl h

/-- Only the release frees the client. -/
theorem MqttPlace.step_frees (env : MqttEnv) (s : MqttShared)
    (h : (place.step env s).1.freed = true) : s.freed = true ∨ place.Releases := by
  cases place with
  | ready task =>
    rcases MqttPlace.step_ready env s task with ⟨heq, -⟩ | ⟨-, -, heq⟩ | ⟨-, heq⟩
    · rw [heq] at h
      exact .inl h
    · rw [heq] at h
      exact .inl h
    · rw [heq] at h
      rcases Bool.or_eq_true_iff.mp h with hfreed | hfrees
      · exact .inl hfreed
      · -- `frees` is true of the destroying section alone.
        refine .inr (MqttPlace.releases_iff.mpr ?_)
        cases task with
        | deinit pc =>
          cases pc with
          | destroying => rfl
          | _ => exact nomatch hfrees
        | _ => exact nomatch hfrees
  | locked post next => exact .inl h
  | posting sem next => exact .inl h

instance : DecidablePred MqttPlace.Inside := fun place => by
  unfold MqttPlace.Inside
  split <;> infer_instance

instance : DecidablePred MqttPlace.Fresh := fun place => by
  unfold MqttPlace.Fresh
  split <;> infer_instance

instance : DecidablePred MqttPlace.UnderWay := fun place => by
  unfold MqttPlace.UnderWay
  split <;> infer_instance

instance : DecidablePred MqttPlace.Posting := fun place => by
  unfold MqttPlace.Posting
  split <;> infer_instance

instance : DecidablePred MqttPlace.Releases := fun place => by
  unfold MqttPlace.Releases
  split <;> infer_instance

instance (s : MqttShared) : DecidablePred (MqttPlace.FindsIdle s) := fun place => by
  unfold MqttPlace.FindsIdle
  split <;> infer_instance

end Places

/-! ### Runs -/

namespace AccessSystem

variable {s : AccessSystem}

/-- No call begins while another one deinitializes the client, or when it is freed. -/
def Documented (s : AccessSystem) (a : AccessAction) : Prop :=
  match Threads.acting s a with
  | none => True
  | some (_, place) =>
    place.Fresh → s.shared.freed = false ∧ ∀ place' ∈ s.calls, ¬place'.UnderWay

/-- When deinit finds the client idle, no call is between a section and its post. -/
def Permits (s : AccessSystem) (a : AccessAction) : Prop :=
  match Threads.acting s a with
  | none => True
  | some (_, place) => place.FindsIdle s.shared → ∀ place' ∈ s.calls, ¬place'.Posting

instance (s : AccessSystem) (a : AccessAction) : Decidable (s.Documented a) := by
  unfold Documented
  split <;> infer_instance

instance (s : AccessSystem) (a : AccessAction) : Decidable (s.Permits a) := by
  unfold Permits
  split <;> infer_instance

/-- The client is freed, or about to be released. -/
def Releasing (s : AccessSystem) : Prop :=
  s.shared.freed = true ∨ ∃ place ∈ s.calls, place.Releases

/-- **The process call is gone**, and so is every other one that was let in. -/
def Gone (s : AccessSystem) : Prop := s.Releasing → ∀ place ∈ s.calls, ¬place.Inside

/-- The client's counts are those of the calls, and the release waits for them. -/
structure Settles (s : AccessSystem) : Prop where
  balanced : s.shared.Balanced (Threads.total (·.task.counted) s.calls)
    (Threads.total MqttPlace.holds s.calls)
  plain : ∀ place ∈ s.calls, place.task.Plain
  gone : s.Gone

/-- No call has begun. -/
theorem settles_initial : Settles .initial where
  balanced := ⟨rfl, rfl⟩
  plain _ h := nomatch h
  gone _ _ h := nomatch h

/-- A look that finds the client idle finds nobody inside. -/
theorem Settles.nobody (h : s.Settles) {place : MqttPlace} (hidle : place.FindsIdle s.shared)
    (hposting : ∀ place' ∈ s.calls, ¬place'.Posting) : ∀ place' ∈ s.calls, ¬place'.Inside := by
  unfold MqttPlace.FindsIdle at hidle
  split at hidle
  · obtain ⟨hfree, hidle⟩ := hidle
    -- The counts of the client are zero, so those of the calls are.
    have hcounted : Threads.total (·.task.counted) s.calls = 0 := by
      rw [← h.balanced.counted]
      exact (of_decide_eq_true hidle).1
    have hholds : Threads.total MqttPlace.holds s.calls = 0 := by
      rw [← h.balanced.holds, hfree]
      rfl
    intro place' hmem hinside
    rcases hinside.counted (h.plain place' hmem) (hposting place' hmem) with hone | hone
    · exact hone (Threads.total_eq_zero.mp hcounted place' hmem)
    · exact hone (Threads.total_eq_zero.mp hholds place' hmem)
  · exact hidle.elim

/-- A call that has just begun is outside. -/
theorem Settles.start (h : s.Settles) (api : MqttCall) :
    Settles ⟨s.shared, s.calls ++ [api.place]⟩ where
  balanced := by
    rw [Threads.total_snoc, Threads.total_snoc]
    exact h.balanced
  plain place hmem := by
    rcases List.mem_append.mp hmem with hmem | hmem
    · exact h.plain place hmem
    · rw [List.mem_singleton.mp hmem]
      exact rfl
  gone hreleasing place hmem := by
    have hbefore : s.Releasing := by
      refine hreleasing.imp_right fun ⟨place, hmem, hplace⟩ => ⟨place, ?_, hplace⟩
      rcases List.mem_append.mp hmem with hmem | hmem
      · exact hmem
      · rw [List.mem_singleton.mp hmem] at hplace
        exact hplace.elim
    rcases List.mem_append.mp hmem with hmem | hmem
    · exact h.gone hbefore place hmem
    · rw [List.mem_singleton.mp hmem]
      exact id

/-- An access of one call keeps the invariant, under the two conditions on the access. -/
theorem Settles.advance (h : s.Settles) {k : ℕ} {place : MqttPlace}
    (hk : s.calls[k]? = some place) (env : MqttEnv)
    (hfresh : place.Fresh → s.shared.freed = false ∧ ∀ place' ∈ s.calls, ¬place'.UnderWay)
    (hpermits : place.FindsIdle s.shared → ∀ place' ∈ s.calls, ¬place'.Posting) :
    Settles ⟨(place.step env s.shared).1, s.calls.set k (place.step env s.shared).2⟩ where
  balanced := by
    -- The sum over the calls is the call's own weight and that of the rest.
    obtain ⟨before, after, hcalls, hset⟩ := Threads.split hk
    have htotal : ∀ (w : MqttPlace → ℕ) (place' : MqttPlace),
        Threads.total w (before ++ place' :: after) =
          w place' + Threads.total w (before ++ after) := by
      intro w place'
      simp only [Threads.total, List.map_append, List.map_cons, List.sum_append, List.sum_cons]
      omega
    have hbalanced := h.balanced
    rw [hcalls, htotal, htotal] at hbalanced
    rw [hset, htotal, htotal]
    exact place.step_balanced env hbalanced
  plain place' hmem := by
    -- The others are as before; the call itself stays what it was, by its task.
    rcases List.mem_or_eq_of_mem_set hmem with hold | rfl
    · exact h.plain place' hold
    · have hplain := h.plain place (List.mem_of_getElem? hk)
      rcases place.step_task env s.shared with htask | ⟨-, htask⟩
      · rw [htask]
        exact hplain
      · rw [htask]
        exact MqttTask.step_plain env s.shared.core hplain
  gone hreleasing := by
    have hmem := List.mem_of_getElem? hk
    -- The client was being released before the access, or this access finds it idle.
    have hbefore : s.Releasing ∨ place.FindsIdle s.shared := by
      rcases hreleasing with hfreed | ⟨place', hmem', hreleases⟩
      · rcases place.step_frees env s.shared hfreed with hfreed | hreleases
        · exact .inl (.inl hfreed)
        · exact .inl (.inr ⟨place, hmem, hreleases⟩)
      · rcases List.mem_or_eq_of_mem_set hmem' with hold | rfl
        · exact .inl (.inr ⟨place', hold, hreleases⟩)
        · rcases place.step_releases env s.shared hreleases with hreleases | hidle
          · exact .inl (.inr ⟨place, hmem, hreleases⟩)
          · exact .inr hidle
    have hnobody : (∀ place' ∈ s.calls, ¬place'.Inside) ∧ ¬place.Fresh := by
      rcases hbefore with hreleasing | hidle
      · refine ⟨h.gone hreleasing, fun hplace => ?_⟩
        obtain ⟨hfreed, hnone⟩ := hfresh hplace
        rcases hreleasing with hfreed' | ⟨place', hmem', hreleases⟩
        · cases hfreed.symm.trans hfreed'
        · exact hnone place' hmem' hreleases.underWay
      · refine ⟨h.nobody hidle (hpermits hidle), fun hplace => ?_⟩
        unfold MqttPlace.FindsIdle at hidle
        split at hidle
        · exact hplace
        · exact hidle
    intro place' hmem'
    rcases List.mem_or_eq_of_mem_set hmem' with hold | rfl
    · exact hnobody.1 place' hold
    · exact MqttPlace.step_outside env s.shared (hnobody.1 place hmem) hnobody.2

/-- Every step of a run under the conditions keeps the invariant. -/
theorem Settles.step (h : s.Settles) (a : AccessAction) (hdocumented : s.Documented a)
    (hpermits : s.Permits a) : Settles (AccessSystem.step s a).2 := by
  rcases Threads.step_cases MqttCall.place MqttPlace.step s a with
    ⟨api, -, hs⟩ | ⟨-, hs⟩ | ⟨k, env, place, -, hk, hacting, hs⟩
  · rw [AccessSystem.step, hs]
    exact h.start api
  · rw [AccessSystem.step, hs]
    exact h
  · rw [Documented, hacting] at hdocumented
    rw [Permits, hacting] at hpermits
    rw [AccessSystem.step, hs]
    exact h.advance hk env hdocumented hpermits

/-- **In every run under both conditions no call that was let in is inside once the client is
released.** -/
theorem process_gone {actions : List AccessAction}
    (hdocumented : Meets AccessSystem.step Documented actions .initial)
    (hpermits : Meets AccessSystem.step Permits actions .initial) :
    Always AccessSystem.step Gone actions .initial :=
  always_of_invariant (I := Settles) (fun _ a h ha => h.step a ha.1 ha.2) (fun _ h => h.gone)
    settles_initial (hdocumented.and hpermits)

/-- The agent, when it acts, does what is given; all else succeeds. -/
def agentDoes (agent : MqttAgentAction) : MqttEnv := ⟨agent, none, .success, .ok (), false, false⟩

/-- The call at `k` takes `n` accesses. -/
def goOn (k n : ℕ) (agent : MqttAgentAction) : List AccessAction :=
  List.replicate n (.advance k (agentDoes agent))

/-- A process loop has begun; deinit has asked it to stop, and waits. -/
def stopping : List AccessAction :=
  .start .process :: goOn 0 5 (.quit .success) ++ .start .deinit :: goOn 1 10 (.quit .success)

/-- Deinit finds the loop stopped, cancels what is queued, finds the client idle and frees it. -/
def deiniting : List AccessAction :=
  goOn 1 5 (.quit .success) ++ goOn 1 9 .receive ++ goOn 1 8 (.quit .success)

/-- The process call leaves for good before deinit goes on. -/
def goneRun : List AccessAction := stopping ++ goOn 0 10 (.quit .success) ++ deiniting

/-- A whole deinit against a process loop that leaves first. -/
theorem process_gone_stopped :
    Meets AccessSystem.step Documented goneRun .initial ∧
      Meets AccessSystem.step Permits goneRun .initial ∧
      (run AccessSystem.step goneRun .initial).2.shared.freed = true ∧
      Always AccessSystem.step Gone goneRun .initial := by
  have hdocumented : Meets AccessSystem.step Documented goneRun .initial := by decide +kernel
  have hpermits : Meets AccessSystem.step Permits goneRun .initial := by decide +kernel
  exact ⟨hdocumented, hpermits, by decide +kernel, process_gone hdocumented hpermits⟩

/-- It has yet to post when deinit goes on. -/
def postingRun : List AccessAction := stopping ++ goOn 0 9 (.quit .success) ++ deiniting

/-- Without the second condition: the process call has yet to post when the client is freed. -/
theorem not_process_gone :
    ¬ ∀ actions : List AccessAction, Meets AccessSystem.step Documented actions .initial →
      Always AccessSystem.step Gone actions .initial := by
  intro h
  have hfreed : (run AccessSystem.step postingRun .initial).2.Releasing :=
    .inl (by decide +kernel)
  have hinside : ∃ place ∈ (run AccessSystem.step postingRun .initial).2.calls, place.Inside := by
    decide +kernel
  obtain ⟨place, hmem, hplace⟩ := hinside
  exact (h postingRun (by decide +kernel)).last hfreed place hmem hplace

end AccessSystem

end TrustSdk.Mqtt
