import Mathlib.Tactic.Cases
import TrustSdk.Cloud.Provisioning

/-!
# Which replies the waiter sees

The service thread publishes a request, computes its deadline, writes WAIT and only then looks at
the phase. A reply is processed when the callback writes its phase, and nothing keeps that write
away from the ones of the service thread. `Unhindered` lists the steps that lose a reply:

* an answer is written between the publish and the write of WAIT, which then overwrites it;
* another phase is written over an answer before the waiter has read it;
* the waiter gives up, at its own check or in the semaphore, when an answer has been processed in
  time since it last looked;
* the semaphore fails.

In every run without such a step the wait ends according to the reply (`wait_follows_reply`), and
it does end: three steps of the service thread suffice once a reply is posted or the deadline has
passed. `not_wait_follows_reply` is a run with a step of the first kind.

The invariant is by the program counter (`Stage`). While the waiter is in its loop, the phase tells
whether an answer has been processed (`Waiting`), so that a look misses none; behind a look that has
found nothing, every answer is newer than the look.
-/

namespace TrustSdk.Cloud

open Json Machine

/-- The phase is an answer to the request of the round. -/
def AwsRound.Answers (round : AwsRound) (phase : RegistrationPhase) : Prop :=
  phase = round.acceptedPhase ∨ phase = round.rejectedPhase

instance (round : AwsRound) (phase : RegistrationPhase) : Decidable (round.Answers phase) :=
  inferInstanceAs (Decidable (_ ∨ _))

/-- The phase that is waited in is no answer. -/
theorem AwsRound.not_answers_waitPhase (round : AwsRound) : ¬ round.Answers round.waitPhase := by
  cases round <;> decide

/-- What the callback has written since a mark, and when. -/
def repliesSince (mark : Mark) (marks : List Mark) : List (RegistrationPhase × ℕ) :=
  (marks.takeWhile (· ≠ mark)).filterMap fun
    | .reply phase time => some (phase, time)
    | _ => none

section

variable (phase : RegistrationPhase) (time : ℕ) (marks : List Mark)

/-- Nothing is written before the first mark. -/
@[simp] theorem repliesSince_nil (mark : Mark) : repliesSince mark [] = [] := rfl

/-- Nothing is written at the mark itself. -/
@[simp] theorem repliesSince_self (mark : Mark) : repliesSince mark (mark :: marks) = [] := by
  simp [repliesSince]

/-- An answer behind the request. -/
@[simp] theorem repliesSince_request_reply :
    repliesSince .request (.reply phase time :: marks) =
      (phase, time) :: repliesSince .request marks := by
  simp [repliesSince]

/-- An answer behind the look. -/
@[simp] theorem repliesSince_look_reply :
    repliesSince .look (.reply phase time :: marks) =
      (phase, time) :: repliesSince .look marks := by
  simp [repliesSince]

/-- A look says nothing about what has been processed since the request. -/
@[simp] theorem repliesSince_request_look :
    repliesSince .request (.look :: marks) = repliesSince .request marks := by
  simp [repliesSince]

end

/-! ### The condition -/

/-- The round of a request that may have its reply while WAIT is not written yet. -/
def ServicePc.unarmed : ServicePc → Option AwsRound
  | .publishing round | .published round | .arming round _ => some round
  | _ => none

/-- The round and the deadline of a wait that has begun. -/
def ServicePc.waits : ServicePc → Option (AwsRound × ℕ)
  | .armed round deadline | .looking round deadline | .checking round deadline
  | .sleeping round deadline _ => some (round, deadline)
  | _ => none

/-- No answer has been processed in time since the waiter last looked. -/
def NoneInTime (s : Provisioning) (round : AwsRound) (deadline : ℕ) : Prop :=
  ∀ reply ∈ repliesSince .look s.marks, round.Answers reply.1 → deadline ≤ reply.2

/-- The step loses no reply. -/
def Unhindered (s : Provisioning) : ProvisioningAction → Prop
  | .callback =>
    match s.callback with
    | .setting phase =>
      (∀ round ∈ s.service.unarmed, ¬ round.Answers phase) ∧
      ∀ wait ∈ s.service.waits, wait.1.Answers s.ctx.registrationPhase → wait.1.Answers phase
    | _ => True
  | .service env =>
    match s.service with
    | .checking round deadline => deadline ≤ s.now → NoneInTime s round deadline
    | .sleeping round deadline limit =>
      env.result = .ok () ∧
        (s.ctx.phaseSem = 0 → limit ≤ s.now → NoneInTime s round deadline)
    | _ => True
  | _ => True

instance (s : Provisioning) (round : AwsRound) (deadline : ℕ) :
    Decidable (NoneInTime s round deadline) :=
  inferInstanceAs (Decidable (∀ _ ∈ repliesSince .look s.marks, _))

instance (s : Provisioning) (a : ProvisioningAction) : Decidable (Unhindered s a) := by
  cases a with
  | tick elapsed => exact .isTrue trivial
  | deliver stores msg => exact .isTrue trivial
  | callback =>
    unfold Unhindered
    cases s.callback <;> dsimp only <;> infer_instance
  | service env =>
    unfold Unhindered
    cases s.service <;> dsimp only <;> infer_instance

/-- A wait has returned according to what the callback has processed since the request. -/
inductive According (round : AwsRound) (deadline now : ℕ)
    (replies : List (RegistrationPhase × ℕ)) : Except Err Unit → Prop
  | accepted (time : ℕ) : (round.acceptedPhase, time) ∈ replies →
      According round deadline now replies (.ok ())
  | rejected (time : ℕ) : (round.rejectedPhase, time) ∈ replies →
      According round deadline now replies (.error (cloudErr .badState))
  | timedOut : deadline ≤ now → (∀ reply ∈ replies, round.Answers reply.1 → deadline ≤ reply.2) →
      According round deadline now replies (.error (cloudErr .timeout))

/-! ### The invariant -/

/-- The phase is the last answer, if there is one. -/
structure Waiting (round : AwsRound) (phase : RegistrationPhase) (marks : List Mark) : Prop where
  written : round.Answers phase → ∃ time, (phase, time) ∈ repliesSince .request marks
  none : ¬ round.Answers phase → ∀ reply ∈ repliesSince .request marks, ¬ round.Answers reply.1

/-- Every answer is newer than the last look. -/
def Unseen (round : AwsRound) (marks : List Mark) : Prop :=
  ∀ reply ∈ repliesSince .request marks, round.Answers reply.1 → reply ∈ repliesSince .look marks

/-- The deadline of the wait is not further away than its timeout. -/
def Timed (deadline now : ℕ) : Prop := deadline ≤ now + cloudAwsRegisterTimeoutMs

/-- What holds where the service thread is. -/
def Stage (phase : RegistrationPhase) (now : ℕ) (marks : List Mark) : ServicePc → Prop
  | .publishing round | .published round =>
    ∀ reply ∈ repliesSince .request marks, ¬ round.Answers reply.1
  | .arming round deadline =>
    (∀ reply ∈ repliesSince .request marks, ¬ round.Answers reply.1) ∧ Timed deadline now
  | .armed round deadline | .looking round deadline =>
    Waiting round phase marks ∧ Timed deadline now
  | .checking round deadline =>
    Waiting round phase marks ∧ Timed deadline now ∧ Unseen round marks
  | .sleeping round deadline limit =>
    Waiting round phase marks ∧ Timed deadline now ∧ Unseen round marks ∧ limit = deadline
  | .waited round deadline result =>
    According round deadline now (repliesSince .request marks) result
  | _ => True

/-- The invariant: the stage of the service thread. -/
def Inv (s : Provisioning) : Prop := Stage s.ctx.registrationPhase s.now s.marks s.service

variable {json : CoreJson} {config : AwsConfig} {s : Provisioning} {round : AwsRound}
  {phase : RegistrationPhase} {deadline now : ℕ} {marks : List Mark}

/-! ### Time and messages -/

/-- A deadline stays timed as the clock goes on. -/
theorem Timed.later (h : Timed deadline now) (elapsed : ℕ) : Timed deadline (now + elapsed) := by
  unfold Timed at h ⊢
  omega

/-- The clock keeps the stage. -/
theorem Stage.tick {pc : ServicePc} (h : Stage phase now marks pc) (elapsed : ℕ) :
    Stage phase (now + elapsed) marks pc := by
  cases pc with
  | arming round deadline => exact ⟨h.1, h.2.later elapsed⟩
  | armed round deadline => exact ⟨h.1, h.2.later elapsed⟩
  | looking round deadline => exact ⟨h.1, h.2.later elapsed⟩
  | checking round deadline => exact ⟨h.1, h.2.1.later elapsed, h.2.2⟩
  | sleeping round deadline limit => exact ⟨h.1, h.2.1.later elapsed, h.2.2⟩
  | waited round deadline result =>
    -- A wait that timed out had its deadline behind it already.
    cases h with
    | accepted time hmem => exact .accepted time hmem
    | rejected time hmem => exact .rejected time hmem
    | timedOut hle hlate => exact .timedOut (Nat.le_trans hle (Nat.le_add_right _ _)) hlate
  | _ => exact h

/-- Up to its last step the callback leaves the phase and the semaphore alone. -/
-- What the callback stores is not what the wait looks at.
theorem registrationCallback_phase (json : CoreJson) (stores : AwsStores) (config : AwsConfig)
    (ctx : AwsContext) (msg : AwsMessage) :
    (actrustCloudAwsRegistrationCallback json stores config ctx msg).1.registrationPhase =
        ctx.registrationPhase ∧
      (actrustCloudAwsRegistrationCallback json stores config ctx msg).1.phaseSem =
        ctx.phaseSem := by
  -- Reading the token writes the token alone.
  have htoken (ctx' : AwsContext) :
      (readOwnershipToken json ctx' msg).1.registrationPhase = ctx'.registrationPhase ∧
        (readOwnershipToken json ctx' msg).1.phaseSem = ctx'.phaseSem := by
    unfold readOwnershipToken
    split
    · exact ⟨rfl, rfl⟩
    · split <;> exact ⟨rfl, rfl⟩
  -- Storing the name writes the name alone.
  have hname (ctx' : AwsContext) :
      (storeThingName stores config ctx').1.registrationPhase = ctx'.registrationPhase ∧
        (storeThingName stores config ctx').1.phaseSem = ctx'.phaseSem := by
    unfold storeThingName
    split
    · exact ⟨rfl, rfl⟩
    · split <;> exact ⟨rfl, rfl⟩
  unfold actrustCloudAwsRegistrationCallback
  -- By the topic of the message; what is written is never the phase.
  split_ifs
  · unfold handleCsrAccepted
    split
    · exact ⟨rfl, rfl⟩
    split
    · exact ⟨rfl, rfl⟩
    split
    · exact ⟨rfl, rfl⟩
    split
    · exact ⟨rfl, rfl⟩
    exact htoken _
  · exact ⟨rfl, rfl⟩
  · unfold handleRegisterAccepted
    split
    · exact ⟨rfl, rfl⟩
    split
    · exact ⟨rfl, rfl⟩
    split
    · exact ⟨rfl, rfl⟩
    · exact ⟨rfl, rfl⟩
    · exact hname _
  · exact ⟨rfl, rfl⟩
  · exact ⟨rfl, rfl⟩

/-- Until the callback writes its phase, a message changes nothing that the service thread waits
for. -/
theorem Provisioning.deliver_frame (json : CoreJson) (config : AwsConfig) (s : Provisioning)
    (stores : AwsStores) (msg : AwsMessage) :
    (s.deliver json config stores msg).ctx.registrationPhase = s.ctx.registrationPhase ∧
      (s.deliver json config stores msg).ctx.phaseSem = s.ctx.phaseSem ∧
      (s.deliver json config stores msg).service = s.service ∧
      (s.deliver json config stores msg).now = s.now ∧
      (s.deliver json config stores msg).marks = s.marks := by
  obtain ⟨hphase, hsem⟩ := registrationCallback_phase json stores config s.ctx msg
  unfold Provisioning.deliver
  split_ifs
  · exact ⟨rfl, rfl, rfl, rfl, rfl⟩
  · cases hcb : actrustCloudAwsRegistrationCallback json stores config s.ctx msg with
    | mk ctx written =>
      rw [hcb] at hphase hsem
      cases written with
      | none => exact ⟨hphase, hsem, rfl, rfl, rfl⟩
      | some phase => exact ⟨hphase, hsem, rfl, rfl, rfl⟩

/-! ### The callback writes a phase -/

/-- An answer that is written is processed. -/
theorem Waiting.reply {phase' : RegistrationPhase} (h : Waiting round phase marks)
    (hkeep : round.Answers phase → round.Answers phase') (time : ℕ) :
    Waiting round phase' (.reply phase' time :: marks) where
  written := fun _ => ⟨time, by simp⟩
  none := by
    intro hno reply hmem
    rw [repliesSince_request_reply] at hmem
    rcases List.mem_cons.mp hmem with rfl | hmem
    · exact hno
    · -- an answer written before would still be there
      exact h.none (fun hphase => hno (hkeep hphase)) reply hmem

/-- An answer is newer than the look that found none. -/
theorem Unseen.reply (h : Unseen round marks) (phase : RegistrationPhase) (time : ℕ) :
    Unseen round (.reply phase time :: marks) := by
  intro reply hmem hans
  rw [repliesSince_request_reply] at hmem
  rw [repliesSince_look_reply]
  rcases List.mem_cons.mp hmem with rfl | hmem
  · exact List.mem_cons_self
  · exact List.mem_cons_of_mem _ (h reply hmem hans)

/-- An answer of another round changes nothing. -/
theorem none_reply (h : ∀ reply ∈ repliesSince .request marks, ¬ round.Answers reply.1)
    (hno : ¬ round.Answers phase) (time : ℕ) :
    ∀ reply ∈ repliesSince .request (.reply phase time :: marks), ¬ round.Answers reply.1 := by
  intro reply hmem
  rw [repliesSince_request_reply] at hmem
  rcases List.mem_cons.mp hmem with rfl | hmem
  · exact hno
  · exact h reply hmem

/-- A phase that the callback writes keeps the stage, under the two conditions. -/
theorem Stage.reply {pc : ServicePc} {phase' : RegistrationPhase} (h : Stage phase now marks pc)
    (hunarmed : ∀ round ∈ pc.unarmed, ¬ round.Answers phase')
    (hwaits : ∀ wait ∈ pc.waits, wait.1.Answers phase → wait.1.Answers phase') :
    Stage phase' now (.reply phase' now :: marks) pc := by
  -- Before the wait there may be no answer at all; within it an answer stays one.
  cases pc with
  | publishing round => exact none_reply h (hunarmed round rfl) now
  | published round => exact none_reply h (hunarmed round rfl) now
  | arming round deadline => exact ⟨none_reply h.1 (hunarmed round rfl) now, h.2⟩
  | armed round deadline => exact ⟨h.1.reply (hwaits (round, deadline) rfl) now, h.2⟩
  | looking round deadline => exact ⟨h.1.reply (hwaits (round, deadline) rfl) now, h.2⟩
  | checking round deadline =>
    exact ⟨h.1.reply (hwaits (round, deadline) rfl) now, h.2.1, h.2.2.reply _ _⟩
  | sleeping round deadline limit =>
    exact ⟨h.1.reply (hwaits (round, deadline) rfl) now, h.2.1, h.2.2.1.reply _ _, h.2.2.2⟩
  | waited round deadline result =>
    simp only [Stage, repliesSince_request_reply]
    cases h with
    | accepted time hmem => exact .accepted time (List.mem_cons_of_mem _ hmem)
    | rejected time hmem => exact .rejected time (List.mem_cons_of_mem _ hmem)
    | timedOut hle hlate =>
      refine .timedOut hle fun reply hmem hans => ?_
      rcases List.mem_cons.mp hmem with rfl | hmem
      · exact hle
      · exact hlate reply hmem hans
  | _ => trivial

/-- A section of the callback. -/
theorem Inv.runCallback (h : Inv s) (hok : Unhindered s .callback) : Inv s.runCallback := by
  unfold Provisioning.runCallback
  unfold Unhindered at hok
  cases hcb : s.callback with
  | idle => exact h
  | setting phase =>
    rw [hcb] at hok
    exact Stage.reply h hok.1 hok.2
  | posting => exact h

/-! ### The service thread -/

/-- A wait that gives up has missed nothing. -/
theorem Unseen.timedOut (h : Unseen round s.marks) (hnone : NoneInTime s round deadline)
    (hle : deadline ≤ s.now) :
    According round deadline s.now (repliesSince .request s.marks)
      (.error (cloudErr .timeout)) :=
  .timedOut hle fun reply hmem hans => hnone reply (h reply hmem hans) hans

/-- A look finds the answer that is processed, or nothing. -/
theorem Waiting.look (h : Waiting round s.ctx.registrationPhase s.marks)
    (ht : Timed deadline s.now) (env : ServiceEnv) :
    Stage s.ctx.registrationPhase s.now (.look :: s.marks)
      ((ServicePc.looking round deadline).step env s.now s.ctx).2 := by
  simp only [ServicePc.step]
  split_ifs with haccepted hrejected
  · obtain ⟨time, hmem⟩ := h.written (Or.inl haccepted)
    rw [haccepted] at hmem
    exact .accepted time (by rw [repliesSince_request_look]; exact hmem)
  · obtain ⟨time, hmem⟩ := h.written (Or.inr hrejected)
    rw [hrejected] at hmem
    exact .rejected time (by rw [repliesSince_request_look]; exact hmem)
  · -- the phase is no answer, so none has been processed before this look
    have hno := h.none (not_or.mpr ⟨haccepted, hrejected⟩)
    have hnone : ∀ reply ∈ repliesSince .request (.look :: s.marks), ¬ round.Answers reply.1 := by
      rw [repliesSince_request_look]
      exact hno
    refine ⟨⟨fun hans => absurd hans (not_or.mpr ⟨haccepted, hrejected⟩), fun _ => hnone⟩, ht,
      fun reply hmem hans => absurd hans (hnone reply hmem)⟩

/-- A section of the service thread. -/
theorem Inv.service (h : Inv s) (env : ServiceEnv) (hok : Unhindered s (.service env)) :
    Stage (s.service.step env s.now s.ctx).1.registrationPhase s.now
      (s.service.marks env ++ s.marks) (s.service.step env s.now s.ctx).2 := by
  unfold Inv at h
  unfold Unhindered at hok
  cases hpc : s.service with
  | requesting round => trivial
  | requested round => trivial
  -- The mark of the request: no reply has come since.
  | preparing round =>
    simp only [ServicePc.step, ServicePc.after, ServicePc.marks]
    cases env.result with
    | error e => trivial
    | ok _ =>
      show ∀ reply ∈ repliesSince .request (.request :: s.marks), ¬ round.Answers reply.1
      rw [repliesSince_self]
      exact fun reply hmem => absurd hmem List.not_mem_nil
  -- A request that could not be published ends the attempt.
  | publishing round =>
    rw [hpc] at h
    simp only [ServicePc.step, ServicePc.after]
    cases env.result with
    | error e => trivial
    | ok _ => exact h
  -- The wait begins now, with all of its time.
  | published round =>
    rw [hpc] at h
    exact ⟨h, Nat.le_refl _⟩
  | arming round deadline =>
    rw [hpc] at h
    -- WAIT is no answer, and no answer has been processed
    exact ⟨⟨fun hans => absurd hans round.not_answers_waitPhase, fun _ => h.1⟩, h.2⟩
  | armed round deadline =>
    rw [hpc] at h
    exact h
  -- The phase is read; what it says was written by a reply since the request.
  | looking round deadline =>
    rw [hpc] at h
    have hctx : ((ServicePc.looking round deadline).step env s.now s.ctx).1 = s.ctx := by
      simp only [ServicePc.step]
      split_ifs <;> rfl
    rw [hctx]
    exact h.1.look h.2 env
  | checking round deadline =>
    -- The deadline is past, or the wait goes on.
    rw [hpc] at h hok
    simp only [ServicePc.step]
    split_ifs with hle
    · exact h.2.2.timedOut (hok hle) hle
    · -- the timeout of the semaphore is the rest of the wait, which fits 32 bits
      have hrest : deadline - s.now ≤ 2 ^ 32 - 1 := by
        have ht := h.2.1
        unfold Timed cloudAwsRegisterTimeoutMs at ht
        omega
      refine ⟨h.1, h.2.1, h.2.2, ?_⟩
      rw [Nat.min_eq_left hrest]
      omega
  -- The semaphore is posted by an answer, or the deadline wakes the wait.
  | sleeping round deadline limit =>
    rw [hpc] at h hok
    obtain ⟨hwait, htime, hunseen, rfl⟩ := h
    obtain ⟨hresult, hnone⟩ := hok
    simp only [ServicePc.step, hresult]
    cases hsem : s.ctx.phaseSem with
    | succ n => exact ⟨hwait, htime⟩
    | zero =>
      dsimp only
      split_ifs with hle
      · exact hunseen.timedOut (hnone hsem hle) hle
      · exact ⟨hwait, htime, hunseen, rfl⟩
  -- From here the attempt only ends.
  | waited round deadline result =>
    simp only [ServicePc.step]
    cases round <;> cases result <;> trivial
  | finishing => trivial
  | finished => trivial
  | disconnecting => trivial
  | joining result => cases result <;> trivial
  | abandoning e => trivial
  | clearing e => trivial
  | returned result => trivial

/-- Every step keeps the invariant. -/
theorem Inv.step (json : CoreJson) (config : AwsConfig) (s : Provisioning)
    (a : ProvisioningAction) (h : Inv s) (hok : Unhindered s a) :
    Inv (Provisioning.step json config s a).2 := by
  cases a with
  | tick elapsed => exact Stage.tick h elapsed
  | deliver stores msg =>
    obtain ⟨hphase, -, hservice, hnow, hmarks⟩ := s.deliver_frame json config stores msg
    unfold Inv
    rw [Provisioning.step, hphase, hservice, hnow, hmarks]
    exact h
  | callback => exact Inv.runCallback h hok
  | service env => exact Inv.service h env hok

/-! ### The wait ends -/

/-- The waiter goes through the semaphore before it looks again. -/
def ServicePc.needsPost : ServicePc → Bool
  | .checking _ _ | .sleeping _ _ _ => true
  | _ => false

/-- Nothing holds the waiter up any more: the deadline has passed, or an answer is processed and
posted. -/
def Due (s : Provisioning) (round : AwsRound) (deadline : ℕ) : Prop :=
  deadline ≤ s.now ∨
    round.Answers s.ctx.registrationPhase ∧ (s.service.needsPost → 0 < s.ctx.phaseSem)

/-- The steps that the service thread has to take until the wait ends. -/
def rank (round : AwsRound) (phase : RegistrationPhase) (now : ℕ) : ServicePc → ℕ
  | .armed _ _ | .sleeping _ _ _ => if round.Answers phase then 2 else 3
  | .looking _ _ => if round.Answers phase then 1 else 2
  | .checking _ deadline => if deadline ≤ now then 1 else 3
  | _ => 0

/-- No stage is more than three sections away. -/
theorem rank_le_three (pc : ServicePc) : rank round phase now pc ≤ 3 := by
  cases pc <;> simp only [rank] <;> (try split_ifs) <;> omega

/-- A wait has sections left. -/
theorem rank_pos {pc : ServicePc} (h : pc.waits = some (round, deadline)) :
    0 < rank round phase now pc := by
  cases pc with
  | armed | looking | checking | sleeping =>
    simp only [rank]
    split_ifs <;> omega
  | _ => cases h

/-- Time and answers bring the end nearer. -/
-- Each rank falls with an answer, and the checking one with the clock.
theorem rank_mono {phase' : RegistrationPhase} {now' : ℕ}
    (hphase : round.Answers phase → round.Answers phase') (hnow : now ≤ now') (pc : ServicePc) :
    rank round phase' now' pc ≤ rank round phase now pc := by
  have hans {n : ℕ} : (if round.Answers phase' then n else n + 1) ≤
      if round.Answers phase then n else n + 1 := by
    split_ifs with h' h
    · exact Nat.le_refl n
    · exact Nat.le_succ n
    · exact absurd (hphase ‹_›) h'
    · exact Nat.le_refl _
  cases pc with
  | armed round' deadline => exact hans
  | looking round' deadline => exact hans
  | sleeping round' deadline limit => exact hans
  | checking round' deadline =>
    simp only [rank]
    split_ifs <;> omega
  | _ => exact Nat.le_refl 0

/-- A look is next. -/
theorem rank_looking_lt (round : AwsRound) (phase : RegistrationPhase) :
    (if round.Answers phase then 1 else 2) + 1 ≤ if round.Answers phase then 2 else 3 := by
  split_ifs
  · exact Nat.le_refl 2
  · exact Nat.le_refl 3

/-- The action is one of the service thread. -/
def ProvisioningAction.isService : ProvisioningAction → Bool
  | .service _ => true
  | _ => false

/-- The wait is over, or still due and `n` steps closer to its end. -/
def Closer (s s' : Provisioning) (round : AwsRound) (deadline n : ℕ) : Prop :=
  (∃ result, s'.service = .waited round deadline result) ∨
    s'.service.waits = some (round, deadline) ∧ Due s' round deadline ∧
      rank round s'.ctx.registrationPhase s'.now s'.service + n ≤
        rank round s.ctx.registrationPhase s.now s.service

/-- A step of another thread that neither takes an answer nor a post back. -/
theorem Due.closer {s s' : Provisioning} (hw : s.service.waits = some (round, deadline))
    (hdue : Due s round deadline) (hservice : s'.service = s.service)
    (hphase : round.Answers s.ctx.registrationPhase → round.Answers s'.ctx.registrationPhase)
    (hsem : s.ctx.phaseSem ≤ s'.ctx.phaseSem) (hnow : s.now ≤ s'.now) :
    Closer s s' round deadline 0 := by
  refine Or.inr ⟨hservice ▸ hw, ?_, ?_⟩
  · rcases hdue with hlate | ⟨hans, hpost⟩
    · exact Or.inl (Nat.le_trans hlate hnow)
    · exact Or.inr ⟨hphase hans, fun h => Nat.lt_of_lt_of_le (hpost (hservice ▸ h)) hsem⟩
  · rw [hservice]
    exact rank_mono hphase hnow _

/-- A section of the service thread ends the wait or comes nearer. -/
theorem Due.service (hinv : Inv s) (hw : s.service.waits = some (round, deadline))
    (hdue : Due s round deadline) (env : ServiceEnv) (hok : Unhindered s (.service env)) :
    Closer s (Provisioning.step json config s (.service env)).2 round deadline 1 := by
  unfold Inv at hinv
  unfold Unhindered at hok
  unfold Due at hdue
  unfold Closer
  simp only [Provisioning.step]
  cases hpc : s.service with
  -- An answer that is there, or a deadline that is past, is found in two more steps.
  | armed round' deadline' =>
    rw [hpc] at hw hdue
    cases hw
    refine Or.inr ⟨rfl, ?_, ?_⟩
    · rcases hdue with hlate | ⟨hans, -⟩
      · exact Or.inl hlate
      · exact Or.inr ⟨hans, fun h => Bool.noConfusion h⟩
    · exact rank_looking_lt round s.ctx.registrationPhase
  | looking round' deadline' =>
    rw [hpc] at hw hdue
    cases hw
    by_cases hans : round.Answers s.ctx.registrationPhase
    · -- the answer is read
      left
      simp only [ServicePc.step]
      rcases hans with h | h
      · rw [if_pos h]
        exact ⟨_, rfl⟩
      · split_ifs
        · exact ⟨_, rfl⟩
        · exact ⟨_, rfl⟩
    · -- Nothing was answered, so it is the deadline.
      have hlate : deadline ≤ s.now := by
        rcases hdue with hlate | ⟨hans', -⟩
        · exact hlate
        · exact absurd hans' hans
      obtain ⟨hna, hnr⟩ := not_or.mp hans
      simp only [ServicePc.step, if_neg hna, if_neg hnr]
      refine Or.inr ⟨rfl, Or.inl hlate, ?_⟩
      simp only [rank, if_pos hlate, if_neg hans]
      omega
  | checking round' deadline' =>
    rw [hpc] at hw hdue
    cases hw
    simp only [ServicePc.step]
    split_ifs with hlate
    · exact Or.inl ⟨_, rfl⟩
    · -- before the deadline an answer is posted
      obtain ⟨hans, hpost⟩ := hdue.resolve_left hlate
      refine Or.inr ⟨rfl, Or.inr ⟨hans, fun _ => hpost rfl⟩, ?_⟩
      simp only [rank, if_neg hlate, if_pos hans]
      omega
  -- The post wakes it at once, and the deadline in the end.
  | sleeping round' deadline' limit =>
    rw [hpc] at hw hdue hinv hok
    cases hw
    obtain ⟨-, -, -, rfl⟩ := hinv
    simp only [ServicePc.step, hok.1]
    cases hsem : s.ctx.phaseSem with
    | succ n =>
      refine Or.inr ⟨rfl, ?_, ?_⟩
      · rcases hdue with hlate | ⟨hans, -⟩
        · exact Or.inl hlate
        · exact Or.inr ⟨hans, fun h => Bool.noConfusion h⟩
      · exact rank_looking_lt round s.ctx.registrationPhase
    | zero =>
      have hlate : limit ≤ s.now := by
        rcases hdue with hlate | ⟨-, hpost⟩
        · exact hlate
        · exact absurd (hpost rfl) (by omega)
      dsimp only
      rw [if_pos hlate]
      exact Or.inl ⟨_, rfl⟩
  -- The other steps wait for nothing.
  | _ =>
    rw [hpc] at hw
    cases hw

/-- Every step of a run leaves what is due due, and nearer by the service thread's sections. -/
theorem Due.step (json : CoreJson) (config : AwsConfig) (hinv : Inv s) (hw : s.service.waits = some (round, deadline))
    (hdue : Due s round deadline) (a : ProvisioningAction) (hok : Unhindered s a) :
    Closer s (Provisioning.step json config s a).2 round deadline
      (if a.isService then 1 else 0) := by
  -- The other actions leave the service thread where it is.
  cases a with
  | tick elapsed =>
    exact hdue.closer hw rfl id (Nat.le_refl _) (Nat.le_add_right _ _)
  | deliver stores msg =>
    obtain ⟨hphase, hsem, hservice, hnow, -⟩ := s.deliver_frame json config stores msg
    exact hdue.closer hw hservice (fun h => hphase.symm ▸ h) (Nat.le_of_eq hsem.symm)
      (Nat.le_of_eq hnow.symm)
  | callback =>
    unfold Unhindered at hok
    simp only [Provisioning.step, Provisioning.runCallback]
    cases hcb : s.callback with
    | idle => exact hdue.closer hw rfl id (Nat.le_refl _) (Nat.le_refl _)
    | setting phase =>
      rw [hcb] at hok
      exact hdue.closer hw rfl (hok.2 (round, deadline) hw) (Nat.le_refl _) (Nat.le_refl _)
    | posting => exact hdue.closer hw rfl id (Nat.le_succ _) (Nat.le_refl _)
  | service env => exact hdue.service hinv hw env hok

/-- A wait that is due ends within as many steps of the service thread as its rank says. -/
theorem Due.ends {more : List ProvisioningAction} (hinv : Inv s)
    (hw : s.service.waits = some (round, deadline)) (hdue : Due s round deadline)
    (hmeets : Meets (Provisioning.step json config) Unhindered more s)
    (hsteps : rank round s.ctx.registrationPhase s.now s.service ≤
      (more.filter ProvisioningAction.isService).length) :
    ∃ k result, (run (Provisioning.step json config) (more.take k) s).2.service =
      .waited round deadline result := by
  -- By induction on the run: each step of the service thread is one less.
  induction more generalizing s with
  | nil => exact absurd hsteps (Nat.not_le_of_lt (rank_pos hw))
  | cons a more ih =>
    obtain ⟨hok, hmeets⟩ := hmeets
    rcases Due.step json config hinv hw hdue a hok with
      ⟨result, hend⟩ | ⟨hw', hdue', hrank⟩
    · exact ⟨1, result, hend⟩
    · have hcount : (if a.isService then 1 else 0) +
          (more.filter ProvisioningAction.isService).length =
            ((a :: more).filter ProvisioningAction.isService).length := by
        cases hs : a.isService <;> simp [hs, Nat.add_comm]
      obtain ⟨k, result, hend⟩ := ih (Inv.step json config s a hinv hok) hw' hdue' hmeets (by omega)
      exact ⟨k + 1, result, hend⟩

section

variable (json : CoreJson) (config : AwsConfig) (ctx : AwsContext) (callback : CallbackPc)
  (now : ℕ) (actions : List ProvisioningAction)

/-- The end of a run that begins with the first request. -/
def provisioningEnd : Provisioning :=
  (run (Provisioning.step json config) actions (.start ctx callback now)).2

end

variable {ctx : AwsContext} {callback : CallbackPc} {actions : List ProvisioningAction}

/-- In a run without a step that loses a reply, a wait that has returned has done so according to
what the callback has processed since the request; and a wait ends: as soon as an answer is posted,
or the deadline has passed, three steps of the service thread suffice. -/
theorem wait_follows_reply
    (hmeets : Meets (Provisioning.step json config) Unhindered actions
      (.start ctx callback now)) :
    (∀ round deadline result,
      (provisioningEnd json config ctx callback now actions).service =
          .waited round deadline result →
        According round deadline (provisioningEnd json config ctx callback now actions).now
          (repliesSince .request (provisioningEnd json config ctx callback now actions).marks)
          result) ∧
    ∀ round deadline more,
      (provisioningEnd json config ctx callback now actions).service.waits =
          some (round, deadline) →
        Due (provisioningEnd json config ctx callback now actions) round deadline →
        Meets (Provisioning.step json config) Unhindered more
          (provisioningEnd json config ctx callback now actions) →
        3 ≤ (more.filter ProvisioningAction.isService).length →
        ∃ k result,
          (run (Provisioning.step json config) (more.take k)
              (provisioningEnd json config ctx callback now actions)).2.service =
            .waited round deadline result := by
  have hinv : Inv (provisioningEnd json config ctx callback now actions) :=
    run_invariant (Inv.step json config) trivial hmeets
  refine ⟨fun round deadline result hpc => ?_, fun round deadline more hw hdue hmore hcount => ?_⟩
  · unfold Inv at hinv
    rw [hpc] at hinv
    exact hinv
  · exact hdue.ends hinv hw hmore (Nat.le_trans (rank_le_three _) hcount)

/-! A certificate reply, and what the two threads do with it. -/

/-- The reply to `CreateCertificateFromCsr` with the certificate and the token of a name. -/
def certificateReply (name : String) : List UInt8 :=
  text ("\x7b\"certificatePem\":\"pem-" ++ name ++ "\",\"certificateOwnershipToken\":\"token-" ++
    name ++ "\"\x7d")

/-- The reply to `RegisterThing`. -/
def thingReply (name : String) : List UInt8 :=
  text ("\x7b\"deviceConfiguration\":\x7b\x7d,\"thingName\":\"" ++ name ++ "\"\x7d")

/-- What coreJSON answers on these replies. -/
def repliesJson : CoreJson where
  validate := fun buf =>
    buf = certificateReply "a" ∨ buf = certificateReply "b" ∨ buf = thingReply "p-device"
  search := fun buf path =>
    if buf = thingReply "p-device" then
      if path = "thingName" then some (text "p-device", .string) else none
    else if buf = certificateReply "a" then
      if path = "certificatePem" then some (text "pem-a", .string)
      else if path = "certificateOwnershipToken" then some (text "token-a", .string)
      else none
    else if buf = certificateReply "b" then
      if path = "certificatePem" then some (text "pem-b", .string)
      else if path = "certificateOwnershipToken" then some (text "token-b", .string)
      else none
    else none

/-- No product key and no template. -/
def emptyConfig : AwsConfig := ⟨"", ""⟩

/-- Nothing is stored yet. -/
def emptyContext : AwsContext :=
  ⟨.requestCert, 0, [], 0, [], 0, text "device", none, none⟩

/-- Every store succeeds. -/
def stores : AwsStores := ⟨.ok (), .ok (), .ok (), .ok (), .ok (), .ok (), false⟩

/-- `n` steps of the service thread in which everything goes well. -/
def service (n : ℕ) : List ProvisioningAction := List.replicate n (.service ⟨.ok (), stores⟩)

/-- The certificate arrives, and its callback runs to the end. -/
def certificate : List ProvisioningAction :=
  [.deliver stores ⟨createCertAcceptedTopic, certificateReply "a", fun _ => true⟩, .callback, .callback]

/-- The reply is processed after so many steps of the service thread, which goes on when the
deadline has passed. -/
def replyRun (n : ℕ) : List ProvisioningAction :=
  service n ++ certificate ++ service (7 - n) ++ [.tick cloudAwsRegisterTimeoutMs] ++ service 2

/-- The state in which the certificate has been processed while the waiter sleeps. -/
def answeredEnd : Provisioning :=
  provisioningEnd repliesJson emptyConfig emptyContext .idle 0 (service 9 ++ certificate)

/-- The state in which the waiter has been woken by it. -/
def acceptedEnd : Provisioning :=
  provisioningEnd repliesJson emptyConfig emptyContext .idle 0 (service 9 ++ certificate ++ service 2)

/-- The reply that is processed while the waiter sleeps. -/
theorem wait_follows_reply_accepted :
    (answeredEnd.service = .sleeping .csr 30000 30000 ∧
      ∃ k result, (run (Provisioning.step repliesJson emptyConfig) ((service 3).take k)
        answeredEnd).2.service = .waited .csr 30000 result) ∧
    acceptedEnd.service = .waited .csr 30000 (.ok ()) ∧
      According .csr 30000 acceptedEnd.now (repliesSince .request acceptedEnd.marks)
        (.ok ()) := by
  have hmeets : Meets (Provisioning.step repliesJson emptyConfig) Unhindered
      (service 9 ++ certificate ++ service 2) (.start emptyContext .idle 0) := by
    decide +kernel
  refine ⟨⟨by decide +kernel, ?_⟩, by decide +kernel, ?_⟩
  · exact (wait_follows_reply (Meets.append.mp hmeets).1).2 .csr 30000 (service 3)
      (by decide +kernel) (Or.inr (by decide +kernel)) (by decide +kernel) (by decide)
  · exact (wait_follows_reply hmeets).1 .csr 30000 (.ok ()) (by decide +kernel)

/-- The reply is processed while the publish returns. -/
theorem not_wait_follows_reply :
    ¬ ∀ (json : CoreJson) (config : AwsConfig) (ctx : AwsContext) (callback : CallbackPc) (now : ℕ)
        (actions : List ProvisioningAction) (round : AwsRound) (deadline : ℕ)
        (result : Except Err Unit),
        (provisioningEnd json config ctx callback now actions).service =
            .waited round deadline result →
          According round deadline (provisioningEnd json config ctx callback now actions).now
            (repliesSince .request (provisioningEnd json config ctx callback now actions).marks)
            result := by
  intro h
  have hlost := h repliesJson emptyConfig emptyContext .idle 0 (replyRun 3) .csr 30000
    (.error (cloudErr .timeout)) (by decide +kernel)
  cases hlost with
  | timedOut _ hlate =>
    have hmem : (RegistrationPhase.csrAccepted, 0) ∈ repliesSince .request
        (provisioningEnd repliesJson emptyConfig emptyContext .idle 0 (replyRun 3)).marks := by
      decide +kernel
    exact absurd (hlate _ hmem (Or.inl rfl)) (by decide)

end TrustSdk.Cloud
