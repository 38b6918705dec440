import TrustSdk.Queue.Conservation

/-!
# Closing the bounded queue

`actrust_queue_close` leaves `OPEN` and polls the counters of the calls inside, until there are
none. A push or a pop gives up its count under the state lock, releases that lock, and only then the
lock of the data: in between, the counters say that nobody is inside (`not_closed_queue_quiesces`).

* `Permits` — what rules this out: when the poll finds the counters zero, no call is on the way
  from the one unlock to the other;
* `closed_queue_quiesces` — in every run whose steps permit it, no call that was let in has a step
  left when close has returned; and behind `OPEN` nothing is transferred in any run.
-/

namespace TrustSdk.Queue

open RingBuffer Machine

variable {α : Type}

/-- The call has been let in, and has a step left. -/
def QueuePc.Inside : QueuePc α → Prop
  | .admittedInState _ _ => True
  | .waiting _ _ => True
  | .waited _ _ _ => True
  | .expired _ => True
  | .keepWaitingInState _ _ => True
  | .gotTokenInState _ => True
  | .failedInState _ _ => True
  | .returnTokenInState _ => True
  | .leaving _ => True
  | .exitInState _ => True
  | .locking _ => True
  | .inLock _ => True
  | .postingInBoth _ => True
  | .givingBackInBoth _ _ => True
  | .unlockInBoth _ => True
  | .unlockInLock _ => True
  | _ => False

instance : DecidablePred (QueuePc.Inside (α := α)) := fun pc => by
  unfold QueuePc.Inside
  split <;> infer_instance

/-- A close that has left `OPEN` behind. -/
def QueuePc.Left : QueuePc α → Prop
  | .closingInState _ => True
  | .polling _ => True
  | .polledInState _ _ => True
  | _ => False

/-- A close that has seen that nobody is inside, or has returned. -/
def QueuePc.Quiet : QueuePc α → Prop
  | .polledInState _ quiescent => quiescent = true
  | .closedInState _ => True
  | .quiesced _ => True
  | .destroying => True
  | .destroyedInState => True
  | .ended => True
  | _ => False

/-- The poll of a close that is about to find the counters zero. -/
def QueuePc.FindsNone (q : QueueCore α) : QueuePc α → Prop
  | .polling _ => q.stateLock = false ∧ q.inFlight = 0 ∧ q.waitingPush = 0 ∧ q.waitingPop = 0
  | _ => False

/-- The call has given up its count and the state lock, and has yet to unlock the data. -/
def QueuePc.Unlocking : QueuePc α → Prop
  | .unlockInLock _ => True
  | _ => False

instance (q : QueueCore α) : DecidablePred (QueuePc.FindsNone q) := fun pc => by
  unfold QueuePc.FindsNone
  split <;> infer_instance

instance : DecidablePred (QueuePc.Unlocking (α := α)) := fun pc => by
  unfold QueuePc.Unlocking
  split <;> infer_instance

/-- What a step of a call has to do with closing. -/
structure QueuePc.Closes (q : QueueCore α) (pc : QueuePc α) (q' : QueueCore α) (pc' : QueuePc α) :
    Prop where
  inside : pc'.Inside → pc.Inside ∨ q.state = .isOpen
  left : pc'.Left → pc.Left ∨ q'.state ≠ .isOpen
  quiet : pc'.Quiet → pc.Quiet ∨ q.state = .closed ∨ pc.FindsNone q
  closed : q'.state = .closed ∨ q'.released = true →
    pc.Quiet ∨ q.state = .closed ∨ q.released = true
  keeps : q'.state = .isOpen → q.state = .isOpen

/-- Most steps have nothing to do with it. -/
theorem QueuePc.Closes.of_inside {q q' : QueueCore α} {pc pc' : QueuePc α}
    (hinside : pc'.Inside → pc.Inside) (hleft : ¬pc'.Left) (hquiet : ¬pc'.Quiet)
    (hsame : q'.state = q.state ∧ q'.released = q.released) : pc.Closes q q' pc' where
  inside h := .inl (hinside h)
  left h := absurd h hleft
  quiet h := absurd h hquiet
  closed h := by
    rw [hsame.1, hsame.2] at h
    exact .inr h
  keeps h := hsame.1 ▸ h

/-- Taking the state lock keeps the promises of its section. -/
theorem lockState_closes {q : QueueCore α} {pc : QueuePc α}
    {section_ : QueueCore α → QueueCore α × QueuePc α}
    (hsection : q.stateLock = false → pc.Closes q (section_ { q with stateLock := true }).1
      (section_ { q with stateLock := true }).2) :
    pc.Closes q (lockState q pc section_).1 (lockState q pc section_).2 := by
  unfold lockState
  by_cases hheld : q.stateLock = true
  · rw [if_pos hheld]
    exact ⟨.inl, .inl, .inl, .inr, id⟩
  · rw [if_neg hheld]
    exact hsection (Bool.eq_false_iff.mpr hheld)

/-- What one step does to the state and to those inside. -/
theorem QueuePc.step_closes (env : PrimEnv) (q : QueueCore α) (pc : QueuePc α) :
    pc.Closes q (pc.step env q).1 (pc.step env q).2 := by
  -- The counts of the calls that wait are no part of state and release.
  have hleave : ∀ (d : Transfer α) (q : QueueCore α),
      (q.leaveWaiting d).state = q.state ∧ (q.leaveWaiting d).released = q.released := by
    intro d q
    cases d <;> exact ⟨rfl, rfl⟩
  have hpost : ∀ (d : Transfer α) (q : QueueCore α),
      (q.postOwn d).state = q.state ∧ (q.postOwn d).released = q.released := by
    intro d q
    cases d <;> exact ⟨rfl, rfl⟩
  -- only the entry check lets a call in, and only while the queue is open
  cases pc with
  | enter d t =>
    -- In an open queue a call is let in; in any other it is refused.
    refine lockState_closes fun _ => ?_
    by_cases hopen : q.state = .isOpen
    · rw [if_neg (not_not.mpr hopen)]
      refine ⟨fun _ => .inr hopen, False.elim, False.elim, ?_, fun _ => hopen⟩
      cases d <;> exact .inr
    · rw [if_pos hopen]
      exact .of_inside False.elim id id ⟨rfl, rfl⟩
  | waiting d t =>
    dsimp only [QueuePc.step, waitStep]
    -- The wait keeps the call inside, however it ends.
    by_cases hexpired : t = .finite ∧ env.expired = true
    · rw [if_pos hexpired]
      exact .of_inside (fun _ => trivial) id id ⟨rfl, rfl⟩
    · rw [if_neg hexpired]
      cases env.semWait with
      | some code => exact .of_inside (fun _ => trivial) id id ⟨rfl, rfl⟩
      | none =>
        dsimp only
        split_ifs
        · cases d <;> exact .of_inside (fun _ => trivial) id id ⟨rfl, rfl⟩
        · exact .of_inside (fun _ => trivial) id id ⟨rfl, rfl⟩
        · exact .of_inside (fun _ => trivial) id id ⟨rfl, rfl⟩
  -- Behind the wait the call leaves, transfers, or gives its token back.
  | waited d t result =>
    refine lockState_closes fun _ => ?_
    have hleft := hleave d { q with stateLock := true }
    unfold waitedSection
    cases t <;> dsimp only <;> split_ifs <;> cases result <;> dsimp only <;>
      first
        | exact .of_inside (fun _ => trivial) id id hleft
        | split_ifs <;>
            first
              | exact .of_inside (fun _ => trivial) id id ⟨rfl, rfl⟩
              | exact .of_inside (fun _ => trivial) id id hleft
  | expired d =>
    exact lockState_closes fun _ => .of_inside (fun _ => trivial) id id (hleave d _)
  | returnTokenInState d => exact .of_inside (fun _ => trivial) id id (hpost d q)
  | leaving e => exact lockState_closes fun _ => .of_inside (fun _ => trivial) id id ⟨rfl, rfl⟩
  | locking d =>
    dsimp only [QueuePc.step]
    split_ifs <;> exact .of_inside (fun _ => trivial) id id ⟨rfl, rfl⟩
  | inLock d =>
    refine lockState_closes fun _ => ?_
    split_ifs <;> exact .of_inside (fun _ => trivial) id id ⟨rfl, rfl⟩
  | postingInBoth d =>
    dsimp only [QueuePc.step]
    cases env.semPost with
    | error e => exact .of_inside (fun _ => trivial) id id ⟨rfl, rfl⟩
    | ok _ => cases d <;> exact .of_inside (fun _ => trivial) id id ⟨rfl, rfl⟩
  | givingBackInBoth d e => exact .of_inside (fun _ => trivial) id id (hpost d q)
  -- Asking for the size is a call as well, of an open queue.
  | sizing =>
    refine lockState_closes fun _ => ?_
    by_cases hopen : q.state = .isOpen
    · rw [if_neg (not_not.mpr hopen)]
      exact ⟨fun _ => .inr hopen, False.elim, False.elim, .inr, id⟩
    · rw [if_pos hopen]
      exact .of_inside False.elim id id ⟨rfl, rfl⟩
  | close destroy =>
    refine lockState_closes fun _ => ?_
    have hsame : ∀ {b}, QueueState.closing = .closed ∨ b = true → b = true := fun h =>
      h.resolve_left nofun
    -- Close finds the queue open, closing or closed, and starts to poll or returns.
    cases hstate : q.state with
    | isOpen =>
      exact ⟨False.elim, fun _ => .inr nofun, False.elim, fun h => .inr (.inr (hsame h)),
        fun _ => hstate⟩
    | closing =>
      exact ⟨False.elim, fun _ => .inr nofun, False.elim, fun h => .inr (.inr (hsame h)), nofun⟩
    | closed =>
      exact ⟨False.elim, False.elim, fun _ => .inr (.inl hstate), fun _ => .inr (.inl hstate),
        nofun⟩
  | closedInState destroy =>
    exact ⟨False.elim, False.elim, fun _ => .inl trivial, fun h => .inr h, fun h => h⟩
  | closingInState destroy =>
    exact ⟨False.elim, fun _ => .inl trivial, False.elim, fun h => .inr h, fun h => h⟩
  -- The polling that finds nobody inside is what makes the queue over.
  | polling destroy =>
    refine lockState_closes fun hfree => ?_
    refine ⟨False.elim, fun _ => .inl trivial, fun h => ?_, fun h => .inr h, fun h => h⟩
    have hzero : q.inFlight = 0 ∧ q.waitingPush = 0 ∧ q.waitingPop = 0 := of_decide_eq_true h
    exact .inr (.inr ⟨hfree, hzero⟩)
  | polledInState destroy quiescent =>
    cases quiescent with
    | false => exact ⟨False.elim, fun _ => .inl trivial, False.elim, fun h => .inr h, fun h => h⟩
    | true => exact ⟨False.elim, False.elim, fun _ => .inl rfl, fun h => .inr h, fun h => h⟩
  -- A close that destroys goes on to the semaphores.
  | quiesced destroy =>
    cases destroy with
    | false => exact ⟨False.elim, False.elim, fun _ => .inl trivial, fun h => .inr h, fun h => h⟩
    | true =>
      exact ⟨False.elim, False.elim, fun _ => .inl trivial, fun _ => .inl trivial, fun h => h⟩
  | destroying =>
    refine lockState_closes fun _ => ?_
    exact ⟨False.elim, False.elim, fun _ => .inl trivial, fun _ => .inl trivial, nofun⟩
  | destroyedInState =>
    exact ⟨False.elim, False.elim, fun _ => .inl trivial, fun h => .inr h, fun h => h⟩
  | ended => exact ⟨False.elim, False.elim, fun _ => .inl trivial, fun h => .inr h, fun h => h⟩
  | refusedInState => exact .of_inside False.elim id id ⟨rfl, rfl⟩
  | returned result => exact .of_inside False.elim id id ⟨rfl, rfl⟩
  | _ => exact .of_inside (fun _ => trivial) id id ⟨rfl, rfl⟩

/-- Whoever is inside has a count or the state lock, or is about to unlock the data. -/
theorem QueuePc.Inside.holds {pc : QueuePc α} (h : pc.Inside) (hunlocking : ¬pc.Unlocking) :
    pc.holds.inFlight ≠ 0 ∨ pc.holds.stateLock ≠ 0 := by
  cases pc with
  | waited d t result => cases result <;> cases d <;> exact .inl Nat.one_ne_zero
  | exitInState result => exact .inr Nat.one_ne_zero
  | unlockInBoth result => exact .inr Nat.one_ne_zero
  | unlockInLock result => exact absurd trivial hunlocking
  | leaving e => exact .inl Nat.one_ne_zero
  | admittedInState d t | waiting d t | expired d | keepWaitingInState d t | gotTokenInState d
    | failedInState d e | returnTokenInState d | locking d | inLock d | postingInBoth d
    | givingBackInBoth d e => cases d <;> exact .inl Nat.one_ne_zero
  | _ => exact absurd h id

/-- A call that starts is outside. -/
theorem QueueApi.enter_outside (api : QueueApi α) :
    ¬api.enter.Inside ∧ ¬api.enter.Left ∧ ¬api.enter.Quiet := by
  cases api <;> exact ⟨id, id, id⟩

/-- The call is not one that asks for the size. -/
def QueuePc.Moves : QueuePc α → Prop
  | .sizing => False
  | .exitInState (.ok (.size _)) => False
  | .unlockInBoth (.ok (.size _)) => False
  | .unlockInLock (.ok (.size _)) => False
  | .returned (.ok (.size _)) => False
  | _ => True

/-- The calls that move an item. -/
def QueueApi.Moves : QueueApi α → Prop
  | .push _ _ => True
  | .pop _ => True
  | _ => False

/-- Where they start. -/
theorem QueueApi.enter_moves (api : QueueApi α) (h : api.Moves) : api.enter.Moves := by
  cases api with
  | size => exact h.elim
  | _ => exact trivial

/-- Taking the state lock. -/
theorem lockState_moves {q : QueueCore α} {pc : QueuePc α}
    {section_ : QueueCore α → QueueCore α × QueuePc α} (h : pc.Moves)
    (hsection : ∀ q, (section_ q).2.Moves) : (lockState q pc section_).2.Moves := by
  unfold lockState
  split_ifs
  · exact h
  · exact hsection _

/-- A push or a pop never comes to ask for the size. -/
theorem QueuePc.step_moves (env : PrimEnv) (q : QueueCore α) (pc : QueuePc α) (h : pc.Moves) :
    (pc.step env q).2.Moves := by
  -- the answer is handed on unchanged from one unlock to the next
  have hkeep : ∀ result : Except Err (Reply α), (exitInState result).Moves →
      (unlockInBoth result).Moves ∧ (unlockInLock result).Moves ∧ (returned result).Moves := by
    intro result hresult
    match result, hresult with
    | .error _, _ => exact ⟨trivial, trivial, trivial⟩
    | .ok .done, _ => exact ⟨trivial, trivial, trivial⟩
    | .ok (.item _), _ => exact ⟨trivial, trivial, trivial⟩
  have hexit : ∀ result : Except Err (Reply α), (unlockInBoth result).Moves ∨
      (unlockInLock result).Moves → (exitInState result).Moves := by
    intro result hresult
    match result, hresult with
    | .error _, _ => exact trivial
    | .ok .done, _ => exact trivial
    | .ok (.item _), _ => exact trivial
    | .ok (.size _), hresult => exact hresult.elim id id
  -- Before the transfer a call has no answer, so there is nothing to say of it.
  cases pc with
  | enter d t =>
    refine lockState_moves trivial fun q => ?_
    split_ifs <;> exact trivial
  | waiting d t =>
    dsimp only [QueuePc.step, waitStep]
    by_cases hexpired : t = .finite ∧ env.expired = true
    · rw [if_pos hexpired]
      exact trivial
    · rw [if_neg hexpired]
      cases env.semWait with
      | some code => exact trivial
      | none =>
        dsimp only
        split_ifs <;> exact trivial
  | waited d t result =>
    refine lockState_moves trivial fun q => ?_
    unfold waitedSection
    cases t <;> dsimp only <;> split_ifs <;> cases result <;> dsimp only <;>
      first
        | exact trivial
        | split_ifs <;> exact trivial
  | expired d => exact lockState_moves trivial fun _ => trivial
  | leaving e => exact lockState_moves trivial fun _ => trivial
  -- Behind the transfer the answer is handed on.
  | exitInState result => exact (hkeep result h).2.2
  | locking d =>
    dsimp only [QueuePc.step]
    split_ifs <;> exact trivial
  | inLock d =>
    refine lockState_moves trivial fun q => ?_
    split_ifs <;> exact trivial
  | postingInBoth d =>
    dsimp only [QueuePc.step]
    cases env.semPost with
    | error e => exact trivial
    | ok _ => cases d <;> exact trivial
  | unlockInBoth result => exact (hkeep result (hexit result (.inl h))).2.1
  | unlockInLock result => exact (hkeep result (hexit result (.inr h))).2.2
  | returned result => exact h
  -- The size has moved nothing, and is no answer of these.
  | sizing => exact h.elim
  | close destroy =>
    refine lockState_moves trivial fun q => ?_
    cases q.state <;> exact trivial
  | polling destroy => exact lockState_moves trivial fun _ => trivial
  | polledInState destroy quiescent => cases quiescent <;> exact trivial
  | quiesced destroy => cases destroy <;> exact trivial
  | destroying => exact lockState_moves trivial fun _ => trivial
  | _ => exact trivial

/-! ### Runs -/

namespace QueueSystem

variable {capacity : ℕ} {s : QueueSystem α} {past : List (QueueEvent α)}

/-- When a poll finds the counters zero, no call has yet to unlock the data. -/
def Permits (s : QueueSystem α) (a : QueueAction α) : Prop :=
  match Threads.acting s a with
  | none => True
  | some (_, pc) => pc.FindsNone s.shared → ∀ pc' ∈ s.calls, ¬pc'.Unlocking

instance (s : QueueSystem α) (a : QueueAction α) : Decidable (s.Permits a) := by
  unfold Permits
  split <;> infer_instance

/-- A close has seen that nobody is inside, or the release has begun. -/
def Over (s : QueueSystem α) : Prop :=
  (∃ pc ∈ s.calls, pc.Quiet) ∨ s.shared.state = .closed ∨ s.shared.released = true

/-- The counts account for the calls, and a close waits for them. -/
structure Settles (capacity : ℕ) (past : List (QueueEvent α)) (s : QueueSystem α) : Prop where
  conserves : Conserves capacity past s
  left : ∀ pc ∈ s.calls, pc.Left → s.shared.state ≠ .isOpen
  gone : s.Over → s.shared.state ≠ .isOpen ∧ ∀ pc ∈ s.calls, ¬pc.Inside

/-- A queue that was created. -/
theorem settles_created (buf : ℕ → α) (hcapacity : 0 < capacity) :
    Settles capacity [] (created buf capacity) where
  conserves := conserves_created buf hcapacity
  left _ h := nomatch h
  gone h := by
    rcases h with ⟨_, hmem, -⟩ | hstate | hreleased
    · cases hmem
    · cases hstate
    · cases hreleased

/-- A poll that finds the counters zero finds nobody inside. -/
theorem Settles.nobody (h : Settles capacity past s) {pc : QueuePc α} (hmem : pc ∈ s.calls)
    (hnone : pc.FindsNone s.shared) (hunlocking : ∀ pc' ∈ s.calls, ¬pc'.Unlocking) :
    s.shared.state ≠ .isOpen ∧ ∀ pc' ∈ s.calls, ¬pc'.Inside := by
  cases pc with
  | polling destroy =>
    obtain ⟨hfree, hcount, -, -⟩ := hnone
    refine ⟨h.left _ hmem trivial, fun pc' hmem' hinside => ?_⟩
    -- nobody is counted, and nobody holds the state lock
    have hflight : Threads.total (·.holds.inFlight) s.calls = 0 :=
      h.conserves.balanced.inFlight.symm.trans hcount
    have hlock : Threads.total (·.holds.stateLock) s.calls = 0 := by
      have hbalance := h.conserves.balanced.stateLock
      rw [hfree] at hbalance
      exact hbalance.symm
    rcases hinside.holds (hunlocking pc' hmem') with hone | hone
    · exact hone (Threads.total_eq_zero.mp hflight pc' hmem')
    · exact hone (Threads.total_eq_zero.mp hlock pc' hmem')
  | _ => exact hnone.elim

/-- A call that starts is refused if the queue is closed. -/
theorem Settles.start (h : Settles capacity past s) (api : QueueApi α) :
    Settles capacity past ⟨s.shared, s.calls ++ [api.enter]⟩ := by
  obtain ⟨hinside, hleft, hquiet⟩ := api.enter_outside
  refine ⟨h.conserves.start api, fun pc hmem hpc => ?_, fun hover => ?_⟩
  · rcases List.mem_append.mp hmem with hmem | hmem
    · exact h.left pc hmem hpc
    · exact absurd (List.mem_singleton.mp hmem ▸ hpc) hleft
  · have hbefore : s.Over := by
      rcases hover with ⟨pc, hmem, hpc⟩ | hover
      · rcases List.mem_append.mp hmem with hmem | hmem
        · exact .inl ⟨pc, hmem, hpc⟩
        · exact absurd (List.mem_singleton.mp hmem ▸ hpc) hquiet
      · exact .inr hover
    obtain ⟨hstate, hnobody⟩ := h.gone hbefore
    refine ⟨hstate, fun pc hmem hpc => ?_⟩
    rcases List.mem_append.mp hmem with hmem | hmem
    · exact hnobody pc hmem hpc
    · exact hinside (List.mem_singleton.mp hmem ▸ hpc)

/-- A step of one call. -/
theorem Settles.advance (h : Settles capacity past s) {k : ℕ} {pc : QueuePc α}
    (hk : s.calls[k]? = some pc) (env : PrimEnv)
    (hpermits : pc.FindsNone s.shared → ∀ pc' ∈ s.calls, ¬pc'.Unlocking) :
    Settles capacity (past ++ pc.transfers k env s.shared)
      ⟨(pc.step env s.shared).1, s.calls.set k (pc.step env s.shared).2⟩ := by
  have hcloses := pc.step_closes env s.shared
  have hmem := List.mem_of_getElem? hk
  refine ⟨h.conserves.advance hk env, fun pc' hmem' hpc' => ?_, fun hover => ?_⟩
  · rcases List.mem_or_eq_of_mem_set hmem' with hold | rfl
    · exact fun hopen => h.left pc' hold hpc' (hcloses.keeps hopen)
    · rcases hcloses.left hpc' with hleft | hleft
      · exact fun hopen => h.left pc hmem hleft (hcloses.keeps hopen)
      · exact hleft
  · -- a step that leaves the queue over has found it so, or has polled the counters
    have hbefore : s.Over ∨ pc.FindsNone s.shared := by
      rcases hover with ⟨pc', hmem', hquiet⟩ | hover
      · rcases List.mem_or_eq_of_mem_set hmem' with hold | rfl
        · exact .inl (.inl ⟨pc', hold, hquiet⟩)
        · rcases hcloses.quiet hquiet with hquiet | hclosed | hnone
          · exact .inl (.inl ⟨pc, hmem, hquiet⟩)
          · exact .inl (.inr (.inl hclosed))
          · exact .inr hnone
      · rcases hcloses.closed hover with hquiet | hclosed
        · exact .inl (.inl ⟨pc, hmem, hquiet⟩)
        · exact .inl (.inr hclosed)
    have hnobody : s.shared.state ≠ .isOpen ∧ ∀ pc' ∈ s.calls, ¬pc'.Inside := by
      rcases hbefore with hover | hnone
      · exact h.gone hover
      · exact h.nobody hmem hnone (hpermits hnone)
    refine ⟨fun hopen => hnobody.1 (hcloses.keeps hopen), fun pc' hmem' hinside => ?_⟩
    rcases List.mem_or_eq_of_mem_set hmem' with hold | rfl
    · exact hnobody.2 pc' hold hinside
    · rcases hcloses.inside hinside with hinside | hopen
      · exact hnobody.2 pc hmem hinside
      · exact hnobody.1 hopen

/-- One step keeps the invariant, if it meets the condition. -/
theorem Settles.step (h : Settles capacity past s) (a : QueueAction α) (hpermits : s.Permits a) :
    Settles capacity (past ++ s.transfers a) (QueueSystem.step s a).2 := by
  cases a with
  | start api =>
    show Settles capacity (past ++ []) _
    rw [List.append_nil]
    exact h.start api
  | advance k env =>
    cases hk : s.calls[k]? with
    | none =>
      simp only [QueueSystem.transfers, QueueSystem.step, Threads.step, hk, Option.elim,
        List.append_nil]
      exact h
    | some pc =>
      rw [Permits, Threads.acting_advance hk] at hpermits
      rw [QueueSystem.step, Threads.step_advance hk]
      simp only [QueueSystem.transfers, hk, Option.elim]
      exact h.advance hk env hpermits

/-- Behind `OPEN` nothing is transferred, and no step leads back. -/
theorem Conserves.step_silent (h : Conserves capacity past s) (hleft : s.shared.state ≠ .isOpen)
    (a : QueueAction α) :
    s.transfers a = [] ∧ (QueueSystem.step s a).2.shared.state ≠ .isOpen := by
  cases a with
  | start api => exact ⟨rfl, hleft⟩
  | advance k env =>
    cases hk : s.calls[k]? with
    | none =>
      simp only [QueueSystem.transfers, QueueSystem.step, Threads.step, hk, Option.elim]
      exact ⟨trivial, hleft⟩
    | some pc =>
      -- a call that commits would have found the queue open
      rw [QueueSystem.step, Threads.step_advance hk]
      simp only [QueueSystem.transfers, hk, Option.elim]
      refine ⟨?_, fun hopen => hleft ((pc.step_closes env s.shared).keeps hopen)⟩
      refine QueuePc.transfers_of_not_commits (fun hcommits => ?_) k
      obtain ⟨d, reply, rfl, -⟩ := hcommits
      obtain ⟨others, -, hcalls, -⟩ := holdings_split hk
      exact hleft (hcalls ▸ h.balanced).posting

/-- In a closed queue nothing moves any more. -/
theorem Conserves.silent (h : Conserves capacity past s) (hleft : s.shared.state ≠ .isOpen)
    (actions : List (QueueAction α)) : history QueueSystem.step transfers actions s = [] := by
  induction actions generalizing past s with
  | nil => rfl
  | cons a actions ih =>
    obtain ⟨hnone, hleft'⟩ := h.step_silent hleft a
    rw [history, hnone, List.nil_append]
    exact ih (h.step a) hleft'

/-- What closing promises, of a run that has been through `before` and goes on with `after`. -/
structure Quiesces (start : QueueSystem α) (before after : List (QueueAction α)) : Prop where
  /-- Close has returned: nobody is inside, and nothing is transferred any more. -/
  closed : (run QueueSystem.step before start).2.Over →
    (∀ pc ∈ (run QueueSystem.step before start).2.calls, ¬pc.Inside) ∧
      history QueueSystem.step transfers after (run QueueSystem.step before start).2 = []
  /-- The queue has left `OPEN`: a push or a pop that has not transferred its item returns an
  error. -/
  refused : (run QueueSystem.step before start).2.shared.state ≠ .isOpen →
    ∀ k api result,
      (history QueueSystem.step Threads.starts (before ++ after) start)[k]? = some api →
      api.Moves →
      transfersOf k (history QueueSystem.step transfers before start) = [] →
      (run QueueSystem.step (before ++ after) start).2.calls[k]? = some (.returned result) →
      ∃ e, result = .error e

/-- **Close waits for everyone inside, and what it finds on the way fails**, in every run in which
no poll comes between the two unlocks of a call. -/
theorem closed_queue_quiesces (buf : ℕ → α) (hcapacity : 0 < capacity)
    (before after : List (QueueAction α))
    (hpermits : Meets QueueSystem.step Permits (before ++ after) (created buf capacity)) :
    Quiesces (created buf capacity) before after := by
  have hbefore := (Meets.append.mp hpermits).1
  have hsettles := history_invariant_of_meets (I := Settles capacity)
    (fun past s a h ha => h.step a ha) (settles_created buf hcapacity) hbefore
  refine ⟨fun hover => ?_, fun hleft k api result hapi hmoves hnone hresult => ?_⟩
  · -- nobody is inside, and what comes later is refused
    obtain ⟨hleft, hnobody⟩ := hsettles.gone hover
    exact ⟨hnobody, hsettles.conserves.silent hleft after⟩
  · have hexplains := (queue_conserves buf hcapacity (before ++ after)).returned k result hresult
    rw [history_append, transfersOf_append, hnone, hsettles.conserves.silent hleft after]
      at hexplains
    have hpc : (QueuePc.returned result).Moves :=
      Threads.of_starts (K := fun api pc => api.Moves → pc.Moves) QueueApi.enter_moves
        (fun _ env q pc h hmoves => pc.step_moves env q (h hmoves)) (before ++ after)
        (actrustQueueCreate buf capacity) hapi hresult hmoves
    -- an answer with an item would be a move in the history, and there is none
    match result, hpc, hexplains with
    | .error e, _, _ => exact ⟨e, rfl⟩
    | .ok .done, _, ⟨_, _, hmoved⟩ => cases hmoved
    | .ok (.item _), _, ⟨_, hmoved⟩ => cases hmoved

/-- The wait of the call ends without a token. -/
def timesOut : PrimEnv := ⟨false, some .timeout, .ok ()⟩

/-- A pop waits when the queue leaves `OPEN`. -/
def closingRun : List (QueueAction ℕ) :=
  .start (.pop .infinite) :: goOn 0 3 ++ .start .destroy :: goOn 1 2

/-- The waiting call times out, and destroy goes on. -/
def closedRun : List (QueueAction ℕ) :=
  .advance 0 timesOut :: goOn 0 2 ++ goOn 1 6

/-- The theorem at a queue that is destroyed with a call waiting. -/
theorem closed_queue_quiesces_waiting :
    0 < 1 ∧ Meets QueueSystem.step Permits (closingRun ++ closedRun) (created (fun _ => 0) 1) ∧
      (run QueueSystem.step (closingRun ++ closedRun) (created (fun _ => 0) 1)).2.calls =
        [.returned (.error (queueErr .badState)), .ended] ∧
      Quiesces (created (fun _ => 0) 1) closingRun closedRun := by
  have h : Meets QueueSystem.step Permits (closingRun ++ closedRun) (created (fun _ => 0) 1) := by
    decide +kernel
  exact ⟨Nat.one_pos, h, by decide +kernel,
    closed_queue_quiesces (fun _ => 0) Nat.one_pos closingRun closedRun h⟩

/-- A push has given up its count, and a destroy finds nobody. -/
def overtakenRun : List (QueueAction ℕ) :=
  .start (.push 4 .infinite) :: goOn 0 9 ++ .start .destroy :: goOn 1 5

/-- Without the condition the claim fails. -/
theorem not_closed_queue_quiesces :
    ¬ ∀ (capacity : ℕ) (buf : ℕ → ℕ) (before after : List (QueueAction ℕ)), 0 < capacity →
      Quiesces (created buf capacity) before after := by
  intro h
  have hreleased : (run QueueSystem.step overtakenRun (created (fun _ => 0) 1)).2.Over :=
    .inr (.inr (by decide +kernel))
  have hinside : .unlockInLock (.ok .done) ∈
      (run QueueSystem.step overtakenRun (created (fun _ => 0) 1)).2.calls := by decide +kernel
  exact ((h 1 (fun _ => 0) overtakenRun [] Nat.one_pos).closed hreleased).1 _ hinside trivial

end QueueSystem

end TrustSdk.Queue
