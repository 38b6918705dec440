import Mathlib.Data.List.Basic

/-!
# Deterministic machines, their runs and simulation

A machine that answers every input and moves on, run over a list of inputs.

* `Meets` — every step of a run meets a condition; `run_invariant` carries over such a run what
  each of its steps preserves, and `Always` is what holds in each of its states;
* `history` — what happens in a run, and `history_invariant`, which relates it to the state;
* `run_simulates` — the rule that carries a simulation from one input to a whole run. The
  simulation may depend on a limit that holds at the end of the run: a limit that a later
  state meets is met by the earlier ones too.
-/

namespace Machine

variable {ι ο σ τ : Type}

/-- The answers of a run, and the state it ends in. -/
def run (step : σ → ι → ο × σ) : List ι → σ → List ο × σ
  | [], s => ([], s)
  | i :: is, s => ((step s i).1 :: (run step is (step s i).2).1, (run step is (step s i).2).2)

@[simp] theorem run_nil (step : σ → ι → ο × σ) (s : σ) : run step [] s = ([], s) := rfl

/-- A run starts with its first step. -/
theorem run_cons (step : σ → ι → ο × σ) (i : ι) (is : List ι) (s : σ) :
    run step (i :: is) s =
      ((step s i).1 :: (run step is (step s i).2).1, (run step is (step s i).2).2) := rfl

/-- A run of two pieces. -/
theorem run_append (step : σ → ι → ο × σ) (is js : List ι) (s : σ) :
    run step (is ++ js) s =
      ((run step is s).1 ++ (run step js (run step is s).2).1, (run step js (run step is s).2).2) := by
  induction is generalizing s with
  | nil => rfl
  | cons i is ih => rw [List.cons_append, run_cons, ih, run_cons, List.cons_append]

/-! ### Conditions on runs -/

/-- Every step of the run meets `ok`. -/
def Meets (step : σ → ι → ο × σ) (ok : σ → ι → Prop) : List ι → σ → Prop
  | [], _ => True
  | i :: is, s => ok s i ∧ Meets step ok is (step s i).2

/-- Every state of the run satisfies `P`, the first and the last one included. -/
def Always (step : σ → ι → ο × σ) (P : σ → Prop) : List ι → σ → Prop
  | [], s => P s
  | i :: is, s => P s ∧ Always step P is (step s i).2

/-- A condition on runs can be computed. -/
instance Meets.decidable (step : σ → ι → ο × σ) (ok : σ → ι → Prop) [∀ s i, Decidable (ok s i)] :
    ∀ is s, Decidable (Meets step ok is s)
  | [], _ => inferInstanceAs (Decidable True)
  | i :: is, s =>
    have := Meets.decidable step ok is (step s i).2
    inferInstanceAs (Decidable (_ ∧ _))

section Conditions

variable {step : σ → ι → ο × σ} {ok ok' : σ → ι → Prop} {P I : σ → Prop}

/-- A weaker condition. -/
theorem Meets.mono (h : ∀ s i, ok s i → ok' s i) {is : List ι} {s : σ} (hm : Meets step ok is s) :
    Meets step ok' is s := by
  induction is generalizing s with
  | nil => trivial
  | cons i is ih => exact ⟨h s i hm.1, ih hm.2⟩

/-- Two conditions. -/
theorem Meets.and {is : List ι} {s : σ} (h : Meets step ok is s) (h' : Meets step ok' is s) :
    Meets step (fun s i => ok s i ∧ ok' s i) is s := by
  induction is generalizing s with
  | nil => trivial
  | cons i is ih => exact ⟨⟨h.1, h'.1⟩, ih h.2 h'.2⟩

/-- A condition on a run of two pieces. -/
theorem Meets.append {is js : List ι} {s : σ} : Meets step ok (is ++ js) s ↔
    Meets step ok is s ∧ Meets step ok js (run step is s).2 := by
  induction is generalizing s with
  | nil => simp [Meets]
  | cons i is ih => rw [List.cons_append, Meets, Meets, ih, run_cons, and_assoc]

/-- What every step that meets the condition preserves holds at the end of such a run. -/
theorem run_invariant (hstep : ∀ s i, I s → ok s i → I (step s i).2) {is : List ι} {s : σ}
    (h : I s) (hm : Meets step ok is s) : I (run step is s).2 := by
  induction is generalizing s with
  | nil => exact h
  | cons i is ih => exact ih (hstep s i h hm.1) hm.2

/-- With it, each step meets what the condition implies. -/
theorem Meets.of_invariant (hstep : ∀ s i, I s → ok s i → I (step s i).2)
    (h' : ∀ s i, I s → ok s i → ok' s i) {is : List ι} {s : σ} (h : I s)
    (hm : Meets step ok is s) : Meets step ok' is s := by
  induction is generalizing s with
  | nil => trivial
  | cons i is ih => exact ⟨h' s i h hm.1, ih (hstep s i h hm.1) hm.2⟩

/-- It holds in every state of the run, and so does what it implies. -/
theorem always_of_invariant (hstep : ∀ s i, I s → ok s i → I (step s i).2)
    (hP : ∀ s, I s → P s) {is : List ι} {s : σ} (h : I s) (hm : Meets step ok is s) :
    Always step P is s := by
  induction is generalizing s with
  | nil => exact hP s h
  | cons i is ih => exact ⟨hP s h, ih (hstep s i h hm.1) hm.2⟩

/-- What always holds held at the start. -/
theorem Always.first {is : List ι} {s : σ} (h : Always step P is s) : P s := by
  cases is with
  | nil => exact h
  | cons i is => exact h.1

/-- And holds at the end. -/
theorem Always.last {is : List ι} {s : σ} (h : Always step P is s) : P (run step is s).2 := by
  induction is generalizing s with
  | nil => exact h
  | cons i is ih => exact ih h.2

end Conditions

/-! ### What happens in a run -/

section History

variable {ε : Type} {step : σ → ι → ο × σ} {events : σ → ι → List ε}

/-- The events of the steps of a run, in order. -/
def history (step : σ → ι → ο × σ) (events : σ → ι → List ε) : List ι → σ → List ε
  | [], _ => []
  | i :: is, s => events s i ++ history step events is (step s i).2

/-- The history of two pieces. -/
theorem history_append (is js : List ι) (s : σ) : history step events (is ++ js) s =
    history step events is s ++ history step events js (run step is s).2 := by
  induction is generalizing s with
  | nil => rfl
  | cons i is ih => rw [List.cons_append, history, history, ih, run_cons, List.append_assoc]

/-- What every step that meets the condition keeps of the events so far and the state. -/
theorem history_invariant_of_meets {I : List ε → σ → Prop} {ok : σ → ι → Prop}
    (hstep : ∀ h s i, I h s → ok s i → I (h ++ events s i) (step s i).2) {is : List ι} {s : σ}
    (h : I [] s) (hm : Meets step ok is s) : I (history step events is s) (run step is s).2 := by
  have hgen : ∀ past s, I past s → Meets step ok is s →
      I (past ++ history step events is s) (run step is s).2 := by
    clear h hm
    induction is with
    | nil =>
      intro past s h _
      rw [history, List.append_nil]
      exact h
    | cons i is ih =>
      intro past s h hm
      rw [history, ← List.append_assoc]
      exact ih _ _ (hstep past s i h hm.1) hm.2
  exact hgen [] s h hm

/-- A condition that every step meets. -/
theorem Meets.of_forall {ok : σ → ι → Prop} (h : ∀ s i, ok s i) (is : List ι) (s : σ) :
    Meets step ok is s := by
  induction is generalizing s with
  | nil => trivial
  | cons i is ih => exact ⟨h s i, ih _⟩

/-- What every step keeps of the events so far and the state. -/
theorem history_invariant {I : List ε → σ → Prop}
    (hstep : ∀ h s i, I h s → I (h ++ events s i) (step s i).2) (is : List ι) {s : σ}
    (h : I [] s) : I (history step events is s) (run step is s).2 :=
  history_invariant_of_meets (fun past s i hI _ => hstep past s i hI) h
    (Meets.of_forall (fun _ _ => trivial) is s)

end History

section Simulation

variable {step : σ → ι → ο × σ} {model : τ → ι → ο × τ} {R : σ → τ → Prop} {limit : τ → Prop}
  (hback : ∀ a i, limit (model a i).2 → limit a)
  (hstep : ∀ s a i, R s a → limit (model a i).2 →
    (step s i).1 = (model a i).1 ∧ R (step s i).2 (model a i).2)
include hback

/-- A limit met at the end of a run was met all along. -/
theorem limit_of_run (is : List ι) (a : τ) (h : limit (run model is a).2) : limit a := by
  induction is generalizing a with
  | nil => exact h
  | cons i is ih => exact hback a i (ih _ h)

include hstep

/-- Along a run that stays within the limit the machine answers as its model does. -/
theorem run_simulates (is : List ι) (s : σ) (a : τ) (h : R s a) (hlimit : limit (run model is a).2) :
    (run step is s).1 = (run model is a).1 ∧ R (run step is s).2 (run model is a).2 := by
  induction is generalizing s a with
  | nil => exact ⟨rfl, h⟩
  | cons i is ih =>
    obtain ⟨hreply, hnext⟩ := hstep s a i h (limit_of_run hback is _ hlimit)
    obtain ⟨hreplies, hend⟩ := ih _ _ hnext hlimit
    exact ⟨by rw [run_cons, run_cons, hreply, hreplies], hend⟩

end Simulation

end Machine
