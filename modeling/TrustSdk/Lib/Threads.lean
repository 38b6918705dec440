import Mathlib.Algebra.BigOperators.Group.List.Basic
import Mathlib.Algebra.GroupWithZero.Nat
import TrustSdk.Lib.Machine

/-!
# Calls in any number of threads

A shared state, and calls that have been started in any number: each step starts a call, or lets
one of the calls take one step.

* `total` — how much all calls together have of something; `total_set` says what one step changes,
  `total_set_le` that it keeps a bound;
* `step_cases` — a step of the system is one of three;
* `of_starts` — what a call keeps from its start on, it has.
-/

namespace Threads

open Machine

variable {σ τ ι ε : Type}

/-- A state that the calls share and the calls that have begun, each where it stands. -/
structure System (σ τ : Type) where
  shared : σ
  calls : List τ

/-- A new call, or a step of one of them. -/
inductive Action (ι ε : Type) where
  | start (call : ι)
  | advance (k : ℕ) (env : ε)

/-- One step of the system. -/
def step (enter : ι → τ) (advance : ε → σ → τ → σ × τ) (s : System σ τ) :
    Action ι ε → Unit × System σ τ
  | .start call => ((), { s with calls := s.calls ++ [enter call] })
  | .advance k env =>
    match s.calls[k]? with
    | none => ((), s)
    | some t => ((), ⟨(advance env s.shared t).1, s.calls.set k (advance env s.shared t).2⟩)

/-- The call that takes the step. -/
def acting (s : System σ τ) : Action ι ε → Option (ε × τ)
  | .start _ => none
  | .advance k env => s.calls[k]?.map fun t => (env, t)

/-! ### Totals -/

/-- The weights of all calls together. -/
def total (w : τ → ℕ) (calls : List τ) : ℕ := (calls.map w).sum

section Totals

variable {w : τ → ℕ} {calls : List τ} {k : ℕ} {t : τ}

@[simp] theorem total_nil (w : τ → ℕ) : total w [] = 0 := rfl

@[simp] theorem total_snoc (w : τ → ℕ) (calls : List τ) (t : τ) :
    total w (calls ++ [t]) = total w calls + w t := by
  simp [total]

/-- A call is an old one, or the one that has been started. -/
theorem getElem?_snoc_cases {t' : τ} (h : (calls ++ [t'])[k]? = some t) :
    calls[k]? = some t ∨ k = calls.length ∧ t = t' := by
  rcases Nat.lt_trichotomy k calls.length with hlt | heq | hgt
  · rw [List.getElem?_append_left hlt] at h
    exact .inl h
  · rw [heq, List.getElem?_concat_length] at h
    exact .inr ⟨heq, (Option.some.inj h).symm⟩
  · rw [List.getElem?_eq_none (by rw [List.length_append]; exact hgt)] at h
    cases h

/-- A call is another one, or the one that has moved. -/
theorem getElem?_set_cases {j : ℕ} {t' : τ} (h : (calls.set k t')[j]? = some t) :
    j ≠ k ∧ calls[j]? = some t ∨ j = k ∧ t = t' := by
  by_cases hjk : k = j
  · subst hjk
    rw [List.getElem?_set_self'] at h
    obtain ⟨_, -, heq⟩ := Option.map_eq_some_iff.mp h
    exact .inr ⟨rfl, heq.symm⟩
  · rw [List.getElem?_set_ne hjk] at h
    exact .inl ⟨Ne.symm hjk, h⟩

/-- The calls before and behind one of them. -/
theorem split (h : calls[k]? = some t) : ∃ before after, calls = before ++ t :: after ∧
    ∀ t', calls.set k t' = before ++ t' :: after := by
  obtain ⟨hlt, rfl⟩ := List.getElem?_eq_some_iff.mp h
  refine ⟨calls.take k, calls.drop (k + 1), ?_, fun t' => ?_⟩
  · rw [← List.drop_eq_getElem_cons hlt, List.take_append_drop]
  · rw [List.set_eq_take_append_cons_drop, if_pos hlt]

/-- One call moves, and the others keep what they have. -/
theorem total_set (h : calls[k]? = some t) (w : τ → ℕ) (t' : τ) :
    total w (calls.set k t') + w t = total w calls + w t' := by
  obtain ⟨before, after, hcalls, hset⟩ := split h
  rw [hset, hcalls]
  simp only [total, List.map_append, List.map_cons, List.sum_append, List.sum_cons]
  omega

/-- A bound on what all calls have together is kept if the call that moves keeps it. -/
theorem total_set_le (h : calls[k]? = some t) {t' : τ} {b b' : ℕ} (hbound : total w calls ≤ b)
    (hmove : w t' + b ≤ w t + b') : total w (calls.set k t') ≤ b' := by
  have hset := total_set h w t'
  omega

/-- A weight from below moves with the step. -/
theorem le_total_set (h : calls[k]? = some t) {t' : τ} {b b' : ℕ} (hbound : b ≤ total w calls)
    (hmove : w t + b' ≤ w t' + b) : b' ≤ total w (calls.set k t') := by
  have hset := total_set h w t'
  omega

/-- A call weighs no more than all of them. -/
theorem le_total (h : calls[k]? = some t) (w : τ → ℕ) : w t ≤ total w calls := by
  obtain ⟨before, after, hcalls, -⟩ := split h
  rw [hcalls]
  simp only [total, List.map_append, List.map_cons, List.sum_append, List.sum_cons]
  omega

/-- What two calls have together. -/
theorem pair_le_total {j : ℕ} {u : τ} (hk : calls[k]? = some t) (hj : calls[j]? = some u)
    (hne : j ≠ k) (w : τ → ℕ) : w t + w u ≤ total w calls := by
  obtain ⟨hlt, rfl⟩ := List.getElem?_eq_some_iff.mp hk
  have hsum := ((List.getElem_cons_eraseIdx_perm hlt).map w).sum_eq
  rw [List.map_cons, List.sum_cons] at hsum
  obtain ⟨i, hi⟩ := List.mem_iff_getElem?.mp (List.mem_eraseIdx_iff_getElem?.mpr ⟨j, hne, hj⟩)
  rw [total, ← hsum]
  exact Nat.add_le_add_left (le_total hi w) _

/-- Smaller weights have a smaller total. -/
theorem total_mono {w' : τ → ℕ} (h : ∀ t ∈ calls, w t ≤ w' t) : total w calls ≤ total w' calls := by
  induction calls with
  | nil => exact Nat.le_refl 0
  | cons t calls ih =>
    have hrest := ih fun u hu => h u (List.mem_cons_of_mem _ hu)
    simp only [total, List.map_cons, List.sum_cons] at hrest ⊢
    exact Nat.add_le_add (h t List.mem_cons_self) hrest

/-- A total of zero. -/
theorem total_eq_zero : total w calls = 0 ↔ ∀ t ∈ calls, w t = 0 := by
  rw [total, List.sum_eq_zero_iff_forall_eq_nat, List.forall_mem_map]

end Totals

/-! ### Runs -/

section Runs

variable {enter : ι → τ} {advance : ε → σ → τ → σ × τ} {s : System σ τ}

/-- The step of a call that stands there. -/
theorem step_advance {k : ℕ} {t : τ} (hk : s.calls[k]? = some t) (env : ε) :
    (step enter advance s (.advance k env)).2 =
      ⟨(advance env s.shared t).1, s.calls.set k (advance env s.shared t).2⟩ := by
  simp only [step, hk]

/-- It is the one that acts. -/
theorem acting_advance {k : ℕ} {t : τ} (hk : s.calls[k]? = some t) (env : ε) :
    acting s (.advance k env : Action ι ε) = some (env, t) := by
  simp only [acting, hk, Option.map_some]

/-- A call starts, nothing happens, or a call takes a step. -/
theorem step_cases (enter : ι → τ) (advance : ε → σ → τ → σ × τ) (s : System σ τ)
    (a : Action ι ε) :
    (∃ call, a = .start call ∧
      (step enter advance s a).2 = ⟨s.shared, s.calls ++ [enter call]⟩) ∨
    (acting s a = none ∧ (step enter advance s a).2 = s) ∨
    ∃ k env t, a = .advance k env ∧ s.calls[k]? = some t ∧ acting s a = some (env, t) ∧
      (step enter advance s a).2 =
        ⟨(advance env s.shared t).1, s.calls.set k (advance env s.shared t).2⟩ := by
  cases a with
  | start call => exact .inl ⟨call, rfl, rfl⟩
  | advance k env =>
    cases hk : s.calls[k]? with
    | none =>
      refine .inr (.inl ⟨?_, ?_⟩)
      · simp only [acting, hk, Option.map_none]
      · simp only [step, hk]
    | some t => exact .inr (.inr ⟨k, env, t, rfl, hk, acting_advance hk env,
        step_advance hk env⟩)

/-- The calls that an action starts. -/
def starts (_ : System σ τ) : Action ι ε → List ι
  | .start call => [call]
  | .advance _ _ => []

/-- The calls are the started ones, and each of them has what it has kept. -/
def Keeps (K : ι → τ → Prop) (past : List ι) (s : System σ τ) : Prop :=
  past.length = s.calls.length ∧
    ∀ (k : ℕ) (i : ι) (t : τ), past[k]? = some i → s.calls[k]? = some t → K i t

variable {K : ι → τ → Prop} {past : List ι}

/-- A new call joins what the others keep. -/
theorem keeps_start (h : Keeps K past s) (henter : ∀ i, K i (enter i)) (call : ι) :
    Keeps K (past ++ [call]) (⟨s.shared, s.calls ++ [enter call]⟩ : System σ τ) := by
  obtain ⟨hlength, hcalls⟩ := h
  refine ⟨by simp [hlength], fun k i t hi ht => ?_⟩
  -- the two lists are as long as each other, so either both are old or both are new
  rcases getElem?_snoc_cases ht with hold | ⟨rfl, rfl⟩
  · obtain ⟨hlt, -⟩ := List.getElem?_eq_some_iff.mp hold
    rw [List.getElem?_append_left (hlength.symm ▸ hlt)] at hi
    exact hcalls k i t hi hold
  · rw [← hlength, List.getElem?_concat_length] at hi
    obtain rfl := Option.some.inj hi
    exact henter call

/-- A call that moves keeps what is kept of it. -/
theorem keeps_advance (h : Keeps K past s) {j : ℕ} {t t' : τ} (hj : s.calls[j]? = some t)
    (hkeep : ∀ i, K i t → K i t') (shared : σ) :
    Keeps K past (⟨shared, s.calls.set j t'⟩ : System σ τ) := by
  obtain ⟨hlength, hcalls⟩ := h
  refine ⟨by rw [List.length_set, hlength], fun k i u hi hu => ?_⟩
  rcases getElem?_set_cases hu with ⟨-, hother⟩ | ⟨rfl, rfl⟩
  · exact hcalls k i u hi hother
  · exact hkeep i (hcalls k i t hi hj)

/-- A step of the system keeps what every call keeps of itself. -/
theorem keeps_step (h : Keeps K past s) (henter : ∀ i, K i (enter i))
    (hadvance : ∀ i env s t, K i t → K i (advance env s t).2) (a : Action ι ε) :
    Keeps K (past ++ starts s a) (Threads.step enter advance s a).2 := by
  cases a with
  | start call => exact keeps_start h henter call
  | advance k env =>
    rw [starts, List.append_nil]
    cases hk : s.calls[k]? with
    | none =>
      simp only [Threads.step, hk]
      exact h
    | some t =>
      rw [step_advance hk]
      exact keeps_advance h hk (fun i => hadvance i env s.shared t) _

/-- What holds of a call when it starts, and is kept by its steps, holds of it all along. -/
theorem of_starts (henter : ∀ i, K i (enter i))
    (hadvance : ∀ i env s t, K i t → K i (advance env s t).2) (actions : List (Action ι ε))
    (shared : σ) {k : ℕ} {i : ι} {t : τ}
    (hi : (history (step enter advance) starts actions ⟨shared, []⟩)[k]? = some i)
    (ht : (run (step enter advance) actions ⟨shared, []⟩).2.calls[k]? = some t) : K i t :=
  (history_invariant (I := Keeps K) (fun _ _ a h => keeps_step h henter hadvance a) actions
    ⟨rfl, fun _ _ _ hi => nomatch hi⟩).2 k i t hi ht

end Runs

end Threads
