import TrustSdk.Lib.Machine

/-!
# Runs to a goal

`exists_run_of_rank` is the rule by which a machine can be brought to a goal from every state that
satisfies an invariant: as long as the goal is not reached, some step keeps the invariant and brings
a rank down. The rank bounds the length of the run.

`CanReach` is that some run leads to the goal. Such runs are put together (`CanReach.trans`), and
found by a rank (`CanReach.of_rank`).
-/

namespace Machine

variable {ι ο σ : Type} {step : σ → ι → ο × σ} {ok : σ → ι → Prop} {I G : σ → Prop} {rank : σ → ℕ}

/-- A goal is reached by steps that bring a rank down. -/
theorem exists_run_of_rank
    (hstep : ∀ s, I s → ¬G s → ∃ i, ok s i ∧ I (step s i).2 ∧ rank (step s i).2 < rank s) {s : σ}
    (h : I s) : ∃ is, is.length ≤ rank s ∧ Meets step ok is s ∧ I (run step is s).2 ∧
      G (run step is s).2 := by
  induction hrank : rank s using Nat.strongRecOn generalizing s with
  | _ n ih =>
    by_cases hgoal : G s
    · exact ⟨[], Nat.zero_le _, trivial, h, hgoal⟩
    · obtain ⟨i, hok, hnext, hlt⟩ := hstep s h hgoal
      obtain ⟨is, hlength, hmeets, hlast, hreached⟩ := ih _ (hrank ▸ hlt) hnext rfl
      refine ⟨i :: is, ?_, ⟨hok, hmeets⟩, hlast, hreached⟩
      rw [List.length_cons]
      omega

/-! ### States that can be reached -/

/-- Some run ends in a state that satisfies `P`. -/
def CanReach (step : σ → ι → ο × σ) (P : σ → Prop) (s : σ) : Prop := ∃ is, P (run step is s).2

section CanReach

variable {P Q : σ → Prop} {s : σ}

/-- Nothing has to be done. -/
theorem CanReach.here (h : P s) : CanReach step P s := ⟨[], h⟩

/-- After a step it can still be reached. -/
theorem CanReach.after (i : ι) (h : CanReach step P (step s i).2) : CanReach step P s := by
  obtain ⟨is, his⟩ := h
  exact ⟨i :: is, his⟩

/-- The run goes on from the state that it has reached. -/
theorem CanReach.trans (h : CanReach step P s) (h' : ∀ s, P s → CanReach step Q s) :
    CanReach step Q s := by
  obtain ⟨is, his⟩ := h
  obtain ⟨js, hjs⟩ := h' _ his
  refine ⟨is ++ js, ?_⟩
  rw [run_append]
  exact hjs

/-- An invariant under which some step lowers the rank leads to `P`. -/
theorem CanReach.of_rank (rank : σ → ℕ)
    (h : ∀ s, I s → P s ∨ ∃ i, I (step s i).2 ∧ rank (step s i).2 < rank s) (hs : I s) :
    CanReach step P s := by
  have hstep : ∀ s, I s → ¬P s →
      ∃ i, True ∧ I (step s i).2 ∧ rank (step s i).2 < rank s := by
    intro s hI hnot
    obtain ⟨i, hi⟩ := (h s hI).resolve_left hnot
    exact ⟨i, trivial, hi⟩
  obtain ⟨is, -, -, -, hreached⟩ := @exists_run_of_rank ι ο σ step (fun _ _ => True) I P rank hstep
    s hs
  exact ⟨is, hreached⟩

end CanReach

end Machine
