import Mathlib.Logic.Basic
import Mathlib.Tactic.Common

/-!
# Programs that make system calls

Sequential programs as trees of calls, each with the type of its answer, run in a world that
may answer a call in several ways. A run ends with a result, or it is cut short: the machine
may stop before any call and after the last one.

* `Exec` — the runs of a program, with the state each ends in;
* `wp` — the weakest precondition for a postcondition on the result and an *invariant* that
  every state on the way must satisfy, since the machine may stop there;
* `Exec.sound` — what `wp` proves holds of every run.

The rules `wp_bind` and `wp_call` take a program apart call by call, `wp.mono` weakens both
conditions and `wp.with_inv` adds the invariant to the postcondition.
-/

namespace SystemCalls

variable {Call : Type} {Reply : Call → Type} {State α β : Type}

/-- A program: its result, the next call and what to do with the answer, or a loop that no
longer makes progress. -/
inductive Sys {Call : Type} (Reply : Call → Type) (α : Type) where
  | done (a : α)
  | call (c : Call) (k : Reply c → Sys Reply α)
  | spin

namespace Sys

/-- Sequencing. -/
def bind : Sys Reply α → (α → Sys Reply β) → Sys Reply β
  | .done a, f => f a
  | .call c k, f => .call c fun r => (k r).bind f
  | .spin, _ => .spin

instance : Monad (Sys Reply) where
  pure := .done
  bind := bind

/-- Make one call and hand its answer on. -/
def ask (c : Call) : Sys Reply (Reply c) := .call c .done

/-- The conjunction of two checks: the second is made only if the first holds. -/
def andThen (p q : Sys Reply Bool) : Sys Reply Bool := do
  if ← p then q else return false

end Sys

/-- The runs of a program from a state: `some a` for a run that returned `a`, `none` for one
that was cut short, with the state it ended in. -/
inductive Exec (step : State → (c : Call) → Reply c → State → Prop) :
    Sys Reply α → State → Option α → State → Prop
  | stop {p s} : Exec step p s none s
  | done {a s} : Exec step (.done a) s (some a) s
  | call {c k r s s' o t} : step s c r s' → Exec step (k r) s' o t →
      Exec step (.call c k) s o t

/-- Every state a run from `s` goes through satisfies `I`, and a run that returns satisfies
`Q`. -/
def wp (step : State → (c : Call) → Reply c → State → Prop) (I : State → Prop)
    (Q : α → State → Prop) : Sys Reply α → State → Prop
  | .done a, s => I s ∧ Q a s
  | .call c k, s => I s ∧ ∀ r s', step s c r s' → wp step I Q (k r) s'
  | .spin, s => I s

section Rules

variable {step : State → (c : Call) → Reply c → State → Prop} {I I' : State → Prop}
  {Q Q' : α → State → Prop} {s : State}

/-- The invariant holds before the first call. -/
theorem wp.inv {p : Sys Reply α} (h : wp step I Q p s) : I s := by
  cases p with
  | done a => exact h.1
  | call c k => exact h.1
  | spin => exact h

/-- Consequence. -/
theorem wp.mono {p : Sys Reply α} (h : wp step I Q p s) (hI : ∀ t, I t → I' t)
    (hQ : ∀ a t, I t → Q a t → Q' a t) : wp step I' Q' p s := by
  induction p generalizing s with
  | done a => exact ⟨hI s h.1, hQ a s h.1 h.2⟩
  | call c k ih => exact ⟨hI s h.1, fun r s' hstep => ih r (h.2 r s' hstep)⟩
  | spin => exact hI s h

/-- The invariant is part of every postcondition. -/
theorem wp.with_inv {p : Sys Reply α} (h : wp step I Q p s) :
    wp step I (fun a t => I t ∧ Q a t) p s :=
  h.mono (fun _ ht => ht) fun _ _ hI hQ => ⟨hI, hQ⟩

/-- Both of two specifications. -/
theorem wp.and {p : Sys Reply α} (h : wp step I Q p s) (h' : wp step I' Q' p s) :
    wp step (fun t => I t ∧ I' t) (fun a t => Q a t ∧ Q' a t) p s := by
  induction p generalizing s with
  | done a => exact ⟨⟨h.1, h'.1⟩, h.2, h'.2⟩
  | call c k ih =>
    exact ⟨⟨h.1, h'.1⟩, fun r s' hstep => ih r (h.2 r s' hstep) (h'.2 r s' hstep)⟩
  | spin => exact ⟨h, h'⟩

/-- The rule of the end. -/
theorem wp_pure {a : α} (hI : I s) (hQ : Q a s) : wp step I Q (pure a : Sys Reply α) s :=
  ⟨hI, hQ⟩

/-- The rule of sequencing. -/
theorem wp_bind {p : Sys Reply α} {f : α → Sys Reply β} {R : β → State → Prop}
    (h : wp step I (fun a t => wp step I R (f a) t) p s) : wp step I R (p >>= f) s := by
  change wp step I R (p.bind f) s
  induction p generalizing s with
  | done a => exact h.2
  | call c k ih => exact ⟨h.1, fun r s' hstep => ih r (h.2 r s' hstep)⟩
  | spin => exact h

/-- One call. -/
theorem wp_call {c : Call} {Q : Reply c → State → Prop} (hI : I s)
    (h : ∀ r s', step s c r s' → I s' ∧ Q r s') : wp step I Q (Sys.ask c) s :=
  ⟨hI, h⟩

/-- A check that is made only after another. -/
theorem wp_andThen {p q : Sys Reply Bool} {Q : Bool → State → Prop}
    (h : wp step I (fun b t => (b = true → wp step I Q q t) ∧ (b = false → Q false t)) p s) :
    wp step I Q (p.andThen q) s := by
  refine wp_bind (h.mono (fun _ ht => ht) fun b t hI hb => ?_)
  cases b with
  | true => exact hb.1 rfl
  | false => exact wp_pure hI (hb.2 rfl)

/-- Every run of a program satisfies what `wp` proves of it. -/
theorem Exec.sound {p : Sys Reply α} {o : Option α} {t : State} (he : Exec step p s o t)
    (h : wp step I Q p s) : I t ∧ ∀ a, o = some a → Q a t := by
  induction he with
  | stop => exact ⟨h.inv, fun a ha => nomatch ha⟩
  | done =>
    refine ⟨h.1, fun a ha => ?_⟩
    cases ha
    exact h.2
  | call hstep _ ih => exact ih (h.2 _ _ hstep)

/-- A run goes on where the program before it returned. -/
theorem Exec.bind {p : Sys Reply α} {f : α → Sys Reply β} {a : α} {o : Option β} {t u : State}
    (hp : Exec step p s (some a) t) (hf : Exec step (f a) t o u) :
    Exec step (p >>= f) s o u := by
  change Exec step (p.bind f) s o u
  generalize ho : some a = o' at hp
  induction hp with
  | stop => cases ho
  | done =>
    cases ho
    exact hf
  | call hstep _ ih => exact .call hstep (ih hf ho)

end Rules

end SystemCalls
