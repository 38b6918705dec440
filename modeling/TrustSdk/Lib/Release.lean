import Mathlib.Data.Set.BooleanAlgebra
import Mathlib.Data.Set.Image
import Mathlib.Order.CompletePartialOrder

/-!
# Releasing resources, and trying again

What is done to resources, as a log, and stages that release them and may fail.

* `Lawful` — a log that leads from the resources held before it to those held after it: what is
  used is held, and a release gives up what it releases. Then nothing is released twice
  (`Lawful.released_once`) and nothing is used behind its release (`Lawful.unused`);
* `Meets` — what a stage does from the states of `P`, with the rules for its combinations;
* `attempts` — a stage that is tried again until it succeeds, and `attempts_lawful` for it.
-/

namespace Release

variable {ρ ρ' σ ε κ : Type}

/-- What is done to a resource. -/
inductive Event (ρ : Type) where
  | use (r : ρ)
  | release (r : ρ)
  /-- A release that fails: the resource stays as it is. -/
  | fail (r : ρ)
deriving DecidableEq

namespace Event

/-- The resource an event is about. -/
def resource : Event ρ → ρ
  | use r => r
  | release r => r
  | fail r => r

/-- The event of another resource. -/
def map (f : ρ → ρ') : Event ρ → Event ρ'
  | use r => use (f r)
  | release r => release (f r)
  | fail r => fail (f r)

/-- The resource that the event gave back. -/
def released : Event ρ → Option ρ
  | release r => some r
  | _ => none

end Event

/-- No release fails. -/
def Clean (log : List (Event ρ)) : Prop := ∀ r, .fail r ∉ log

/-- Nothing was done. -/
theorem clean_nil : Clean ([] : List (Event ρ)) := fun _ => List.not_mem_nil

/-- Two logs, one after the other. -/
theorem clean_append {log log' : List (Event ρ)} :
    Clean (log ++ log') ↔ Clean log ∧ Clean log' := by
  constructor
  · intro h
    exact ⟨fun r hr => h r (List.mem_append_left _ hr), fun r hr => h r (List.mem_append_right _ hr)⟩
  · rintro ⟨h, h'⟩ r hr
    exact (List.mem_append.mp hr).elim (h r) (h' r)

/-- Renaming resources keeps a log clean. -/
theorem clean_map {f : ρ → ρ'} {log : List (Event ρ)} : Clean (log.map (.map f)) ↔ Clean log := by
  constructor
  · intro h r hr
    exact h (f r) (List.mem_map_of_mem hr)
  · intro h r hr
    obtain ⟨e, he, heq⟩ := List.mem_map.mp hr
    cases e with
    | fail r' => exact h r' he
    | use r' => cases heq
    | release r' => cases heq

/-! ### Lawful logs -/

/-- `log` leads from the resources held before to the ones held after. -/
inductive Lawful : Set ρ → List (Event ρ) → Set ρ → Prop where
  | nil {held : Set ρ} : Lawful held [] held
  | use {held held' : Set ρ} {log : List (Event ρ)} {r : ρ} (hr : r ∈ held)
      (h : Lawful held log held') : Lawful held (.use r :: log) held'
  | fail {held held' : Set ρ} {log : List (Event ρ)} {r : ρ} (hr : r ∈ held)
      (h : Lawful held log held') : Lawful held (.fail r :: log) held'
  | release {held held' : Set ρ} {log : List (Event ρ)} {r : ρ} (hr : r ∈ held)
      (h : Lawful (held \ {r}) log held') : Lawful held (.release r :: log) held'

namespace Lawful

variable {held held' held'' : Set ρ} {log log' : List (Event ρ)}

/-- Two logs, one after the other. -/
theorem append (h : Lawful held log held') (h' : Lawful held' log' held'') :
    Lawful held (log ++ log') held'' := by
  induction h with
  | nil => exact h'
  | use hr _ ih => exact .use hr (ih h')
  | fail hr _ ih => exact .fail hr (ih h')
  | release hr _ ih => exact .release hr (ih h')

/-- A log gives back and never takes. -/
theorem subset (h : Lawful held log held') : held' ⊆ held := by
  induction h with
  | nil => exact subset_rfl
  | use _ _ ih => exact ih
  | fail _ _ ih => exact ih
  | release _ _ ih => exact ih.trans Set.sdiff_subset

/-- Every event is about a resource that was held. -/
theorem mem_of_event (h : Lawful held log held') {e : Event ρ} (he : e ∈ log) :
    e.resource ∈ held := by
  -- what is held behind a release was held before it
  induction h with
  | nil => cases he
  | use hr _ ih =>
    rcases List.mem_cons.mp he with rfl | he
    · exact hr
    · exact ih he
  | fail hr _ ih =>
    rcases List.mem_cons.mp he with rfl | he
    · exact hr
    · exact ih he
  | release hr _ ih =>
    rcases List.mem_cons.mp he with rfl | he
    · exact hr
    · exact (ih he).1

/-- Behind its release nothing is done to a resource. -/
theorem unused (h : Lawful held log held') {before after : List (Event ρ)} {r : ρ}
    (hlog : log = before ++ .release r :: after) : ∀ e ∈ after, e.resource ≠ r := by
  -- after the release the resource is no longer held, and no event is about one that is not
  induction h generalizing before with
  | nil => cases before <;> cases hlog
  | use _ _ ih =>
    cases before with
    | nil => cases hlog
    | cons _ before => exact ih (List.cons.inj hlog).2
  | fail _ _ ih =>
    cases before with
    | nil => cases hlog
    | cons _ before => exact ih (List.cons.inj hlog).2
  | release _ h ih =>
    cases before with
    | nil =>
      obtain ⟨hr, rfl⟩ := List.cons.inj hlog
      cases hr
      intro e he
      exact (h.mem_of_event he).2
    | cons _ before => exact ih (List.cons.inj hlog).2

/-- Every resource is released at most once. -/
theorem released_once (h : Lawful held log held') : (log.filterMap Event.released).Nodup := by
  induction h with
  | nil => exact List.nodup_nil
  | use _ _ ih => exact ih
  | fail _ _ ih => exact ih
  | release _ h ih =>
    refine List.nodup_cons.mpr ⟨fun hmem => ?_, ih⟩
    obtain ⟨e, he, hreleased⟩ := List.mem_filterMap.mp hmem
    cases e with
    | release r => exact (h.mem_of_event he).2 (Option.some.inj hreleased)
    | use r => cases hreleased
    | fail r => cases hreleased

/-- Of what is held any use is lawful. -/
theorem use_all {rs : List ρ} (h : ∀ r ∈ rs, r ∈ held) : Lawful held (rs.map .use) held := by
  induction rs with
  | nil => exact .nil
  | cons r rs ih =>
    exact .use (h r List.mem_cons_self) (ih fun r' hr' => h r' (List.mem_cons_of_mem _ hr'))

/-- The resources of a part, among others. -/
theorem map {f : ρ → ρ'} (hf : Function.Injective f) (others : Set ρ')
    (hothers : ∀ r, f r ∉ others) (h : Lawful held log held') :
    Lawful (f '' held ∪ others) (log.map (.map f)) (f '' held' ∪ others) := by
  induction h with
  | nil => exact .nil
  | use hr _ ih => exact .use (.inl (Set.mem_image_of_mem f hr)) ih
  | fail hr _ ih => exact .fail (.inl (Set.mem_image_of_mem f hr)) ih
  | @release held _ _ r hr _ ih =>
    refine .release (.inl (Set.mem_image_of_mem f hr)) ?_
    have hdiff : (f '' held ∪ others) \ {f r} = f '' (held \ {r}) ∪ others := by
      rw [Set.union_sdiff_distrib, Set.image_sdiff hf, Set.image_singleton,
        Set.sdiff_singleton_eq_self (hothers r)]
    rw [hdiff]
    exact ih

end Lawful

/-! ### Stages -/

/-- What a stage has done, its result and the state it leaves. -/
structure Outcome (ρ ε σ : Type) where
  log : List (Event ρ)
  result : Except ε Unit
  state : σ

/-- A stage of the release: it reads the state and gives the outcome. -/
abbrev Stage (ρ ε σ : Type) := σ → Outcome ρ ε σ

/-- Stops at the first error. -/
def andThen (f g : Stage ρ ε σ) : Stage ρ ε σ := fun s =>
  match (f s).result with
  | .error e => ⟨(f s).log, .error e, (f s).state⟩
  | .ok _ => ⟨(f s).log ++ (g (f s).state).log, (g (f s).state).result, (g (f s).state).state⟩

/-- Goes on behind an error, and answers with the first one. -/
def both (f g : Stage ρ ε σ) : Stage ρ ε σ := fun s =>
  ⟨(f s).log ++ (g (f s).state).log,
    match (f s).result with
    | .error e => .error e
    | .ok _ => (g (f s).state).result,
    (g (f s).state).state⟩

/-- Runs the handler behind an error, which stays the answer. -/
def onError (f handler : Stage ρ ε σ) : Stage ρ ε σ := fun s =>
  match (f s).result with
  | .error e =>
    ⟨(f s).log ++ (handler (f s).state).log, .error e, (handler (f s).state).state⟩
  | .ok _ => f s

/-- Releases what is there. -/
def releaseIf (r : ρ) (present : σ → Bool) (clear : σ → σ) (fails : Option ε) : Stage ρ ε σ :=
  fun s =>
    if present s then
      match fails with
      | none => ⟨[.release r], .ok (), clear s⟩
      | some e => ⟨[.fail r], .error e, s⟩
    else ⟨[], .ok (), s⟩

/-- What a stage does from the states of `P`: it leads to `Q`, or by an error to `E`. If all
else works, it succeeds exactly when no release fails. -/
structure Meets (works : Prop) (held : σ → Set ρ) (P : σ → Prop) (f : Stage ρ ε σ)
    (Q E : σ → Prop) : Prop where
  lawful : ∀ s, P s → Lawful (held s) (f s).log (held (f s).state)
  done : ∀ s, P s → (f s).result = .ok () → Q (f s).state
  failed : ∀ s e, P s → (f s).result = .error e → E (f s).state
  clean : works → ∀ s, P s → ((f s).result = .ok () ↔ Clean (f s).log)

section Rules

variable {works : Prop} {held : σ → Set ρ} {P Q Q' R E : σ → Prop} {f g : Stage ρ ε σ}

/-- Two stages, the second run only when the first went well. -/
theorem Meets.andThen (hf : Meets works held P f Q E) (hg : Meets works held Q g R E) :
    Meets works held P (andThen f g) R E := by
  -- the second stage is run or it is not
  have hcases : ∀ s, (∃ e, (f s).result = .error e ∧
        Release.andThen f g s = ⟨(f s).log, .error e, (f s).state⟩) ∨
      ((f s).result = .ok () ∧ Release.andThen f g s = ⟨(f s).log ++ (g (f s).state).log,
        (g (f s).state).result, (g (f s).state).state⟩) := by
    intro s
    unfold Release.andThen
    cases (f s).result with
    | error e => exact .inl ⟨e, rfl, rfl⟩
    | ok _ => exact .inr ⟨rfl, rfl⟩
  -- the parts of the condition, each from the two stages
  refine ⟨?_, ?_, ?_, ?_⟩
  · intro s hs
    rcases hcases s with ⟨e, hr, heq⟩ | ⟨hr, heq⟩ <;> rw [heq]
    · exact hf.lawful s hs
    · exact (hf.lawful s hs).append (hg.lawful _ (hf.done s hs hr))
  · intro s hs hok
    rcases hcases s with ⟨e, hr, heq⟩ | ⟨hr, heq⟩ <;> rw [heq] at hok ⊢
    · cases hok
    · exact hg.done _ (hf.done s hs hr) hok
  · intro s e hs herr
    rcases hcases s with ⟨e', hr, heq⟩ | ⟨hr, heq⟩ <;> rw [heq] at herr ⊢
    · exact hf.failed s e' hs hr
    · exact hg.failed _ e (hf.done s hs hr) herr
  · intro hw s hs
    rcases hcases s with ⟨e, hr, heq⟩ | ⟨hr, heq⟩ <;> rw [heq]
    · rw [← hf.clean hw s hs, hr]
    · show (g (f s).state).result = .ok () ↔ Clean ((f s).log ++ (g (f s).state).log)
      rw [clean_append, ← hf.clean hw s hs, ← hg.clean hw _ (hf.done s hs hr), hr]
      exact ⟨fun h => ⟨rfl, h⟩, And.right⟩

/-- What the first stage has released stays released. -/
theorem Meets.andThen_gone {gone gone' : Set ρ}
    (hf : Meets works held P f (fun s => Q s ∧ Disjoint gone (held s)) E)
    (hg : Meets works held Q g (fun s => Disjoint gone' (held s)) E) :
    Meets works held P (Release.andThen f g) (fun s => Disjoint (gone ∪ gone') (held s)) E := by
  refine hf.andThen ⟨fun s hs => hg.lawful s hs.1, ?_, fun s e hs => hg.failed s e hs.1,
    fun hw s hs => hg.clean hw s hs.1⟩
  intro s hs hok
  rw [Set.disjoint_union_left]
  exact ⟨hs.2.mono_right (hg.lawful s hs.1).subset, hg.done s hs.1 hok⟩

/-- Behind an error the handler runs. -/
theorem Meets.onError {handler : Stage ρ ε σ} {R : σ → Prop} (hf : Meets works held P f Q E)
    (hhandler : ∀ s, E s → Lawful (held s) (handler s).log (held (handler s).state))
    (hE : ∀ s, E s → R (handler s).state) : Meets works held P (onError f handler) Q R := by
  -- the handler runs only after an error, which stays the result
  have hcases : ∀ s, (∃ e, (f s).result = .error e ∧ Release.onError f handler s =
        ⟨(f s).log ++ (handler (f s).state).log, .error e, (handler (f s).state).state⟩) ∨
      ((f s).result = .ok () ∧ Release.onError f handler s = f s) := by
    intro s
    unfold Release.onError
    cases hr : (f s).result with
    | error e => exact .inl ⟨e, rfl, rfl⟩
    | ok _ => exact .inr ⟨rfl, rfl⟩
  refine ⟨?_, ?_, ?_, ?_⟩
  · intro s hs
    rcases hcases s with ⟨e, hr, heq⟩ | ⟨-, heq⟩ <;> rw [heq]
    · exact (hf.lawful s hs).append (hhandler _ (hf.failed s e hs hr))
    · exact hf.lawful s hs
  · intro s hs hok
    rcases hcases s with ⟨e, -, heq⟩ | ⟨hr, heq⟩ <;> rw [heq] at hok ⊢
    · cases hok
    · exact hf.done s hs hr
  · intro s e hs herr
    rcases hcases s with ⟨e', hr, heq⟩ | ⟨hr, heq⟩ <;> rw [heq] at herr ⊢
    · exact hE _ (hf.failed s e' hs hr)
    · cases hr.symm.trans herr
  · intro hw s hs
    rcases hcases s with ⟨e, hr, heq⟩ | ⟨-, heq⟩ <;> rw [heq]
    · refine ⟨nofun, fun hclean => ?_⟩
      cases hr.symm.trans ((hf.clean hw s hs).mpr (clean_append.mp hclean).1)
    · exact hf.clean hw s hs

/-- Of two stages that both run, each keeps what the other has achieved. -/
theorem Meets.both (hf : Meets works held P f Q P) (hg : Meets works held P g R P)
    (hQ : ∀ s, Q s → P s) (hR : ∀ s, R s → P s) (hkeeps : ∀ s, Q s → Q (g s).state) :
    Meets works held P (both f g) (fun s => Q s ∧ R s) P := by
  -- both stages run whatever the first one answered, so what holds between them holds in either
  -- case
  have hmid : ∀ s, P s → P (f s).state := by
    intro s hs
    cases hr : (f s).result with
    | error e => exact hf.failed s e hs hr
    | ok _ => exact hQ _ (hf.done s hs hr)
  have hend : ∀ s, P s → P (g s).state := by
    intro s hs
    cases hr : (g s).result with
    | error e => exact hg.failed s e hs hr
    | ok _ => exact hR _ (hg.done s hs hr)
  have hresult : ∀ s, (Release.both f g s).result = .ok () ↔
      (f s).result = .ok () ∧ (g (f s).state).result = .ok () := by
    intro s
    unfold Release.both
    cases (f s).result with
    | error e => exact ⟨nofun, fun h => nomatch h.1⟩
    | ok _ => exact ⟨fun h => ⟨rfl, h⟩, And.right⟩
  refine ⟨?_, ?_, ?_, ?_⟩
  · intro s hs
    exact (hf.lawful s hs).append (hg.lawful _ (hmid s hs))
  · intro s hs hok
    obtain ⟨hokf, hokg⟩ := (hresult s).mp hok
    exact ⟨hkeeps _ (hf.done s hs hokf), hg.done _ (hmid s hs) hokg⟩
  · intro s e hs _
    exact hend _ (hmid s hs)
  · intro hw s hs
    show _ ↔ Clean ((f s).log ++ (g (f s).state).log)
    rw [hresult, clean_append, hf.clean hw s hs, hg.clean hw _ (hmid s hs)]

/-- What the first stage has released stays released. -/
theorem Meets.both_gone {r : ρ} (hf : Meets works held P f (fun s => P s ∧ r ∉ held s) P)
    (hg : Meets works held P g R P) (hR : ∀ s, R s → P s) :
    Meets works held P (Release.both f g) (fun s => (P s ∧ r ∉ held s) ∧ R s) P := by
  refine hf.both hg (fun s hs => hs.1) hR fun s hs => ⟨?_, fun hr => hs.2 ?_⟩
  · cases hr : (g s).result with
    | error e => exact hg.failed s e hs.1 hr
    | ok _ => exact hR _ (hg.done s hs.1 hr)
  · exact (hg.lawful s hs.1).subset hr

/-- The rule of consequence. -/
theorem Meets.weaken (h : Meets works held P f Q E) {works' : Prop} {P' E' : σ → Prop}
    (hw : works' → works) (hP : ∀ s, P' s → P s) (hQ : ∀ s, Q s → Q' s) (hE : ∀ s, E s → E' s) :
    Meets works' held P' f Q' E' where
  lawful s hs := h.lawful s (hP s hs)
  done s hs hr := hQ _ (h.done s (hP s hs) hr)
  failed s e hs hr := hE _ (h.failed s e (hP s hs) hr)
  clean hw' s hs := h.clean (hw hw') s (hP s hs)

/-- A stage that is chosen by a test. -/
theorem Meets.ite {c : σ → Prop} [DecidablePred c]
    (hf : Meets works held (fun s => P s ∧ c s) f Q E)
    (hg : Meets works held (fun s => P s ∧ ¬c s) g Q E) :
    Meets works held P (fun s => if c s then f s else g s) Q E := by
  refine ⟨?_, ?_, ?_, ?_⟩
  · intro s hs
    by_cases hc : c s
    · rw [if_pos hc]
      exact hf.lawful s ⟨hs, hc⟩
    · rw [if_neg hc]
      exact hg.lawful s ⟨hs, hc⟩
  · intro s hs
    by_cases hc : c s
    · rw [if_pos hc]
      exact hf.done s ⟨hs, hc⟩
    · rw [if_neg hc]
      exact hg.done s ⟨hs, hc⟩
  · intro s e hs
    by_cases hc : c s
    · rw [if_pos hc]
      exact hf.failed s e ⟨hs, hc⟩
    · rw [if_neg hc]
      exact hg.failed s e ⟨hs, hc⟩
  · intro hw s hs
    by_cases hc : c s
    · rw [if_pos hc]
      exact hf.clean hw s ⟨hs, hc⟩
    · rw [if_neg hc]
      exact hg.clean hw s ⟨hs, hc⟩

/-- A stage behind an update that touches no resource. -/
theorem Meets.comp {update : σ → σ} (hf : Meets works held Q f R E)
    (hupdate : ∀ s, P s → Q (update s)) (hheld : ∀ s, P s → held (update s) = held s) :
    Meets works held P (fun s => f (update s)) R E where
  lawful s hs := hheld s hs ▸ hf.lawful _ (hupdate s hs)
  done s hs := hf.done _ (hupdate s hs)
  failed s e hs := hf.failed _ e (hupdate s hs)
  clean hw s hs := hf.clean hw _ (hupdate s hs)

/-- A stage that only uses what is held. -/
theorem Meets.of_uses
    (huses : ∀ s, P s → ∃ rs : List ρ, (f s).log = rs.map .use ∧ ∀ r ∈ rs, r ∈ held s)
    (hheld : ∀ s, P s → held (f s).state = held s)
    (hdone : ∀ s, P s → (f s).result = .ok () → Q (f s).state)
    (hfailed : ∀ s e, P s → (f s).result = .error e → E (f s).state)
    (hworks : works → ∀ s, P s → (f s).result = .ok ()) : Meets works held P f Q E where
  lawful s hs := by
    obtain ⟨rs, hlog, hrs⟩ := huses s hs
    rw [hlog, hheld s hs]
    exact .use_all hrs
  done := hdone
  failed := hfailed
  clean hw s hs := by
    obtain ⟨rs, hlog, -⟩ := huses s hs
    refine ⟨fun _ r hr => ?_, fun _ => hworks hw s hs⟩
    rw [hlog] at hr
    obtain ⟨r', -, heq⟩ := List.mem_map.mp hr
    cases heq

/-- A stage that only uses what is held, and succeeds. -/
theorem Meets.of_ok (uses : σ → List ρ) (update : σ → σ)
    (heq : ∀ s, P s → f s = ⟨(uses s).map .use, .ok (), update s⟩)
    (huses : ∀ s, P s → ∀ r ∈ uses s, r ∈ held s) (hheld : ∀ s, P s → held (update s) = held s)
    (hQ : ∀ s, P s → Q (update s)) : Meets works held P f Q E := by
  -- such a stage gives nothing back
  refine .of_uses ?_ ?_ ?_ ?_ ?_
  · intro s hs
    rw [heq s hs]
    exact ⟨uses s, rfl, huses s hs⟩
  · intro s hs
    rw [heq s hs]
    exact hheld s hs
  · intro s hs _
    rw [heq s hs]
    exact hQ s hs
  · intro s e hs herr
    rw [heq s hs] at herr
    cases herr
  · intro _ s hs
    rw [heq s hs]

/-- A stage that does nothing. -/
theorem Meets.skip (hP : ∀ s, P s → Q s) :
    Meets works held P (fun s => (⟨[], .ok (), s⟩ : Outcome ρ ε σ)) Q E :=
  .of_uses (fun _ _ => ⟨[], rfl, nofun⟩) (fun _ _ => rfl) (fun s hs _ => hP s hs)
    (fun _ _ _ h => nomatch h) (fun _ _ _ => rfl)

/-- The one resource is released, if it is there. -/
theorem Meets.releaseIf {r : ρ} {present : σ → Bool} {clear : σ → σ} {fails : Option ε}
    (hpresent : ∀ s, present s = true ↔ r ∈ held s) (hclear : ∀ s, held (clear s) = held s \ {r})
    (habsent : ∀ s, P s → r ∉ held s → Q s) (hgone : ∀ s, P s → r ∉ held (clear s) → Q (clear s))
    (hfails : ∀ s, P s → fails ≠ none → E s) :
    Meets works held P (releaseIf r present clear fails) Q E := by
  -- it is not there; or it is given back; or that failed and it stays
  have hcases : ∀ s, (r ∉ held s ∧ Release.releaseIf r present clear fails s = ⟨[], .ok (), s⟩) ∨
      (r ∈ held s ∧ fails = none ∧
        Release.releaseIf r present clear fails s = ⟨[.release r], .ok (), clear s⟩) ∨
      (r ∈ held s ∧ ∃ e, fails = some e ∧
        Release.releaseIf r present clear fails s = ⟨[.fail r], .error e, s⟩) := by
    intro s
    unfold Release.releaseIf
    by_cases hp : present s = true
    · rw [if_pos hp]
      cases fails with
      | none => exact .inr (.inl ⟨(hpresent s).mp hp, rfl, rfl⟩)
      | some e => exact .inr (.inr ⟨(hpresent s).mp hp, e, rfl, rfl⟩)
    · rw [if_neg hp]
      exact .inl ⟨fun hr => hp ((hpresent s).mpr hr), rfl⟩
  refine ⟨?_, ?_, ?_, ?_⟩
  · intro s hs
    rcases hcases s with ⟨hr, heq⟩ | ⟨hr, -, heq⟩ | ⟨hr, e, -, heq⟩ <;> rw [heq]
    · exact .nil
    · exact .release hr (hclear s ▸ .nil)
    · exact .fail hr .nil
  · intro s hs hok
    rcases hcases s with ⟨hr, heq⟩ | ⟨hr, -, heq⟩ | ⟨hr, e, -, heq⟩ <;> rw [heq] at hok ⊢
    · exact habsent s hs hr
    · refine hgone s hs ?_
      rw [hclear]
      exact fun hmem => hmem.2 rfl
    · cases hok
  · intro s e hs herr
    rcases hcases s with ⟨hr, heq⟩ | ⟨hr, -, heq⟩ | ⟨hr, e, hfail, heq⟩ <;> rw [heq] at herr ⊢
    · cases herr
    · cases herr
    · exact hfails s hs (hfail ▸ Option.some_ne_none e)
  · intro _ s hs
    rcases hcases s with ⟨hr, heq⟩ | ⟨hr, -, heq⟩ | ⟨hr, e, -, heq⟩ <;> rw [heq]
    · exact ⟨fun _ => clean_nil, fun _ => rfl⟩
    · refine ⟨fun _ r' hr' => ?_, fun _ => rfl⟩
      cases List.mem_singleton.mp hr'
    · exact ⟨nofun, fun h => absurd (List.mem_singleton_self _) (h r)⟩

end Rules

/-! ### Trying again -/

/-- The stage is tried until it succeeds, each time under other circumstances. -/
def attempts (f : κ → Stage ρ ε σ) : List κ → σ → List (Outcome ρ ε σ)
  | [], _ => []
  | k :: ks, s =>
    f k s :: match (f k s).result with
      | .error _ => attempts f ks (f k s).state
      | .ok _ => []

section Attempts

variable {works : κ → Prop} {held : σ → Set ρ} {P Q : σ → Prop} {f : κ → Stage ρ ε σ}

/-- What each attempt does, if an error leads back to where it started. -/
theorem attempts_each (hf : ∀ k, Meets (works k) held P (f k) Q P) {ks : List κ} {s : σ}
    (hs : P s) {i : ℕ} {o : Outcome ρ ε σ} (ho : (attempts f ks s)[i]? = some o) :
    ∃ k, ks[i]? = some k ∧ (o.result = .ok () → Q o.state) ∧
      (∀ e, o.result = .error e → P o.state) ∧ (works k → (o.result = .ok () ↔ Clean o.log)) := by
  -- on the attempts; each one after the first started where the one before it failed
  induction ks generalizing s i with
  | nil => cases ho
  | cons k ks ih =>
    cases i with
    | zero =>
      cases ho
      exact ⟨k, rfl, (hf k).done s hs, fun e => (hf k).failed s e hs,
        fun hw => (hf k).clean hw s hs⟩
    | succ i =>
      have hrest : ∃ e, (f k s).result = .error e ∧
          (attempts f ks (f k s).state)[i]? = some o := by
        unfold attempts at ho
        cases hr : (f k s).result with
        | error e =>
          rw [hr] at ho
          exact ⟨e, rfl, ho⟩
        | ok _ =>
          rw [hr] at ho
          cases ho
      obtain ⟨e, hr, ho⟩ := hrest
      exact ih ((hf k).failed s e hs hr) ho

/-- Over all attempts together the log is lawful. -/
theorem attempts_lawful (hf : ∀ k, Meets (works k) held P (f k) Q P) (ks : List κ) {s : σ}
    (hs : P s) : ∃ held', Lawful (held s) ((attempts f ks s).flatMap Outcome.log) held' := by
  induction ks generalizing s with
  | nil => exact ⟨_, .nil⟩
  | cons k ks ih =>
    unfold attempts
    cases hr : (f k s).result with
    | error e =>
      obtain ⟨held', hrest⟩ := ih ((hf k).failed s e hs hr)
      exact ⟨held', ((hf k).lawful s hs).append hrest⟩
    | ok _ =>
      refine ⟨held (f k s).state, ?_⟩
      dsimp only
      rw [List.flatMap_singleton]
      exact (hf k).lawful s hs

/-- After an attempt that fails the next one takes over. -/
theorem attempts_continue {ks : List κ} {s : σ} {i : ℕ} {o : Outcome ρ ε σ}
    (ho : (attempts f ks s)[i]? = some o) (hfails : o.result ≠ .ok ()) (hlt : i + 1 < ks.length) :
    ∃ o', (attempts f ks s)[i + 1]? = some o' := by
  -- an attempt that fails is followed by the next one, one that succeeds ends the list
  induction ks generalizing s i with
  | nil => cases ho
  | cons k ks ih =>
    cases hr : (f k s).result with
    | error e =>
      rw [attempts, hr] at ho ⊢
      cases i with
      | zero =>
        cases ks with
        | nil => exact absurd hlt (Nat.lt_irrefl 1)
        | cons k' ks => exact ⟨f k' (f k s).state, rfl⟩
      | succ i => exact ih ho (Nat.lt_of_succ_lt_succ hlt)
    | ok _ =>
      rw [attempts, hr] at ho
      cases i with
      | zero =>
        cases ho
        exact absurd hr hfails
      | succ i => cases ho

/-- A teardown that can be tried again: whatever fails in whichever attempts, nothing is released
twice and nothing is used behind its release; success means that nothing is held, and an attempt
that is reached succeeds exactly when none of its releases fails. -/
structure Retryable (works : κ → Prop) (held : σ → Set ρ) (f : κ → Stage ρ ε σ) (ks : List κ)
    (s : σ) : Prop where
  once : (((attempts f ks s).flatMap Outcome.log).filterMap Event.released).Nodup
  unused : ∀ before r after, (attempts f ks s).flatMap Outcome.log = before ++ .release r :: after →
    ∀ e ∈ after, e.resource ≠ r
  released : ∀ o ∈ attempts f ks s, o.result = .ok () → held o.state = ∅
  succeeds : ∀ (i : ℕ) (k : κ) (o : Outcome ρ ε σ), ks[i]? = some k → (attempts f ks s)[i]? = some o → works k →
    (o.result = .ok () ↔ Clean o.log)
  /-- After an attempt that fails the next one takes over. -/
  continues : ∀ (i : ℕ) (o : Outcome ρ ε σ), (attempts f ks s)[i]? = some o → o.result ≠ .ok () → i + 1 < ks.length →
    ∃ o', (attempts f ks s)[i + 1]? = some o'

/-- A stage that meets its condition can be tried again until it succeeds. -/
theorem retryable (hf : ∀ k, Meets (works k) held P (f k) Q P) (hQ : ∀ s, Q s → held s = ∅)
    (ks : List κ) {s : σ} (hs : P s) : Retryable works held f ks s := by
  obtain ⟨held', hlawful⟩ := attempts_lawful hf ks hs
  refine ⟨hlawful.released_once, fun before r after => hlawful.unused, ?_, ?_, ?_⟩
  · intro o ho hok
    obtain ⟨i, hi⟩ := List.mem_iff_getElem?.mp ho
    obtain ⟨k, -, hdone, -⟩ := attempts_each hf hs hi
    exact hQ _ (hdone hok)
  · intro i k o hk ho hw
    obtain ⟨k', hk', -, -, hclean⟩ := attempts_each hf hs ho
    cases hk.symm.trans hk'
    exact hclean hw
  · exact fun i o => attempts_continue

end Attempts

end Release
