import TrustSdk.Kv.Wrap
import Mathlib.Logic.Relation

/-!
# Atomicity of the KV store under faults

On a write-through medium whose calls may fail, and which may stop at any point, a set or a
delete is atomic: once the faults stop, the region loads the map before the call or the map
after it, however often recovery was cut short in between (`kv_mutation_atomic`).

The argument is the invariant `Loads`: every region that a run leaves, through whatever
faults, can be recovered to one map (`Reachable.loads`), and a mutation leaves it with the
old map or with the new one. The only limit is the 64-bit generation: a mutation has to begin
below `2 ^ 64 - 1` (`HasRoom`).
-/

namespace TrustSdk.Kv

open ByteStore CrashLogic SlotTable

variable {cfg : KvConfig} {capacity : ℕ} {img img' : Image}

/-! ### The faulty medium -/

/-- The statuses of a failing storage call. -/
def StorageStatus (e : Err) : Prop :=
  e.module = .adapterStorage ∧ (e.code = .io ∨ e.code = .invalidArg)

/-- The statuses of a failing lock call. -/
def LockStatus (e : Err) : Prop := e.module = .adapterSystem

/-- A write-through medium on which every call may fail. -/
def faulty (cfg : KvConfig) (capacity : ℕ) : Device Err :=
  writeThrough cfg capacity StorageStatus LockStatus

/-- The storage whose calls may all fail meets what the proofs ask of a medium. -/
theorem faulty_medium (hcap : cfg.kvRegionSize ≤ capacity) : KvMedium cfg (faulty cfg capacity) := by
  refine writeThrough_medium hcap ?_
  rintro e ⟨-, h | h⟩ <;> rw [h] <;> decide

/-- The region that an execution leaves behind, finished or not. -/
def leaves {α : Type} : Outcome Err (faulty cfg capacity) α → Image
  | .returned _ img => img
  | .crashed img => img

/-! ### Reachable regions -/

/-- A mutation that begins here does not need the generation `2 ^ 64`. -/
def HasRoom (cfg : KvConfig) (capacity : ℕ) (img : Image) : Prop :=
  ∀ sb index img', undisturbed capacity (kvLoadCurrent cfg) img = (.ok (sb, index), img') →
    sb.generation.toNat + 1 < 2 ^ 64

/-- The regions that calls and faults lead to from a completed format, where a mutation begins
only in a region that `allowed` admits. -/
inductive Reachable (cfg : KvConfig) (capacity : ℕ) (allowed : Image → Prop) : Image → Prop
  | format {img : Image} : Formatted cfg capacity img → Reachable cfg capacity allowed img
  | call {img : Image} {call : KvCall} {o : Outcome Err (faulty cfg capacity) KvReply} :
      Reachable cfg capacity allowed img →
      (∀ op, call = KvCall.mutate op → allowed img) →
      Exec (faulty cfg capacity) (call.program cfg) img o → Reachable cfg capacity allowed (leaves o)

/-- One attempt at recovery, cut short or not. -/
def RecoverAttempt (cfg : KvConfig) (capacity : ℕ) (img img' : Image) : Prop :=
  ∃ o, Exec (faulty cfg capacity) (kvRecover cfg) img o ∧ leaves o = img'

/-- The mutation is atomic in this region: there is a map before it, and whatever execution of
the mutation and whatever attempts at recovery follow, the region loads this map or the one
the mutation leads to, the latter whenever the mutation has returned OK. -/
def AtomicAt (cfg : KvConfig) (capacity : ℕ) (op : KvMutation) (img : Image) : Prop :=
  ∃ m, LoadsMap cfg capacity img m ∧
    ∀ o, Exec (faulty cfg capacity) (op.program cfg) img o →
      ∀ img', Relation.ReflTransGen (RecoverAttempt cfg capacity) (leaves o) img' →
        (LoadsMap cfg capacity img' m ∨ LoadsMap cfg capacity img' (op.outcome cfg m).2) ∧
        (∀ img₁, o = .returned (.ok ()) img₁ →
          LoadsMap cfg capacity img' (op.outcome cfg m).2)

/-! ### The invariant -/

/-- A region that was reached fits into its storage. -/
theorem Reachable.capacity_le {allowed : Image → Prop} (h : Reachable cfg capacity allowed img) :
    cfg.kvRegionSize ≤ capacity := by
  induction h with
  | format hf => exact hf.capacity_le
  | call _ _ _ ih => exact ih

/-- With room left the generation does not wrap. -/
theorem HasRoom.lt {g : ℕ} {m : KvMap} (hroom : HasRoom cfg capacity img)
    (hcap : cfg.kvRegionSize ≤ capacity) (h : Loads cfg g m img) : g + 1 < 2 ^ 64 := by
  obtain ⟨sb, index, img', hrun, hgen, -⟩ := kvLoadCurrent_undisturbed hcap h
  rw [← hgen]
  exact hroom sb index img' hrun

/-- What holds of every state a run can leave holds of the one this run left. -/
theorem Exec.leaves_loads {α : Type} {p : Io Err α} {o : Outcome Err (faulty cfg capacity) α}
    {Q : Except Err α → Image → Prop} {C : Image → Prop} (he : Exec (faulty cfg capacity) p img o)
    (h : cwp (faulty cfg capacity) p Q C img) : C (leaves o) := by
  have hm := he.sound h
  cases o with
  | returned r t => exact hm.2 t rfl
  | crashed t => exact hm

/-- A reachable region can be recovered. -/
theorem Reachable.loads (h : Reachable cfg capacity (HasRoom cfg capacity) img) :
    SomeLoads cfg img := by
  induction h with
  | format hf => exact ⟨1, ∅, hf.stable.1.loads⟩
  | call hr hroom he ih =>
    obtain ⟨g, m, hl⟩ := ih
    have hcap := hr.capacity_le
    refine Exec.leaves_loads he (KvCall.program_spec (faulty_medium hcap) hl.ready ?_)
    exact fun op hop => (hroom op hop).lt hcap hl

/-- A generation below the last one leaves room. -/
theorem HasRoom.of_loads {g : ℕ} {m : KvMap} (hcap : cfg.kvRegionSize ≤ capacity)
    (h : Loads cfg g m img) (hlt : g + 1 < 2 ^ 64) : HasRoom cfg capacity img := by
  intro sb index img' hrun
  obtain ⟨sb', index', img'', hrun', hgen, -⟩ := kvLoadCurrent_undisturbed hcap h
  rw [hrun, Prod.mk.injEq, Except.ok.injEq, Prod.mk.injEq] at hrun'
  rw [hrun'.1.1, hgen]
  exact hlt

/-- Attempts at recovery keep the map. -/
theorem RecoverAttempt.loads {g : ℕ} {m : KvMap} (hcap : cfg.kvRegionSize ≤ capacity)
    (h : Relation.ReflTransGen (RecoverAttempt cfg capacity) img img') (hl : Loads cfg g m img) :
    Loads cfg g m img' := by
  induction h with
  | refl => exact hl
  | tail _ hstep ih =>
    obtain ⟨o, he, rfl⟩ := hstep
    exact Exec.leaves_loads he (kvRecover_spec (faulty_medium hcap) ih.ready fun _ hi => hi)

/-! ### Atomicity -/

/-- **Atomicity.** In every region that calls and faults lead to from a completed format, a
valid mutation that begins below the last generation is atomic. -/
theorem kv_mutation_atomic {op : KvMutation}
    (h : Reachable cfg capacity (HasRoom cfg capacity) img) (hv : op.Valid cfg)
    (hroom : HasRoom cfg capacity img) : AtomicAt cfg capacity op img := by
  obtain ⟨g, m, hl⟩ := h.loads
  have hcap := h.capacity_le
  have hspec := op.program_spec (faulty_medium hcap) hl.ready hv fun _ => hroom.lt hcap hl
  refine ⟨m, hl.loadsMap hcap, fun o he img' hrec => ⟨?_, ?_⟩⟩
  · exact (Exec.leaves_loads he hspec).imp
      (fun hl' => (RecoverAttempt.loads hcap hrec hl').loadsMap hcap)
      fun hl' => (RecoverAttempt.loads hcap hrec hl').loadsMap hcap
  · rintro img₁ rfl
    -- a mutation that returned OK has finished
    rcases (he.sound hspec).1 with ⟨-, ht, -⟩ | ⟨-, herr, ht⟩
    · exact (RecoverAttempt.loads hcap hrec ht.view.loads).loadsMap hcap
    · by_cases hgen : nextGeneration g (op.outcome cfg m).1 = g
      · -- it had nothing to change
        rw [KvMutation.outcome_same hgen] at ht ⊢
        exact (RecoverAttempt.loads hcap hrec (ht.elim Ready.loads fun h => hgen ▸ h.loads)).loadsMap hcap
      · obtain ⟨e, he⟩ := herr hgen
        exact absurd he (by simp)

/-- A small store: two records with values of at most one byte. -/
def tinyConfig : KvConfig where
  maxRecords := 2
  maxValueLen := 1
  fits := by decide

/-- The region of the small store after its format. -/
def tinyFormatted : Image :=
  (undisturbed tinyConfig.kvRegionSize (kvPrepareStorage tinyConfig) fun _ => 0).2

/-- A region after `kv_format`. -/
theorem tinyFormatted_formatted : Formatted tinyConfig tinyConfig.kvRegionSize tinyFormatted := by
  have hblank : Blank fun _ => 0 := fun _ => rfl
  obtain ⟨img, hrun, -⟩ := kvPrepareStorage_formats (Nat.le_refl tinyConfig.kvRegionSize) hblank
  refine ⟨fun _ => 0, hblank, ?_⟩
  rw [hrun, tinyFormatted, hrun]

/-- The theorem at the first `set` of a formatted region. -/
theorem kv_mutation_atomic_tiny :
    AtomicAt tinyConfig tinyConfig.kvRegionSize (.set [1] [1]) tinyFormatted :=
  kv_mutation_atomic (.format tinyFormatted_formatted) (by decide)
    (.of_loads (Nat.le_refl _) tinyFormatted_formatted.stable.1.loads (by decide))

/-! ### Without the limit -/

/-- An undisturbed execution is one of the executions on the faulty medium. -/
theorem faulty_undisturbed {α : Type} (p : Io Err α) (img : Image) :
    Exec (faulty cfg capacity) p img
      (.returned (undisturbed capacity p img).1 (undisturbed capacity p img).2) :=
  Io.run_exec p img

/-- A run without a fault leads to a region that is reached again. -/
theorem Reachable.undisturbed {allowed : Image → Prop} (h : Reachable cfg capacity allowed img)
    (hallowed : allowed img) (op : KvMutation) :
    Reachable cfg capacity allowed (Kv.undisturbed capacity (op.program cfg) img).2 := by
  have hexec := @faulty_undisturbed cfg capacity _ ((KvCall.mutate op).program cfg) img
  rw [KvCall.mutate_undisturbed] at hexec
  exact .call h (fun _ _ => hallowed) hexec

/-- Setting one key over and over reaches every generation. -/
theorem exists_generation (n : ℕ) (hn : n + 1 < 2 ^ 64) : ∃ img m,
    Reachable tinyConfig tinyConfig.kvRegionSize (fun _ => True) img ∧
      Stable tinyConfig img (n + 1) m ∧ Quiet tinyConfig img ∧ m.keys ⊆ {[1]} := by
  -- every `set` of the key `[1]` takes one generation more, so the last one is reached
  induction n with
  | zero =>
    exact ⟨tinyFormatted, ∅, .format tinyFormatted_formatted, tinyFormatted_formatted.stable.1,
      tinyFormatted_formatted.stable.2, by simp⟩
  | succ n ih =>
    obtain ⟨img, m, hr, hs, hq, hkeys⟩ := ih (by omega)
    have hcard : m.keys.card ≤ 1 := (Finset.card_le_card hkeys).trans (by simp)
    have hout : (KvMutation.set [1] [1]).outcome tinyConfig m = (.ok (), m.insert [1] [1]) := by
      -- the table has two slots and at most one is taken
      refine if_neg fun h => ?_
      have hmax : m.keys.card = 2 := h.2
      omega
    have hspec := (KvMutation.set [1] [1]).program_spec
      (calm_medium (Nat.le_refl tinyConfig.kvRegionSize)) (Loads.ready hs.loads) (by decide)
      fun _ => hn
    rw [hout] at hspec
    obtain ⟨-, hs', hq', -⟩ := Finished.undisturbed hspec
    refine ⟨_, _, hr.undisturbed trivial (.set [1] [1]), hs', hq' hq, ?_⟩
    rw [keys_insert]
    exact Finset.insert_subset (by simp) hkeys

/-- At generation `2 ^ 64 - 1` a set of a new key returns OK, and the region can no longer be
recovered to any map. -/
theorem not_kv_mutation_atomic : ¬ ∀ (op : KvMutation) (img : Image),
    Reachable tinyConfig tinyConfig.kvRegionSize (fun _ => True) img → op.Valid tinyConfig →
      AtomicAt tinyConfig tinyConfig.kvRegionSize op img := by
  intro h
  -- one generation below the wrap, with room for the key `[2]`
  obtain ⟨img, m, hr, hs, hq, hkeys⟩ := exists_generation (2 ^ 64 - 2) (by decide)
  have hnew : m.lookup [2] = none := by
    refine Finmap.lookup_eq_none.mpr fun hmem => ?_
    exact absurd (hkeys (Finmap.mem_keys.mpr hmem)) (by decide)
  have hcard : m.keys.card ≤ 1 := (Finset.card_le_card hkeys).trans (by simp)
  obtain ⟨img', hrun, hlost⟩ := actrustKvSet_wraps (Nat.le_refl tinyConfig.kvRegionSize) hs hq
    (by decide) (by decide : KeyLenOk [2])
    (by decide : ([1] : Bytes).length ≤ tinyConfig.maxValueLen) hnew
    (by change m.keys.card < 2; omega)
  obtain ⟨m₀, -, hatomic⟩ := h (.set [2] [1]) img hr (by decide)
  have hexec := @faulty_undisturbed tinyConfig tinyConfig.kvRegionSize _
    ((KvMutation.set [2] [1]).program tinyConfig) img
  -- without any fault the `set` answers OK, and what it leaves holds no map at all
  rw [show undisturbed tinyConfig.kvRegionSize ((KvMutation.set [2] [1]).program tinyConfig) img =
    (.ok (), img') from hrun] at hexec
  exact hlost.not_loadsMap ((hatomic _ hexec img' .refl).2 img' rfl)

end TrustSdk.Kv
