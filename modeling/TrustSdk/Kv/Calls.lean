import TrustSdk.Kv.Prepare

/-!
# Calls and what they may leave behind

The public calls as data (`KvCall`), their programs, and the one fact about all of them
that runs are built on: from a store that is ready, on any medium, a call leaves a store that
is ready, and so does a crash (`KvCall.program_spec`).

`LoadsMap` is what a map means from outside: preparing the region succeeds and every get
answers from the map. Every region that `Loads` a map has it (`Loads.loadsMap`).
-/

namespace TrustSdk.Kv

open ByteStore CrashLogic SlotTable

variable {cfg : KvConfig} {D : Device Err} {g capacity : ℕ} {m : KvMap} {img : Image}

/-! ### Calls -/

/-- A call that changes the map. -/
inductive KvMutation where
  | set (key value : Bytes)
  | del (key : Bytes)

/-- The calls of `kv.h` that work on the store. -/
inductive KvCall where
  | kvOpen
  | kvClose
  | mutate (op : KvMutation)
  | kvGet (key : Bytes) (outCap : ℕ)
  | kvExists (key : Bytes)

/-- What a call answers. -/
inductive KvReply where
  | status (result : Except Err Unit)
  | found (result : Except Err Bool)
  | value (result : KvGetResult)

/-- Closing only takes the lock; the storage handle of a valid store always closes. -/
def actrustKvClose : Io Err Unit := kvWithLock (pure ())

namespace KvMutation

/-- The call `kv.c` makes for a mutation. -/
def program (cfg : KvConfig) : KvMutation → Io Err Unit
  | set key value => actrustKvSet cfg key value
  | del key => actrustKvDel cfg key

/-- The key and the value have admitted lengths. -/
def Valid (cfg : KvConfig) : KvMutation → Prop
  | set key value => KeyLenOk key ∧ value.length ≤ cfg.maxValueLen
  | del key => KeyLenOk key

/-- What the mutation does to a map, and the status it returns. -/
def outcome (cfg : KvConfig) (m : KvMap) : KvMutation → Except Err Unit × KvMap
  | set key value => setOutcome cfg m key value
  | del key => delOutcome m key

/-- Only a mutation that succeeds changes the map. -/
theorem outcome_same {op : KvMutation} (h : nextGeneration g (op.outcome cfg m).1 = g) :
    (op.outcome cfg m).2 = m := by
  cases op with
  -- a mutation that is carried out advances the generation, so only a refused one can leave it
  | set key value =>
    simp only [outcome, setOutcome] at h ⊢
    split_ifs at h ⊢
    · rfl
    · exact absurd h (Nat.succ_ne_self g)
  | del key =>
    simp only [outcome, delOutcome] at h ⊢
    split_ifs at h ⊢
    · rfl
    · exact absurd h (Nat.succ_ne_self g)

end KvMutation

/-- The call with its answer as a value; a failing call is an answer too. -/
def KvCall.program (cfg : KvConfig) : KvCall → Io Err KvReply
  | .kvOpen => do
    let result ← (actrustKvOpen cfg).attempt
    pure (.status result)
  | .kvClose => do
    let result ← actrustKvClose.attempt
    pure (.status result)
  | .mutate op => do
    let result ← (op.program cfg).attempt
    pure (.status result)
  | .kvGet key outCap => do
    let result ← actrustKvGet cfg key outCap
    pure (.value result)
  | .kvExists key => do
    let result ← (actrustKvExists cfg key).attempt
    pure (.found result)

instance (cfg : KvConfig) (op : KvMutation) : Decidable (op.Valid cfg) :=
  match op with
  | .set key value => inferInstanceAs (Decidable (KeyLenOk key ∧ value.length ≤ cfg.maxValueLen))
  | .del key => inferInstanceAs (Decidable (KeyLenOk key))

/-- `actrust_kv_close` does not touch the region. -/
theorem actrustKvClose_spec {s : D.State} {C : Image → Prop} (hC : ∀ img, D.crash s img → C img) :
    cwp D actrustKvClose
      (fun r t => t = s ∧ (r = .ok () ∨ ((∃ e, D.lockFault e) ∧ ∃ e, r = .error e))) C s := by
  refine cwp_lock ?_ fun e he => ⟨rfl, Or.inr ⟨⟨e, he⟩, e, rfl⟩⟩
  refine cwp_unlock (cwp_done ⟨rfl, Or.inl rfl⟩ hC) fun e he => ?_
  exact cwp_done ⟨rfl, Or.inr ⟨⟨e, he⟩, e, rfl⟩⟩ hC

section Spec

variable (hM : KvMedium cfg D) {s : D.State} (hs : Ready cfg D s g m)
include hM hs

/-- What `set` and `del` do, in one statement. -/
theorem KvMutation.program_spec {op : KvMutation} (hv : op.Valid cfg)
    (hroom : (op.outcome cfg m).1 = .ok () → g + 1 < 2 ^ 64) :
    cwp D (op.program cfg)
      (Finished cfg D s g m (op.outcome cfg m).1 (nextGeneration g (op.outcome cfg m).1)
        (op.outcome cfg m).2)
      (Between cfg g m (nextGeneration g (op.outcome cfg m).1) (op.outcome cfg m).2) s := by
  cases op with
  | set key value => exact actrustKvSet_spec hM hs hv.1 hv.2 hroom
  | del key => exact actrustKvDel_spec hM hs hv hroom

omit hM in
/-- A mutation with a bad argument is refused before it does anything. -/
theorem KvMutation.program_invalid {op : KvMutation} (hv : ¬ op.Valid cfg) {C : Image → Prop}
    (hC : ∀ img, Loads cfg g m img → C img) :
    cwp D (op.program cfg) (fun r t => r = .error (kvErr .invalidArg) ∧ t = s) C s := by
  have hcrash : ∀ img, D.crash s img → C img := fun img hi => hC img (hs.crash img hi)
  cases op with
  -- the argument check stands before the lock, so no byte is read or written
  | set key value =>
    have harg : ¬ KeyLenOk key ∨ cfg.maxValueLen < value.length := by
      by_cases hk : KeyLenOk key
      · exact Or.inr (not_le.mp fun hle => hv ⟨hk, hle⟩)
      · exact Or.inl hk
    rw [KvMutation.program, actrustKvSet, if_pos harg]
    exact cwp_done ⟨rfl, rfl⟩ hcrash
  | del key =>
    have hk : ¬ KeyLenOk key := hv
    rw [KvMutation.program, actrustKvDel, if_pos hk]
    exact cwp_done ⟨rfl, rfl⟩ hcrash

/-- The store is ready for the next call, whatever it holds. -/
def SomeReady (cfg : KvConfig) (D : Device Err) (s : D.State) : Prop := ∃ g m, Ready cfg D s g m

/-- The region can be recovered, to whatever map. -/
def SomeLoads (cfg : KvConfig) (img : Image) : Prop := ∃ g m, Loads cfg g m img

/-- Every call leaves a store that is ready and, when it is cut short, a region that can be
recovered. Only a mutation needs room for another generation. -/
theorem KvCall.program_spec {call : KvCall}
    (hroom : ∀ op, call = .mutate op → g + 1 < 2 ^ 64) :
    cwp D (call.program cfg) (fun _ t => SomeReady cfg D t) (SomeLoads cfg) s := by
  have hloads : ∀ img, Loads cfg g m img → SomeLoads cfg img := fun img hi => ⟨g, m, hi⟩
  have hcrash : ∀ img, D.crash s img → SomeLoads cfg img := fun img hi => hloads img (hs.crash img hi)
  -- each call ends in one of the two states its specification gives
  have hready : ∀ {t : D.State} {g' : ℕ} {m' : KvMap},
      Ready cfg D t g m ∨ Ready cfg D t g' m' → SomeReady cfg D t := fun h =>
    h.elim (fun h => ⟨_, _, h⟩) fun h => ⟨_, _, h⟩
  have hbetween : ∀ {g' : ℕ} {m' : KvMap} img, Between cfg g m g' m' img → SomeLoads cfg img :=
    fun img hi => hi.elim (fun h => ⟨_, _, h⟩) fun h => ⟨_, _, h⟩
  have hdone : ∀ {t : D.State} (reply : KvReply), SomeReady cfg D t →
      cwp D (pure reply) (fun _ t => SomeReady cfg D t) (SomeLoads cfg) t := fun _ ⟨g', m', ht⟩ =>
    cwp_done ⟨g', m', ht⟩ fun img hi => ⟨g', m', ht.crash img hi⟩
  cases call with
  | kvOpen =>
    exact cwp_bind (cwp_attempt (cwp.mono (actrustKvOpen_spec hM hs)
      (fun r t ht => hdone (.status r) (hready ht.ready)) hbetween))
  | kvClose =>
    refine cwp_bind (cwp_attempt (cwp.mono (actrustKvClose_spec hcrash) ?_ fun _ hi => hi))
    rintro r t ⟨rfl, -⟩
    exact hdone (.status r) ⟨g, m, hs⟩
  | mutate op =>
    refine cwp_bind (cwp_attempt ?_)
    by_cases hv : op.Valid cfg
    · exact cwp.mono (op.program_spec hM hs hv fun _ => hroom op rfl)
        (fun r t ht => hdone (.status r) (hready ht.ready)) hbetween
    · refine cwp.mono (KvMutation.program_invalid hs hv hloads) ?_ fun _ hi => hi
      rintro r t ⟨-, rfl⟩
      exact hdone (.status r) ⟨g, m, hs⟩
  | kvGet key outCap =>
    refine cwp_bind ?_
    by_cases hk : KeyLenOk key
    · refine cwp.mono (actrustKvGet_spec hM hs hk) ?_ hbetween
      intro r t ht
      cases r with
      | ok a => exact hdone (.value a) (hready ht.ready)
      | error e => exact hready ht.ready
    · rw [actrustKvGet, if_pos hk]
      exact cwp_done (hdone (.value ⟨.error (kvErr .invalidArg), none, none⟩) ⟨g, m, hs⟩) hcrash
  | kvExists key =>
    refine cwp_bind (cwp_attempt ?_)
    by_cases hk : KeyLenOk key
    · exact cwp.mono (actrustKvExists_spec hM hs hk)
        (fun r t ht => hdone (.found r) (hready ht.ready)) hbetween
    · rw [actrustKvExists, if_pos hk]
      exact cwp_done (hdone (.found (.error (kvErr .invalidArg))) ⟨g, m, hs⟩) hcrash

end Spec

/-! ### Undisturbed runs -/

/-- The run of a program when no call fails. -/
def undisturbed {α : Type} (capacity : ℕ) (p : Io Err α) (img : Image) : Except Err α × Image :=
  p.run capacity ⟨.adapterStorage, .invalidArg⟩ img

/-- The medium of an undisturbed run. -/
def calm (cfg : KvConfig) (capacity : ℕ) : Device Err :=
  writeThrough cfg capacity (fun _ => False) (fun _ => False)

/-- The storage without faults is a medium. -/
theorem calm_medium (hcap : cfg.kvRegionSize ≤ capacity) : KvMedium cfg (calm cfg capacity) :=
  writeThrough_medium hcap fun _ h => h.elim

/-- Nothing fails on it. -/
theorem calm_mayFail : ¬ MayFail (calm cfg capacity) := by
  rintro (⟨e, he⟩ | ⟨e, he⟩) <;> exact he

/-- No call ends with an error of the storage. -/
theorem calm_faulted {e : Err} : ¬ Faulted (calm cfg capacity) e := fun h =>
  h.fault.elim fun _ he => he

/-- On a write-through medium reads see what a crash would leave. -/
theorem writeThrough_exact {fault lockFault : Err → Prop} (img : Image) :
    Exact (writeThrough cfg capacity fault lockFault) img := fun _ hi => hi

/-- On a storage without a cache every image that loads is ready. -/
theorem Loads.ready {fault lockFault : Err → Prop} (h : Loads cfg g m img) :
    Ready cfg (writeThrough cfg capacity fault lockFault) img g m :=
  Or.inr ⟨writeThrough_exact img, h⟩

/-- A property that holds of all runs holds of the run without a fault. -/
theorem undisturbed_sound {α : Type} {p : Io Err α} {Q : Except Err α → Image → Prop}
    {C : Image → Prop} (h : cwp (calm cfg capacity) p Q C img) :
    Q (undisturbed capacity p img).1 (undisturbed capacity p img).2 := cwp.run_sound h

/-- Recovery brings the region to rest and returns the superblock of its generation. -/
theorem kvLoadCurrent_undisturbed (hcap : cfg.kvRegionSize ≤ capacity) (h : Loads cfg g m img) :
    ∃ sb index img', undisturbed capacity (kvLoadCurrent cfg) img = (.ok (sb, index), img') ∧
      sb.generation.toNat = g ∧ Stable cfg img' g m := by
  have hspec : cwp (calm cfg capacity) (kvLoadCurrent cfg >>= pure)
      (fun r t => ∃ sb index, r = .ok (sb, index) ∧ sb.generation.toNat = g ∧ Stable cfg t g m)
      (fun _ => True) img := by
    refine kvLoadCurrent_bind (calm_medium hcap) h.ready (fun _ _ => trivial) ?_
      fun e _ he => absurd he calm_faulted
    intro t sb index ht hsel _
    exact cwp_done ⟨sb, index, rfl, (ht.view.selected hsel).1, ht.view⟩ fun _ _ => trivial
  rw [Io.bind_pure] at hspec
  obtain ⟨sb, index, hr, hgen, hstable⟩ := undisturbed_sound hspec
  exact ⟨sb, index, _, Prod.ext hr rfl, hgen, hstable⟩

/-- What an undisturbed call of a store at rest does. -/
theorem Finished.undisturbed {α : Type} {p : Io Err α} {expected : Except Err α} {g' : ℕ}
    {m' : KvMap} {C : Image → Prop}
    (h : cwp (calm cfg capacity) p (Finished cfg (calm cfg capacity) img g m expected g' m') C img) :
    (Kv.undisturbed capacity p img).1 = expected ∧
      Stable cfg (Kv.undisturbed capacity p img).2 g' m' ∧
      (Quiet cfg img → Quiet cfg (Kv.undisturbed capacity p img).2) ∧
      (g' = g → Quiet cfg img → (Kv.undisturbed capacity p img).2 = img) := by
  rcases undisturbed_sound h with ⟨hr, ht, hq, hsame⟩ | ⟨hfail, -⟩
  · exact ⟨hr, ht.view, hq, hsame⟩
  · exact absurd hfail calm_mayFail

/-- A call that turns the result of a program into its reply. -/
theorem undisturbed_reply {α : Type} (p : Io Err α) (f : Except Err α → KvReply) (img : Image) :
    Kv.undisturbed capacity (p.attempt >>= fun r => pure (f r)) img =
      (.ok (f (Kv.undisturbed capacity p img).1), (Kv.undisturbed capacity p img).2) := by
  unfold Kv.undisturbed
  rw [Io.run_bind, Io.run_attempt]
  rfl

/-- A program that goes on with a pure step after a program that succeeds. -/
theorem undisturbed_value {α β : Type} {p : Io Err α} (f : α → β) {img : Image} {a : α}
    (h : (undisturbed capacity p img).1 = .ok a) :
    undisturbed capacity (p >>= fun a => pure (f a)) img =
      (.ok (f a), (undisturbed capacity p img).2) := by
  have hrun : undisturbed capacity p img = (.ok a, (undisturbed capacity p img).2) :=
    Prod.ext h rfl
  unfold undisturbed at hrun ⊢
  rw [Io.run_bind, hrun]
  rfl

/-- The answer of a mutation as a call is its result. -/
theorem KvCall.mutate_undisturbed (op : KvMutation) (img : Image) :
    Kv.undisturbed capacity ((KvCall.mutate op).program cfg) img =
      (.ok (.status (Kv.undisturbed capacity (op.program cfg) img).1),
        (Kv.undisturbed capacity (op.program cfg) img).2) :=
  undisturbed_reply _ .status img

/-- A call that refuses its arguments. -/
theorem undisturbed_fail {α : Type} (e : Err) (img : Image) :
    Kv.undisturbed capacity (Io.fail e : Io Err α) img = (.error e, img) := rfl

/-! ### The map a region holds, from outside -/

/-- Preparing the region succeeds, and then every get answers from `m`. -/
structure Answers (cfg : KvConfig) (capacity : ℕ) (img : Image) (m : KvMap) : Prop where
  keys : ∀ key ∈ m, KeyLenOk key
  get : ∀ key outCap, KeyLenOk key →
    (undisturbed capacity (actrustKvGet cfg key outCap) img).1 = .ok (getOutcome m key outCap)

/-- After `kv_prepare_storage` the region answers for the map. -/
def LoadsMap (cfg : KvConfig) (capacity : ℕ) (img : Image) (m : KvMap) : Prop :=
  ∃ img', undisturbed capacity (kvPrepareStorage cfg) img = (.ok (), img') ∧
    Answers cfg capacity img' m

/-- Every key of a map in the table can be asked for. -/
theorem Table.keyLenOk {records : ℕ → KvRecord cfg} (h : Table cfg records m) {key : Bytes}
    (hk : key ∈ m) : KeyLenOk key := by
  obtain ⟨v, hv⟩ := Finmap.mem_iff.mp hk
  obtain ⟨i, hi, hentry⟩ := (h.entries.lookup key v).mp hv
  have hvalid := h.valid i hi
  have hused : (records i).head.used = kvRecordInUse := KvRecord.entry_isSome.mp (by rw [hentry]; rfl)
  have hle := kvRecordIsValid_keyLen hvalid hused
  have hpos := kvRecordIsValid_keyLen_ne hvalid hused
  rw [KvRecord.entry, if_pos hused, Option.some.injEq, Prod.mk.injEq] at hentry
  have hlen : key.length = (records i).head.keyLen.toNat := by
    rw [← hentry.1, KvRecord.keyBytes, List.length_take, ByteArr.length_val, Nat.min_eq_left hle]
  exact ⟨hlen ▸ hpos, hlen ▸ hle⟩

/-- A stable region answers for its map. -/
theorem Stable.answers (hcap : cfg.kvRegionSize ≤ capacity) (h : Stable cfg img g m) :
    Answers cfg capacity img m where
  keys := fun _ hk => h.table.keyLenOk hk
  get := by
    intro key outCap hk
    rcases undisturbed_sound (actrustKvGet_spec (calm_medium hcap) (Loads.ready h.loads) hk) with
      ⟨hr, -⟩ | ⟨hfail, -⟩
    · exact hr
    · exact absurd hfail calm_mayFail

/-- A region that can be recovered to `m` loads `m`. -/
theorem Loads.loadsMap (hcap : cfg.kvRegionSize ≤ capacity) (h : Loads cfg g m img) :
    LoadsMap cfg capacity img m := by
  rcases undisturbed_sound (kvPrepareStorage_spec (calm_medium hcap) h.ready fun _ hi => hi) with
    ⟨hr, ht, -⟩ | ⟨e, he, -⟩
  · exact ⟨_, Prod.ext hr rfl, ht.view.answers hcap⟩
  · exact absurd he calm_faulted

/-! ### A formatted region -/

/-- The region after a format that completed: blank storage of admitted size, prepared without
a fault. -/
def Formatted (cfg : KvConfig) (capacity : ℕ) (img : Image) : Prop :=
  ∃ img₀, Blank img₀ ∧ undisturbed capacity (kvPrepareStorage cfg) img₀ = (.ok (), img)

/-- Storage that is too small is never formatted. -/
theorem Formatted.capacity_le (h : Formatted cfg capacity img) : cfg.kvRegionSize ≤ capacity := by
  by_contra hlt
  obtain ⟨img₀, -, hrun⟩ := h
  have hfail : undisturbed capacity (kvPrepareStorage cfg) img₀ = (.error (kvErr .unsupported), img₀) := by
    change Io.run capacity _ (if capacity < cfg.kvRegionSize then _ else _) img₀ = _
    rw [if_pos (not_le.mp hlt)]
    rfl
  rw [hfail, Prod.mk.injEq] at hrun
  exact absurd hrun.1 (by simp)

/-- A blank region is formatted to the empty map, at the first generation. -/
theorem kvPrepareStorage_formats (hcap : cfg.kvRegionSize ≤ capacity) {img₀ : Image}
    (hblank : Blank img₀) : ∃ img, undisturbed capacity (kvPrepareStorage cfg) img₀ = (.ok (), img) ∧
      Stable cfg img 1 ∅ ∧ Quiet cfg img := by
  have hspec := @kvPrepareStorage_blank cfg _ (calm_medium hcap) img₀ hblank
  rcases undisturbed_sound hspec with ⟨hr, ht, hq⟩ | ⟨⟨e, he⟩, -⟩
  · exact ⟨_, Prod.ext hr rfl, ht.view, hq⟩
  · exact absurd (Or.inl ⟨e, he⟩) calm_mayFail

/-- A formatted region holds the empty map and waits for nothing. -/
theorem Formatted.stable (h : Formatted cfg capacity img) : Stable cfg img 1 ∅ ∧ Quiet cfg img := by
  obtain ⟨img₀, hblank, hrun⟩ := h
  obtain ⟨img', hrun', hstable⟩ := kvPrepareStorage_formats (Formatted.capacity_le ⟨img₀, hblank, hrun⟩) hblank
  rw [hrun, Prod.mk.injEq] at hrun'
  exact hrun'.2 ▸ hstable

end TrustSdk.Kv
