import TrustSdk.Lib.Machine
import TrustSdk.Kv.Atomicity

/-!
# The KV store refines a bounded finite map

Sequences of calls on storage that never fails, from blank storage on. The concrete machine
(`KvSession.call`) runs the programs of the store on its image; the abstract one
(`KvModel.call`) works on a finite map with a fixed number of entries and counts the
successful mutations. `kv_refines_map` says that the two give the same answers, and that the
image is well formed whenever the store has been opened.

The simulation (`Simulates`) is: the storage is still blank and the map empty, or the region is
`Stable` at generation `mutations + 1` without any journal.
-/

namespace TrustSdk.Kv

open ByteStore CrashLogic SlotTable Machine

variable {cfg : KvConfig} {capacity : ℕ}

/-! ### The two machines -/

/-- The state of a program that uses the store: how many handles are open, and the storage. -/
structure KvSession where
  refs : ℕ
  img : Image

/-- The abstract store: whether it has been opened, its handles, its map and the number of
successful mutations. -/
structure KvModel where
  opened : Bool
  refs : ℕ
  map : KvMap
  mutations : ℕ

/-- The answer to a call without a handle (`kv == NULL`). -/
def KvCall.refuse : KvCall → KvReply
  | .kvOpen | .kvClose | .mutate _ => .status (.error (kvErr .invalidArg))
  | .kvGet _ _ => .value ⟨.error (kvErr .invalidArg), none, none⟩
  | .kvExists _ => .found (.error (kvErr .invalidArg))

/-- Every call but the open takes a handle. -/
def KvCall.needsHandle : KvCall → Bool
  | .kvOpen => false
  | _ => true

/-- The number of open handles after a call. -/
def KvCall.refs : KvCall → KvReply → ℕ → ℕ
  | .kvOpen, .status (.ok _), refs => refs + 1
  | .kvClose, _, refs => refs - 1
  | _, _, refs => refs

/-- A call on storage that never fails. -/
def KvSession.call (cfg : KvConfig) (capacity : ℕ) (s : KvSession) (call : KvCall) :
    KvReply × KvSession :=
  if call.needsHandle ∧ s.refs = 0 then (call.refuse, s)
  else
    match undisturbed capacity (call.program cfg) s.img with
    | (.ok reply, img) => (reply, ⟨call.refs reply s.refs, img⟩)
    | (.error e, img) => (.status (.error e), ⟨s.refs, img⟩)

/-- What the map answers to a call. -/
def KvModel.answer (cfg : KvConfig) (a : KvModel) : KvCall → KvReply
  | .kvOpen | .kvClose => .status (.ok ())
  | .mutate op =>
    if op.Valid cfg then .status (op.outcome cfg a.map).1 else .status (.error (kvErr .invalidArg))
  | .kvGet key outCap =>
    if KeyLenOk key then .value (getOutcome a.map key outCap)
    else .value ⟨.error (kvErr .invalidArg), none, none⟩
  | .kvExists key =>
    if KeyLenOk key then .found (.ok (a.map.lookup key).isSome)
    else .found (.error (kvErr .invalidArg))

/-- What a call does to the map. -/
def KvModel.update (cfg : KvConfig) (a : KvModel) : KvCall → KvModel
  | .kvOpen => { a with opened := true }
  | .mutate op =>
    if op.Valid cfg then
      { a with
        map := (op.outcome cfg a.map).2
        mutations := nextGeneration a.mutations (op.outcome cfg a.map).1 }
    else a
  | _ => a

/-- The same call on the map. -/
def KvModel.call (cfg : KvConfig) (a : KvModel) (call : KvCall) : KvReply × KvModel :=
  if call.needsHandle ∧ a.refs = 0 then (call.refuse, a)
  else (a.answer cfg call, { a.update cfg call with refs := call.refs (a.answer cfg call) a.refs })

/-- Nothing is open and nothing is stored. -/
def KvModel.initial : KvModel := ⟨false, 0, ∅, 0⟩

/-! ### The simulation -/

/-- The storage holds the map of the model. -/
structure Simulates (cfg : KvConfig) (s : KvSession) (a : KvModel) : Prop where
  refs : s.refs = a.refs
  holds : (Blank s.img ∧ a = KvModel.initial) ∨
    (Stable cfg s.img (a.mutations + 1) a.map ∧ Quiet cfg s.img)

/-- A blank region simulates the empty map. -/
theorem Simulates.initial {img : Image} (h : Blank img) : Simulates cfg ⟨0, img⟩ .initial where
  refs := rfl
  holds := Or.inl ⟨h, rfl⟩

/-- The first open formats the storage. -/
theorem actrustKvOpen_blank (hcap : cfg.kvRegionSize ≤ capacity) {img : Image} (h : Blank img) :
    ∃ img', undisturbed capacity (actrustKvOpen cfg) img = (.ok (), img') ∧
      Stable cfg img' 1 ∅ ∧ Quiet cfg img' := by
  obtain ⟨img', hrun, hrest⟩ := kvPrepareStorage_formats hcap h
  refine ⟨img', ?_, hrest⟩
  unfold undisturbed at hrun ⊢
  change Io.run _ _ ((kvPrepareStorage cfg).attempt >>= _) img = _
  rw [Io.run_bind, Io.run_attempt, hrun]
  rfl

/-- The mutations that a limit on their number leaves room for. -/
def KvModel.Limited (a : KvModel) : Prop := a.mutations + 1 < 2 ^ 64

/-- A call never takes back a mutation that was counted. -/
theorem KvModel.mutations_le (cfg : KvConfig) (a : KvModel) (call : KvCall) :
    a.mutations ≤ (a.update cfg call).mutations := by
  cases call with
  | mutate op =>
    rw [KvModel.update]
    split_ifs
    · cases (op.outcome cfg a.map).1 with
      | ok => exact Nat.le_succ _
      | error e => exact Nat.le_refl _
    · exact Nat.le_refl _
  | _ => exact Nat.le_refl _

/-- A run within the bound was within it before its last call. -/
theorem KvModel.limited_back (a : KvModel) (call : KvCall) (h : (a.call cfg call).2.Limited) :
    a.Limited := by
  have hle := a.mutations_le cfg call
  unfold KvModel.call at h
  split_ifs at h
  · exact h
  · exact lt_of_le_of_lt (Nat.succ_le_succ hle) h

/-- A mutation with a bad argument is refused. -/
theorem KvMutation.undisturbed_invalid {op : KvMutation} (hv : ¬ op.Valid cfg) (img : Image) :
    undisturbed capacity (op.program cfg) img = (.error (kvErr .invalidArg), img) := by
  cases op with
  | set key value =>
    have harg : ¬ KeyLenOk key ∨ cfg.maxValueLen < value.length := by
      by_cases hk : KeyLenOk key
      · exact Or.inr (not_le.mp fun hle => hv ⟨hk, hle⟩)
      · exact Or.inl hk
    rw [KvMutation.program, actrustKvSet, if_pos harg, undisturbed_fail]
  | del key =>
    have hk : ¬ KeyLenOk key := hv
    rw [KvMutation.program, actrustKvDel, if_pos hk, undisturbed_fail]

/-- A call on a store at rest answers from the map. -/
theorem KvCall.undisturbed_spec (hcap : cfg.kvRegionSize ≤ capacity) {img : Image} {a : KvModel}
    (h : Stable cfg img (a.mutations + 1) a.map) (hq : Quiet cfg img) (call : KvCall)
    (hlimit : (a.update cfg call).Limited) :
    ∃ img', undisturbed capacity (call.program cfg) img = (.ok (a.answer cfg call), img') ∧
      Stable cfg img' ((a.update cfg call).mutations + 1) (a.update cfg call).map ∧
      Quiet cfg img' := by
  have hM := @calm_medium cfg capacity hcap
  have hready : Ready cfg (calm cfg capacity) img (a.mutations + 1) a.map := Loads.ready h.loads
  -- the calls that only look leave the counter; a mutation that is carried out takes one more
  cases call with
  | kvOpen =>
    obtain ⟨hr, hs, hq', -⟩ := Finished.undisturbed (actrustKvOpen_spec hM hready)
    refine ⟨_, ?_, hs, hq' hq⟩
    rw [KvCall.program, undisturbed_reply, hr]
    rfl
  | kvClose =>
    refine ⟨img, ?_, h, hq⟩
    rw [KvCall.program, undisturbed_reply]
    rfl
  | mutate op =>
    rw [KvCall.program, undisturbed_reply]
    by_cases hv : op.Valid cfg
    · simp only [KvModel.update, KvModel.answer, if_pos hv] at hlimit ⊢
      have hroom : (op.outcome cfg a.map).1 = .ok () → a.mutations + 1 + 1 < 2 ^ 64 := by
        intro hok
        rw [hok] at hlimit
        exact hlimit
      obtain ⟨hr, hs, hq', -⟩ := Finished.undisturbed (op.program_spec hM hready hv hroom)
      refine ⟨_, ?_, ?_, hq' hq⟩
      · rw [hr]
      · -- the region is one generation ahead of the counter, as the format took the first
        have hgen : nextGeneration a.mutations (op.outcome cfg a.map).1 + 1 =
            nextGeneration (a.mutations + 1) (op.outcome cfg a.map).1 := by
          cases (op.outcome cfg a.map).1 <;> rfl
        rw [hgen]
        exact hs
    · simp only [KvModel.update, KvModel.answer, if_neg hv]
      exact ⟨img, by rw [KvMutation.undisturbed_invalid hv], h, hq⟩
  | kvGet key outCap =>
    by_cases hk : KeyLenOk key
    · obtain ⟨hr, hs, hq', -⟩ :=
        Finished.undisturbed (@actrustKvGet_spec cfg _ _ _ hM img hready key outCap hk)
      refine ⟨_, ?_, hs, hq' hq⟩
      rw [KvModel.answer, if_pos hk]
      exact undisturbed_value KvReply.value hr
    · refine ⟨img, ?_, h, hq⟩
      rw [KvModel.answer, if_neg hk, KvCall.program, actrustKvGet, if_pos hk]
      rfl
  | kvExists key =>
    rw [KvCall.program, undisturbed_reply, KvModel.answer]
    by_cases hk : KeyLenOk key
    · obtain ⟨hr, hs, hq', -⟩ := Finished.undisturbed (actrustKvExists_spec hM hready hk)
      exact ⟨_, by rw [if_pos hk, hr], hs, hq' hq⟩
    · refine ⟨img, ?_, h, hq⟩
      rw [if_neg hk, actrustKvExists, if_pos hk, undisturbed_fail]

/-- One call keeps the simulation, and the answers agree. -/
theorem Simulates.step (hcap : cfg.kvRegionSize ≤ capacity) (s : KvSession) (a : KvModel)
    (call : KvCall) (h : Simulates cfg s a) (hlimit : (a.call cfg call).2.Limited) :
    (s.call cfg capacity call).1 = (a.call cfg call).1 ∧
      Simulates cfg (s.call cfg capacity call).2 (a.call cfg call).2 := by
  have hcond : (call.needsHandle ∧ s.refs = 0) ↔ (call.needsHandle ∧ a.refs = 0) := by rw [h.refs]
  unfold KvSession.call KvModel.call at *
  by_cases hrefuse : call.needsHandle ∧ a.refs = 0
  · rw [if_pos (hcond.mpr hrefuse), if_pos hrefuse]
    exact ⟨rfl, h⟩
  · rw [if_neg hrefuse] at hlimit ⊢
    rw [if_neg fun hc => hrefuse (hcond.mp hc)]
    rcases h.holds with ⟨hblank, rfl⟩ | ⟨hstable, hquiet⟩
    · -- without a handle only the open can be called, and it formats
      have hopen : call = .kvOpen := by
        cases call with
        | kvOpen => rfl
        | _ => exact absurd ⟨rfl, rfl⟩ hrefuse
      subst hopen
      obtain ⟨img', hrun, hstable, hquiet⟩ := actrustKvOpen_blank hcap hblank
      have hreply : undisturbed capacity (KvCall.kvOpen.program cfg) s.img =
          (.ok (.status (.ok ())), img') := by
        rw [KvCall.program, undisturbed_reply, hrun]
      rw [hreply]
      exact ⟨rfl, congrArg (· + 1) h.refs, Or.inr ⟨hstable, hquiet⟩⟩
    · obtain ⟨img', hrun, hstable', hquiet'⟩ :=
        KvCall.undisturbed_spec hcap hstable hquiet call hlimit
      rw [hrun]
      exact ⟨rfl, congrArg (call.refs _) h.refs, Or.inr ⟨hstable', hquiet'⟩⟩

/-! ### The refinement -/

/-- What holds of the storage of an opened store after `mutations` successful mutations. -/
structure WellFormed (cfg : KvConfig) (capacity : ℕ) (img : Image) (mutations : ℕ) : Prop where
  /-- Every record decodes as valid. -/
  valid : ∀ i < cfg.maxRecords, kvRecordIsValid (recordAt cfg img i)
  /-- No two used records hold the same key. -/
  distinct : ∀ i < cfg.maxRecords, ∀ j < cfg.maxRecords,
    (recordAt cfg img i).head.used = kvRecordInUse → (recordAt cfg img j).head.used = kvRecordInUse →
    (recordAt cfg img i).keyBytes = (recordAt cfg img j).keyBytes → i = j
  /-- The selected superblock counts the used records, and its generation the mutations. -/
  selected : ∃ sb index img', undisturbed capacity (kvSelectSuperblock cfg) img =
      (.ok (sb, index), img') ∧
    sb.recordCount.toNat = ((Finset.range cfg.maxRecords).filter fun i =>
      (recordAt cfg img i).head.used = kvRecordInUse).card ∧
    sb.generation.toNat = mutations + 1

/-- What the simulation gives of the bytes themselves. -/
theorem Stable.wellFormed (hcap : cfg.kvRegionSize ≤ capacity) {img : Image} {n : ℕ} {m : KvMap}
    (h : Stable cfg img (n + 1) m) : WellFormed cfg capacity img n where
  valid := h.table.valid
  distinct := by
    intro i hi j hj hui huj hkey
    refine h.table.entries.distinct i hi j hj (recordAt cfg img i).keyBytes
      (recordAt cfg img i).valueBytes (recordAt cfg img j).valueBytes ?_ ?_
    · exact if_pos hui
    · rw [hkey]
      exact if_pos huj
  selected := by
    obtain ⟨sb, index, hsel, hgen, hcount⟩ := h.superblock
    have hreads := kvSelectSuperblock_reads (C := fun _ => True) (@calm_medium cfg capacity hcap).readable
      (fun _ _ => trivial) hsel
    obtain ⟨-, hr | ⟨e, he, -⟩⟩ := undisturbed_sound hreads
    · -- the counter of the superblock is the number of slots in use
      refine ⟨sb, index, _, Prod.ext hr rfl, ?_, hgen⟩
      rw [hcount, h.table.entries.card]
      refine congrArg Finset.card (Finset.filter_congr fun i _ => ?_)
      exact KvRecord.entry_isSome
    · exact absurd he calm_faulted

/-- The run of the store from blank storage. -/
def kvRun (cfg : KvConfig) (capacity : ℕ) (img : Image) (calls : List KvCall) :
    List KvReply × KvSession :=
  run (KvSession.call cfg capacity) calls ⟨0, img⟩

/-- The run of the map. -/
def kvModelRun (cfg : KvConfig) (calls : List KvCall) : List KvReply × KvModel :=
  run (KvModel.call cfg) calls .initial

/-- Over any list of calls the answers are those of the map. -/
theorem kvRun_simulates (hcap : cfg.kvRegionSize ≤ capacity) {img : Image} (hblank : Blank img)
    (calls : List KvCall) (hlimit : (kvModelRun cfg calls).2.Limited) :
    (kvRun cfg capacity img calls).1 = (kvModelRun cfg calls).1 ∧
      Simulates cfg (kvRun cfg capacity img calls).2 (kvModelRun cfg calls).2 :=
  run_simulates KvModel.limited_back (Simulates.step hcap) calls _ _ (.initial hblank) hlimit

/-- **Refinement.** Over every sequence of calls with fewer than `2 ^ 64 - 1` successful
mutations the store answers as the map does, and once it has been opened its storage is well
formed, at the generation that counts the mutations. -/
theorem kv_refines_map (hcap : cfg.kvRegionSize ≤ capacity) {img : Image} (hblank : Blank img)
    (calls : List KvCall) (hfew : (kvModelRun cfg calls).2.mutations < 2 ^ 64 - 1) :
    (kvRun cfg capacity img calls).1 = (kvModelRun cfg calls).1 ∧
      ((kvModelRun cfg calls).2.opened →
        WellFormed cfg capacity (kvRun cfg capacity img calls).2.img
          (kvModelRun cfg calls).2.mutations) := by
  have hlimit : (kvModelRun cfg calls).2.Limited := by
    unfold KvModel.Limited
    omega
  obtain ⟨hreplies, hsim⟩ := kvRun_simulates hcap hblank calls hlimit
  refine ⟨hreplies, fun hopen => ?_⟩
  rcases hsim.holds with ⟨-, hinit⟩ | ⟨hstable, -⟩
  · rw [hinit] at hopen
    exact absurd hopen (by decide)
  · exact hstable.wellFormed hcap

/-- A run on the small store: a set, a get of the new key and a get into a short buffer. -/
theorem kv_refines_map_tiny :
    (kvRun tinyConfig tinyConfig.kvRegionSize (fun _ => 0)
        [.kvOpen, .mutate (.set [1] [7]), .kvGet [1] 1, .kvGet [1] 0]).1 =
      (kvModelRun tinyConfig
        [.kvOpen, .mutate (.set [1] [7]), .kvGet [1] 1, .kvGet [1] 0]).1 :=
  (kv_refines_map (Nat.le_refl _) (fun _ => rfl) _ (by decide)).1

/-! ### Without the limit -/

/-- The calls that open the store and set one key `n` times. -/
def setsOfOne (n : ℕ) : List KvCall := .kvOpen :: List.replicate n (.mutate (.set [1] [1]))

/-- The model of the small store holds at most the one key, and has counted `n` mutations. -/
structure HoldsOne (a : KvModel) (n : ℕ) : Prop where
  refs : a.refs = 1
  mutations : a.mutations = n
  keys : a.map.keys ⊆ {[1]}

/-- A map with the key `[1]` alone has one entry. -/
theorem HoldsOne.card_le {a : KvModel} {n : ℕ} (h : HoldsOne a n) : a.map.keys.card ≤ 1 :=
  (Finset.card_le_card h.keys).trans (by simp)

/-- A further set of the key succeeds. -/
theorem HoldsOne.set {a : KvModel} {n : ℕ} (h : HoldsOne a n) :
    HoldsOne (a.call tinyConfig (.mutate (.set [1] [1]))).2 (n + 1) := by
  -- one of the two slots is free, or the key is there already
  have hout : (KvMutation.set [1] [1]).outcome tinyConfig a.map =
      (.ok (), a.map.insert [1] [1]) := by
    refine if_neg fun hfull => ?_
    have hmax : a.map.keys.card = 2 := hfull.2
    have hle := h.card_le
    omega
  have hv : (KvMutation.set [1] [1]).Valid tinyConfig := by decide
  have hrefs : ¬ (KvCall.needsHandle (.mutate (.set [1] [1])) ∧ a.refs = 0) := by
    rw [h.refs]
    decide
  rw [KvModel.call, if_neg hrefs]
  simp only [KvModel.update, if_pos hv, hout, KvModel.answer]
  refine ⟨h.refs, congrArg (· + 1) h.mutations, ?_⟩
  change (a.map.insert [1] [1]).keys ⊆ {[1]}
  rw [keys_insert]
  exact Finset.insert_subset (by simp) h.keys

/-- So does any number of them. -/
theorem HoldsOne.sets {a : KvModel} {k : ℕ} (h : HoldsOne a k) (n : ℕ) :
    HoldsOne (run (KvModel.call tinyConfig)
      (List.replicate n (.mutate (.set [1] [1]))) a).2 (k + n) := by
  induction n generalizing a k with
  | zero => exact h
  | succ n ih =>
    rw [List.replicate_succ, run_cons, Nat.add_comm n 1, ← Nat.add_assoc]
    exact ih h.set

/-- From a blank region likewise. -/
theorem kvModelRun_setsOfOne (n : ℕ) : HoldsOne (kvModelRun tinyConfig (setsOfOne n)).2 n := by
  have hopen : HoldsOne (KvModel.initial.call tinyConfig .kvOpen).2 0 :=
    ⟨rfl, rfl, Finset.empty_subset _⟩
  have hsets := hopen.sets n
  rw [Nat.zero_add] at hsets
  exact hsets

/-- The last two calls of the run that wraps the generation. -/
def lastCalls : List KvCall := [.mutate (.set [2] [1]), .kvGet [2] 1]

/-- The key `[2]` is missing. -/
theorem HoldsOne.new_key {a : KvModel} {n : ℕ} (h : HoldsOne a n) : a.map.lookup [2] = none := by
  refine Finmap.lookup_eq_none.mpr fun hmem => ?_
  exact absurd (h.keys (Finmap.mem_keys.mpr hmem)) (by decide)

/-- The map answers the last get with the value. -/
theorem HoldsOne.last {a : KvModel} {n : ℕ} (h : HoldsOne a n) :
    run (KvModel.call tinyConfig) lastCalls a =
      ([.status (.ok ()), .value ⟨.ok (), some 1, some [1]⟩],
        ⟨a.opened, 1, a.map.insert [2] [1], n + 1⟩) := by
  have hout : (KvMutation.set [2] [1]).outcome tinyConfig a.map =
      (.ok (), a.map.insert [2] [1]) := by
    refine if_neg fun hfull => ?_
    have hmax : a.map.keys.card = 2 := hfull.2
    have hle := h.card_le
    omega
  have hv : (KvMutation.set [2] [1]).Valid tinyConfig := by decide
  have hk : KeyLenOk [2] := by decide
  have hget : getOutcome (a.map.insert [2] [1]) [2] 1 = ⟨.ok (), some 1, some [1]⟩ := by
    simp [getOutcome]
  simp [lastCalls, run_cons, KvModel.call, KvCall.needsHandle, h.refs, KvModel.answer,
    KvModel.update, hv, hk, hout, hget, KvCall.refs, nextGeneration, h.mutations]

/-- The store answers the last get with an error. -/
theorem Simulates.last {s : KvSession} {a : KvModel}
    (h : Simulates tinyConfig s a) (hone : HoldsOne a (2 ^ 64 - 2)) :
    (run (KvSession.call tinyConfig tinyConfig.kvRegionSize) lastCalls s).1 =
      [.status (.ok ()), .value ⟨.error (kvErr .io), none, none⟩] := by
  have hcap := Nat.le_refl tinyConfig.kvRegionSize
  -- the handle is open, so the region is formatted
  rcases h.holds with ⟨-, rfl⟩ | ⟨hs, hq⟩
  · exact absurd hone.refs (by decide)
  · rw [hone.mutations] at hs
    -- at the last generation the next `set` is answered OK and leaves a store that cannot be read
    obtain ⟨img', hrun, hlost⟩ := actrustKvSet_wraps hcap hs hq (by decide)
      (by decide : KeyLenOk [2]) (by decide : ([1] : Bytes).length ≤ tinyConfig.maxValueLen)
      hone.new_key (Nat.lt_succ_of_le hone.card_le)
    have hrefs : s.refs = 1 := h.refs.trans hone.refs
    have hget := hlost.get hcap (by decide : KeyLenOk [2]) 1
    have hgetReply : undisturbed tinyConfig.kvRegionSize
        ((KvCall.kvGet [2] 1).program tinyConfig) img' = (.ok (.value ⟨.error (kvErr .io), none, none⟩), _) :=
      undisturbed_value KvReply.value hget
    have hset : undisturbed tinyConfig.kvRegionSize
        ((KvCall.mutate (.set [2] [1])).program tinyConfig) s.img =
          (.ok (.status (.ok ())), img') := by
      rw [KvCall.program, undisturbed_reply, KvMutation.program, hrun]
    simp [lastCalls, run_cons, KvSession.call, KvCall.needsHandle, hrefs, hset, hgetReply,
      KvCall.refs]

/-- After `2 ^ 64 - 1` successful mutations, that is still fewer than `2 ^ 64`, a get of the
last key set fails with an I/O error. -/
theorem not_kv_refines_map : ¬ ∀ calls : List KvCall,
    (kvModelRun tinyConfig calls).2.mutations < 2 ^ 64 →
      (kvRun tinyConfig tinyConfig.kvRegionSize (fun _ => 0) calls).1 =
        (kvModelRun tinyConfig calls).1 := by
  intro h
  -- all generations but the last are spent on `set` of one key
  have hone := kvModelRun_setsOfOne (2 ^ 64 - 2)
  have hlimit : (kvModelRun tinyConfig (setsOfOne (2 ^ 64 - 2))).2.Limited := by
    unfold KvModel.Limited
    rw [hone.mutations]
    decide
  obtain ⟨hfirst, hsim⟩ := kvRun_simulates (Nat.le_refl tinyConfig.kvRegionSize)
    (fun _ => rfl : Blank fun _ => 0) _ hlimit
  have hagree := h (setsOfOne (2 ^ 64 - 2) ++ lastCalls)
  unfold kvRun kvModelRun at *
  -- the two runs agree up to there, so the last two answers decide
  rw [run_append, run_append, hone.last, hsim.last hone] at hagree
  have hreplies := hagree (by decide)
  rw [hfirst] at hreplies
  exact absurd (List.append_cancel_left hreplies) (by simp)

end TrustSdk.Kv
