import TrustSdk.Kv.Atomicity

/-!
# Damage to the superblock that is not in use

A store at rest is read through the selected superblock alone. Whatever is written over the
other slot, recovery and every get ignore it as long as it does not decode as a valid
superblock (`AtRest.overwrite`, `Settled.answers`). `kvPrepareStorage`, however, looks at the first twelve bytes
of slot 0 before it recovers, whichever slot is in use (`PassesProbe`). So the damage is
harmless exactly when slot 0 is the one in use or the probe accepts the damaged bytes
(`superblock_redundancy_iff`); otherwise the open path refuses a store that
`kvLoadCurrent` accepts.
-/

namespace TrustSdk.Kv

open ByteStore CrashLogic SlotTable

variable {cfg : KvConfig} {capacity index : ℕ} {img : Image} {sb : KvSuperblock} {m : KvMap}

/-- The store is at rest: both journal slots are clear, the superblock `sb` of slot `index` is
the one in use and counts the keys, and every record is valid. -/
structure AtRest (cfg : KvConfig) (img : Image) (sb : KvSuperblock) (index : ℕ) (m : KvMap) :
    Prop where
  quiet : Quiet cfg img
  selected : Selected cfg img sb index
  count : sb.recordCount.toNat = m.keys.card
  table : Table cfg (recordAt cfg img) m

/-- Recovery has nothing to do: no journal is valid, the superblock `sb` of slot `index` is the one
in use and counts the keys, and every record is valid. -/
structure Settled (cfg : KvConfig) (img : Image) (sb : KvSuperblock) (index : ℕ) (m : KvMap) :
    Prop where
  journals : ∀ slot < 2, ¬ kvJournalIsValid (journalAt cfg img slot)
  selected : Selected cfg img sb index
  count : sb.recordCount.toNat = m.keys.card
  table : Table cfg (recordAt cfg img) m

/-- A region at rest is settled: no journal asks for anything. -/
theorem AtRest.settled (h : AtRest cfg img sb index m) : Settled cfg img sb index m where
  journals := fun slot hs => by
    rw [h.quiet slot hs]
    exact KvJournal.zero_not_valid
  selected := h.selected
  count := h.count
  table := h.table

/-- A stable region without a waiting journal is at rest. -/
theorem Stable.atRest {g : ℕ} (h : Stable cfg img g m) (hq : Quiet cfg img) :
    ∃ sb index, AtRest cfg img sb index m := by
  obtain ⟨sb, index, hsel, -, hcount⟩ := h.superblock
  exact ⟨sb, index, hq, hsel, hcount, h.table⟩

/-- A region that calls and faults lead to from a completed format is at rest as soon as both
journal slots are clear. -/
theorem Reachable.atRest (h : Reachable cfg capacity (HasRoom cfg capacity) img)
    (hq : Quiet cfg img) : ∃ sb index m, AtRest cfg img sb index m := by
  obtain ⟨g, m, hstable | ⟨base, slot, -, hpending⟩⟩ := h.loads
  · obtain ⟨sb, index, hrest⟩ := hstable.atRest hq
    exact ⟨sb, index, m, hrest⟩
  · -- a journal that announces a transaction is not the zero journal
    have hvalid := hpending.intent.valid
    rw [hq slot hpending.slot_lt] at hvalid
    exact absurd hvalid KvJournal.zero_not_valid

/-! ### Reading a settled store -/

section Read

variable (hcap : cfg.kvRegionSize ≤ capacity) (h : Settled cfg img sb index m)
include hcap h

/-- The recovery leaves a settled region as it is. -/
theorem Settled.recover_reads :
    cwp (calm cfg capacity) (kvRecover cfg) (fun r t => r = .ok () ∧ t = img) (fun _ => True) img := by
  have hM := (@calm_medium cfg capacity hcap).readable
  have hC : ∀ img', (calm cfg capacity).crash img img' → True := fun _ _ => trivial
  refine kvRecover_scan hM hC h.selected ?_ fun e he => absurd he calm_faulted
  -- neither journal slot holds a valid journal, so there is nothing to carry out
  have hscan : kvNewestJournal (validJournal cfg img 0) (validJournal cfg img 1) = none := by
    rw [validJournal, validJournal, if_neg (h.journals 0 (by omega)),
      if_neg (h.journals 1 (by omega))]
    rfl
  change cwp _ (kvRecoverFrom sb index (kvNewestJournal (validJournal cfg img 0)
    (validJournal cfg img 1))) _ _ _
  rw [hscan]
  refine cwp.mono (kvValidateRecords_reads hM hC h.table h.count) ?_ fun _ hi => hi
  rintro r t ⟨rfl, rfl | ⟨e, he, -⟩⟩
  · exact ⟨rfl, rfl⟩
  · exact absurd he calm_faulted

/-- The same as a run without a fault. -/
theorem Settled.kvRecover_undisturbed : undisturbed capacity (kvRecover cfg) img = (.ok (), img) := by
  obtain ⟨hr, ht⟩ := undisturbed_sound (h.recover_reads hcap)
  exact Prod.ext hr ht

/-- Recovery changes nothing and the superblock in use is returned. -/
theorem Settled.loadCurrent_bind {β : Type} {f : KvSuperblock × ℕ → Io Err β}
    {Q : Except Err β → Image → Prop}
    (hf : cwp (calm cfg capacity) (f (sb, index)) Q (fun _ => True) img) :
    cwp (calm cfg capacity) (kvLoadCurrent cfg >>= f) Q (fun _ => True) img := by
  refine cwp_bind (cwp_bind (cwp.mono (h.recover_reads hcap) ?_ fun _ hi => hi))
  rintro r t ⟨rfl, rfl⟩
  refine cwp.mono (kvSelectSuperblock_reads (calm_medium hcap).readable (fun _ _ => trivial) h.selected) ?_
    fun _ hi => hi
  rintro r t ⟨rfl, rfl | ⟨e, he, -⟩⟩
  · exact hf
  · exact absurd he calm_faulted

/-- `kv_load_current` answers the superblock in force. -/
theorem Settled.kvLoadCurrent_undisturbed :
    undisturbed capacity (kvLoadCurrent cfg) img = (.ok (sb, index), img) := by
  have hspec : cwp (calm cfg capacity) (kvLoadCurrent cfg >>= pure)
      (fun r t => r = .ok (sb, index) ∧ t = img) (fun _ => True) img :=
    h.loadCurrent_bind hcap (cwp_done ⟨rfl, rfl⟩ fun _ _ => trivial)
  rw [Io.bind_pure] at hspec
  obtain ⟨hr, ht⟩ := undisturbed_sound hspec
  exact Prod.ext hr ht

/-- What the locked part of `get` answers on a settled region. -/
theorem Settled.kvGetLocked_reads (key : Bytes) (outCap : ℕ) :
    cwp (calm cfg capacity) (kvGetLocked cfg key outCap)
      (fun r t => t = img ∧ r = match m.lookup key with
        | none => .error (kvErr .noResource)
        | some v => .ok (v.length, if outCap < v.length then none else some v))
      (fun _ => True) img := by
  have hM := (@calm_medium cfg capacity hcap).readable
  have hC : ∀ img', (calm cfg capacity).crash img img' → True := fun _ _ => trivial
  refine h.loadCurrent_bind hcap ?_
  cases hlook : m.lookup key with
  | none =>
    exact (kvFindRecord_reads_none hM hC h.table hlook).bind (cwp_done ⟨rfl, rfl⟩ hC)
      fun e he => absurd he calm_faulted
  | some v =>
    obtain ⟨i, hi, hslot, hfind⟩ := kvFindRecord_reads_some hM hC h.table hlook
    refine hfind.bind ((kvReadRecord_reads hM hC hi).bind ?_ fun e he => absurd he calm_faulted)
      fun e he => absurd he calm_faulted
    -- the record is read again after the scan, so it is the valid one of the table
    have hvalid : kvRecordIsValid (recordAt cfg ((calm cfg capacity).view img) i) :=
      h.table.valid i hi
    obtain ⟨hlen, hval⟩ := KvRecord.entry_some hslot hvalid
    simp only [hvalid, not_true_eq_false, if_false]
    rw [hval, hlen]
    exact cwp_done ⟨rfl, rfl⟩ hC

/-- A settled region answers for its map. -/
theorem Settled.answers : Answers cfg capacity img m where
  keys := fun _ hk => h.table.keyLenOk hk
  get := by
    intro key outCap hk
    have hspec : cwp (calm cfg capacity) (actrustKvGet cfg key outCap)
        (fun r _ => r = .ok (getOutcome m key outCap)) (fun _ => True) img := by
      rw [actrustKvGet, if_neg (not_not.mpr hk)]
      refine cwp_lock_attempt ?_ fun e he => he.elim
      refine cwp_bind (cwp_attempt (cwp.mono (h.kvGetLocked_reads hcap key outCap) ?_
        fun _ hi => hi))
      rintro r t ⟨rfl, rfl⟩
      refine cwp_unlock (cwp_done ?_ fun _ _ => trivial) fun e he => he.elim
      refine congrArg Except.ok ?_
      unfold getOutcome
      cases m.lookup key with
      | none => rfl
      | some v =>
        by_cases hlt : outCap < v.length
        · simp only [if_pos hlt, kvGetAnswer]
        · simp only [if_neg hlt, kvGetAnswer]
    exact undisturbed_sound hspec

end Read

/-! ### The probe of the open path -/

/-- The first twelve bytes pass the probe of `kvPrepareStorage`: they are blank, or they start
with the magic number and the current version. -/
def PassesProbe (header : Bytes) : Prop :=
  header = List.replicate 12 0 ∨
    kvGetU32 header = kvHeaderMagic ∧ kvGetU16 (header.drop 4) = kvHeaderVersionV2

instance (header : Bytes) : Decidable (PassesProbe header) := inferInstanceAs (Decidable (_ ∨ _))

/-- A valid superblock in slot 0 passes the probe. -/
theorem kvSuperblockIsValid_passesProbe (h : kvSuperblockIsValid cfg (superblockAt img 0)) :
    PassesProbe (slice img 0 12) := by
  have hcut : slice img 0 12 = (slice img 0 64).take 12 := (slice_take img 0 (by omega)).symm
  simp only [kvSuperblockIsValid, decide_eq_true_eq] at h
  have hmagic : kvGetU32 (slice img 0 64) = kvHeaderMagic := h.1
  have hversion : kvGetU16 ((slice img 0 64).drop 4) = kvHeaderVersionV2 := h.2.1
  refine Or.inr ?_
  rw [hcut, ← hmagic, ← hversion]
  unfold kvGetU32 kvGetU16
  rw [List.take_take, List.drop_take, List.take_take]
  exact ⟨rfl, rfl⟩

section Probe

variable {D : Device Err} (hM : KvReadable cfg D) {s : D.State} {C : Image → Prop}
  {Q : Except Err Unit → D.State → Prop}
include hM

/-- What the probe refuses is refused, whatever recovery would have made of it. -/
theorem kvPrepareStorage_refuses (hprobe : ¬ PassesProbe (slice (D.view s) 0 12))
    (hC : ∀ img, D.crash s img → C img) (hQ : ∀ e, Q (.error e) s) :
    cwp D (kvPrepareStorage cfg) Q C s := by
  obtain ⟨hzero, hv2⟩ := not_or.mp hprobe
  refine cwp_capacity ?_ fun e _ => hQ e
  rw [if_neg (not_lt.mpr hM.capacity)]
  refine (storageRead_reads hM hC (kvHeader_region cfg)).bind ?_ fun e _ => hQ e
  rw [if_neg hv2, if_pos hzero]
  split_ifs with hv1
  · exact cwp_done (hQ _) hC
  · exact cwp_done (hQ _) hC

/-- What the probe accepts is recovered, and it is formatted only if recovery reports that
nothing is there. -/
theorem kvPrepareStorage_accepts (hprobe : PassesProbe (slice (D.view s) 0 12))
    (hrec : cwp D (kvRecover cfg) (fun r t => Q r t ∧ (∀ img, D.crash t img → C img) ∧
      ∀ e, r = .error e → e.code ≠ .noResource) C s)
    (hfault : ∀ e, Faulted D e → Q (.error e) s) : cwp D (kvPrepareStorage cfg) Q C s := by
  refine cwp_capacity ?_ fun e he => hfault e ⟨⟨e, he⟩, hM.fault_code e he⟩
  rw [if_neg (not_lt.mpr hM.capacity)]
  refine (storageRead_reads hM hrec.crash (kvHeader_region cfg)).bind ?_ hfault
  -- the probe has the two ways of `kv_prepare_storage`: the header as it should be, or zeros
  by_cases hv2 : kvGetU32 (slice (D.view s) 0 12) = kvHeaderMagic ∧
      kvGetU16 ((slice (D.view s) 0 12).drop 4) = kvHeaderVersionV2
  · have hv : kvHeaderVersionV2 ≠ kvHeaderVersionV1 := by decide
    rw [hv2.1, hv2.2, if_neg fun h => hv h.2, if_pos ⟨rfl, rfl⟩]
    exact cwp.mono hrec (fun _ _ h => h.1) fun _ hi => hi
  · have hzero := hprobe.resolve_right hv2
    have hmagic : kvGetU32 (List.replicate 12 0) ≠ kvHeaderMagic := by decide
    rw [hzero, if_neg fun h => hmagic h.1, if_neg fun h => hmagic h.1, if_neg (not_not.mpr rfl)]
    -- behind the zeros the recovery still finds the region, so nothing is formatted
    refine cwp_bind (cwp_attempt (cwp.mono hrec ?_ fun _ hi => hi))
    rintro (e | _) t ⟨hQ, hC, hcode⟩
    · simp only [afterwards_ok, if_pos (hcode e rfl)]
      exact cwp_done hQ hC
    · exact cwp_done hQ hC

-- any error but `ACTRUST_ERR_NO_RESOURCE` would end the call
end Probe

/-- The open path accepts a store at rest exactly when the probe does. -/
theorem AtRest.kvPrepareStorage_undisturbed (hcap : cfg.kvRegionSize ≤ capacity)
    (h : AtRest cfg img sb index m) :
    (PassesProbe (slice img 0 12) → undisturbed capacity (kvPrepareStorage cfg) img = (.ok (), img)) ∧
      (¬ PassesProbe (slice img 0 12) →
        ∃ e, (undisturbed capacity (kvPrepareStorage cfg) img).1 = .error e) := by
  have hM := (@calm_medium cfg capacity hcap).readable
  -- the probe of the first twelve bytes decides, whatever the other superblock says
  constructor
  · intro hprobe
    have hspec : cwp (calm cfg capacity) (kvPrepareStorage cfg) (fun r t => r = .ok () ∧ t = img)
        (fun _ => True) img := by
      refine kvPrepareStorage_accepts hM hprobe (cwp.mono (h.settled.recover_reads hcap) ?_ fun _ hi => hi)
        fun e he => absurd he calm_faulted
      rintro r t ⟨rfl, rfl⟩
      exact ⟨⟨rfl, rfl⟩, fun _ _ => trivial, fun e he => absurd he (by simp)⟩
    exact Prod.ext (undisturbed_sound hspec).1 (undisturbed_sound hspec).2
  · intro hprobe
    have hspec : cwp (calm cfg capacity) (kvPrepareStorage cfg) (fun r _ => ∃ e, r = .error e)
        (fun _ => True) img :=
      kvPrepareStorage_refuses hM hprobe (fun _ _ => trivial) fun e => ⟨e, rfl⟩
    exact undisturbed_sound hspec

/-! ### Overwriting the other slot -/

/-- The region with the superblock slot that is not in use overwritten. -/
def damaged (img : Image) (index : ℕ) (content : Bytes) : Image :=
  patch img (kvSuperblockOffset ((index + 1) % 2)) content

section Damage

variable {content : Bytes} (h : AtRest cfg img sb index m)
  (hlen : content.length = kvSuperblockSize)
include h hlen

/-- Content that is no valid superblock leaves the store at rest, with the same map. -/
theorem AtRest.overwrite (hinvalid : ¬ kvSuperblockIsValid cfg (kvDecodeSuperblock content)) :
    AtRest cfg (damaged img index content) sb index m := by
  have hother : (index + 1) % 2 < 2 := Nat.mod_lt _ (by omega)
  have hend := kvSuperblockOffset_end_le hother
  have hout := SameOutside.patch img (kvSuperblockOffset ((index + 1) % 2)) content
  rw [hlen] at hout
  refine ⟨fun slot hs => ?_, h.selected.keep ?_ fun hvalid => ?_, h.count,
    h.table.congr fun i _ => ?_⟩
  · -- the damaged slot is the one that is not in force, and nothing else is looked at
    rw [damaged, journalAt_frame hout (Or.inr (hend.trans (kvDataOffset_le_journal cfg slot)))]
    exact h.quiet slot hs
  · have hlt := h.selected.index_lt
    refine superblockAt_frame hout ?_
    unfold kvSuperblockOffset kvSuperblockSize
    omega
  · have hslice := slice_patch img (kvSuperblockOffset ((index + 1) % 2)) content
    rw [hlen] at hslice
    rw [damaged, superblockAt, hslice] at hvalid
    -- the damaged superblock cannot become the one in force
    exact absurd hvalid hinvalid
  · exact recordAt_frame hout (Or.inr (hend.trans (kvDataOffset_le_record cfg i)))

/-- The probe sees a valid superblock in slot 0, or else the content that was written there. -/
theorem AtRest.passesProbe_iff :
    PassesProbe (slice (damaged img index content) 0 12) ↔
      index = 0 ∨ PassesProbe (content.take 12) := by
  have hlt := h.selected.index_lt
  -- with the one in slot 0 in force the damage is in slot 1, which the probe does not read
  obtain rfl | rfl : index = 0 ∨ index = 1 := by omega
  · refine iff_of_true ?_ (Or.inl rfl)
    have hvalid : kvSuperblockIsValid cfg (superblockAt img 0) := by
      have hsel := h.selected
      unfold Selected kvNewerSuperblock at hsel
      grind
    have hsame : slice (damaged img 0 content) 0 12 = slice img 0 12 :=
      (SameOutside.patch _ _ _).slice_eq (Or.inl (by decide))
    rw [hsame]
    exact kvSuperblockIsValid_passesProbe hvalid
  · -- with the one in slot 1 in force the damage is in the probed bytes
    have hhead : slice (damaged img 1 content) 0 12 = content.take 12 := by
      refine slice_patch_take img 0 content ?_
      rw [hlen]
      decide
    simp only [hhead, Nat.one_ne_zero, false_or]

end Damage

/-- The open path loads `m` from this region, and whether it accepts the region is whether
recovery and `kvLoadCurrent` do. -/
structure Redundant (cfg : KvConfig) (capacity : ℕ) (img : Image) (m : KvMap) : Prop where
  loads : LoadsMap cfg capacity img m
  recover : (undisturbed capacity (kvPrepareStorage cfg) img).1 = .ok () ↔
    (undisturbed capacity (kvRecover cfg) img).1 = .ok ()
  loadCurrent : (undisturbed capacity (kvPrepareStorage cfg) img).1 = .ok () ↔
    ∃ current, (undisturbed capacity (kvLoadCurrent cfg) img).1 = .ok current

/-- **Superblock redundancy.** A store at rest whose unused superblock slot is overwritten with
content that is no valid superblock keeps its map exactly when slot 0 is the one in use or the
content passes the probe of the open path. -/
theorem superblock_redundancy_iff (hcap : cfg.kvRegionSize ≤ capacity)
    (h : AtRest cfg img sb index m) {content : Bytes} (hlen : content.length = kvSuperblockSize)
    (hinvalid : ¬ kvSuperblockIsValid cfg (kvDecodeSuperblock content)) :
    Redundant cfg capacity (damaged img index content) m ↔
      index = 0 ∨ PassesProbe (content.take 12) := by
  have hrest := h.overwrite hlen hinvalid
  obtain ⟨hpass, hfail⟩ := hrest.kvPrepareStorage_undisturbed hcap
  rw [← h.passesProbe_iff hlen]
  constructor
  · -- a store that is refused answers for nothing
    intro hred
    by_contra hprobe
    obtain ⟨e, he⟩ := hfail hprobe
    obtain ⟨img', hrun, -⟩ := hred.loads
    rw [hrun] at he
    exact absurd he (by simp)
  · intro hprobe
    have hprepare := hpass hprobe
    refine ⟨⟨_, hprepare, hrest.settled.answers hcap⟩, ?_, ?_⟩
    · rw [hprepare, hrest.settled.kvRecover_undisturbed hcap]
    · rw [hprepare, hrest.settled.kvLoadCurrent_undisturbed hcap]
      exact iff_of_true rfl ⟨_, rfl⟩

/-! ### A store at rest in slot 1 -/

/-- The small store after its first set: generation 2, in slot 1. -/
def tinySecond : Image :=
  (undisturbed tinyConfig.kvRegionSize (actrustKvSet tinyConfig [1] [1]) tinyFormatted).2

/-- A region with one entry, reached by one `set` after the format. -/
theorem tinySecond_reachable : Reachable tinyConfig tinyConfig.kvRegionSize
    (HasRoom tinyConfig tinyConfig.kvRegionSize) tinySecond := by
  have hf := tinyFormatted_formatted
  have hroom := HasRoom.of_loads (Nat.le_refl tinyConfig.kvRegionSize) hf.stable.1.loads (by decide)
  exact (Reachable.format hf).undisturbed hroom (.set [1] [1])

/-- Its second superblock is in force. -/
theorem tinySecond_selected : Selected tinyConfig tinySecond (kvMakeSuperblock 2 1) 1 := by
  unfold Selected
  decide +kernel

/-- It is at rest. -/
theorem tinySecond_atRest : ∃ m, AtRest tinyConfig tinySecond (kvMakeSuperblock 2 1) 1 m := by
  obtain ⟨hs, hq⟩ := tinyFormatted_formatted.stable
  have hspec := (KvMutation.set [1] [1]).program_spec
    (calm_medium (Nat.le_refl tinyConfig.kvRegionSize)) (Loads.ready hs.loads) (by decide)
    fun _ => by decide
  obtain ⟨-, hs', hq', -⟩ := Finished.undisturbed hspec
  obtain ⟨sb, index, hrest⟩ := hs'.atRest (hq' hq)
  have heq := hrest.selected.symm.trans tinySecond_selected
  rw [Option.some.injEq, Prod.mk.injEq] at heq
  rw [heq.1, heq.2] at hrest
  exact ⟨_, hrest⟩

/-- The redundancy at that region, with the other slot zeroed. -/
theorem superblock_redundancy_zeros : ∃ m, AtRest tinyConfig tinySecond (kvMakeSuperblock 2 1) 1 m ∧
    Redundant tinyConfig tinyConfig.kvRegionSize
      (damaged tinySecond 1 (List.replicate kvSuperblockSize 0)) m := by
  obtain ⟨m, hrest⟩ := tinySecond_atRest
  exact ⟨m, hrest, (superblock_redundancy_iff (Nat.le_refl _) hrest List.length_replicate
    (by decide)).mpr (Or.inr (by decide))⟩

/-- One nonzero byte at the start of the unused slot 0 makes the open path refuse the store. -/
theorem not_superblock_redundancy : ¬ ∀ (img : Image) (sb : KvSuperblock) (index : ℕ) (m : KvMap)
    (content : Bytes),
    Reachable tinyConfig tinyConfig.kvRegionSize
      (HasRoom tinyConfig tinyConfig.kvRegionSize) img →
    AtRest tinyConfig img sb index m → content.length = kvSuperblockSize →
    ¬ kvSuperblockIsValid tinyConfig (kvDecodeSuperblock content) →
    Redundant tinyConfig tinyConfig.kvRegionSize (damaged img index content) m := by
  intro h
  obtain ⟨m, hrest⟩ := tinySecond_atRest
  have hlen : (1 :: List.replicate 63 0 : Bytes).length = kvSuperblockSize := by decide
  have hinvalid : ¬ kvSuperblockIsValid tinyConfig
      (kvDecodeSuperblock (1 :: List.replicate 63 0)) := by decide
  obtain ⟨img', hrun, -⟩ := (h _ _ _ _ _ tinySecond_reachable hrest hlen hinvalid).loads
  have hprobe : ¬ PassesProbe (slice (damaged tinySecond 1 (1 :: List.replicate 63 0)) 0 12) :=
    (hrest.passesProbe_iff hlen).not.mpr (by decide)
  obtain ⟨e, he⟩ := ((hrest.overwrite hlen hinvalid).kvPrepareStorage_undisturbed
    (Nat.le_refl tinyConfig.kvRegionSize)).2 hprobe
  rw [hrun] at he
  exact absurd he (by simp)

end TrustSdk.Kv
