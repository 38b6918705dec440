import TrustSdk.Lib.SlotTable
import TrustSdk.Kv.Region
import TrustSdk.Kv.Program

/-!
# The states a region passes through

Between operations, and at every point where one may be cut short, a formatted region is
in one of two states.

* `Stable` at generation `g` with map `m`: the selected superblock has generation `g` and
  counts the keys of `m`, every record is valid, the record table represents `m`, and every
  journal whose CRC matches is done: it is not newer than `g`, and one of generation `g`
  has its record in its slot.
* `Pending` at generation `g` with map `m`: a valid journal of generation `g + 1` is waiting
  to be replayed, and putting its record into its slot gives a table that represents `m`.
  What that slot holds now is irrelevant, so a torn record write changes nothing.

The steps of a transaction move between the two: a journal write keeps `Stable` unless it
brings in a complete journal (`Stable.intentWrite`), a record write keeps `Pending`
(`Pending.recordWrite`), and the superblock write ends it as soon as the new superblock can
be read (`Pending.sbWrite`).
-/

namespace TrustSdk.Kv

open ByteStore SlotTable

/-- The map a store holds, from keys to values. -/
abbrev KvMap := SlotTable.Map Bytes Bytes

variable {cfg : KvConfig} {img img' : Image} {g slot : ℕ} {m m' : KvMap}

/-! ### Records as entries -/

/-- The key of a record, without what stands behind it in its field. -/
def KvRecord.keyBytes (r : KvRecord cfg) : Bytes := r.head.key.1.take r.head.keyLen.toNat

/-- The value of a record, likewise. -/
def KvRecord.valueBytes (r : KvRecord cfg) : Bytes := r.value.1.take r.head.valueLen.toNat

/-- The key and value of a record in use. -/
def KvRecord.entry (r : KvRecord cfg) : Option (Bytes × Bytes) :=
  if r.head.used = kvRecordInUse then some (r.keyBytes, r.valueBytes) else none

/-- Every record is valid, and together they represent `m`. -/
structure Table (cfg : KvConfig) (records : ℕ → KvRecord cfg) (m : KvMap) : Prop where
  valid : ∀ i < cfg.maxRecords, kvRecordIsValid (records i)
  entries : Represents cfg.maxRecords (fun i => (records i).entry) m

/-- A table depends on the records only. -/
theorem Table.congr {r r' : ℕ → KvRecord cfg} (h : Table cfg r m)
    (heq : ∀ i < cfg.maxRecords, r' i = r i) : Table cfg r' m where
  valid := fun i hi => by rw [heq i hi]; exact h.valid i hi
  entries := h.entries.congr fun i hi => by rw [heq i hi]

/-- A map in the table has no more keys than there are slots. -/
theorem Table.card_le {r : ℕ → KvRecord cfg} (h : Table cfg r m) : m.keys.card ≤ cfg.maxRecords :=
  h.entries.card_le

/-! ### The selected superblock -/

/-- `sb` is the superblock in use and `index` its slot. -/
def Selected (cfg : KvConfig) (img : Image) (sb : KvSuperblock) (index : ℕ) : Prop :=
  kvNewerSuperblock cfg (superblockAt img 0) (superblockAt img 1) = some (sb, index)

/-- The superblock in force depends on the two superblocks only. -/
theorem Selected.congr {sb : KvSuperblock} {index : ℕ} (h : Selected cfg img sb index)
    (heq : ∀ i < 2, superblockAt img' i = superblockAt img i) : Selected cfg img' sb index := by
  rw [Selected, heq 0 (by omega), heq 1 (by omega)]
  exact h

/-- There are two superblocks. -/
theorem Selected.index_lt {sb : KvSuperblock} {index : ℕ} (h : Selected cfg img sb index) :
    index < 2 := by
  simp only [Selected, kvNewerSuperblock] at h
  split_ifs at h <;> simp only [Option.some.injEq, Prod.mk.injEq] at h <;> omega

/-- The other slot changes, but not to another valid superblock. -/
theorem Selected.keep {sb : KvSuperblock} {index : ℕ} (h : Selected cfg img sb index)
    (hsame : superblockAt img' index = superblockAt img index)
    (hother : kvSuperblockIsValid cfg (superblockAt img' ((index + 1) % 2)) →
      superblockAt img' ((index + 1) % 2) = superblockAt img ((index + 1) % 2)) :
    Selected cfg img' sb index := by
  have hlt := h.index_lt
  obtain rfl | rfl : index = 0 ∨ index = 1 := by omega
  all_goals
    simp only [Nat.zero_add, Nat.reduceMod, Nat.reduceAdd] at hother
    simp only [Selected, kvNewerSuperblock, hsame] at h ⊢
    grind

/-- The other slot receives a newer superblock. -/
theorem Selected.next {sb next : KvSuperblock} {index : ℕ} (h : Selected cfg img sb index)
    (hsame : superblockAt img' index = superblockAt img index)
    (hother : superblockAt img' ((index + 1) % 2) = next) (hvalid : kvSuperblockIsValid cfg next)
    (hgt : sb.generation < next.generation) : Selected cfg img' next ((index + 1) % 2) := by
  have hlt := h.index_lt
  have hasymm : ¬ next.generation < sb.generation := by
    rw [UInt64.lt_iff_toNat_lt] at hgt ⊢
    omega
  obtain rfl | rfl : index = 0 ∨ index = 1 := by omega
  all_goals
    simp only [Nat.zero_add, Nat.reduceMod, Nat.reduceAdd] at hother
    simp only [Selected, kvNewerSuperblock, hsame, hother, hvalid] at h ⊢
    grind

/-- The next superblock goes into the other slot. -/
theorem Selected.index_ne {sb : KvSuperblock} {index : ℕ} (h : Selected cfg img sb index) :
    index ≠ (index + 1) % 2 := by
  have hlt := h.index_lt
  omega

/-- `kv_make_superblock` makes a valid one. -/
theorem kvMakeSuperblock_isValid {generation : UInt64} {recordCount : UInt32}
    (h : recordCount.toNat ≤ cfg.maxRecords) :
    kvSuperblockIsValid cfg (kvMakeSuperblock generation recordCount) := by
  simp only [kvSuperblockIsValid, decide_eq_true_eq]
  exact ⟨rfl, rfl, rfl, h, rfl⟩

@[simp] theorem kvMakeSuperblock_generation (generation : UInt64) (recordCount : UInt32) :
    (kvMakeSuperblock generation recordCount).generation = generation := rfl

@[simp] theorem kvMakeSuperblock_recordCount (generation : UInt64) (recordCount : UInt32) :
    (kvMakeSuperblock generation recordCount).recordCount = recordCount := rfl

/-! ### Journals -/

/-- The journal has nothing left to do at generation `g`. -/
structure KvJournal.Done (g : ℕ) (img : Image) (journal : KvJournal cfg) : Prop where
  old : journal.generation.toNat ≤ g
  /-- The journal of the last transaction has its record in place. -/
  inPlace : journal.generation.toNat = g → journal.operation ≠ kvOpFormat →
    journal.recordIndex.toNat < cfg.maxRecords ∧
      recordAt cfg img journal.recordIndex.toNat = journal.record

/-- The journal announces the transaction from generation `g` to `g + 1`. -/
structure KvJournal.Intent (g : ℕ) (journal : KvJournal cfg) : Prop where
  valid : kvJournalIsValid journal
  prepared : journal.state = kvJournalPrepared
  noFormat : journal.operation ≠ kvOpFormat
  generation : journal.generation.toNat = g + 1
  base : journal.baseGeneration.toNat = g

/-- The CRC field does not count for the CRC. -/
theorem kvJournalCrc_setCrc (j : KvJournal cfg) (c : UInt32) :
    kvJournalCrc { j with crc32 := c } = kvJournalCrc j := rfl

/-- A valid journal carries its CRC. -/
theorem kvJournalIsValid_sealed {j : KvJournal cfg} (h : kvJournalIsValid j) : j.Sealed := by
  simp only [kvJournalIsValid] at h
  split_ifs at h with h1
  all_goals
    simp only [not_or, not_not] at h1
    exact h1.2.2.2.2.2.2

/-- An empty journal slot is not a valid journal. -/
theorem KvJournal.zero_not_valid : ¬ kvJournalIsValid (KvJournal.zero cfg) := by
  have hm : (KvJournal.zero cfg).magic ≠ kvJournalMagic := by
    change (0 : UInt32) ≠ kvJournalMagic
    decide
  simp [kvJournalIsValid, hm]

/-- What a journal that is prepared and not committed is checked for. -/
theorem kvJournalIsValid_prepared {j : KvJournal cfg} (hp : j.state = kvJournalPrepared) :
    kvJournalIsValid j ↔ (j.magic = kvJournalMagic ∧ j.version = kvJournalVersion ∧
      ¬ j.operation < kvOpSet ∧ ¬ kvOpFormat < j.operation ∧ j.generation ≠ 0 ∧ j.Sealed) ∧
      -- only a COMMITTED journal has its commit mark checked, and this one is PREPARED
      (j.operation ≠ kvOpFormat →
        j.recordIndex.toNat < cfg.maxRecords ∧ kvRecordIsValid j.record) := by
  have hne : kvJournalPrepared ≠ kvJournalCommitted := by decide
  unfold kvJournalIsValid
  rw [hp]
  simp only [hne, false_and, if_false, ne_eq, not_true_eq_false, false_and, false_or]
  constructor
  · intro h
    split_ifs at h with h1 h2 h3
    simp only [not_or, not_not, not_and, not_le] at h1 h2 h3
    exact ⟨h1, fun hop => ⟨h2 hop, h3 hop⟩⟩
  · rintro ⟨⟨hm, hv, hs, hf, hg, hc⟩, hrec⟩
    have h1 : j.crc32 = kvJournalCrc j := hc
    rw [if_neg (by simp only [hm, hv, hs, hf, hg, h1, not_true_eq_false, or_self, not_false_eq_true])]
    rw [if_neg fun h => absurd (hrec h.1).1 (not_lt.mpr h.2)]
    rw [if_neg fun h => h.2 (hrec h.1).2]

section Unmarked

variable {j j' : KvJournal cfg} (h : j'.unmarked = j.unmarked)
include h

/-- Journals that differ in the commit mark alone. -/
theorem eq_of_unmarked : j' =
    { j with
      commitMagic := j'.commitMagic
      commitGeneration := j'.commitGeneration
      commitCrc32 := j'.commitCrc32 } := by
  cases j
  cases j'
  simp only [KvJournal.unmarked, KvJournal.mk.injEq] at h ⊢
  simp only [h, and_self]

/-- The commit mark plays no part in whether a journal is done. -/
theorem KvJournal.Done.of_unmarked (hd : j.Done g img) : j'.Done g img := by
  rw [eq_of_unmarked h]
  exact ⟨hd.old, hd.inPlace⟩

/-- Nor in its seal. -/
theorem KvJournal.Sealed.of_unmarked (hs : j'.Sealed) : j.Sealed := by
  rw [eq_of_unmarked h] at hs
  exact hs

/-- The commit mark plays no part in a journal that is not committed. -/
theorem KvJournal.Intent.of_unmarked (hi : j.Intent g) : j'.Intent g := by
  obtain ⟨hmagic, hversion, hstate, hop, hgen, hbase, hidx, -, -, hr, -⟩ := KvJournal.mk.inj h
  -- the two journals agree in every field but the commit mark
  obtain ⟨⟨hm, hv, hs, hf, h0, hc⟩, hrec⟩ := (kvJournalIsValid_prepared hi.prepared).mp hi.valid
  refine ⟨(kvJournalIsValid_prepared (hstate.trans hi.prepared)).mpr ⟨⟨?_, ?_, ?_, ?_, ?_, ?_⟩, ?_⟩,
    hstate.trans hi.prepared, ?_, ?_, ?_⟩
  · exact hmagic.trans hm
  · exact hversion.trans hv
  · rwa [hop]
  · rwa [hop]
  · rwa [hgen]
  · exact hc.of_unmarked h.symm
  · rwa [hop, hidx, hr]
  · rw [hop]
    exact hi.noFormat
  · rw [hgen]
    exact hi.generation
  · rw [hbase]
    exact hi.base

end Unmarked

/-- The journal of a transaction names a slot of the table. -/
theorem KvJournal.Intent.index_lt {j : KvJournal cfg} (h : j.Intent g) :
    j.recordIndex.toNat < cfg.maxRecords :=
  (((kvJournalIsValid_prepared h.prepared).mp h.valid).2 h.noFormat).1

/-! ### The two states -/

/-- Nothing is left to do: the region holds `m` at generation `g`. -/
structure Stable (cfg : KvConfig) (img : Image) (g : ℕ) (m : KvMap) : Prop where
  header : HeaderOk img
  pos : 0 < g
  superblock : ∃ sb index, Selected cfg img sb index ∧ sb.generation.toNat = g ∧
    sb.recordCount.toNat = m.keys.card
  table : Table cfg (recordAt cfg img) m
  journals : ∀ slot < 2, (journalAt cfg img slot).Sealed → (journalAt cfg img slot).Done g img

/-- The journal in `slot` leads from generation `g` to the map `m`. -/
structure Pending (cfg : KvConfig) (img : Image) (g : ℕ) (m : KvMap) (slot : ℕ) : Prop where
  header : HeaderOk img
  pos : 0 < g
  superblock : ∃ sb index, Selected cfg img sb index ∧ sb.generation.toNat = g
  slot_lt : slot < 2
  intent : (journalAt cfg img slot).Intent g
  other : ∀ s < 2, s ≠ slot → (journalAt cfg img s).Sealed →
    (journalAt cfg img s).generation.toNat ≤ g
  table : Table cfg (Function.update (recordAt cfg img)
    (journalAt cfg img slot).recordIndex.toNat (journalAt cfg img slot).record) m
  count : (journalAt cfg img slot).recordCount.toNat = m.keys.card

/-- A region from which recovery loads the map `m` at generation `g`. -/
def Loads (cfg : KvConfig) (g : ℕ) (m : KvMap) (img : Image) : Prop :=
  Stable cfg img g m ∨ ∃ base slot, g = base + 1 ∧ Pending cfg img base m slot

/-- A stable region loads. -/
theorem Stable.loads (h : Stable cfg img g m) : Loads cfg g m img := Or.inl h

/-- A pending region loads the state its journal leads to. -/
theorem Pending.loads (h : Pending cfg img g m slot) : Loads cfg (g + 1) m img :=
  Or.inr ⟨g, slot, rfl, h⟩

/-- No journal is stored. -/
def Quiet (cfg : KvConfig) (img : Image) : Prop :=
  ∀ slot < 2, journalAt cfg img slot = .zero cfg

/-- A journal that is done stays so while the records stay. -/
theorem KvJournal.Done.frame {j : KvJournal cfg} (h : j.Done g img)
    (heq : ∀ i < cfg.maxRecords, recordAt cfg img' i = recordAt cfg img i) : j.Done g img' where
  old := h.old
  inPlace := by
    intro hg hop
    obtain ⟨hlt, hrec⟩ := h.inPlace hg hop
    exact ⟨hlt, (heq _ hlt).trans hrec⟩

/-- A journal that is done may be written, or cut short while it is written. -/
theorem Stable.doneWrite {journal : KvJournal cfg} (h : Stable cfg img g m)
    (hw : JournalWrite cfg img img' slot journal)
    (hdone : journal.Sealed → journal.Done g img) : Stable cfg img' g m where
  header := hw.header h.header
  pos := h.pos
  superblock := by
    obtain ⟨sb, index, hsel, hrest⟩ := h.superblock
    exact ⟨sb, index, hsel.congr hw.superblock, hrest⟩
  table := h.table.congr hw.record
  journals := by
    intro s hs hsealed
    refine KvJournal.Done.frame ?_ hw.record
    -- in the slot that is written a torn journal is the old one or the new one, or carries no seal
    by_cases hss : s = slot
    · subst hss
      rcases hw.here hsealed with hold | hnew
      · exact (h.journals s hs (hsealed.of_unmarked hold)).of_unmarked hold
      · exact (hdone (hsealed.of_unmarked hnew)).of_unmarked hnew
    · rw [hw.other s hs hss] at hsealed ⊢
      exact h.journals s hs hsealed

/-- An empty journal is done at every generation. -/
theorem KvJournal.Done.zero (hpos : 0 < g) : (KvJournal.zero cfg).Done g img where
  old := Nat.zero_le g
  inPlace := by
    intro hg
    have h0 : (KvJournal.zero cfg).generation.toNat = 0 := rfl
    omega

/-- Clearing a journal slot keeps a stable region stable. -/
theorem Stable.clear (h : Stable cfg img g m) (hw : JournalWrite cfg img img' slot (.zero cfg)) :
    Stable cfg img' g m :=
  h.doneWrite hw fun _ => .zero h.pos

section IntentWrite

variable {journal : KvJournal cfg} (h : Stable cfg img g m) (hslot : slot < 2)
  (hw : JournalWrite cfg img img' slot journal) (hi : journal.Intent g)
  (htable : Table cfg
    (Function.update (recordAt cfg img) journal.recordIndex.toNat journal.record) m')
  (hcount : journal.recordCount.toNat = m'.keys.card)
include h hslot hw hi htable hcount

/-- The journal of the next transaction is complete on storage. -/
theorem Stable.intent (hnew : (journalAt cfg img' slot).unmarked = journal.unmarked) :
    Pending cfg img' g m' slot := by
  have hj := eq_of_unmarked hnew
  refine ⟨hw.header h.header, h.pos, ?_, hslot, hi.of_unmarked hnew, ?_, ?_, ?_⟩
  · obtain ⟨sb, index, hsel, hgen, -⟩ := h.superblock
    exact ⟨sb, index, hsel.congr hw.superblock, hgen⟩
  · -- a sealed journal in the other slot is older than the one that is written
    intro s hs hne hsealed
    rw [hw.other s hs hne] at hsealed ⊢
    exact (h.journals s hs hsealed).old
  · rw [hj]
    refine htable.congr fun i hlt => ?_
    rw [Function.update_apply, Function.update_apply, hw.record i hlt]
  · rw [hj]
    exact hcount

/-- The journal of the next transaction is written, or cut short while it is written: either
it is complete or it does not count. -/
theorem Stable.intentWrite : Stable cfg img' g m ∨ Pending cfg img' g m' slot := by
  -- what is left in the slot is the new journal, or the old one, or nothing that passes its check
  by_cases hnew : (journalAt cfg img' slot).unmarked = journal.unmarked
  · exact Or.inr (h.intent hslot hw hi htable hcount hnew)
  · left
    refine ⟨hw.header h.header, h.pos, ?_, h.table.congr hw.record, ?_⟩
    · obtain ⟨sb, index, hsel, hrest⟩ := h.superblock
      exact ⟨sb, index, hsel.congr hw.superblock, hrest⟩
    · intro s hs hsealed
      refine KvJournal.Done.frame ?_ hw.record
      by_cases hss : s = slot
      · subst hss
        have hold := (hw.here hsealed).resolve_right hnew
        exact (h.journals s hs (hsealed.of_unmarked hold)).of_unmarked hold
      · rw [hw.other s hs hss] at hsealed ⊢
        exact h.journals s hs hsealed

end IntentWrite

/-- The record of the journal is written, or cut short while it is written. -/
theorem Pending.recordWrite (h : Pending cfg img g m slot)
    (hw : RecordWrite cfg img img' (journalAt cfg img slot).recordIndex.toNat) :
    Pending cfg img' g m slot := by
  have hj := hw.journal slot h.slot_lt
  refine ⟨hw.header h.header, h.pos, ?_, h.slot_lt, ?_, ?_, ?_, ?_⟩
  · obtain ⟨sb, index, hsel, hgen⟩ := h.superblock
    exact ⟨sb, index, hsel.congr hw.superblock, hgen⟩
  · rw [hj]
    exact h.intent
  · intro s hs hne hsealed
    rw [hw.journal s hs] at hsealed ⊢
    exact h.other s hs hne hsealed
  · rw [hj]
    refine h.table.congr fun i hlt => ?_
    rw [Function.update_apply, Function.update_apply]
    -- the record in work is not looked at: the journal holds what it is to become
    by_cases hidx : i = (journalAt cfg img slot).recordIndex.toNat
    · rw [if_pos hidx, if_pos hidx]
    · rw [if_neg hidx, if_neg hidx, hw.record i hlt hidx]
  · rw [hj]
    exact h.count

section SbWrite

variable {sb : KvSuperblock} {index : ℕ} (h : Pending cfg img g m slot)
  (hsel : Selected cfg img sb index) (hgen : sb.generation.toNat = g)
  (hw : SbWrite cfg img img' ((index + 1) % 2)
    (kvMakeSuperblock (journalAt cfg img slot).generation (journalAt cfg img slot).recordCount))
include h hsel hgen hw

/-- The new superblock cannot be read yet. -/
theorem Pending.sbWrite_old (hold : superblockAt img' ((index + 1) % 2) ≠
    kvMakeSuperblock (journalAt cfg img slot).generation (journalAt cfg img slot).recordCount) :
    Pending cfg img' g m slot := by
  have hj := hw.journal slot h.slot_lt
  refine ⟨hw.header h.header rfl rfl, h.pos, ⟨sb, index, ?_, hgen⟩, h.slot_lt, ?_, ?_, ?_, ?_⟩
  · -- the superblock left in the other slot is torn and invalid, or the one that was there
    refine hsel.keep (hw.other index hsel.index_lt hsel.index_ne) fun hvalid => ?_
    exact (hw.here hvalid).resolve_right hold
  · rw [hj]
    exact h.intent
  · intro s hs hne hsealed
    rw [hw.journal s hs] at hsealed ⊢
    exact h.other s hs hne hsealed
  · rw [hj]
    refine h.table.congr fun i hlt => ?_
    rw [Function.update_apply, Function.update_apply, hw.record i hlt]
  · rw [hj]
    exact h.count

/-- The new superblock can be read, and the record is in its slot: the transaction has
happened. -/
theorem Pending.sbWrite_new (hnew : superblockAt img' ((index + 1) % 2) =
      kvMakeSuperblock (journalAt cfg img slot).generation (journalAt cfg img slot).recordCount)
    (hrec : recordAt cfg img (journalAt cfg img slot).recordIndex.toNat =
      (journalAt cfg img slot).record) : Stable cfg img' (g + 1) m := by
  have hidx := h.intent.index_lt
  -- the record has been written, so the table is the new one without the journal
  have htable : Table cfg (recordAt cfg img) m := by
    have := h.table
    rwa [← hrec, Function.update_eq_self] at this
  have hle : (journalAt cfg img slot).recordCount.toNat ≤ cfg.maxRecords := by
    rw [h.count]
    exact htable.card_le
  refine ⟨hw.header h.header rfl rfl, Nat.succ_pos g,
    ⟨kvMakeSuperblock (journalAt cfg img slot).generation (journalAt cfg img slot).recordCount,
      (index + 1) % 2, ?_, ?_, h.count⟩, htable.congr hw.record, ?_⟩
  · refine hsel.next (hw.other index hsel.index_lt hsel.index_ne) hnew
      (kvMakeSuperblock_isValid hle) ?_
    rw [kvMakeSuperblock_generation, UInt64.lt_iff_toNat_lt, h.intent.generation, hgen]
    exact Nat.lt_succ_self g
  · rw [kvMakeSuperblock_generation, h.intent.generation]
  · intro s hs hsealed
    rw [hw.journal s hs] at hsealed ⊢
    by_cases hss : s = slot
    · subst hss
      -- the journal itself is done now
      refine ⟨h.intent.generation.le, fun _ _ => ⟨hidx, ?_⟩⟩
      rw [hw.record _ hidx, hrec]
    · -- the other journal belongs to the generation before, or an earlier one
      have hold := h.other s hs hss hsealed
      exact ⟨by omega, fun heq => by omega⟩

end SbWrite

end TrustSdk.Kv
