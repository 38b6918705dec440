import TrustSdk.Lib.WriteCache
import TrustSdk.Kv.Atomicity

/-!
# Write ordering of the KV store

The adapter promises only that a sync makes the writes before it durable. On storage that
holds writes back until then, a crash may bring the superblock of a transaction to the medium
and leave its record behind: between the two the store does not sync.

* `storage` — storage behind a write cache, whose crashes respect the order `seen` asks for;
* `kv_write_order` — when a new superblock can be read after a crash only if every write before
  it is on the medium, each crash leaves the old map or the new one, and recovery never clears
  a journal whose record is not on the medium;
* `not_kv_write_order` — without this, a single set can lose the region: the journal of the
  record that was left behind counts as done, and recovery clears it.
-/

namespace TrustSdk.Kv

open ByteStore CrashLogic SlotTable WriteCache

variable {cfg : KvConfig} {capacity g : ℕ} {m m' : KvMap} {img img' : Image}

/-! ### Storage behind a write cache -/

/-- Storage that makes writes durable at a sync only. -/
def storage (cfg : KvConfig) (capacity : ℕ) (seen : ℕ → Bytes → Image → Prop) : Device Err :=
  cached Err capacity ⟨.adapterStorage, .invalidArg⟩ (TornWrite cfg) seen

/-- A crash may leave any subset of the pending writes. -/
def anyOrder : ℕ → Bytes → Image → Prop := fun _ _ _ => False

/-- Storage on which a new superblock is read only after everything that was issued before
it is a medium for the store. -/
theorem storage_medium (hcap : cfg.kvRegionSize ≤ capacity) :
    KvMedium cfg (storage cfg capacity TookEffect) where
  capacity := hcap
  fault_code := fun _ he => he.elim
  fault_exact := fun _ he => he.elim
  view_write := fun _ _ _ => rfl
  view_sync := fun _ => rfl
  view_interrupt := by
    rintro c off bs c' rfl
    exact TornWrite.full cfg _ _
  crash_sync := fun _ _ h => h
  crash_write := fun _ _ _ _ h => h
  crash_interrupt := by
    rintro c off bs c' img rfl h
    exact h

/-! ### Runs -/

/-- The states of the storage that calls and crashes lead to from a completed format, where a
mutation begins only in a region that `allowed` admits. -/
inductive CacheReach (cfg : KvConfig) (capacity : ℕ) (seen : ℕ → Bytes → Image → Prop)
    (allowed : Image → Prop) : Cache → Prop
  | format {img : Image} {c : Cache} : Blank img →
      Exec (storage cfg capacity seen) (kvPrepareStorage cfg) ⟨img, []⟩ (.returned (.ok ()) c) →
      CacheReach cfg capacity seen allowed c
  | call {c c' : Cache} {call : KvCall} {r : Except Err KvReply} :
      CacheReach cfg capacity seen allowed c → (∀ op, call = KvCall.mutate op → allowed c.view) →
      Exec (storage cfg capacity seen) (call.program cfg) c (.returned r c') →
      CacheReach cfg capacity seen allowed c'
  | crash {c : Cache} {call : KvCall} {img : Image} :
      CacheReach cfg capacity seen allowed c → (∀ op, call = KvCall.mutate op → allowed c.view) →
      Exec (storage cfg capacity seen) (call.program cfg) c (.crashed img) →
      CacheReach cfg capacity seen allowed ⟨img, []⟩

/-- A recovery that is cut short. -/
def RecoveryCut (cfg : KvConfig) (capacity : ℕ) (seen : ℕ → Bytes → Image → Prop)
    (img img' : Image) : Prop :=
  Exec (storage cfg capacity seen) (kvRecover cfg) ⟨img, []⟩ (.crashed img')

/-- What a crash during a mutation from `m` to `m'` has to leave. -/
structure Recoverable (cfg : KvConfig) (capacity : ℕ) (m m' : KvMap) (img : Image) : Prop where
  loads : LoadsMap cfg capacity img m ∨ LoadsMap cfg capacity img m'
  /-- A journal of the current generation, which recovery clears, has its record in place. -/
  cleared : ∀ sb index slot journal, Selected cfg img sb index →
    kvNewestJournal (validJournal cfg img 0) (validJournal cfg img 1) = some (slot, journal) →
    journal.generation = sb.generation → journal.operation ≠ kvOpFormat →
    recordAt cfg img journal.recordIndex.toNat = journal.record
  /-- With no journal left to replay, the records on the medium are those of one of the maps. -/
  settled : ∀ sb index, Selected cfg img sb index →
    (∀ slot journal, kvNewestJournal (validJournal cfg img 0) (validJournal cfg img 1) =
      some (slot, journal) → journal.generation ≤ sb.generation) →
    Table cfg (recordAt cfg img) m ∨ Table cfg (recordAt cfg img) m'

/-- Every crash during the mutation, and during recovery after it, can be recovered. -/
def SurvivesCrashes (cfg : KvConfig) (capacity : ℕ) (seen : ℕ → Bytes → Image → Prop)
    (op : KvMutation) (c : Cache) : Prop :=
  ∃ m, LoadsMap cfg capacity c.view m ∧
    ∀ img, Exec (storage cfg capacity seen) (op.program cfg) c (.crashed img) →
      ∀ img', Relation.ReflTransGen (RecoveryCut cfg capacity seen) img img' →
        Recoverable cfg capacity m (op.outcome cfg m).2 img'

/-! ### The invariant -/

/-- An image that loads is a ready storage with nothing in its cache. -/
theorem ready_of_image {seen : ℕ → Bytes → Image → Prop} (h : Loads cfg g m img) :
    Ready cfg (storage cfg capacity seen) (⟨img, []⟩ : Cache) g m :=
  Or.inr ⟨fun _ hi => hi, h⟩

/-- Storage that is too small is never formatted. -/
theorem CacheReach.capacity_le {seen : ℕ → Bytes → Image → Prop} {allowed : Image → Prop} {c : Cache}
    (h : CacheReach cfg capacity seen allowed c) : cfg.kvRegionSize ≤ capacity := by
  induction h with
  | format _ he =>
    by_contra hlt
    have hspec := he.sound (kvPrepareStorage_small (C := fun _ => True) (not_le.mp hlt)
      (fun _ he => he) fun _ _ => trivial)
    exact absurd hspec.1.1 (by simp)
  | call _ _ _ ih => exact ih
  | crash _ _ _ ih => exact ih

/-- In every state a run leads to, an operation may start. -/
theorem CacheReach.ready {c : Cache}
    (h : CacheReach cfg capacity TookEffect (HasRoom cfg capacity) c) :
    SomeReady cfg (storage cfg capacity TookEffect) c := by
  -- along the run; each call ends in one of its two states, also when it is cut
  induction h with
  | format hblank he =>
    have hreach : CacheReach cfg capacity TookEffect (fun _ => True) _ := .format hblank he
    have hM := storage_medium hreach.capacity_le
    rcases (he.sound (kvPrepareStorage_blank hM hblank)).1 with ⟨-, ht, -⟩ | ⟨-, e, he⟩
    · exact ⟨1, ∅, Or.inl ht⟩
    · exact absurd he (by simp)
  | call hr hroom he ih =>
    obtain ⟨g, m, hs⟩ := ih
    have hcap := hr.capacity_le
    exact (he.sound (KvCall.program_spec (storage_medium hcap) hs fun op hop =>
      (hroom op hop).lt hcap hs.loads)).1
  | crash hr hroom he ih =>
    obtain ⟨g, m, hs⟩ := ih
    have hcap := hr.capacity_le
    obtain ⟨g', m', hl⟩ := he.sound (KvCall.program_spec (storage_medium hcap) hs fun op hop =>
      (hroom op hop).lt hcap hs.loads)
    exact ⟨g', m', ready_of_image hl⟩

/-- A recovery that is cut leaves the state to be recovered. -/
theorem RecoveryCut.loads (hcap : cfg.kvRegionSize ≤ capacity)
    (h : Relation.ReflTransGen (RecoveryCut cfg capacity TookEffect) img img')
    (hl : Loads cfg g m img) : Loads cfg g m img' := by
  induction h with
  | refl => exact hl
  | tail _ hstep ih =>
    exact Exec.sound hstep (kvRecover_spec (storage_medium hcap) (ready_of_image ih)
      fun _ hi => hi)

/-- A pending journal is ahead of the superblock. -/
theorem Pending.ahead {slot : ℕ} (h : Pending cfg img g m slot) {sb : KvSuperblock} {index : ℕ}
    (hsel : Selected cfg img sb index) : sb.generation < (journalAt cfg img slot).generation := by
  obtain ⟨sb', index', hsel', hgen⟩ := h.superblock
  have heq := hsel.symm.trans hsel'
  rw [Option.some.injEq, Prod.mk.injEq] at heq
  rw [UInt64.lt_iff_toNat_lt, h.intent.generation, heq.1, hgen]
  exact Nat.lt_succ_self g

/-- A region that can be recovered to one of the maps meets all that is asked of it. -/
theorem Loads.recoverable (hcap : cfg.kvRegionSize ≤ capacity) {n : KvMap} (h : Loads cfg g n img)
    (hn : n = m ∨ n = m') : Recoverable cfg capacity m m' img where
  loads := hn.imp (fun heq => by rw [← heq]; exact h.loadsMap hcap)
    fun heq => by rw [← heq]; exact h.loadsMap hcap
  cleared := by
    -- a journal slot that the recovery clears is one whose superblock is at least as new
    intro sb index slot journal hsel hnew hgen hop
    rcases h with h | ⟨base, s, rfl, h⟩
    · obtain ⟨hslot, rfl, hvalid⟩ := newest_valid hnew
      have hdone := h.journals slot hslot (kvJournalIsValid_sealed hvalid)
      exact (hdone.inPlace (by rw [hgen, (h.selected hsel).1]) hop).2
    · have hahead := h.ahead hsel
      rw [h.newest, Option.some.injEq, Prod.mk.injEq] at hnew
      rw [hnew.2, hgen, UInt64.lt_iff_toNat_lt] at hahead
      exact absurd hahead (lt_irrefl _)
  settled := by
    -- with no journal newer than the superblock the table already is one of the two
    intro sb index hsel hall
    rcases h with h | ⟨base, s, rfl, h⟩
    · exact hn.imp (fun heq => by rw [← heq]; exact h.table) fun heq => by rw [← heq]; exact h.table
    · have hle := hall _ _ h.newest
      have hahead := h.ahead hsel
      rw [UInt64.le_iff_toNat_le] at hle
      rw [UInt64.lt_iff_toNat_lt] at hahead
      omega

/-- **Write ordering.** In every run whose crashes leave a new superblock readable only with
everything before it on the medium, and whose mutations begin below the last generation, every
crash during a mutation and during recovery leaves the old map or the new one. -/
theorem kv_write_order {op : KvMutation} {c : Cache}
    (h : CacheReach cfg capacity TookEffect (HasRoom cfg capacity) c) (hv : op.Valid cfg)
    (hroom : HasRoom cfg capacity c.view) : SurvivesCrashes cfg capacity TookEffect op c := by
  obtain ⟨g, m, hs⟩ := h.ready
  have hcap := h.capacity_le
  have hl : Loads cfg g m c.view := hs.loads
  refine ⟨m, hl.loadsMap hcap, fun img he img' hrec => ?_⟩
  rcases he.sound (op.program_spec (storage_medium hcap) hs hv fun _ => hroom.lt hcap hl) with
    hi | hi
  · exact (RecoveryCut.loads hcap hrec hi).recoverable hcap (Or.inl rfl)
  · exact (RecoveryCut.loads hcap hrec hi).recoverable hcap (Or.inr rfl)

/-- The small store formats, whatever order its storage respects. -/
theorem tinyStorage_formats (seen : ℕ → Bytes → Image → Prop) (allowed : Image → Prop) : ∃ c,
    CacheReach tinyConfig tinyConfig.kvRegionSize seen allowed c ∧
      Resting tinyConfig (storage tinyConfig tinyConfig.kvRegionSize TookEffect) c 1 ∅ ∧
      Quiet tinyConfig c.view := by
  have hblank : Blank fun _ => 0 := fun _ => rfl
  have hM := storage_medium (Nat.le_refl tinyConfig.kvRegionSize)
  obtain ⟨r, c, he, ⟨rfl, hs, hq⟩ | ⟨⟨e, hf⟩, -⟩⟩ := exists_returned seen
    (@kvPrepareStorage_blank tinyConfig _ hM (⟨fun _ => 0, []⟩ : Cache) hblank)
  · exact ⟨c, .format hblank he, hs, hq⟩
  · exact hf.elim

/-- The theorem at the first `set` of a formatted region. -/
theorem kv_write_order_tiny : ∃ c : Cache,
    SurvivesCrashes tinyConfig tinyConfig.kvRegionSize TookEffect (.set [1] [7]) c := by
  have hcap := Nat.le_refl tinyConfig.kvRegionSize
  obtain ⟨c, hreach, hs, -⟩ :=
    tinyStorage_formats TookEffect (HasRoom tinyConfig tinyConfig.kvRegionSize)
  have hview : Stable tinyConfig c.view 1 ∅ := hs.view
  exact ⟨c, kv_write_order hreach (by decide) (.of_loads hcap hview.loads (by decide))⟩

/-! ### Without the order -/

/-- The superblock is ahead of the records, and the journal of its generation is the only one. -/
structure Ahead (cfg : KvConfig) (img : Image) (slot : ℕ) : Prop where
  header : HeaderOk img
  miscount : ∃ sb index m, Selected cfg img sb index ∧ Table cfg (recordAt cfg img) m ∧
    sb.recordCount.toNat ≠ m.keys.card ∧ (journalAt cfg img slot).generation = sb.generation
  slot_lt : slot < 2
  valid : kvJournalIsValid (journalAt cfg img slot)
  other : ∀ s < 2, s ≠ slot → journalAt cfg img s = .zero cfg

/-- The journal ahead of the superblock is the newest. -/
theorem Ahead.newest {slot : ℕ} (h : Ahead cfg img slot) :
    kvNewestJournal (validJournal cfg img 0) (validJournal cfg img 1) =
      some (slot, journalAt cfg img slot) := by
  have hlt := h.slot_lt
  obtain rfl | rfl : slot = 0 ∨ slot = 1 := by omega
  · rw [validJournal_zero (h.other 1 (by omega) (by omega)), validJournal, if_pos h.valid]
    rfl
  · rw [validJournal_zero (h.other 0 (by omega) (by omega)), validJournal, if_pos h.valid]
    rfl

/-- Recovery clears the journal, and with it the record that it alone still held. -/
theorem Ahead.recovers {slot : ℕ} (hcap : cfg.kvRegionSize ≤ capacity) (h : Ahead cfg img slot) :
    cwp (calm cfg capacity) (kvPrepareStorage cfg) (fun r img' => r = .ok () ∧ Lost cfg img')
      (fun _ => True) img := by
  obtain ⟨sb, index, m, hsel, htable, hne, hgen⟩ := h.miscount
  have hM := @calm_medium cfg capacity hcap
  have hC : ∀ (t img' : Image), (calm cfg capacity).crash t img' → True := fun _ _ _ => trivial
  -- the journal is as new as the superblock, so it is cleared although its record was never written
  refine kvPrepareStorage_recovers hM h.header (kvRecover_scan hM.readable (hC img) hsel ?_ ?_) ?_
  · change cwp _ (kvRecoverFrom sb index (kvNewestJournal (validJournal cfg img 0)
      (validJournal cfg img 1))) _ _ _
    rw [h.newest, kvRecoverFrom, if_pos (by rw [hgen]; exact UInt64.le_refl _), ← Io.bind_pure (kvClearJournal cfg slot)]
    refine storageWrite_bind hM (hC img) ?_ (fun _ _ => trivial) ?_ fun e _ he _ _ => he.elim
    · rw [List.length_replicate]
      exact kvJournalOffset_end_le h.slot_lt
    intro img' hwrite _
    obtain ⟨hw, hclear⟩ := JournalWrite.of_clear h.slot_lt hwrite
    refine cwp_done ⟨rfl, hw.header h.header, fun s hs => ?_, sb, index, m,
      hsel.congr hw.superblock, htable.congr hw.record, hne⟩ (hC img')
    -- the table still lacks the record that the superblock counts
    by_cases hss : s = slot
    · rw [hss]
      exact hclear
    · exact (hw.other s hs hss).trans (h.other s hs hss)
  · exact fun e he => absurd he calm_faulted
  · exact fun e he => absurd he calm_faulted

/-- `actrust_kv_get` on a sound store never answers `ACTRUST_ERR_IO`. -/
theorem getOutcome_ne_io {key : Bytes} {outCap : ℕ} :
    getOutcome m key outCap ≠ ⟨.error (kvErr .io), none, none⟩ := by
  unfold getOutcome
  cases m.lookup key with
  | none => simp [kvErr]
  | some v =>
    dsimp only
    split_ifs <;> simp

/-- Such a region loads no map. -/
theorem Ahead.not_loadsMap {slot : ℕ} (hcap : cfg.kvRegionSize ≤ capacity)
    (h : Ahead cfg img slot) : ¬ LoadsMap cfg capacity img m := by
  rintro ⟨img', hrun, hanswers⟩
  obtain ⟨-, hlost⟩ := undisturbed_sound (h.recovers hcap)
  rw [hrun] at hlost
  have hk : KeyLenOk [0] := by decide
  have hget := hanswers.get [0] 0 hk
  rw [hlost.get hcap hk, Except.ok.injEq] at hget
  exact getOutcome_ne_io hget.symm

/-- What a crash leaves that loses the record of a transaction and keeps its superblock. -/
def withoutRecord (cfg : KvConfig) (img : Image) (sb : KvSuperblock) (index : ℕ)
    (journal : KvJournal cfg) : Image :=
  patch (patch img (kvJournalOffset cfg (sb.generation.toNat % kvJournalSlots))
      (kvEncodeJournal journal))
    (kvSuperblockOffset ((index + 1) % 2))
    (kvEncodeSuperblock (kvMakeSuperblock journal.generation journal.recordCount))

/-- A crash may leave journal and superblock on the medium and the record in the cache. -/
theorem kvTransaction_leaves (hcap : cfg.kvRegionSize ≤ capacity) (c : Cache) {sb : KvSuperblock}
    {index i : ℕ} {operation : UInt8} {count : UInt32} {record : KvRecord cfg}
    (hop : operation ≠ kvOpFormat) (hi : i < cfg.maxRecords) :
    Exec (storage cfg capacity anyOrder) (kvTransaction sb index operation i count record) c
      (.crashed (withoutRecord cfg c.view sb index
        (kvPrepareJournal sb operation i count record))) := by
  have hother : (index + 1) % 2 < 2 := Nat.mod_lt _ (by omega)
  have hslot : sb.generation.toNat % kvJournalSlots < 2 := Nat.mod_lt _ (by decide)
  simp only [kvTransaction, if_neg hop]
  refine Exec.bind (.write ?_ .done) (Exec.bind (.sync .done) ?_)
  · rw [kvEncodeJournal_length]
    exact (kvJournalOffset_end_le hslot).trans hcap
  refine Exec.bind (.write ?_ .done) (Exec.bind (.write ?_ .done) (.crash ?_))
  · rw [kvEncodeRecord_length]
    exact (kvRecord_region hi).trans hcap
  · rw [kvEncodeSuperblock_length]
    exact (kvSuperblock_region hother).trans hcap
  · exact ⟨_, ⟨_, rfl, TornWrite.none cfg _ _, fun h => h.elim⟩, TornWrite.full cfg _ _,
      fun h => h.elim⟩

/-- Its superblock counts a record that is not there. -/
theorem Stable.withoutRecord_ahead (h : Stable cfg img g m) (hq : Quiet cfg img)
    {sb : KvSuperblock} {index i : ℕ} {record : KvRecord cfg} (hsel : Selected cfg img sb index)
    (hroom : g + 1 < 2 ^ 64) (hfree : m.keys.card < cfg.maxRecords) (hi : i < cfg.maxRecords)
    (hrec : kvRecordIsValid record) :
    Ahead cfg (withoutRecord cfg img sb index
      (kvPrepareJournal sb kvOpSet i (.ofNat m.keys.card + 1) record))
      (sb.generation.toNat % kvJournalSlots) := by
  obtain ⟨hgen, -⟩ := h.selected hsel
  have hother : (index + 1) % 2 < 2 := Nat.mod_lt _ (by omega)
  have hslot : sb.generation.toNat % kvJournalSlots < 2 := Nat.mod_lt _ (by decide)
  have hintent : (kvPrepareJournal sb kvOpSet i (.ofNat m.keys.card + 1) record).Intent g :=
    kvPrepareJournal_intent hgen hroom (Or.inl rfl) hi hrec
  -- the number of slots fits 32 bits, so the count does not wrap
  have hcount : (UInt32.ofNat m.keys.card + 1 : UInt32).toNat = m.keys.card + 1 := by
    have hmax := maxRecords_lt cfg
    rw [UInt32.toNat_add, h.table.card_toNat]
    exact Nat.mod_eq_of_lt (by change m.keys.card + 1 < 2 ^ 32; omega)
  generalize hj : kvPrepareJournal sb kvOpSet i (.ofNat m.keys.card + 1) record = journal at *
  have hrc : journal.recordCount.toNat = m.keys.card + 1 := by
    rw [← hj]
    exact hcount
  obtain ⟨w1, hjournal⟩ := @JournalWrite.of_eq cfg img _ _ journal hslot rfl
  obtain ⟨w2, hsb⟩ := @SbWrite.of_eq cfg _ (withoutRecord cfg img sb index journal) _
    (kvMakeSuperblock journal.generation journal.recordCount) hother rfl
  -- the new superblock is one generation ahead and becomes the one in force
  have hsel' := (hsel.congr w1.superblock).next (w2.other index hsel.index_lt hsel.index_ne) hsb
    (kvMakeSuperblock_isValid (by omega)) (by
      rw [kvMakeSuperblock_generation, UInt64.lt_iff_toNat_lt, hintent.generation, hgen]
      exact Nat.lt_succ_self g)
  refine ⟨w2.header (w1.header h.header) rfl rfl, ⟨_, _, m, hsel', ?_, ?_, ?_⟩, hslot, ?_, ?_⟩
  · -- neither write touched a record, so the table is the old one
    exact (h.table.congr w1.record).congr w2.record
  · rw [kvMakeSuperblock_recordCount, hrc]
    omega
  · rw [kvMakeSuperblock_generation, w2.journal _ hslot, hjournal]
  · rw [w2.journal _ hslot, hjournal]
    exact hintent.valid
  · intro s hs hne
    rw [w2.journal s hs, w1.other s hs hne, hq s hs]

/-- What a set of a new key does before its transaction: it finds the superblock in use, no
record of the key and a free slot, and leaves the storage alone. -/
theorem kvSetLocked_reads (hcap : cfg.kvRegionSize ≤ capacity) {c : Cache}
    (hs : Resting cfg (storage cfg capacity TookEffect) c g m) (hq : Quiet cfg c.view)
    {key : Bytes} (hnew : m.lookup key = none) (hfree : m.keys.card < cfg.maxRecords) :
    ∃ sb index i, Selected cfg c.view sb index ∧ i < cfg.maxRecords ∧
      Exec (storage cfg capacity anyOrder) (kvLoadCurrent cfg) c (.returned (.ok (sb, index)) c) ∧
      Exec (storage cfg capacity anyOrder) (kvFindRecord cfg key) c
        (.returned (.ok (none, .ofNat m.keys.card)) c) ∧
      Exec (storage cfg capacity anyOrder) (kvFindFreeRecord cfg) c
        (.returned (.ok (some i)) c) := by
  have hM := @storage_medium cfg capacity hcap
  have htrue : ∀ img : Image, (storage cfg capacity TookEffect).crash c img → True :=
    fun _ _ => trivial
  -- the storage has no faults, so the reads answer
  have hnofault : ∀ e, ¬ Faulted (storage cfg capacity TookEffect) e := fun e he => he.fault.elim
    fun _ h => h
  have hload : cwp (storage cfg capacity TookEffect) (kvLoadCurrent cfg >>= pure)
      (fun r t => ∃ sb index, r = .ok (sb, index) ∧ t = c ∧ Selected cfg c.view sb index)
      (fun _ => True) c := by
    refine kvLoadCurrent_bind hM (Or.inl hs) (fun _ _ => trivial) ?_
      fun e _ he => absurd he (hnofault e)
    intro t sb index _ hsel hsame
    obtain rfl := hsame hq
    exact cwp_done ⟨sb, index, rfl, rfl, hsel⟩ fun _ _ => trivial
  rw [Io.bind_pure] at hload
  have hfind := kvFindRecord_reads_none hM.readable htrue hs.view.table hnew
  have hscan := kvScanFree_spec hM.readable htrue hs.view.table.valid cfg.maxRecords 0 (by omega)
  obtain ⟨r, t, heload, sb, index, hr, ht, hsel⟩ := exists_returned anyOrder hload
  rw [hr, ht] at heload
  obtain ⟨r, t, hefind, ht, hr | ⟨e, hf, -⟩⟩ := exists_returned anyOrder hfind
  · rw [hr, ht] at hefind
    obtain ⟨r, t, hescan, ht, hr | ⟨⟨e, hf⟩, -⟩⟩ := exists_returned anyOrder hscan
    · rw [hr, ht] at hescan
      cases hf : firstFree (entries cfg ((storage cfg capacity TookEffect).view c))
          cfg.maxRecords 0 with
      | none =>
        -- there is room, so the scan finds a free slot
        refine absurd (hs.view.table.entries.full_iff.mpr fun i hi => ?_) (Nat.ne_of_lt hfree)
        exact firstFree_none hf i (Nat.zero_le i) (by omega)
      | some i =>
        obtain ⟨-, hi, -⟩ := firstFree_some hf
        rw [hf] at hescan
        exact ⟨sb, index, i, hsel, by omega, heload, hefind, hescan⟩
    · exact hf.elim
  · exact absurd hf (hnofault e)

/-- A set of a new key may leave the superblock ahead: it is issued after the record, and a
crash brings it alone to the medium. -/
theorem actrustKvSet_leaves_ahead (hcap : cfg.kvRegionSize ≤ capacity) {c : Cache}
    (hs : Resting cfg (storage cfg capacity TookEffect) c g m) (hq : Quiet cfg c.view)
    (hroom : g + 1 < 2 ^ 64) {key value : Bytes} (hk : KeyLenOk key)
    (hv : value.length ≤ cfg.maxValueLen) (hnew : m.lookup key = none)
    (hfree : m.keys.card < cfg.maxRecords) : ∃ img slot,
      Exec (storage cfg capacity anyOrder) (actrustKvSet cfg key value) c (.crashed img) ∧
        Ahead cfg img slot := by
  obtain ⟨sb, index, i, hsel, hi, heload, hefind, hescan⟩ :=
    kvSetLocked_reads hcap hs hq hnew hfree
  have hview : Stable cfg c.view g m := hs.view
  refine ⟨_, _, ?_, hview.withoutRecord_ahead hq hsel hroom hfree hi (kvMakeRecord_isValid hk hv)⟩
  rw [actrustKvSet, if_neg (by rw [not_or, not_not, not_lt]; exact ⟨hk, hv⟩)]
  refine Exec.bind (.lock .done) (Exec.bind_crashed (Exec.attempt_crashed ?_))
  exact Exec.bind heload (Exec.bind hefind (Exec.bind hescan
    (kvTransaction_leaves hcap c (by decide) hi)))

/-- On storage that may keep writes back in any order, the first set after the format can lose
the region. -/
theorem not_kv_write_order : ¬ ∀ (op : KvMutation) (c : Cache),
    CacheReach tinyConfig tinyConfig.kvRegionSize anyOrder (fun _ => True) c →
      op.Valid tinyConfig → SurvivesCrashes tinyConfig tinyConfig.kvRegionSize anyOrder op c := by
  intro h
  obtain ⟨c, hreach, hs, hq⟩ := tinyStorage_formats anyOrder fun _ => True
  have hcap := Nat.le_refl tinyConfig.kvRegionSize
  obtain ⟨img, slot, he, hahead⟩ := actrustKvSet_leaves_ahead hcap hs hq (by decide)
    (by decide : KeyLenOk [1]) (by decide : ([7] : Bytes).length ≤ tinyConfig.maxValueLen)
    (Finmap.lookup_empty [1]) (by decide)
  obtain ⟨m, -, hsurvives⟩ := h (.set [1] [7]) c hreach (by decide)
  rcases (hsurvives img he img .refl).loads with hl | hl
  · exact hahead.not_loadsMap hcap hl
  · exact hahead.not_loadsMap hcap hl

end TrustSdk.Kv
