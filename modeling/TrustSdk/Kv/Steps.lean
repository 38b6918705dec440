import TrustSdk.Kv.Scan

/-!
# Recovery and transactions on a medium

What `kvRecover` and `kvTransaction` do on any `KvMedium`, call by call: which states of
the region lie behind each storage call when it returns, when it fails, and when the
machine stops there.

* `Resting` — nothing is under way: reads see a `Stable` region, and every image a crash may
  leave is stable at the same generation, with the same records;
* `Ready` — an operation may start: the store rests, or a transaction that was cut short is
  on the medium, waiting for recovery;
* `kvLoadCurrent_spec` — from `Ready`, recovery leads to `Resting`;
* `kvTransaction_spec` — from `Resting`, a transaction leads to `Resting` one generation
  later; cut short, it leaves the region with the old map or with the new one.
-/

namespace TrustSdk.Kv

open ByteStore CrashLogic SlotTable

variable {cfg : KvConfig} {D : Device Err} {g : ℕ} {m m' : KvMap} {β : Type}

/-- Nothing is under way. -/
structure Resting (cfg : KvConfig) (D : Device Err) (s : D.State) (g : ℕ) (m : KvMap) : Prop where
  view : Stable cfg (D.view s) g m
  crash : ∀ img, D.crash s img → Stable cfg img g m
  /-- A crash does not bring back an older record. -/
  records : ∀ img, D.crash s img → ∀ i < cfg.maxRecords,
    recordAt cfg img i = recordAt cfg (D.view s) i

/-- An operation may start; recovery will bring the store to generation `g`. -/
def Ready (cfg : KvConfig) (D : Device Err) (s : D.State) (g : ℕ) (m : KvMap) : Prop :=
  Resting cfg D s g m ∨ (Exact D s ∧ Loads cfg g m (D.view s))

/-- A storage whose image is the view rests. -/
theorem Resting.of_exact {s : D.State} (he : Exact D s) (h : Stable cfg (D.view s) g m) :
    Resting cfg D s g m where
  view := h
  crash := fun img hi => by rw [he img hi]; exact h
  records := fun img hi i _ => by rw [he img hi]

/-- What a crash leaves of a store that is ready. -/
theorem Ready.crash {s : D.State} (h : Ready cfg D s g m) :
    ∀ img, D.crash s img → Loads cfg g m img := by
  intro img hi
  rcases h with h | ⟨he, h⟩
  · exact (h.crash img hi).loads
  · rw [he img hi]
    exact h

/-- The superblock in force of a stable region. -/
theorem Stable.selected {img : Image} {sb : KvSuperblock} {index : ℕ} (h : Stable cfg img g m)
    (hsel : Selected cfg img sb index) :
    sb.generation.toNat = g ∧ sb.recordCount.toNat = m.keys.card := by
  obtain ⟨sb', index', hsel', hrest⟩ := h.superblock
  have heq := hsel.symm.trans hsel'
  rw [Option.some.injEq, Prod.mk.injEq] at heq
  rw [heq.1]
  exact hrest

/-! ### Journal writes of a resting store -/

section Resting

variable (hM : KvMedium cfg D) {s : D.State} {C : Image → Prop} {f : Unit → Io Err β}
  {Q : Except Err β → D.State → Prop} (h : Resting cfg D s g m)
  (hC : ∀ img, Stable cfg img g m → C img)
include hM h hC

/-- A journal that is done may be written at any time. -/
theorem Resting.journalWrite {slot : ℕ} {bs : Bytes} {journal : KvJournal cfg} (hs : slot < 2)
    (hlen : bs.length = cfg.kvJournalSize)
    (hnew : ∀ img, journalAt cfg (patch img (kvJournalOffset cfg slot) bs) slot = journal)
    (hdone : journal.Sealed → journal.Done g (D.view s))
    (hok : ∀ t, Resting cfg D t g m →
      D.view t = patch (D.view s) (kvJournalOffset cfg slot) bs → cwp D (f ()) Q C t)
    (hfault : ∀ e t, D.fault e → Exact D t → Resting cfg D t g m → Q (.error e) t) :
    cwp D (actrustStorageWrite (kvJournalOffset cfg slot) bs >>= f) Q C s := by
  -- the write is harmless on every image that a crash may leave before it
  have hreach : ∀ img', Reach cfg D s (kvJournalOffset cfg slot) bs img' →
      Stable cfg img' g m ∧ ∀ i < cfg.maxRecords,
        recordAt cfg img' i = recordAt cfg (D.view s) i := by
    rintro img' ⟨img, hi, htorn, -⟩
    have hw := htorn.journalWrite' hlen (hnew img) hs
    refine ⟨(h.crash img hi).doneWrite hw fun hsealed => ?_, fun i hlt => ?_⟩
    · exact (hdone hsealed).frame (h.records img hi)
    · rw [hw.record i hlt, h.records img hi i hlt]
  have hview : ∀ img', TornWrite cfg (D.view s) (patch (D.view s) (kvJournalOffset cfg slot) bs) img' →
      Stable cfg img' g m := fun img' htorn =>
    h.view.doneWrite (htorn.journalWrite' hlen (hnew _) hs) hdone
  refine storageWrite_bind hM (fun img hi => hC img (h.crash img hi)) ?_ ?_ ?_ ?_
  · rw [hlen]
    exact kvJournalOffset_end_le hs
  · exact fun img hr => hC img (hreach img hr).1
  · intro t ht hcrash
    have hfull := TornWrite.full cfg (D.view s) (patch (D.view s) (kvJournalOffset cfg slot) bs)
    refine hok t ⟨?_, fun img hi => (hreach img (hcrash img hi)).1, fun img hi i hlt => ?_⟩ ht
    · rw [ht]
      exact hview _ hfull
    · rw [(hreach img (hcrash img hi)).2 i hlt, ht, (hfull.journalWrite' hlen (hnew _) hs).record i hlt]
  · exact fun e t he hex htorn => hfault e t he hex (.of_exact hex (hview _ htorn))

/-- A sync at rest. -/
theorem Resting.sync (hok : ∀ t, Resting cfg D t g m → Exact D t → D.view t = D.view s →
      cwp D (f ()) Q C t)
    (hfault : ∀ e, D.fault e → Exact D s → Q (.error e) s) :
    cwp D (actrustStorageSync >>= f) Q C s := by
  refine storageSync_bind hM (fun img hi => hC img (h.crash img hi)) (fun t ht hex => ?_) hfault
  exact hok t (.of_exact hex (ht ▸ h.view)) hex ht

/-- Clearing a journal slot at the end of an operation. -/
theorem kvClearJournal_spec {slot : ℕ} (hs : slot < 2) :
    cwp D (kvClearJournal cfg slot) (fun r t => Resting cfg D t g m ∧
      (r = .ok () ∧ D.view t = patch (D.view s) (kvJournalOffset cfg slot)
          (List.replicate cfg.kvJournalSize 0) ∨ ∃ e, D.fault e ∧ Exact D t ∧ r = .error e)) C s := by
  rw [← Io.bind_pure (kvClearJournal cfg slot)]
  refine h.journalWrite hM hC hs List.length_replicate (fun img => journalAt_clear img slot)
    (fun _ => .zero h.view.pos) ?_ ?_
  · exact fun t ht hv => cwp_done ⟨ht, Or.inl ⟨rfl, hv⟩⟩ fun img hi => hC img (ht.crash img hi)
  · exact fun e t he hex ht => ⟨ht, Or.inr ⟨e, he, hex, rfl⟩⟩

end Resting

/-! ### Publishing a record -/

/-- The superblock of a pending journal is written, or cut short while it is written. It may
be readable only if the record is in its slot. -/
theorem Pending.sbTorn {img img' : Image} {slot index : ℕ} {sb : KvSuperblock}
    {journal : KvJournal cfg} (h : Pending cfg img g m slot) (hj : journalAt cfg img slot = journal)
    (hsel : Selected cfg img sb index) (hgen : sb.generation.toNat = g)
    (htorn : TornWrite cfg img (patch img (kvSuperblockOffset ((index + 1) % 2))
      (kvEncodeSuperblock (kvMakeSuperblock journal.generation journal.recordCount))) img')
    (heffect : TookEffect (kvSuperblockOffset ((index + 1) % 2))
        (kvEncodeSuperblock (kvMakeSuperblock journal.generation journal.recordCount)) img' →
      recordAt cfg img journal.recordIndex.toNat = journal.record) :
    Loads cfg (g + 1) m img' := by
  subst hj
  have hother : (index + 1) % 2 < 2 := Nat.mod_lt _ (by omega)
  have hw := htorn.sbWrite hother
  by_cases hnew : superblockAt img' ((index + 1) % 2) = kvMakeSuperblock
      (journalAt cfg img slot).generation (journalAt cfg img slot).recordCount
  · refine (h.sbWrite_new hsel hgen hw hnew (heffect ⟨_, hother, rfl, ?_⟩)).loads
    rw [hnew]
    simpa using (kvDecodeSuperblock_encode (kvMakeSuperblock (journalAt cfg img slot).generation
      (journalAt cfg img slot).recordCount) []).symm
  · exact (h.sbWrite_old hsel hgen hw hnew).loads

section Publish

variable (hM : KvMedium cfg D) {s : D.State} {C : Image → Prop} {f : Io Err β}
  {Q : Except Err β → D.State → Prop} {slot index : ℕ} {sb : KvSuperblock}
  {journal : KvJournal cfg} (hp : Pending cfg (D.view s) g m slot)
  (hsel : Selected cfg (D.view s) sb index) (hgen : sb.generation.toNat = g)
  (hj : journalAt cfg (D.view s) slot = journal) (hC : ∀ img, Loads cfg (g + 1) m img → C img)
include hM hp hsel hgen hj hC

/-- The record is in place; now the superblock, and the barrier after it. -/
theorem publishSuperblock_bind
    (hcrash : ∀ img, D.crash s img → Pending cfg img g m slot ∧ Selected cfg img sb index ∧
      journalAt cfg img slot = journal)
    (hplace : recordAt cfg (D.view s) journal.recordIndex.toNat = journal.record)
    (hok : ∀ t, Exact D t → Stable cfg (D.view t) (g + 1) m →
      (∀ s' < 2, journalAt cfg (D.view t) s' = journalAt cfg (D.view s) s') →
      recordAt cfg (D.view t) journal.recordIndex.toNat = journal.record → cwp D f Q C t)
    (hfault : ∀ e t, D.fault e → Exact D t → Loads cfg (g + 1) m (D.view t) → Q (.error e) t) :
    cwp D (do
      kvWriteSuperblock ((index + 1) % 2)
        (kvMakeSuperblock journal.generation journal.recordCount)
      actrustStorageSync
      f) Q C s := by
  have hother : (index + 1) % 2 < 2 := Nat.mod_lt _ (by omega)
  have hidx : journal.recordIndex.toNat < cfg.maxRecords := hj ▸ hp.intent.index_lt
  -- whatever is left of the write loads the new state: a torn superblock is invalid, and the
  -- journal of the old one leads there
  have hreach : ∀ img', Reach cfg D s (kvSuperblockOffset ((index + 1) % 2))
      (kvEncodeSuperblock (kvMakeSuperblock journal.generation journal.recordCount)) img' →
      Loads cfg (g + 1) m img' := by
    rintro img' ⟨img, hi, htorn, heffect⟩
    obtain ⟨hpi, hseli, hji⟩ := hcrash img hi
    refine hpi.sbTorn hji hseli hgen htorn fun he => ?_
    rw [heffect he, hplace]
  refine storageWrite_bind hM (fun img hi => hC _ (hcrash img hi).1.loads) ?_ ?_ ?_ ?_
  · rw [kvEncodeSuperblock_length]
    exact kvSuperblock_region hother
  · exact fun img' hr => hC _ (hreach img' hr)
  · -- a write that was carried out makes the new superblock the one in force
    intro t ht hcrasht
    have hw := (TornWrite.full cfg (D.view s) (patch (D.view s)
      (kvSuperblockOffset ((index + 1) % 2)) (kvEncodeSuperblock (kvMakeSuperblock
        journal.generation journal.recordCount)))).sbWrite hother
    rw [← ht] at hw
    have hnew : superblockAt (D.view t) ((index + 1) % 2) =
        kvMakeSuperblock journal.generation journal.recordCount := by
      rw [ht, superblockAt_patch]
    have hstable : Stable cfg (D.view t) (g + 1) m := by
      subst hj
      exact hp.sbWrite_new hsel hgen hw hnew hplace
    refine storageSync_bind hM (fun img hi => hC _ (hreach img (hcrasht img hi))) ?_ ?_
    · intro u hu hexu
      refine hok u hexu (hu ▸ hstable) (fun s' hs' => ?_) ?_
      · rw [hu, hw.journal s' hs']
      · rw [hu, hw.record _ hidx, hplace]
    · exact fun e he hext => hfault e t he hext hstable.loads
  · -- a failing write is a torn one as well
    exact fun e t he hext htorn =>
      hfault e t he hext (hp.sbTorn hj hsel hgen htorn fun _ => hplace)

/-- The step that replay and transaction share: the record and then the superblock of a
journal that is durable. -/
theorem publish_bind (hex : Exact D s)
    (hok : ∀ t, Exact D t → Stable cfg (D.view t) (g + 1) m →
      (∀ s' < 2, journalAt cfg (D.view t) s' = journalAt cfg (D.view s) s') →
      recordAt cfg (D.view t) journal.recordIndex.toNat = journal.record → cwp D f Q C t)
    (hfault : ∀ e t, D.fault e → Exact D t → Loads cfg (g + 1) m (D.view t) → Q (.error e) t) :
    cwp D (do
      kvWriteRecord journal.recordIndex.toNat journal.record
      kvWriteSuperblock ((index + 1) % 2)
        (kvMakeSuperblock journal.generation journal.recordCount)
      actrustStorageSync
      f) Q C s := by
  have hidx : journal.recordIndex.toNat < cfg.maxRecords := hj ▸ hp.intent.index_lt
  -- whatever a crash leaves of the record, the transaction stays pending
  have hrec : ∀ img', TornWrite cfg (D.view s) (patch (D.view s)
      (kvRecordOffset cfg journal.recordIndex.toNat) (kvEncodeRecord journal.record)) img' →
      Pending cfg img' g m slot ∧ Selected cfg img' sb index ∧
        ∀ s' < 2, journalAt cfg img' s' = journalAt cfg (D.view s) s' := by
    intro img' htorn
    have hw := htorn.recordWrite hidx
    refine ⟨?_, hsel.congr hw.superblock, hw.journal⟩
    subst hj
    exact hp.recordWrite hw
  refine storageWrite_bind hM (fun img hi => ?_) ?_ ?_ ?_ ?_
  · rw [hex img hi]
    exact hC _ hp.loads
  · rw [kvEncodeRecord_length]
    exact kvRecord_region hidx
  · rintro img' ⟨img, hi, htorn, -⟩
    rw [hex img hi] at htorn
    exact hC _ (hrec img' htorn).1.loads
  · intro t ht hreach
    have hfull := hrec _ (TornWrite.full cfg (D.view s) _)
    rw [← ht] at hfull
    obtain ⟨hpt, hselt, hjt⟩ := hfull
    have hjournal := (hjt slot hp.slot_lt).trans hj
    refine publishSuperblock_bind hM hpt hselt hgen hjournal hC ?_ ?_ ?_ hfault
    · intro img hi
      obtain ⟨img0, hi0, htorn, -⟩ := hreach img hi
      rw [hex img0 hi0] at htorn
      obtain ⟨hpi, hseli, hji⟩ := hrec img htorn
      exact ⟨hpi, hseli, (hji slot hp.slot_lt).trans hj⟩
    · rw [ht, recordAt_patch]
    · intro u hexu hstable hju hplace
      exact hok u hexu hstable (fun s' hs' => (hju s' hs').trans (hjt s' hs')) hplace
  · exact fun e t he hext htorn => hfault e t he hext (hrec _ htorn).1.loads

end Publish

/-! ### Recovery -/

/-- The journal of slot `i`, when it is valid. -/
def validJournal (cfg : KvConfig) (img : Image) (i : ℕ) : Option (KvJournal cfg) :=
  if kvJournalIsValid (journalAt cfg img i) then some (journalAt cfg img i) else none

/-- An empty slot holds no valid journal. -/
theorem validJournal_zero {slot : ℕ} (h : journalAt cfg img slot = .zero cfg) :
    validJournal cfg img slot = none := by
  rw [validJournal, h, if_neg KvJournal.zero_not_valid]

/-- The newest journal is one of the two. -/
theorem kvNewestJournal_some {o0 o1 : Option (KvJournal cfg)} {slot : ℕ} {j : KvJournal cfg}
    (h : kvNewestJournal o0 o1 = some (slot, j)) :
    (slot = 0 ∧ o0 = some j) ∨ (slot = 1 ∧ o1 = some j) := by
  cases o0 <;> cases o1 <;> simp only [kvNewestJournal] at h
  · exact absurd h (by simp)
  · grind
  · grind
  · split_ifs at h <;> grind

/-- The newest journal stands in its slot and is valid. -/
theorem newest_valid {img : Image} {slot : ℕ} {j : KvJournal cfg}
    (h : kvNewestJournal (validJournal cfg img 0) (validJournal cfg img 1) = some (slot, j)) :
    slot < 2 ∧ journalAt cfg img slot = j ∧ kvJournalIsValid j := by
  rcases kvNewestJournal_some h with ⟨rfl, hj⟩ | ⟨rfl, hj⟩ <;>
    (unfold validJournal at hj; split_ifs at hj with hv; grind)

/-- A pending journal is the newest one. -/
theorem Pending.newest {img : Image} {slot : ℕ} (h : Pending cfg img g m slot) :
    kvNewestJournal (validJournal cfg img 0) (validJournal cfg img 1) =
      some (slot, journalAt cfg img slot) := by
  have hvalid : validJournal cfg img slot = some (journalAt cfg img slot) := if_pos h.intent.valid
  have hgen := h.intent.generation
  -- a valid journal in the other slot is older
  have hother : ∀ s < 2, s ≠ slot → ∀ j, validJournal cfg img s = some j →
      j.generation < (journalAt cfg img slot).generation := by
    intro s hs hne j hj
    unfold validJournal at hj
    split_ifs at hj with hv
    obtain rfl := Option.some.inj hj
    have hle := h.other s hs hne (kvJournalIsValid_sealed hv)
    rw [UInt64.lt_iff_toNat_lt]
    omega
  have hlt := h.slot_lt
  obtain rfl | rfl : slot = 0 ∨ slot = 1 := by omega
  · cases h1 : validJournal cfg img 1 with
    | none => rw [hvalid, kvNewestJournal]
    | some j =>
      have hj := hother 1 (by omega) (by omega) j h1
      rw [hvalid, kvNewestJournal, if_neg]
      rw [UInt64.lt_iff_toNat_lt] at hj ⊢
      omega
  · cases h0 : validJournal cfg img 0 with
    | none => rw [hvalid, kvNewestJournal]
    | some j => rw [hvalid, kvNewestJournal, if_pos (hother 0 (by omega) (by omega) j h0)]

/-- Recovery reads the superblocks and both journals, and then acts on what it found. -/
theorem kvRecover_scan (hM : KvReadable cfg D) {s : D.State} {C : Image → Prop}
    {sb : KvSuperblock} {index : ℕ} {Q : Except Err Unit → D.State → Prop}
    (hC : ∀ img, D.crash s img → C img) (hsel : Selected cfg (D.view s) sb index)
    (hrest : cwp D (kvRecoverFrom sb index (kvNewestJournal (validJournal cfg (D.view s) 0)
      (validJournal cfg (D.view s) 1))) Q C s)
    (hfault : ∀ e, Faulted D e → Q (.error e) s) : cwp D (kvRecover cfg) Q C s := by
  refine (kvCurrentSuperblock_reads hM hC hsel).bind ?_ hfault
  refine (kvScanJournal_reads hM hC (by omega : 0 < 2)).bind ?_ hfault
  exact (kvScanJournal_reads hM hC (by omega : 1 < 2)).bind hrest hfault

section Recover

variable (hM : KvMedium cfg D) {s : D.State} {C : Image → Prop}
include hM

/-- What recovery does to a store that is ready. -/
def Recovered (cfg : KvConfig) (D : Device Err) (s : D.State) (g : ℕ) (m : KvMap)
    (r : Except Err Unit) (t : D.State) : Prop :=
  (r = .ok () ∧ Resting cfg D t g m ∧ (Quiet cfg (D.view s) → t = s)) ∨
    ∃ e, Faulted D e ∧ r = .error e ∧ Ready cfg D t g m

/-- A store that rests: recovery checks the records or clears a journal that is done. -/
theorem kvRecover_resting (h : Resting cfg D s g m) (hC : ∀ img, Loads cfg g m img → C img) :
    cwp D (kvRecover cfg) (Recovered cfg D s g m) C s := by
  obtain ⟨sb, index, hsel, hgen, hcount⟩ := h.view.superblock
  have hcrash : ∀ img, D.crash s img → C img := fun img hi => hC img (h.crash img hi).loads
  refine kvRecover_scan hM.readable hcrash hsel ?_ fun e he => Or.inr ⟨e, he, rfl, Or.inl h⟩
  cases hnew : kvNewestJournal (validJournal cfg (D.view s) 0) (validJournal cfg (D.view s) 1) with
  | none =>
    refine cwp.mono (kvValidateRecords_reads hM.readable hcrash h.view.table hcount) ?_ fun _ hi => hi
    rintro r t ⟨rfl, rfl | ⟨e, he, rfl⟩⟩
    · exact Or.inl ⟨rfl, h, fun _ => rfl⟩
    · exact Or.inr ⟨e, he, rfl, Or.inl h⟩
  | some found =>
    obtain ⟨slot, j⟩ := found
    obtain ⟨hslot, rfl, hvalid⟩ := newest_valid hnew
    have hdone := h.view.journals slot hslot (kvJournalIsValid_sealed hvalid)
    have hle : (journalAt cfg (D.view s) slot).generation ≤ sb.generation := by
      rw [UInt64.le_iff_toNat_le, hgen]
      exact hdone.old
    rw [kvRecoverFrom, if_pos hle]
    refine cwp.mono (kvClearJournal_spec hM h (fun img hi => hC img hi.loads) hslot) ?_ fun _ hi => hi
    rintro r t ⟨ht, ⟨rfl, -⟩ | ⟨e, he, -, rfl⟩⟩
    · refine Or.inl ⟨rfl, ht, fun hq => ?_⟩
      -- a valid journal is not the zero journal
      have hz := hq slot hslot
      rw [hz] at hvalid
      exact absurd hvalid KvJournal.zero_not_valid
    · exact Or.inr ⟨e, ⟨⟨e, he⟩, hM.fault_code e he⟩, rfl, Or.inl ht⟩

/-- A pending transaction is replayed. -/
theorem kvRecover_pending {slot : ℕ} (hex : Exact D s) (h : Pending cfg (D.view s) g m slot)
    (hC : ∀ img, Loads cfg (g + 1) m img → C img) :
    cwp D (kvRecover cfg) (Recovered cfg D s (g + 1) m) C s := by
  obtain ⟨sb, index, hsel, hgen⟩ := h.superblock
  -- until the superblock is published the journal still leads to the new state
  have hcrash : ∀ img, D.crash s img → C img := fun img hi => by
    rw [hex img hi]
    exact hC _ h.loads
  refine kvRecover_scan hM.readable hcrash hsel ?_ fun e he => Or.inr ⟨e, he, rfl, Or.inr ⟨hex, h.loads⟩⟩
  -- the journal is newer than the superblock and built on it, so it is replayed
  have hgt : ¬ (journalAt cfg (D.view s) slot).generation ≤ sb.generation := by
    rw [UInt64.le_iff_toNat_le, h.intent.generation, hgen]
    omega
  have hbase : ¬ ((journalAt cfg (D.view s) slot).baseGeneration ≠ sb.generation ∨
      (journalAt cfg (D.view s) slot).operation = kvOpFormat) := by
    rw [not_or, not_not]
    refine ⟨UInt64.toNat_inj.mp ?_, h.intent.noFormat⟩
    rw [h.intent.base, hgen]
  rw [h.newest, kvRecoverFrom, if_neg hgt, if_neg hbase, kvReplay]
  refine publish_bind hM h hsel hgen rfl hC hex ?_ ?_
  · intro t hext hstable _ _
    refine cwp.mono (kvClearJournal_spec hM (.of_exact hext hstable) (fun img hi => hC img hi.loads)
      h.slot_lt) ?_ fun _ hi => hi
    -- a journal that cannot be cleared is done already
    rintro r u ⟨hu, ⟨rfl, -⟩ | ⟨e, he, hexu, rfl⟩⟩
    · refine Or.inl ⟨rfl, hu, fun hq => ?_⟩
      have hz := h.intent.generation
      rw [hq slot h.slot_lt] at hz
      exact absurd hz (by change ¬ 0 = g + 1; omega)
    · exact Or.inr ⟨e, ⟨⟨e, he⟩, hM.fault_code e he⟩, rfl, Or.inl hu⟩
  · exact fun e t he hext ht => Or.inr ⟨e, ⟨⟨e, he⟩, hM.fault_code e he⟩, rfl, Or.inr ⟨hext, ht⟩⟩

/-- Recovery brings a store that is ready to rest. -/
theorem kvRecover_spec (h : Ready cfg D s g m) (hC : ∀ img, Loads cfg g m img → C img) :
    cwp D (kvRecover cfg) (Recovered cfg D s g m) C s := by
  rcases h with h | ⟨hex, h | ⟨base, slot, rfl, h⟩⟩
  · exact kvRecover_resting hM h hC
  · exact kvRecover_resting hM (.of_exact hex h) hC
  · exact kvRecover_pending hM hex h hC

/-- What every operation starts with: recovery, and the superblock in use. -/
theorem kvLoadCurrent_bind {f : KvSuperblock × ℕ → Io Err β} {Q : Except Err β → D.State → Prop}
    (h : Ready cfg D s g m) (hC : ∀ img, Loads cfg g m img → C img)
    (hok : ∀ t sb index, Resting cfg D t g m → Selected cfg (D.view t) sb index →
      (Quiet cfg (D.view s) → t = s) → cwp D (f (sb, index)) Q C t)
    (hfault : ∀ e t, Faulted D e → Ready cfg D t g m → Q (.error e) t) :
    cwp D (kvLoadCurrent cfg >>= f) Q C s := by
  refine cwp_bind (cwp_bind (cwp.mono (kvRecover_spec hM h hC) ?_ fun _ hi => hi))
  rintro r t (⟨rfl, ht, hq⟩ | ⟨e, he, rfl, ht⟩)
  · obtain ⟨sb, index, hsel, -⟩ := ht.view.superblock
    have hcrash : ∀ img, D.crash t img → C img := fun img hi => hC img (ht.crash img hi).loads
    refine cwp.mono (kvSelectSuperblock_reads hM.readable hcrash hsel) ?_ fun _ hi => hi
    rintro r u ⟨rfl, rfl | ⟨e, he, rfl⟩⟩
    · exact hok u sb index ht hsel hq
    · exact hfault e u he (Or.inl ht)
  · exact hfault e t he ht

end Recover

/-! ### The transaction -/

section Prepare

variable {sb : KvSuperblock} {operation : UInt8} {i : ℕ} {count : UInt32} {record : KvRecord cfg}

/-- The journal names the slot of the record. -/
theorem kvPrepareJournal_index (hi : i < cfg.maxRecords) :
    (kvPrepareJournal sb operation i count record).recordIndex.toNat = i :=
  UInt32.toNat_ofNat_of_lt' (hi.trans (maxRecords_lt cfg))

/-- The journal of a transaction announces it, as long as the generation does not wrap. -/
theorem kvPrepareJournal_intent (hgen : sb.generation.toNat = g) (hroom : g + 1 < 2 ^ 64)
    (hop : operation = kvOpSet ∨ operation = kvOpDelete) (hi : i < cfg.maxRecords)
    (hrec : kvRecordIsValid record) : (kvPrepareJournal sb operation i count record).Intent g := by
  have hnext : (kvPrepareJournal sb operation i count record).generation.toNat = g + 1 := by
    change (sb.generation + 1).toNat = g + 1
    rw [UInt64.toNat_add, hgen]
    exact Nat.mod_eq_of_lt hroom
  have hops : ¬ operation < kvOpSet ∧ ¬ kvOpFormat < operation ∧ operation ≠ kvOpFormat := by
    rcases hop with rfl | rfl <;> decide
  refine ⟨(kvJournalIsValid_prepared rfl).mpr ⟨⟨rfl, rfl, hops.1, hops.2.1, ?_, ?_⟩, ?_⟩, rfl,
    hops.2.2, hnext, hgen⟩
  · intro h0
    rw [h0] at hnext
    exact absurd hnext (by change ¬ 0 = g + 1; omega)
  · exact (kvJournalCrc_setCrc _ _).symm
  · exact fun _ => ⟨by rw [kvPrepareJournal_index hi]; exact hi, hrec⟩

end Prepare

/-- The commit mark leaves the part of a journal that recovery acts on alone. -/
theorem KvJournal.Done.commit {img : Image} {journal : KvJournal cfg} (h : journal.Done g img) :
    (kvCommitJournal journal).Done g img := ⟨h.old, h.inPlace⟩

/-- What a transaction does to a store that rests: it succeeds and the store rests at the
next generation, or a storage call fails and the region holds the old or the new map. -/
def Transacted (cfg : KvConfig) (D : Device Err) (s : D.State) (g : ℕ) (m m' : KvMap)
    (r : Except Err Unit) (t : D.State) : Prop :=
  (r = .ok () ∧ Resting cfg D t (g + 1) m' ∧ (Quiet cfg (D.view s) → Quiet cfg (D.view t))) ∨
    ∃ e, D.fault e ∧ r = .error e ∧ (Ready cfg D t g m ∨ Ready cfg D t (g + 1) m')

section Transaction

variable (hM : KvMedium cfg D) {s : D.State} {C : Image → Prop} {slot : ℕ}
include hM

/-- The end of a transaction: the journal is marked as committed and then cleared. -/
theorem commit_spec {journal : KvJournal cfg} (h : Resting cfg D s (g + 1) m')
    (hC' : ∀ img, Loads cfg (g + 1) m' img → C img) (hslot : slot < 2)
    (hdone : journal.Done (g + 1) (D.view s)) {s₀ : D.State}
    (hquiet : Quiet cfg (D.view s₀) → ∀ s' < 2, s' ≠ slot →
      journalAt cfg (D.view s) s' = .zero cfg) :
    cwp D (do
      kvWriteJournal slot (kvCommitJournal journal)
      actrustStorageSync
      kvClearJournal cfg slot) (Transacted cfg D s₀ g m m') C s := by
  have hC : ∀ img, Stable cfg img (g + 1) m' → C img := fun img hi => hC' img hi.loads
  refine h.journalWrite hM hC hslot (kvEncodeJournal_length _)
    (fun img => journalAt_patch img slot _) (fun _ => hdone.commit) ?_ ?_
  · -- the commit mark and the clearing touch the journal slot only, and the table is the new one
    -- already
    intro t ht hview
    refine ht.sync hM hC ?_ fun e he hext => Or.inr ⟨e, he, rfl, Or.inr (Or.inl ht)⟩
    intro u hu hexu hviewu
    refine cwp.mono (kvClearJournal_spec hM hu hC hslot) ?_ fun _ hi => hi
    rintro r v ⟨hv, ⟨rfl, hviewv⟩ | ⟨e, he, -, rfl⟩⟩
    · refine Or.inl ⟨rfl, hv, fun hq s' hs' => ?_⟩
      rw [hviewv]
      -- the other slot is as it was, and was empty if the region was quiet before
      by_cases hss : s' = slot
      · rw [hss, journalAt_clear]
      · have hw1 := (TornWrite.full cfg (D.view u) (patch (D.view u) (kvJournalOffset cfg slot)
          (List.replicate cfg.kvJournalSize 0))).journalClear hslot
        have hw2 := (TornWrite.full cfg (D.view s) (patch (D.view s) (kvJournalOffset cfg slot)
          (kvEncodeJournal (kvCommitJournal journal)))).journalWrite hslot
        rw [hw1.other s' hs' hss, hviewu, hview, hw2.other s' hs' hss]
        exact hquiet hq s' hs' hss
    · exact Or.inr ⟨e, he, rfl, Or.inr (Or.inl hv)⟩
  · exact fun e t he hext ht => Or.inr ⟨e, he, rfl, Or.inr (Or.inl ht)⟩

/-- `kv_transaction` from a region at rest. -/
theorem kvTransaction_spec {sb : KvSuperblock} {index i : ℕ} {operation : UInt8} {count : UInt32}
    {record : KvRecord cfg} (h : Resting cfg D s g m) (hsel : Selected cfg (D.view s) sb index)
    (hroom : g + 1 < 2 ^ 64) (hop : operation = kvOpSet ∨ operation = kvOpDelete)
    (hi : i < cfg.maxRecords) (hrec : kvRecordIsValid record)
    (htable : Table cfg (Function.update (recordAt cfg (D.view s)) i record) m')
    (hcount : count.toNat = m'.keys.card) (hC : ∀ img, Loads cfg g m img → C img)
    (hC' : ∀ img, Loads cfg (g + 1) m' img → C img) :
    cwp D (kvTransaction sb index operation i count record) (Transacted cfg D s g m m') C s := by
  obtain ⟨hgen, -⟩ := h.view.selected hsel
  have hnf : operation ≠ kvOpFormat := by rcases hop with rfl | rfl <;> decide
  have hslot : sb.generation.toNat % kvJournalSlots < 2 := Nat.mod_lt _ (by decide)
  have hintent : (kvPrepareJournal sb operation i count record).Intent g :=
    kvPrepareJournal_intent hgen hroom hop hi hrec
  have hidx : (kvPrepareJournal sb operation i count record).recordIndex.toNat = i :=
    kvPrepareJournal_index hi
  have hjrec : (kvPrepareJournal sb operation i count record).record = record := rfl
  have hjcount : (kvPrepareJournal sb operation i count record).recordCount = count := rfl
  simp only [kvTransaction, if_neg hnf]
  generalize sb.generation.toNat % kvJournalSlots = slot at hslot ⊢
  generalize kvPrepareJournal sb operation i count record = journal at hintent hidx hjrec hjcount ⊢
  subst hidx hjrec hjcount
  -- the journal may be torn on any image a crash may leave before it
  have hreach : ∀ img img', Stable cfg img g m →
      (∀ k < cfg.maxRecords, recordAt cfg img k = recordAt cfg (D.view s) k) →
      TornWrite cfg img (patch img (kvJournalOffset cfg slot) (kvEncodeJournal journal)) img' →
      Stable cfg img' g m ∨ Pending cfg img' g m' slot := by
    intro img img' hs hrecs htorn
    refine hs.intentWrite hslot (htorn.journalWrite hslot) hintent (htable.congr ?_) hcount
    intro k hk
    rw [Function.update_apply, Function.update_apply, hrecs k hk]
  refine storageWrite_bind hM (fun img hi => hC img (h.crash img hi).loads) ?_ ?_ ?_ ?_
  · rw [kvEncodeJournal_length]
    exact kvJournalOffset_end_le hslot
  · rintro img' ⟨img, hi, htorn, -⟩
    rcases hreach img img' (h.crash img hi) (h.records img hi) htorn with hs | hp
    · exact hC img' hs.loads
    · exact hC' img' hp.loads
  · intro t ht hcrash
    have hw := (TornWrite.full cfg (D.view s) (patch (D.view s) (kvJournalOffset cfg slot)
      (kvEncodeJournal journal))).journalWrite hslot
    rw [← ht] at hw
    have hjt : journalAt cfg (D.view t) slot = journal := by rw [ht, journalAt_patch]
    have hpending : Pending cfg (D.view t) g m' slot :=
      h.view.intent hslot hw hintent htable hcount (by rw [hjt])
    have hselt := hsel.congr hw.superblock
    refine storageSync_bind hM ?_ ?_ ?_
    · intro img' hi'
      obtain ⟨img, hi, htorn, -⟩ := hcrash img' hi'
      rcases hreach img img' (h.crash img hi) (h.records img hi) htorn with hs | hp
      · exact hC img' hs.loads
      · exact hC' img' hp.loads
    · intro u hu hexu
      rw [← hu] at hpending hselt hjt
      refine publish_bind hM hpending hselt hgen hjt hC' hexu ?_ ?_
      · intro v hexv hstable hjv hplace
        refine commit_spec hM (.of_exact hexv hstable) hC' hslot ?_ ?_
        · exact ⟨hintent.generation.le, fun _ _ => ⟨hintent.index_lt, hplace⟩⟩
        · intro hq s' hs' hss
          rw [hjv s' hs', hu, hw.other s' hs' hss]
          exact hq s' hs'
      · exact fun e v he hexv hl => Or.inr ⟨e, he, rfl, Or.inr (Or.inr ⟨hexv, hl⟩)⟩
    · exact fun e he hext => Or.inr ⟨e, he, rfl, Or.inr (Or.inr ⟨hext, hpending.loads⟩)⟩
  · intro e t he hext htorn
    refine Or.inr ⟨e, he, rfl, ?_⟩
    rcases hreach _ _ h.view (fun _ _ => rfl) htorn with hs | hp
    · exact Or.inl (Or.inr ⟨hext, hs.loads⟩)
    · exact Or.inr (Or.inr ⟨hext, hp.loads⟩)

end Transaction

end TrustSdk.Kv
