import TrustSdk.Kv.Steps

/-!
# The public calls on a medium

Each public call against the finite map it works on: `Finished` says that the call returned
what the map says and that the store holds the resulting map, or that a storage or lock call
failed and the store holds the map before or after it. The crash condition is the same
alternative.

A table of `maxRecords` slots is the only limit of the store: `actrustKvSet` fails exactly
for a new key in a full table (`setOutcome`).
-/

namespace TrustSdk.Kv

open ByteStore CrashLogic SlotTable

variable {cfg : KvConfig} {D : Device Err} {g g' : ℕ} {m m' : KvMap} {α : Type}

/-! ### The records that are written -/

/-- The CRC of a record does not cover its CRC field. -/
theorem kvRecordCrc_setCrc (r : KvRecord cfg) (c : UInt32) :
    kvRecordCrc { r with head := { r.head with crc32 := c } } = kvRecordCrc r := rfl

section Record

variable {key value : Bytes}

/-- The key length `kv_make_record` stores. -/
theorem kvMakeRecord_keyLen (hk : KeyLenOk key) :
    (kvMakeRecord cfg key value).head.keyLen.toNat = key.length := by
  exact UInt8.toNat_ofNat_of_lt' (lt_of_le_of_lt hk.2 (by decide))

/-- The value length it stores. -/
theorem kvMakeRecord_valueLen (hv : value.length ≤ cfg.maxValueLen) :
    (kvMakeRecord cfg key value).head.valueLen.toNat = value.length :=
  UInt32.toNat_ofNat_of_lt' (hv.trans_lt (maxValueLen_lt cfg))

/-- `kv_make_record` makes a valid record. -/
theorem kvMakeRecord_isValid (hk : KeyLenOk key) (hv : value.length ≤ cfg.maxValueLen) :
    kvRecordIsValid (kvMakeRecord cfg key value) := by
  have hkl : (kvMakeRecord cfg key value).head.keyLen.toNat = key.length := kvMakeRecord_keyLen hk
  have hvl : (kvMakeRecord cfg key value).head.valueLen.toNat = value.length :=
    kvMakeRecord_valueLen hv
  have hcrc : (kvMakeRecord cfg key value).head.crc32 = kvRecordCrc (kvMakeRecord cfg key value) :=
    (kvRecordCrc_setCrc _ _).symm
  have hused : (kvMakeRecord cfg key value).head.used = kvRecordInUse := rfl
  have hpos : (kvMakeRecord cfg key value).head.keyLen ≠ 0 := by
    intro h0
    rw [h0] at hkl
    exact hk.1 hkl.symm
  have hne : kvRecordInUse ≠ kvRecordNotUsed := by decide
  have hle : ¬ maxKeyLen < key.length := not_lt.mpr hk.2
  have hvle : ¬ cfg.maxValueLen < value.length := not_lt.mpr hv
  simp only [kvRecordIsValid, hused, hne, hkl, hvl, hpos, hle, hvle, hcrc.symm, ne_eq,
    not_true_eq_false, or_self, if_false, decide_true]

/-- It holds the key and the value it was made of. -/
theorem kvMakeRecord_entry (hk : KeyLenOk key) (hv : value.length ≤ cfg.maxValueLen) :
    (kvMakeRecord cfg key value).entry = some (key, value) := by
  have hkey : (kvMakeRecord cfg key value).keyBytes = key := by
    rw [KvRecord.keyBytes, kvMakeRecord_keyLen hk]
    exact ByteArr.take_ofBytes hk.2
  have hvalue : (kvMakeRecord cfg key value).valueBytes = value := by
    rw [KvRecord.valueBytes, kvMakeRecord_valueLen hv]
    exact ByteArr.take_ofBytes hv
  rw [KvRecord.entry, hkey, hvalue]
  exact if_pos rfl

end Record

/-- A cleared slot is a valid record. -/
theorem KvRecord.zero_isValid : kvRecordIsValid (KvRecord.zero cfg) := if_pos rfl

/-- A cleared slot holds no entry. -/
theorem KvRecord.zero_entry : (KvRecord.zero cfg).entry = none := by
  refine if_neg ?_
  change ¬ kvRecordNotUsed = kvRecordInUse
  decide

/-- One record of a table is replaced. -/
theorem Table.update {records : ℕ → KvRecord cfg} {i : ℕ} {r : KvRecord cfg}
    (h : Table cfg records m) (hr : kvRecordIsValid r)
    (hrep : Represents cfg.maxRecords
      (Function.update (fun j => (records j).entry) i r.entry) m') :
    Table cfg (Function.update records i r) m' where
  valid := by
    intro j hj
    rw [Function.update_apply]
    split_ifs
    · exact hr
    · exact h.valid j hj
  entries := by
    refine hrep.congr fun j _ => ?_
    rw [Function.update_apply, Function.update_apply]
    split_ifs <;> rfl

/-- The count of the table does not wrap. -/
theorem Table.card_toNat {records : ℕ → KvRecord cfg} (h : Table cfg records m) :
    (UInt32.ofNat m.keys.card).toNat = m.keys.card :=
  UInt32.toNat_ofNat_of_lt' (h.card_le.trans_lt (maxRecords_lt cfg))

/-! ### How a call ends -/

/-- The call returned `expected` and the store rests with `m'` at generation `g'`, or a call
of the device failed and the store holds `m` or `m'`. A call that changes nothing writes
nothing either, unless recovery has something to do. -/
def Finished (cfg : KvConfig) (D : Device Err) (s : D.State) (g : ℕ) (m : KvMap)
    (expected : Except Err α) (g' : ℕ) (m' : KvMap) (r : Except Err α) (t : D.State) : Prop :=
  (r = expected ∧ Resting cfg D t g' m' ∧ (Quiet cfg (D.view s) → Quiet cfg (D.view t)) ∧
    (g' = g → Quiet cfg (D.view s) → t = s)) ∨
  (MayFail D ∧ (g' ≠ g → ∃ e, r = .error e) ∧ (Ready cfg D t g m ∨ Ready cfg D t g' m'))

/-- The images a crash may leave during a call. -/
def Between (cfg : KvConfig) (g : ℕ) (m : KvMap) (g' : ℕ) (m' : KvMap) (img : Image) : Prop :=
  Loads cfg g m img ∨ Loads cfg g' m' img

section Calls

variable {s : D.State} {expected : Except Err α}

/-- A call that fails, whatever its step, may leave the state before or the one after. -/
theorem Finished.of_failed {e : Err} {t : D.State} (hfail : MayFail D)
    (ht : Ready cfg D t g m ∨ Ready cfg D t g' m') :
    Finished cfg D s g m expected g' m' (.error e) t :=
  Or.inr ⟨hfail, fun _ => ⟨e, rfl⟩, ht⟩

/-- After a call the store can be used again. -/
theorem Finished.ready {r : Except Err α} {t : D.State}
    (h : Finished cfg D s g m expected g' m' r t) : Ready cfg D t g m ∨ Ready cfg D t g' m' := by
  rcases h with ⟨-, ht, -⟩ | ⟨-, -, ht⟩
  · exact Or.inr (Or.inl ht)
  · exact ht

/-- A crash after a call leaves one of the two states. -/
theorem Finished.crash {r : Except Err α} {t : D.State}
    (h : Finished cfg D s g m expected g' m' r t) :
    ∀ img, D.crash t img → Between cfg g m g' m' img := by
  intro img hi
  exact h.ready.imp (fun ht => ht.crash img hi) fun ht => ht.crash img hi

/-- The lock around a call does not change how it ends. -/
theorem kvWithLock_spec {body : Io Err α} (hs : Ready cfg D s g m)
    (h : cwp D body (Finished cfg D s g m expected g' m') (Between cfg g m g' m') s) :
    cwp D (kvWithLock body) (Finished cfg D s g m expected g' m') (Between cfg g m g' m') s := by
  refine cwp_lock ?_ fun e he => .of_failed (Or.inr ⟨e, he⟩) (Or.inl hs)
  refine cwp_bind (cwp_attempt (cwp.mono h ?_ fun _ hi => hi))
  intro r t ht
  cases r with
  | ok a =>
    refine cwp_unlock (cwp_done ht ht.crash) fun e he => cwp_done ?_ ht.crash
    -- the body is done, the unlock fails
    exact .of_failed (Or.inr ⟨e, he⟩) ht.ready
  | error e => exact cwp_unlock (cwp_done ht ht.crash) fun _ _ => cwp_done ht ht.crash

variable (hM : KvMedium cfg D)
include hM

/-- A body that starts with recovery. -/
theorem Finished.loadCurrent {f : KvSuperblock × ℕ → Io Err α} (hs : Ready cfg D s g m)
    (hok : ∀ t sb index, Resting cfg D t g m → Selected cfg (D.view t) sb index →
      (Quiet cfg (D.view s) → t = s) →
      cwp D (f (sb, index)) (Finished cfg D s g m expected g' m') (Between cfg g m g' m') t) :
    cwp D (kvLoadCurrent cfg >>= f) (Finished cfg D s g m expected g' m')
      (Between cfg g m g' m') s :=
  kvLoadCurrent_bind hM hs (fun _ hi => Or.inl hi) hok
    fun _ _ he ht => .of_failed (Or.inl he.fault) (Or.inl ht)

/-- A body that ends with a transaction. -/
theorem Finished.transaction {sb : KvSuperblock} {index i : ℕ} {operation : UInt8}
    {count : UInt32} {record : KvRecord cfg} {t : D.State} (h : Resting cfg D t g m)
    (hq : Quiet cfg (D.view s) → t = s) (hsel : Selected cfg (D.view t) sb index)
    (hroom : g + 1 < 2 ^ 64) (hop : operation = kvOpSet ∨ operation = kvOpDelete)
    (hi : i < cfg.maxRecords) (hrec : kvRecordIsValid record)
    (hrep : Represents cfg.maxRecords
      (Function.update (fun j => (recordAt cfg (D.view t) j).entry) i record.entry) m')
    (hcount : count.toNat = m'.keys.card) :
    cwp D (kvTransaction sb index operation i count record)
      (Finished cfg D s g m (.ok ()) (g + 1) m') (Between cfg g m (g + 1) m') t := by
  refine cwp.mono (kvTransaction_spec hM h hsel hroom hop hi hrec (h.view.table.update hrec hrep)
    hcount (fun _ hi => Or.inl hi) (fun _ hi => Or.inr hi)) ?_ fun _ hi => hi
  rintro r u (⟨rfl, hu, hqu⟩ | ⟨e, he, rfl, hu⟩)
  · refine Or.inl ⟨rfl, hu, fun hqs => hqu ?_, fun hg => absurd hg (by omega)⟩
    rw [hq hqs]
    exact hqs
  · exact .of_failed (Or.inl ⟨e, he⟩) hu

end Calls

/-! ### Set and delete -/

/-- What setting a key does to the map: only a new key may find no room. -/
def setOutcome (cfg : KvConfig) (m : KvMap) (key value : Bytes) : Except Err Unit × KvMap :=
  if m.lookup key = none ∧ m.keys.card = cfg.maxRecords then (.error (kvErr .noResource), m)
  else (.ok (), m.insert key value)

/-- What `del` answers and what it leaves. -/
def delOutcome (m : KvMap) (key : Bytes) : Except Err Unit × KvMap :=
  if m.lookup key = none then (.error (kvErr .noResource), m) else (.ok (), m.erase key)

/-- The generation counts the successful mutations. -/
def nextGeneration (g : ℕ) : Except Err Unit → ℕ
  | .ok _ => g + 1
  | .error _ => g

section Set

variable (hM : KvMedium cfg D) {s : D.State} (hs : Ready cfg D s g m)
include hM hs

/-- `kv_set_locked` -/
theorem kvSetLocked_spec {key value : Bytes} (hk : KeyLenOk key)
    (hv : value.length ≤ cfg.maxValueLen)
    (hroom : (setOutcome cfg m key value).1 = .ok () → g + 1 < 2 ^ 64) :
    cwp D (kvSetLocked cfg key value)
      (Finished cfg D s g m (setOutcome cfg m key value).1
        (nextGeneration g (setOutcome cfg m key value).1) (setOutcome cfg m key value).2)
      (Between cfg g m (nextGeneration g (setOutcome cfg m key value).1)
        (setOutcome cfg m key value).2) s := by
  have hrec := kvMakeRecord_isValid hk hv
  have hentry := kvMakeRecord_entry hk hv
  refine Finished.loadCurrent hM hs fun t sb index ht hsel hq => ?_
  have htable := ht.view.table
  have hcard := htable.card_toNat
  have hfail : ∀ {r : Except Err Unit} {g'' : ℕ} {m'' : KvMap} (e : Err), Faulted D e →
      Finished cfg D s g m r g'' m'' (.error e) t := fun e he =>
    .of_failed (Or.inl he.fault) (Or.inl (Or.inl ht))
  have hcrash : ∀ {g'' : ℕ} {m'' : KvMap} (img : Image), D.crash t img →
      Between cfg g m g'' m'' img := fun img hi => Or.inl (ht.crash img hi).loads
  cases hlook : m.lookup key with
  | some v =>
    -- the slot of the key is overwritten
    have hout : setOutcome cfg m key value = (.ok (), m.insert key value) := by
      simp [setOutcome, hlook]
    obtain ⟨i, hi, hslot, hfind⟩ := kvFindRecord_reads_some
      (C := Between cfg g m (g + 1) (m.insert key value)) hM.readable hcrash htable hlook
    simp only [hout, nextGeneration]
    refine hfind.bind ?_ hfail
    refine Finished.transaction hM ht hq hsel (hroom (by rw [hout])) (Or.inl rfl) hi hrec ?_ ?_
    · rw [hentry]
      exact htable.entries.replace hi hslot
    · rw [hcard, card_insert_of_some hlook]
  | none =>
    by_cases hfull : m.keys.card = cfg.maxRecords
    · -- every slot is used
      have hout : setOutcome cfg m key value = (.error (kvErr .noResource), m) := by
        simp [setOutcome, hlook, hfull]
      simp only [hout, nextGeneration]
      refine (kvFindRecord_reads_none hM.readable hcrash htable hlook).bind ?_ hfail
      have hall := htable.entries.full_iff.mp hfull
      refine cwp_bind (cwp.mono (kvScanFree_spec hM.readable hcrash htable.valid cfg.maxRecords 0
        (by omega)) ?_ fun _ hi => hi)
      have hnone : firstFree (entries cfg (D.view t)) cfg.maxRecords 0 = none := by
        cases hf : firstFree (entries cfg (D.view t)) cfg.maxRecords 0 with
        | none => rfl
        | some i =>
          obtain ⟨-, h2, h3⟩ := firstFree_some hf
          have hsome := hall i (by omega)
          rw [show (recordAt cfg (D.view t) i).entry = none from h3] at hsome
          exact absurd hsome (by simp)
      rw [hnone]
      rintro r u ⟨rfl, rfl | ⟨-, rfl⟩⟩
      all_goals
        refine cwp_done (Or.inl ⟨rfl, ht, fun hqs => ?_, fun _ => hq⟩) hcrash
        rw [hq hqs]
        exact hqs
    · have hout : setOutcome cfg m key value = (.ok (), m.insert key value) := by
        simp [setOutcome, hfull]
      simp only [hout, nextGeneration]
      refine (kvFindRecord_reads_none hM.readable hcrash htable hlook).bind ?_ hfail
      refine cwp_bind (cwp.mono (kvScanFree_spec hM.readable hcrash htable.valid cfg.maxRecords 0
        (by omega)) ?_ fun _ hi => hi)
      rintro r u ⟨rfl, rfl | ⟨hfault, rfl⟩⟩
      · cases hf : firstFree (entries cfg (D.view u)) cfg.maxRecords 0 with
        | none =>
          refine absurd (htable.entries.full_iff.mpr fun i hi => ?_) hfull
          exact firstFree_none hf i (Nat.zero_le i) (by omega)
        | some i =>
          obtain ⟨-, hi, hfree⟩ := firstFree_some hf
          have hlt : i < cfg.maxRecords := by omega
          have hlecard := (htable.entries.add (v := value) hlt hfree hlook).card_le
          rw [card_insert_of_none hlook] at hlecard
          refine Finished.transaction hM ht hq hsel (hroom (by rw [hout])) (Or.inl rfl) hlt hrec ?_ ?_
          · rw [hentry]
            exact htable.entries.add hlt hfree hlook
          · rw [card_insert_of_none hlook, UInt32.toNat_add, hcard]
            have hmax := maxRecords_lt cfg
            exact Nat.mod_eq_of_lt (by change m.keys.card + 1 < 2 ^ 32; omega)
      · -- the search for a free slot failed
        exact cwp_done (.of_failed (Or.inl hfault) (Or.inl (Or.inl ht))) hcrash

/-- `kv_del_locked` -/
theorem kvDelLocked_spec {key : Bytes}
    (hroom : (delOutcome m key).1 = .ok () → g + 1 < 2 ^ 64) :
    cwp D (kvDelLocked cfg key)
      (Finished cfg D s g m (delOutcome m key).1 (nextGeneration g (delOutcome m key).1)
        (delOutcome m key).2)
      (Between cfg g m (nextGeneration g (delOutcome m key).1) (delOutcome m key).2) s := by
  refine Finished.loadCurrent hM hs fun t sb index ht hsel hq => ?_
  have htable := ht.view.table
  have hcrash : ∀ {g'' : ℕ} {m'' : KvMap} (img : Image), D.crash t img →
      Between cfg g m g'' m'' img := fun img hi => Or.inl (ht.crash img hi).loads
  have hfail : ∀ {r : Except Err Unit} {g'' : ℕ} {m'' : KvMap} (e : Err), Faulted D e →
      Finished cfg D s g m r g'' m'' (.error e) t := fun e he =>
    .of_failed (Or.inl he.fault) (Or.inl (Or.inl ht))
  cases hlook : m.lookup key with
  | none =>
    have hout : delOutcome m key = (.error (kvErr .noResource), m) := by simp [delOutcome, hlook]
    simp only [hout, nextGeneration]
    refine (kvFindRecord_reads_none hM.readable hcrash htable hlook).bind ?_ hfail
    refine cwp_done (Or.inl ⟨rfl, ht, fun hqs => ?_, fun _ => hq⟩) hcrash
    rw [hq hqs]
    exact hqs
  | some v =>
    have hout : delOutcome m key = (.ok (), m.erase key) := by simp [delOutcome, hlook]
    obtain ⟨i, hi, hslot, hfind⟩ := kvFindRecord_reads_some
      (C := Between cfg g m (g + 1) (m.erase key)) hM.readable hcrash htable hlook
    have hcard := card_erase_of_some hlook
    simp only [hout, nextGeneration]
    refine hfind.bind ?_ hfail
    refine Finished.transaction hM ht hq hsel (hroom (by rw [hout])) (Or.inr rfl) hi KvRecord.zero_isValid ?_ ?_
    · rw [KvRecord.zero_entry]
      exact htable.entries.remove hi hslot
    · -- the key is present, so the count is not zero and does not wrap down
      have hle : (1 : UInt32) ≤ .ofNat m.keys.card := by
        rw [UInt32.le_iff_toNat_le, htable.card_toNat]
        change 1 ≤ m.keys.card
        omega
      rw [UInt32.toNat_sub_of_le _ _ hle, htable.card_toNat]
      change m.keys.card - 1 = _
      omega

/-- `actrust_kv_set`, behind its lock. -/
theorem actrustKvSet_spec {key value : Bytes} (hk : KeyLenOk key)
    (hv : value.length ≤ cfg.maxValueLen)
    (hroom : (setOutcome cfg m key value).1 = .ok () → g + 1 < 2 ^ 64) :
    cwp D (actrustKvSet cfg key value)
      (Finished cfg D s g m (setOutcome cfg m key value).1
        (nextGeneration g (setOutcome cfg m key value).1) (setOutcome cfg m key value).2)
      (Between cfg g m (nextGeneration g (setOutcome cfg m key value).1)
        (setOutcome cfg m key value).2) s := by
  rw [actrustKvSet, if_neg (by rw [not_or, not_not, not_lt]; exact ⟨hk, hv⟩)]
  exact kvWithLock_spec hs (kvSetLocked_spec hM hs hk hv hroom)

/-- `actrust_kv_del`, behind its lock. -/
theorem actrustKvDel_spec {key : Bytes} (hk : KeyLenOk key)
    (hroom : (delOutcome m key).1 = .ok () → g + 1 < 2 ^ 64) :
    cwp D (actrustKvDel cfg key)
      (Finished cfg D s g m (delOutcome m key).1 (nextGeneration g (delOutcome m key).1)
        (delOutcome m key).2)
      (Between cfg g m (nextGeneration g (delOutcome m key).1) (delOutcome m key).2) s := by
  rw [actrustKvDel, if_neg (not_not.mpr hk)]
  exact kvWithLock_spec hs (kvDelLocked_spec hM hs hroom)

end Set

/-! ### Get and exists -/

/-- What reading a key gives: the length of its value, and the value itself if the buffer can
hold it. -/
def getOutcome (m : KvMap) (key : Bytes) (outCap : ℕ) : KvGetResult :=
  match m.lookup key with
  | none => ⟨.error (kvErr .noResource), none, none⟩
  | some v =>
    if outCap < v.length then ⟨.error (kvErr .bufTooSmall), some v.length, none⟩
    else ⟨.ok (), some v.length, some v⟩

/-- The value of an entry, read back with the length of the record. -/
theorem KvRecord.entry_some {r : KvRecord cfg} {key v : Bytes} (h : r.entry = some (key, v))
    (hvalid : kvRecordIsValid r) :
    r.head.valueLen.toNat = v.length ∧ r.value.1.take r.head.valueLen.toNat = v := by
  have hused : r.head.used = kvRecordInUse := KvRecord.entry_isSome.mp (by rw [h]; rfl)
  rw [KvRecord.entry, if_pos hused, Option.some.injEq, Prod.mk.injEq] at h
  obtain ⟨-, rfl⟩ := h
  refine ⟨?_, rfl⟩
  rw [KvRecord.valueBytes, List.length_take, ByteArr.length_val]
  exact (Nat.min_eq_left (kvRecordIsValid_valueLen hvalid hused)).symm

section Read

variable (hM : KvMedium cfg D) {s : D.State} (hs : Ready cfg D s g m)
include hM hs

/-- A call that recovers and then reads. -/
theorem Finished.reading {f : KvSuperblock × ℕ → Io Err α} {expected : Except Err α}
    (hread : ∀ t sb index, Resting cfg D t g m → (∀ img, D.crash t img → Between cfg g m g m img) →
      cwp D (f (sb, index)) (fun r u => u = t ∧ (r = expected ∨ ∃ e, Faulted D e ∧ r = .error e))
        (Between cfg g m g m) t) :
    cwp D (kvLoadCurrent cfg >>= f) (Finished cfg D s g m expected g m) (Between cfg g m g m) s := by
  refine Finished.loadCurrent hM hs fun t sb index ht _ hq => ?_
  have hcrash : ∀ img, D.crash t img → Between cfg g m g m img :=
    fun img hi => Or.inl (ht.crash img hi).loads
  refine cwp.mono (hread t sb index ht hcrash) ?_ fun _ hi => hi
  rintro r u ⟨rfl, rfl | ⟨e, he, rfl⟩⟩
  · refine Or.inl ⟨rfl, ht, fun hqs => ?_, fun _ => hq⟩
    rw [hq hqs]
    exact hqs
  · exact .of_failed (Or.inl he.fault) (Or.inl (Or.inl ht))

/-- `actrust_kv_exists` -/
theorem actrustKvExists_spec {key : Bytes} (hk : KeyLenOk key) :
    cwp D (actrustKvExists cfg key) (Finished cfg D s g m (.ok (m.lookup key).isSome) g m)
      (Between cfg g m g m) s := by
  rw [actrustKvExists, if_neg (not_not.mpr hk)]
  refine kvWithLock_spec hs (Finished.reading hM hs fun t sb index ht hcrash => ?_)
  cases hlook : m.lookup key with
  | none =>
    exact (kvFindRecord_reads_none hM.readable hcrash ht.view.table hlook).bind
      (cwp_done ⟨rfl, Or.inl rfl⟩ hcrash) fun e he => ⟨rfl, Or.inr ⟨e, he, rfl⟩⟩
  | some v =>
    obtain ⟨i, -, -, hfind⟩ := kvFindRecord_reads_some hM.readable hcrash ht.view.table hlook
    exact hfind.bind (cwp_done ⟨rfl, Or.inl rfl⟩ hcrash) fun e he => ⟨rfl, Or.inr ⟨e, he, rfl⟩⟩

/-- The body of a get: the length and perhaps the value, or the status of a missing key. -/
theorem kvGetLocked_spec {key : Bytes} {outCap : ℕ} :
    cwp D (kvGetLocked cfg key outCap) (Finished cfg D s g m
      (match m.lookup key with
        | none => .error (kvErr .noResource)
        | some v => .ok (v.length, if outCap < v.length then none else some v)) g m)
      (Between cfg g m g m) s := by
  refine Finished.reading hM hs fun t sb index ht hcrash => ?_
  -- an unreadable record ends the call with the error of the storage
  have hfault : ∀ {r : Except Err (ℕ × Option Bytes)} e, Faulted D e →
      t = t ∧ (.error e = r ∨ ∃ e', Faulted D e' ∧
        (.error e : Except Err (ℕ × Option Bytes)) = .error e') :=
    fun e he => ⟨rfl, Or.inr ⟨e, he, rfl⟩⟩
  cases hlook : m.lookup key with
  | none =>
    exact (kvFindRecord_reads_none hM.readable hcrash ht.view.table hlook).bind
      (cwp_done ⟨rfl, Or.inl rfl⟩ hcrash) hfault
  | some v =>
    obtain ⟨i, hi, hslot, hfind⟩ := kvFindRecord_reads_some hM.readable hcrash ht.view.table hlook
    refine hfind.bind ((kvReadRecord_reads hM.readable hcrash hi).bind ?_ hfault) hfault
    have hvalid := ht.view.table.valid i hi
    obtain ⟨hlen, hval⟩ := KvRecord.entry_some hslot hvalid
    simp only [hvalid, not_true_eq_false, if_false]
    rw [hval, hlen]
    exact cwp_done ⟨rfl, Or.inl rfl⟩ hcrash

/-- `actrust_kv_get` -/
theorem actrustKvGet_spec {key : Bytes} {outCap : ℕ} (hk : KeyLenOk key) :
    cwp D (actrustKvGet cfg key outCap)
      (Finished cfg D s g m (.ok (getOutcome m key outCap)) g m) (Between cfg g m g m) s := by
  have hcrash : ∀ img, D.crash s img → Between cfg g m g m img :=
    fun img hi => Or.inl (hs.crash img hi)
  rw [actrustKvGet, if_neg (not_not.mpr hk)]
  refine cwp_lock_attempt ?_ fun e he =>
    cwp_done (Or.inr ⟨Or.inr ⟨e, he⟩, fun h => absurd rfl h, Or.inl hs⟩) hcrash
  refine cwp_bind (cwp_attempt (cwp.mono (kvGetLocked_spec hM hs) ?_ fun _ hi => hi))
  intro r t ht
  refine cwp_unlock (cwp_done ?_ ht.crash) fun e he => cwp_done ?_ ht.crash
  · rcases ht with ⟨rfl, hrest⟩ | ⟨hfail, -, ht⟩
    · refine Or.inl ⟨congrArg Except.ok ?_, hrest⟩
      unfold getOutcome
      cases m.lookup key with
      -- the answer is put together after the unlock, from what the locked part found
      | none => rfl
      | some v =>
        by_cases hcap : outCap < v.length
        · simp only [if_pos hcap, kvGetAnswer]
        · simp only [if_neg hcap, kvGetAnswer]
    · exact Or.inr ⟨hfail, fun h => absurd rfl h, ht⟩
  · exact Or.inr ⟨Or.inr ⟨e, he⟩, fun h => absurd rfl h, ht.ready⟩

end Read

end TrustSdk.Kv
