import Mathlib.Data.List.Nodup
import Mathlib.Tactic.Common
import TrustSdk.Kv.Registry

/-!
# One lock for each storage

However the threads interleave and whatever the adapter answers, the lock of the registry is made
once and is not used before, each storage has one entry, and at most one thread is between
`kv_lock` and `kv_unlock` of it (`kv_registry_safe`).

* `Grows` — what a step of another thread leaves as it is, or adds to;
* `KvCallPc.Fact` — what a thread knows where it is; it is not lost when the registry grows;
* `Moves` — the balance of the locks with those that have them, which every step keeps
  (`step_moves`).
-/

namespace TrustSdk.Kv

open Machine

variable {map : List KvNsMap} {env : KvRegistryEnv} {s s' : KvRegistry} {pc : KvCallPc}

/-! ### The registry -/

/-- A change of one field leaves the other fields of a list. -/
theorem modify_map {α β : Type} (l : List α) (k : ℕ) {f : α → β} {g : α → α}
    (h : ∀ a, f (g a) = f a) : (l.modify k g).map f = l.map f := by
  apply List.ext_getElem?
  intro i
  rw [List.getElem?_map, List.getElem?_map, List.getElem?_modify]
  cases l[i]? with
  | none => rfl
  | some a =>
    by_cases hk : k = i
    · simp [hk, h]
    · simp [hk]

namespace KvRegistry

@[simp] theorem setLocked_ids (s : KvRegistry) (k : ℕ) (b : Bool) :
    (s.setLocked k b).ids = s.ids :=
  modify_map _ _ fun _ => rfl

@[simp] theorem setRefs_ids (s : KvRegistry) (k : ℕ) (f : ℕ → ℕ) :
    (s.setRefs k f).ids = s.ids :=
  modify_map _ _ fun _ => rfl

/-- Whether the entry `k` is locked. -/
def lockedAt (s : KvRegistry) (k : ℕ) : ℕ :=
  match s.namespaces[k]? with
  | some n => n.locked.toNat
  | none => 0

/-- A mutex is taken once at most. -/
theorem lockedAt_le (s : KvRegistry) (k : ℕ) : s.lockedAt k ≤ 1 := by
  unfold lockedAt
  split
  · exact Bool.toNat_le _
  · exact Nat.zero_le _

/-- The mutex that is set. -/
theorem setLocked_lockedAt_self {s : KvRegistry} {k : ℕ} {n : KvNamespace}
    (h : s.namespaces[k]? = some n) (b : Bool) : (s.setLocked k b).lockedAt k = b.toNat := by
  simp [lockedAt, setLocked, h]

/-- The mutexes of the other namespaces. -/
theorem setLocked_lockedAt_ne (s : KvRegistry) {k j : ℕ} (hj : k ≠ j) (b : Bool) :
    (s.setLocked k b).lockedAt j = s.lockedAt j := by
  simp [lockedAt, setLocked, hj]

@[simp] theorem setRefs_lockedAt (s : KvRegistry) (k : ℕ) (f : ℕ → ℕ) (j : ℕ) :
    (s.setRefs k f).lockedAt j = s.lockedAt j := by
  by_cases hj : k = j
  · subst hj
    simp only [lockedAt, setRefs, List.getElem?_modify]
    cases s.namespaces[k]? with
    | none => rfl
    | some n => simp
  · simp [lockedAt, setRefs, hj]

/-- An entry that is new is not locked. -/
theorem append_lockedAt (s : KvRegistry) (id : UInt32) (j : ℕ) :
    ({ s with namespaces := s.namespaces ++ [⟨id, false, 0⟩] } : KvRegistry).lockedAt j =
      s.lockedAt j := by
  simp only [lockedAt]
  rcases lt_trichotomy j s.namespaces.length with hlt | rfl | hgt
  · rw [List.getElem?_append_left hlt]
  · rw [List.getElem?_concat_length, List.getElem?_eq_none le_rfl]
    rfl
  · rw [List.getElem?_eq_none (by simpa using Nat.succ_le_of_lt hgt), List.getElem?_eq_none hgt.le]

/-- Nothing of what threads rely on is taken back. -/
structure Grows (s s' : KvRegistry) : Prop where
  ready : s.initState = .ready → s'.initState = .ready
  lock : s.lock.isSome = true → s'.lock.isSome = true
  ids : s.ids <+: s'.ids
  handles : s.handles.map KvHandle.id <+: s'.handles.map KvHandle.id

/-- The registry has grown by nothing. -/
theorem Grows.refl (s : KvRegistry) : Grows s s :=
  ⟨fun h => h, fun h => h, List.prefix_rfl, List.prefix_rfl⟩

/-- A namespace keeps its place. -/
theorem Grows.get (h : Grows s s') {k : ℕ} {id : UInt32} (hk : s.ids[k]? = some id) :
    s'.ids[k]? = some id := by
  obtain ⟨rest, hrest⟩ := h.ids
  obtain ⟨hlt, -⟩ := List.getElem?_eq_some_iff.mp hk
  rw [← hrest, List.getElem?_append_left hlt, hk]

/-- A namespace stays registered. -/
theorem Grows.mem (h : Grows s s') {id : UInt32} (hid : id ∈ s.ids) : id ∈ s'.ids :=
  h.ids.subset hid

/-- What is looked up is there. -/
theorem kvNamespaceFind_some {id : UInt32} (h : id ∈ s.ids) :
    ∃ k, s.kvNamespaceFind id = some k ∧ s.ids[k]? = some id := by
  cases hk : s.kvNamespaceFind id with
  | none => exact absurd (List.findIdx?_eq_none_iff.mp hk id h) (by simp)
  | some k =>
    obtain ⟨hlt, heq, -⟩ := List.findIdx?_eq_some_iff_getElem.mp hk
    refine ⟨k, rfl, ?_⟩
    rw [List.getElem?_eq_getElem hlt]
    exact congrArg some (beq_iff_eq.mp heq)

end KvRegistry

/-! ### What a thread knows -/

/-- The id `actrust_kv_open` looks for stands in the map. -/
def KvPurpose.Known (map : List KvNsMap) : KvPurpose → Prop
  | .init => True
  | .open id => ∃ entry ∈ map, entry.id = id

/-- Every storage of the map has its entry. -/
def Complete (map : List KvNsMap) (s : KvRegistry) : Prop := ∀ entry ∈ map, entry.id ∈ s.ids

/-- An initialisation knows that the registry is complete. -/
def KvJob.Prepared (map : List KvNsMap) (s : KvRegistry) (job : KvJob) : Prop :=
  ∀ i, job = .init i → Complete map s

/-- The entry `k` is that of the storage that the job is about. -/
structure KvJob.Has (map : List KvNsMap) (s : KvRegistry) (job : KvJob) (k : ℕ) : Prop where
  entry : ∃ id, job.storage map s = some id ∧ s.ids[k]? = some id
  prepared : job.Prepared map s

/-- What a call knows of the registry where it stands. -/
def KvCallPc.Fact (map : List KvNsMap) (s : KvRegistry) : KvCallPc → Prop
  | .spinning purpose | .competing purpose | .creating purpose => purpose.Known map
  | .resetting _ => True
  | .publishing purpose => purpose.Known map ∧ s.lock.isSome = true
  | .locking purpose => purpose.Known map ∧ s.initState = .ready
  | .registering purpose i =>
    (purpose.Known map ∧ s.initState = .ready) ∧
      ∀ j < i, ∀ entry, map[j]? = some entry → entry.id ∈ s.ids
  | .unlocking purpose result =>
    (purpose.Known map ∧ s.initState = .ready) ∧ (result = none → Complete map s)
  | .opening job => (∃ id, job.storage map s = some id ∧ id ∈ s.ids) ∧ job.Prepared map s
  | .starting job => (∃ handle, job = .operate handle ∨ job = .close handle)
  | .entering job shared => ∃ k, shared = some k ∧ job.Has map s k
  | .inside job k | .leaving job k _ | .finishing job k _ => job.Has map s k
  | .returned _ => True

/-- Every handle has the entry of its storage. -/
def HandlesOk (s : KvRegistry) : Prop :=
  ∀ h ∈ s.handles, ∃ k, h.shared = some k ∧ s.ids[k]? = some h.id

section Mono

variable (h : s.Grows s')

include h

/-- A complete registry stays complete. -/
theorem Complete.mono (hc : Complete map s) : Complete map s' :=
  fun entry hentry => h.mem (hc entry hentry)

/-- What the initialisation has prepared stays prepared. -/
theorem KvJob.Prepared.mono {job : KvJob} (hp : job.Prepared map s) : job.Prepared map s' :=
  fun i hi => (hp i hi).mono h

/-- The storage a job works on stays the same. -/
theorem KvJob.storage_mono {job : KvJob} {id : UInt32} (hid : job.storage map s = some id) :
    job.storage map s' = some id := by
  have hhandle : ∀ k : ℕ, s.handles[k]?.map KvHandle.id = some id →
      s'.handles[k]?.map KvHandle.id = some id := by
    intro k hk
    rw [← List.getElem?_map] at hk ⊢
    obtain ⟨rest, hrest⟩ := h.handles
    obtain ⟨hlt, -⟩ := List.getElem?_eq_some_iff.mp hk
    rw [← hrest, List.getElem?_append_left hlt, hk]
  cases job with
  | init i => exact hid
  | «open» other => exact hid
  | operate handle => exact hhandle handle hid
  | close handle => exact hhandle handle hid

/-- The namespace of a job stays its namespace. -/
theorem KvJob.Has.mono {job : KvJob} {k : ℕ} (hjob : job.Has map s k) : job.Has map s' k := by
  obtain ⟨⟨id, hid, hk⟩, hprepared⟩ := hjob
  exact ⟨⟨id, KvJob.storage_mono h hid, h.get hk⟩, hprepared.mono h⟩

/-- What a thread knows is not lost when others go on. -/
-- every fact is about what only grows: the lock exists, the state is ready, an id is registered
theorem KvCallPc.Fact.mono (hf : pc.Fact map s) : pc.Fact map s' := by
  cases pc with
  | spinning purpose => exact hf
  | competing purpose => exact hf
  | creating purpose => exact hf
  | resetting e => exact hf
  | publishing purpose => exact ⟨hf.1, h.lock hf.2⟩
  | locking purpose => exact ⟨hf.1, h.ready hf.2⟩
  | registering purpose i =>
    exact ⟨⟨hf.1.1, h.ready hf.1.2⟩, fun j hj entry hentry => h.mem (hf.2 j hj entry hentry)⟩
  | unlocking purpose result =>
    exact ⟨⟨hf.1.1, h.ready hf.1.2⟩, fun hr => (hf.2 hr).mono h⟩
  | opening job =>
    obtain ⟨⟨id, hid, hmem⟩, hprepared⟩ := hf
    exact ⟨⟨id, KvJob.storage_mono h hid, h.mem hmem⟩, hprepared.mono h⟩
  | starting job => exact hf
  | entering job shared =>
    obtain ⟨k, hk, hjob⟩ := hf
    exact ⟨k, hk, hjob.mono h⟩
  | inside job k => exact KvJob.Has.mono h hf
  | leaving job k result => exact KvJob.Has.mono h hf
  | finishing job k result => exact KvJob.Has.mono h hf
  | returned result => exact hf

/-- The handles are sound as long as they are not touched. -/
theorem handlesOk_mono (hs : HandlesOk s) (hh : s'.handles = s.handles) : HandlesOk s' := by
  intro handle hhandle
  rw [hh] at hhandle
  obtain ⟨k, hk, hid⟩ := hs handle hhandle
  exact ⟨k, hk, h.get hid⟩

end Mono

/-! ### Steps of a thread -/

/-- Nothing but flags and counters changed. -/
theorem grows_of_eq (hlock : s.lock.isSome = true → s'.lock.isSome = true)
    (hready : s.initState = .ready → s'.initState = .ready) (hids : s'.ids = s.ids)
    (hhandles : s'.handles.map KvHandle.id = s.handles.map KvHandle.id) : s.Grows s' :=
  ⟨hready, hlock, hids ▸ List.prefix_rfl, hhandles ▸ List.prefix_rfl⟩

/-- Entering a namespace keeps what is registered. -/
theorem lockShared_grows (job : KvJob) (shared : Option ℕ) :
    s.Grows (lockShared env s job shared).1 := by
  unfold lockShared
  split
  · exact .refl s
  split
  · exact .refl s
  split
  · exact .refl s
  split
  · exact .refl s
  · exact grows_of_eq (fun h => h) (fun h => h) (s.setLocked_ids _ _) rfl

/-- So does the work inside it. -/
theorem useStorage_grows (job : KvJob) (k : ℕ) : s.Grows (useStorage env s job k).1 := by
  unfold useStorage
  split
  · split
    · exact grows_of_eq (fun h => h) (fun h => h) (s.setRefs_ids _ _) rfl
    · exact .refl s
  · exact grows_of_eq (fun h => h) (fun h => h) (s.setRefs_ids _ _) rfl
  · exact .refl s

/-- So does leaving it. -/
theorem unlockShared_grows (job : KvJob) (k : ℕ) (result : Option Err) :
    s.Grows (unlockShared env s job k result).1 := by
  unfold unlockShared
  split
  · exact grows_of_eq (fun h => h) (fun h => h) (s.setLocked_ids _ _) rfl
  · exact .refl s

/-- So does the end of a call. -/
theorem finishJob_grows (k : ℕ) (result : Option Err) (job : KvJob) :
    s.Grows (finishJob map env s k result job).1 := by
  unfold finishJob
  split
  · split
    · exact .refl s
    · exact .refl s
  · split
    · exact .refl s
    · refine ⟨fun h => h, fun h => h, List.prefix_rfl, ?_⟩
      simp only [List.map_append]
      exact List.prefix_append _ _
  · exact .refl s
  · exact grows_of_eq (fun h => h) (fun h => h) rfl (modify_map _ _ fun _ => rfl)

/-- A step takes nothing back. -/
-- the namespaces are appended to and never removed, the once state only moves forward
theorem KvCallPc.step_grows (map : List KvNsMap) (env : KvRegistryEnv) (s : KvRegistry)
    (pc : KvCallPc) : s.Grows (pc.step map env s).1 := by
  cases pc with
  -- The flag is read; nothing is written.
  | spinning purpose =>
    simp only [KvCallPc.step]
    split <;> exact .refl s
  | competing purpose =>
    simp only [KvCallPc.step]
    split
    · -- The compare-and-swap begins the making, and the lock is not there yet.
      rename_i hunset
      exact grows_of_eq (fun h => h) (fun h => by rw [hunset] at h; cases h) rfl rfl
    · exact .refl s
  | creating purpose =>
    simp only [KvCallPc.step]
    -- A mutex that cannot be made leaves no trace but the flag.
    split
    · exact .refl s
    · exact grows_of_eq (fun _ => rfl) (fun h => h) rfl rfl
  | resetting e =>
    refine grows_of_eq (fun h => h) (fun h => ?_) rfl rfl
    simp [KvCallPc.step, h]
  | publishing purpose => exact grows_of_eq (fun h => h) (fun _ => rfl) rfl rfl
  -- The lock fails, is missing, is held, or is taken.
  | locking purpose =>
    simp only [KvCallPc.step]
    split
    · exact .refl s
    split
    · exact grows_of_eq (fun h => h) (fun h => h) rfl rfl
    · exact .refl s
    · exact grows_of_eq (fun _ => rfl) (fun h => h) rfl rfl
  -- An entry is made where there was none, at the end of the list.
  | registering purpose i =>
    simp only [KvCallPc.step]
    split
    · exact .refl s
    split
    · exact .refl s
    split
    · exact .refl s
    split
    · exact .refl s
    · refine ⟨fun h => h, fun h => h, ?_, List.prefix_rfl⟩
      simp only [KvRegistry.ids, List.map_append]
      exact List.prefix_append _ _
  | unlocking purpose result =>
    simp only [KvCallPc.step]
    split
    · exact grows_of_eq (fun _ => rfl) (fun h => h) rfl rfl
    · exact .refl s
  | opening job => exact .refl s
  | starting job =>
    simp only [KvCallPc.step]
    repeat' split
    all_goals exact .refl s
  -- Entering, inside and leaving write a handle, by their own lemmas.
  | entering job shared => exact lockShared_grows job shared
  | inside job k => exact useStorage_grows job k
  | leaving job k result => exact unlockShared_grows job k result
  | finishing job k result => exact finishJob_grows k result job
  | returned result => exact .refl s

/-! ### What a thread knows behind its step -/

/-- At its next entry the initialisation knows that the map is registered. -/
theorem initFrom_fact (hc : Complete map s) (i : ℕ) : (initFrom map i).Fact map s := by
  unfold initFrom
  split
  · rename_i hlt
    have hentry : map[i] ∈ map := List.getElem_mem hlt
    refine ⟨⟨map[i].id, ?_, hc _ hentry⟩, fun _ _ => hc⟩
    rw [KvJob.storage, List.getElem?_eq_getElem hlt, Option.map_some]
  · trivial

/-- Behind the initialisation the purpose of the call is prepared. -/
theorem prepared_fact {purpose : KvPurpose} (hknown : purpose.Known map) (hc : Complete map s) :
    (purpose.prepared map).Fact map s := by
  cases purpose with
  | init => exact initFrom_fact hc 0
  | «open» id =>
    obtain ⟨entry, hentry, rfl⟩ := hknown
    exact ⟨⟨entry.id, rfl, hc entry hentry⟩, by rintro i ⟨⟩⟩

/-- The namespace that is found is the one of the job. -/
theorem openStorage_fact {job : KvJob} (hf : (KvCallPc.opening job).Fact map s) :
    (openStorage map env s job).Fact map s := by
  obtain ⟨⟨id, hid, hmem⟩, hprepared⟩ := hf
  -- the id is registered, so the lookup cannot come back empty
  obtain ⟨k, hfind, hk⟩ := KvRegistry.kvNamespaceFind_some hmem
  have hhas : job.Has map s k := ⟨⟨id, hid, hk⟩, hprepared⟩
  unfold openStorage
  split
  · rename_i other
    obtain rfl := Option.some.inj hid
    split
    · trivial
    split
    · trivial
    · exact ⟨k, hfind, hhas⟩
  · split
    · trivial
    · refine ⟨k, ?_, hhas⟩
      rw [hid, Option.bind_some, hfind]

/-- Inside the mutex the call still knows its namespace. -/
theorem lockShared_fact {job : KvJob} {k : ℕ} (hjob : job.Has map s k) :
    (lockShared env s job (some k)).2.Fact map s := by
  simp only [lockShared]
  split
  · trivial
  split
  · trivial
  split
  · exact ⟨k, rfl, hjob⟩
  · exact hjob

/-- So it does after the work. -/
theorem useStorage_fact {job : KvJob} {k : ℕ} (hjob : job.Has map s k) :
    (useStorage env s job k).2.Fact map s := by
  unfold useStorage
  split
  · exact hjob
  · exact hjob
  · exact hjob

/-- An open that ends well hands out a handle of its namespace. -/
theorem finishJob_fact {job : KvJob} {k : ℕ} (hjob : job.Has map s k) (result : Option Err) :
    (finishJob map env s k result job).2.Fact map s := by
  unfold finishJob
  split
  · split
    · trivial
    · exact initFrom_fact (hjob.prepared _ rfl) _
  · split
    · trivial
    · trivial
  · trivial
  · trivial

/-- Registering an entry, or finding it registered, goes on to the next one. -/
theorem registering_fact {purpose : KvPurpose} {i : ℕ}
    (hf : (KvCallPc.registering purpose i).Fact map s) :
    ((KvCallPc.registering purpose i).step map env s).2.Fact map
      ((KvCallPc.registering purpose i).step map env s).1 := by
  have hgrows := (KvCallPc.registering purpose i).step_grows map env s
  obtain ⟨hknown, hbefore⟩ := hf
  -- the entries before `i` are registered, and this one is then as well
  have hnext : ∀ {t : KvRegistry} {entry : KvNsMap}, map[i]? = some entry → entry.id ∈ t.ids →
      s.Grows t → ∀ j < i + 1, ∀ e, map[j]? = some e → e.id ∈ t.ids := by
    intro t entry hentry hmem ht j hj e he
    rcases Nat.lt_succ_iff_lt_or_eq.mp hj with hlt | rfl
    · exact ht.mem (hbefore j hlt e he)
    · rw [hentry] at he
      rwa [← Option.some.inj he]
  simp only [KvCallPc.step] at hgrows ⊢
  -- Past the last entry: every one of them is registered.
  split at hgrows
  · rename_i hnone
    refine ⟨hknown, fun _ entry hentry => ?_⟩
    obtain ⟨j, hlt, rfl⟩ := List.mem_iff_getElem.mp hentry
    have hle : map.length ≤ i := List.getElem?_eq_none_iff.mp hnone
    exact hbefore j (hlt.trans_le hle) _ (List.getElem?_eq_getElem hlt)
  · rename_i entry hentry
    -- This one is registered already.
    split at hgrows
    · rename_i hmem
      rw [if_pos hmem]
      exact ⟨hknown, hnext hentry hmem (.refl s)⟩
    · rename_i hmem
      rw [if_neg hmem]
      -- No room, or no handle: the call ends in an error.
      split at hgrows
      · rename_i hfull
        rw [if_pos hfull]
        exact ⟨hknown, by rintro ⟨⟩⟩
      · rename_i hfull
        rw [if_neg hfull]
        split at hgrows
        · exact ⟨hknown, by rintro ⟨⟩⟩
        · exact ⟨hknown, hnext hentry (by simp [KvRegistry.ids]) hgrows⟩

/-- A handle names the namespace of its id. -/
theorem entering_fact {job : KvJob} {handle : ℕ} {h : KvHandle}
    (hjob : job.storage map s = s.handles[handle]?.map KvHandle.id) (hprepared : job.Prepared map s)
    (hh : HandlesOk s) (hget : s.handles[handle]? = some h) :
    (KvCallPc.entering job h.shared).Fact map s := by
  obtain ⟨k, hk, hid⟩ := hh h (List.mem_of_getElem? hget)
  refine ⟨k, hk, ⟨h.id, ?_, hid⟩, hprepared⟩
  rw [hjob, hget, Option.map_some]

/-- What a thread knows behind its step. -/
theorem KvCallPc.step_fact (hf : pc.Fact map s) (hh : HandlesOk s) :
    (pc.step map env s).2.Fact map (pc.step map env s).1 := by
  cases pc with
  | spinning purpose =>
    simp only [KvCallPc.step]
    -- The call goes on to the lock only where the flag says READY.
    split
    · rename_i hready
      exact ⟨hf, hready⟩
    · exact hf
    · exact hf
  | competing purpose =>
    simp only [KvCallPc.step]
    split
    · exact hf
    · exact hf
  | creating purpose =>
    simp only [KvCallPc.step]
    -- A lock that was made is there for the call to publish.
    split
    · trivial
    · exact ⟨hf, rfl⟩
  | resetting e => trivial
  | publishing purpose => exact ⟨hf.1, rfl⟩
  | locking purpose =>
    -- The lock answers an error, is missing, or is held by another call.
    simp only [KvCallPc.step]
    split
    · trivial
    split
    · trivial
    · exact hf
    · split
      · exact ⟨hf, by rintro ⟨⟩⟩
      · -- Holding the lock, it begins with the first entry.
        exact ⟨hf, fun j hj => absurd hj (Nat.not_lt_zero j)⟩
  | registering purpose i => exact registering_fact hf
  | unlocking purpose result =>
    have hgrows := (KvCallPc.unlocking purpose result).step_grows map env s
    simp only [KvCallPc.step] at hgrows ⊢
    generalize (if env.unlock = none then _ else s) = t at hgrows ⊢
    -- The unlock failed, or the call goes on with the handle it found.
    split
    · trivial
    · rename_i hnone
      have hresult : result = none := by
        cases result with
        | none => rfl
        | some e => cases hnone
      exact prepared_fact hf.1.1 ((hf.2 hresult).mono hgrows)
  -- The store behind the handle is opened or found open.
  | opening job => exact openStorage_fact hf
  | starting job =>
    -- both kinds of call take what the handle says
    obtain ⟨handle, rfl | rfl⟩ := hf
    all_goals
      simp only [KvCallPc.step]
      split
      · rename_i h hget
        split
        · trivial
        · exact entering_fact rfl (by rintro i ⟨⟩) hh hget
      · trivial
  -- Where the call is inside, what it uses is the handle's own.
  | entering job shared =>
    obtain ⟨k, rfl, hjob⟩ := hf
    exact (lockShared_fact hjob).mono (lockShared_grows job (some k))
  | inside job k => exact (useStorage_fact hf).mono (useStorage_grows job k)
  | leaving job k result => exact KvJob.Has.mono (unlockShared_grows job k result) hf
  | finishing job k result => exact (finishJob_fact hf result).mono (finishJob_grows k result job)
  | returned result => trivial

/-! ### What a thread holds -/

namespace KvRegistry

/-- Whether a thread has set out to make the lock. -/
def begun (s : KvRegistry) : ℕ := if s.initState = .unset then 0 else 1

/-- Whether a thread is about it. -/
def underway (s : KvRegistry) : ℕ := if s.initState = .creating then 1 else 0

/-- Whether the lock is there. -/
def made (s : KvRegistry) : ℕ := s.lock.isSome.toNat

/-- Whether the lock is held. -/
def held (s : KvRegistry) : ℕ := if s.lock = some true then 1 else 0

/-- The once state has begun or not. -/
theorem begun_le (s : KvRegistry) : s.begun ≤ 1 := by
  unfold begun
  split
  · exact Nat.zero_le _
  · exact le_rfl

/-- The creation is underway or not. -/
theorem underway_le (s : KvRegistry) : s.underway ≤ 1 := by
  unfold underway
  split
  · exact le_rfl
  · exact Nat.zero_le _

/-- The global lock is held or not. -/
theorem held_le (s : KvRegistry) : s.held ≤ 1 := by
  unfold held
  split
  · exact le_rfl
  · exact Nat.zero_le _

/-- One lock was made. -/
theorem made_eq_one : s.made = 1 ↔ s.lock.isSome = true := by
  simp [made]

/-- None was made. -/
theorem made_eq_zero : s.made = 0 ↔ s.lock = none := by
  simp [made]

end KvRegistry

namespace KvCallPc

/-- About to make the lock of the registry, -/
def making : KvCallPc → ℕ
  | .creating _ | .resetting _ | .publishing _ => 1
  | _ => 0

/-- and without having made it. -/
def forging : KvCallPc → ℕ
  | .creating _ | .resetting _ => 1
  | _ => 0

/-- With the lock of the registry. -/
def holding : KvCallPc → ℕ
  | .registering _ _ | .unlocking _ _ => 1
  | _ => 0

/-- With the lock of the entry `k`. -/
def insideAt (k : ℕ) : KvCallPc → ℕ
  | .inside _ j | .leaving _ j _ => if j = k then 1 else 0
  | _ => 0

/-- With nothing in hand. -/
structure Idle (pc : KvCallPc) : Prop where
  making : pc.making = 0
  forging : pc.forging = 0
  holding : pc.holding = 0
  inside : ∀ k, pc.insideAt k = 0

end KvCallPc

/-- At its next entry the initialisation owns nothing. -/
theorem initFrom_idle (i : ℕ) : (initFrom map i).Idle := by
  unfold initFrom
  split
  · exact ⟨rfl, rfl, rfl, fun _ => rfl⟩
  · exact ⟨rfl, rfl, rfl, fun _ => rfl⟩

/-- Behind the initialisation a call owns nothing. -/
theorem prepared_idle (purpose : KvPurpose) : (purpose.prepared map).Idle := by
  cases purpose with
  | init => exact initFrom_idle 0
  | «open» id => exact ⟨rfl, rfl, rfl, fun _ => rfl⟩

/-- Before the mutex of its namespace a call owns nothing. -/
theorem openStorage_idle (job : KvJob) : (openStorage map env s job).Idle := by
  unfold openStorage
  repeat' split
  all_goals exact ⟨rfl, rfl, rfl, fun _ => rfl⟩

/-- A call that starts owns nothing. -/
theorem enter_idle (map : List KvNsMap) (call : KvApi) : (call.enter map).Idle := by
  unfold KvApi.enter
  repeat' split
  all_goals exact ⟨rfl, rfl, rfl, fun _ => rfl⟩

/-- What a step of a thread does to the locks and the entries: it comes to hold no more than the
registry lets go of. -/
structure Moves (s : KvRegistry) (pc : KvCallPc) (s' : KvRegistry) (pc' : KvCallPc) : Prop where
  making : pc'.making + s.underway ≤ pc.making + s'.underway
  forging : pc'.forging + s'.made + s.begun ≤ pc.forging + s.made + s'.begun
  holding : pc'.holding + s.held ≤ pc.holding + s'.held
  inside : ∀ k, pc'.insideAt k + s.lockedAt k ≤ pc.insideAt k + s'.lockedAt k
  created : s'.created + s.made = s.created + s'.made
  ready : s'.initState = .ready → s'.made = 1
  fault : s'.fault = s.fault
  ids : s'.ids = s.ids ∨ ∃ id, id ∉ s.ids ∧ s.ids.length < kvRegistrySize ∧ s'.ids = s.ids ++ [id]

/-- The handles play no part in who owns what. -/
theorem Moves.handles {pc' : KvCallPc} (h : Moves s pc s' pc') (handles : List KvHandle) :
    Moves s pc { s' with handles := handles } pc' :=
  ⟨h.making, h.forging, h.holding, h.inside, h.created, h.ready, h.fault, h.ids⟩

section Moves

variable {pc' : KvCallPc} (hready : s.initState = .ready → s.made = 1)

include hready

/-- A step that changes nothing in the registry, and takes no lock. -/
theorem Moves.quiet (hmaking : pc'.making ≤ pc.making) (hforging : pc'.forging ≤ pc.forging)
    (hholding : pc'.holding ≤ pc.holding) (hinside : ∀ k, pc'.insideAt k ≤ pc.insideAt k) :
    Moves s pc s pc' where
  making := Nat.add_le_add_right hmaking _
  forging := Nat.add_le_add_right (Nat.add_le_add_right hforging _) _
  holding := Nat.add_le_add_right hholding _
  inside k := Nat.add_le_add_right (hinside k) _
  created := rfl
  ready := hready
  fault := rfl
  ids := .inl rfl

/-- A step that changes nothing and leaves the call without a lock. -/
theorem Moves.idle (h : pc'.Idle) : Moves s pc s pc' :=
  .quiet hready (h.making ▸ Nat.zero_le _) (h.forging ▸ Nat.zero_le _) (h.holding ▸ Nat.zero_le _)
    fun k => h.inside k ▸ Nat.zero_le _

/-- A lock that is free is taken. -/
theorem lockShared_moves (job : KvJob) (shared : Option ℕ) :
    Moves s (.entering job shared) (lockShared env s job shared).1
      (lockShared env s job shared).2 := by
  -- the guards of `actrust_lock`, in the order of the source; only the last case takes the mutex
  unfold lockShared
  split
  · exact .idle hready ⟨rfl, rfl, rfl, fun _ => rfl⟩
  · rename_i k
    split
    · exact .idle hready ⟨rfl, rfl, rfl, fun _ => rfl⟩
    rename_i n hn
    split
    · exact .idle hready ⟨rfl, rfl, rfl, fun _ => rfl⟩
    split
    · exact .idle hready ⟨rfl, rfl, rfl, fun _ => rfl⟩
    · rename_i hfree
      -- the mutex was free, so no call was inside the namespace
      have hzero : s.lockedAt k = 0 := by simp [KvRegistry.lockedAt, hn, hfree]
      refine ⟨le_rfl, le_rfl, le_rfl, fun j => ?_, rfl, hready, rfl, .inl (s.setLocked_ids k true)⟩
      by_cases hj : k = j
      · subst hj
        rw [KvRegistry.setLocked_lockedAt_self hn, hzero]
        simp [KvCallPc.insideAt]
      · rw [s.setLocked_lockedAt_ne hj]
        simp [KvCallPc.insideAt, hj]

/-- A counter changes and nothing else. -/
theorem setRefs_moves (job : KvJob) (k : ℕ) (f : ℕ → ℕ) (result : Option Err) :
    Moves s (.inside job k) (s.setRefs k f) (.leaving job k result) where
  making := le_rfl
  forging := le_rfl
  holding := le_rfl
  inside j := by rw [s.setRefs_lockedAt]; exact le_rfl
  created := rfl
  ready := hready
  fault := rfl
  ids := .inl (s.setRefs_ids k f)

/-- The work inside a namespace. -/
theorem useStorage_moves (job : KvJob) (k : ℕ) :
    Moves s (.inside job k) (useStorage env s job k).1 (useStorage env s job k).2 := by
  unfold useStorage
  split
  · split
    · exact setRefs_moves hready _ k (· + 1) env.work
    · exact .quiet hready le_rfl le_rfl le_rfl fun _ => le_rfl
  · exact setRefs_moves hready _ k (· - 1) env.storageClose
  · exact .quiet hready le_rfl le_rfl le_rfl fun _ => le_rfl

/-- The lock is given back, or it stays held. -/
theorem unlockShared_moves (job : KvJob) (k : ℕ) (result : Option Err) :
    Moves s (.leaving job k result) (unlockShared env s job k result).1
      (unlockShared env s job k result).2 := by
  unfold unlockShared
  split
  · refine ⟨le_rfl, le_rfl, le_rfl, fun j => ?_, rfl, hready, rfl, .inl (s.setLocked_ids k false)⟩
    by_cases hj : k = j
    -- the thread gives up what it has, whether or not the entry was locked
    · have hle := s.lockedAt_le j
      simp only [KvCallPc.insideAt, if_pos hj]
      omega
    · rw [s.setLocked_lockedAt_ne hj]
      simp [KvCallPc.insideAt, hj]
  · exact .idle hready ⟨rfl, rfl, rfl, fun _ => rfl⟩

/-- The end of a call. -/
theorem finishJob_moves (job : KvJob) (k : ℕ) (result : Option Err) :
    Moves s (.finishing job k result) (finishJob map env s k result job).1
      (finishJob map env s k result job).2 := by
  unfold finishJob
  split
  · split
    · exact .idle hready ⟨rfl, rfl, rfl, fun _ => rfl⟩
    · exact .idle hready (initFrom_idle _)
  · split
    · exact .idle hready ⟨rfl, rfl, rfl, fun _ => rfl⟩
    · exact (Moves.idle hready ⟨rfl, rfl, rfl, fun _ => rfl⟩).handles _
  · exact .idle hready ⟨rfl, rfl, rfl, fun _ => rfl⟩
  · exact (Moves.idle hready ⟨rfl, rfl, rfl, fun _ => rfl⟩).handles _

/-- A storage of the map that has no entry yet gets one. -/
theorem registering_moves (purpose : KvPurpose) (i : ℕ) :
    Moves s (.registering purpose i) ((KvCallPc.registering purpose i).step map env s).1
      ((KvCallPc.registering purpose i).step map env s).2 := by
  -- an id is appended only under the lock, when it is new and there is room for it
  simp only [KvCallPc.step]
  split
  · exact .quiet hready le_rfl le_rfl le_rfl fun _ => le_rfl
  rename_i entry hentry
  split
  · exact .quiet hready le_rfl le_rfl le_rfl fun _ => le_rfl
  rename_i hnew
  split
  · exact .quiet hready le_rfl le_rfl le_rfl fun _ => le_rfl
  rename_i hroom
  split
  · exact .quiet hready le_rfl le_rfl le_rfl fun _ => le_rfl
  · refine ⟨le_rfl, le_rfl, le_rfl, fun j => ?_, rfl, hready, rfl, .inr ⟨entry.id, hnew, ?_, ?_⟩⟩
    · rw [s.append_lockedAt]
      exact le_rfl
    · rw [KvRegistry.ids, List.length_map]
      exact not_le.mp hroom
    · simp [KvRegistry.ids]

/-- The lock of the registry is made where there is none. -/
theorem creating_moves (purpose : KvPurpose) (hnone : s.lock = none) :
    Moves s (.creating purpose) ((KvCallPc.creating purpose).step map env s).1
      ((KvCallPc.creating purpose).step map env s).2 := by
  simp only [KvCallPc.step]
  split
  · exact .quiet hready le_rfl le_rfl le_rfl fun _ => le_rfl
  · have hmade : s.made = 0 := KvRegistry.made_eq_zero.mpr hnone
    refine ⟨le_rfl, ?_, ?_, fun _ => le_rfl, ?_, fun _ => rfl, rfl, .inl rfl⟩
    · show 0 + 1 + s.begun ≤ 1 + s.made + s.begun
      omega
    · simp [KvCallPc.holding, KvRegistry.held, hnone]
    · show s.created + 1 + s.made = s.created + 1
      rw [hmade]

/-- The lock of the registry is only taken when it is there. -/
theorem locking_moves {purpose : KvPurpose} (hf : (KvCallPc.locking purpose).Fact map s) :
    Moves s (.locking purpose) ((KvCallPc.locking purpose).step map env s).1
      ((KvCallPc.locking purpose).step map env s).2 := by
  -- behind the published state the lock exists, so the second case cannot arise
  have hmade : s.lock.isSome = true := KvRegistry.made_eq_one.mp (hready hf.2)
  simp only [KvCallPc.step]
  split
  · exact .idle hready ⟨rfl, rfl, rfl, fun _ => rfl⟩
  split
  · rename_i hnone
    rw [hnone] at hmade
    cases hmade
  · exact .idle hready ⟨rfl, rfl, rfl, fun _ => rfl⟩
  · -- the lock was free, so this call is the only holder
    rename_i hfree
    have hone : s.made = 1 := KvRegistry.made_eq_one.mpr hmade
    have hzero : s.held = 0 := by simp [KvRegistry.held, hfree]
    split
    all_goals
      refine ⟨le_rfl, ?_, ?_, fun _ => le_rfl, ?_, fun _ => rfl, rfl, .inl rfl⟩
      · exact Nat.add_le_add_right (hone ▸ le_rfl) _
      · rw [hzero]
        exact le_rfl
      · rw [hone]
        rfl

/-- The global lock is given up; a failing unlock leaves it taken. -/
theorem unlocking_moves {purpose : KvPurpose} {result : Option Err}
    (hf : (KvCallPc.unlocking purpose result).Fact map s) :
    Moves s (.unlocking purpose result) ((KvCallPc.unlocking purpose result).step map env s).1
      ((KvCallPc.unlocking purpose result).step map env s).2 := by
  have hone : s.made = 1 := hready hf.1.2
  have hidle : ((KvCallPc.unlocking purpose result).step map env s).2.Idle := by
    simp only [KvCallPc.step]
    split
    · exact ⟨rfl, rfl, rfl, fun _ => rfl⟩
    · exact prepared_idle purpose
  have hstate : ((KvCallPc.unlocking purpose result).step map env s).1 =
      if env.unlock = none then { s with lock := some false } else s := rfl
  rw [hstate]
  split
  · obtain ⟨hmaking, hforging, hholding, hinside⟩ := hidle
    refine ⟨?_, ?_, ?_, fun k => ?_, ?_, fun _ => rfl, rfl, .inl rfl⟩
    · rw [hmaking]
      exact le_rfl
    · rw [hforging, hone]
      exact le_rfl
    · rw [hholding, Nat.zero_add]
      exact s.held_le
    · rw [hinside]
      exact le_rfl
    · rw [hone]
      rfl
  · exact .idle hready hidle

/-- What a step of a thread does to the locks and the entries. -/
theorem KvCallPc.step_moves (hf : pc.Fact map s) (hforging : pc.forging + s.made ≤ 1) :
    Moves s pc (pc.step map env s).1 (pc.step map env s).2 := by
  cases pc with
  | spinning purpose =>
    simp only [KvCallPc.step]
    split
    all_goals exact .idle hready ⟨rfl, rfl, rfl, fun _ => rfl⟩
  | competing purpose =>
    simp only [KvCallPc.step]
    split
    · rename_i hunset
      -- the compare-and-swap lets one thread through, and there is no lock yet
      refine ⟨?_, ?_, le_rfl, fun _ => le_rfl, rfl, by rintro ⟨⟩, rfl, .inl rfl⟩
      · simp [making, KvRegistry.underway, hunset]
      · simp [forging, KvRegistry.begun, KvRegistry.made, hunset, Nat.add_comm]
    · exact .idle hready ⟨rfl, rfl, rfl, fun _ => rfl⟩
  | creating purpose =>
    -- The one that makes the lock found none, so it makes the first.
    have hzero : s.made = 0 := Nat.le_zero.mp (Nat.le_of_add_le_add_left hforging)
    exact creating_moves hready purpose (KvRegistry.made_eq_zero.mp hzero)
  -- The making is given up: the flag is free for the next call.
  | resetting e =>
    have hunderway := s.underway_le
    have hbegun := s.begun_le
    refine ⟨?_, ?_, le_rfl, fun _ => le_rfl, rfl, fun h => hready ?_, rfl, .inl rfl⟩
    · show 0 + s.underway ≤ 1 + _
      omega
    · show 0 + s.made + s.begun ≤ 1 + s.made + _
      omega
    · simp only [KvCallPc.step] at h
      split at h
      · cases h
      · exact h
  -- The lock was made by this call, and is published by it alone.
  | publishing purpose =>
    have hunderway := s.underway_le
    have hbegun := s.begun_le
    have hone : s.made = 1 := KvRegistry.made_eq_one.mpr hf.2
    refine ⟨?_, ?_, le_rfl, fun _ => le_rfl, rfl, fun _ => hone, rfl, .inl rfl⟩
    · show 0 + s.underway ≤ 1 + 0
      omega
    · exact Nat.add_le_add_left hbegun _
  -- Lock, registration and unlock, by their own lemmas.
  | locking purpose => exact locking_moves hready hf
  | registering purpose i => exact registering_moves hready purpose i
  | unlocking purpose result => exact unlocking_moves hready hf
  | opening job => exact .idle hready (openStorage_idle job)
  | starting job =>
    simp only [KvCallPc.step]
    repeat' split
    all_goals exact .idle hready ⟨rfl, rfl, rfl, fun _ => rfl⟩
  | entering job shared => exact lockShared_moves hready job shared
  | inside job k => exact useStorage_moves hready job k
  | leaving job k result => exact unlockShared_moves hready job k result
  | finishing job k result => exact finishJob_moves hready job k result
  | returned result => exact .idle hready ⟨rfl, rfl, rfl, fun _ => rfl⟩

end Moves

/-! ### Handles -/

/-- Only the end of a job hands out a handle or frees one. -/
-- only the end of an open, in the excluded case, touches the handles
theorem KvCallPc.step_handles (h : ∀ job k result, pc ≠ .finishing job k result) :
    (pc.step map env s).1.handles = s.handles := by
  cases pc with
  | finishing job k result => exact absurd rfl (h job k result)
  | resetting e => rfl
  | publishing purpose => rfl
  | opening job => rfl
  | returned result => rfl
  | entering job shared =>
    simp only [KvCallPc.step, lockShared]
    repeat' split
    all_goals rfl
  | inside job k =>
    simp only [KvCallPc.step, useStorage]
    repeat' split
    all_goals rfl
  | leaving job k result =>
    simp only [KvCallPc.step, unlockShared]
    split
    all_goals rfl
  | spinning purpose | competing purpose | creating purpose | locking purpose
  | registering purpose i | unlocking purpose result | starting job =>
    simp only [KvCallPc.step]
    repeat' split
    all_goals rfl

/-- The handle `actrust_kv_open` hands out is sound. -/
theorem finishJob_handlesOk {job : KvJob} {k : ℕ} (result : Option Err) (hjob : job.Has map s k)
    (hh : HandlesOk s) : HandlesOk (finishJob map env s k result job).1 := by
  unfold finishJob
  split
  · split
    · exact hh
    · exact hh
  · rename_i id
    split
    · exact hh
    · obtain ⟨other, hother, hk⟩ := hjob.entry
      obtain rfl := Option.some.inj hother
      intro h hmem
      rcases List.mem_append.mp hmem with hold | hnew
      · exact hh h hold
      · rw [List.mem_singleton.mp hnew]
        exact ⟨k, rfl, hk⟩
  · exact hh
  · rename_i handle
    -- a handle that is freed keeps its storage and its entry
    intro h hmem
    obtain ⟨j, hj⟩ := List.mem_iff_getElem?.mp hmem
    rw [List.getElem?_modify] at hj
    obtain ⟨h', hget, rfl⟩ := Option.map_eq_some_iff.mp hj
    obtain ⟨k', hk', hid⟩ := hh h' (List.mem_of_getElem? hget)
    split
    · exact ⟨k', hk', hid⟩
    · exact ⟨k', hk', hid⟩

/-- Every step keeps the handles sound. -/
theorem KvCallPc.step_handlesOk (hf : pc.Fact map s) (hh : HandlesOk s) :
    HandlesOk (pc.step map env s).1 := by
  -- elsewhere the handles stay as they are, and the entries are only added to
  by_cases hfinishing : ∃ job k result, pc = .finishing job k result
  · obtain ⟨job, k, result, rfl⟩ := hfinishing
    exact finishJob_handlesOk result hf hh
  · refine handlesOk_mono (pc.step_grows map env s) hh (KvCallPc.step_handles ?_)
    intro job k result heq
    exact hfinishing ⟨job, k, result, heq⟩

/-! ### Runs -/

/-- What holds of the threads together. -/
structure Guarded (map : List KvNsMap) (s : KvSystem) : Prop where
  facts : ∀ pc ∈ s.calls, pc.Fact map s.shared
  handles : HandlesOk s.shared
  making : Threads.total KvCallPc.making s.calls ≤ s.shared.underway
  forging : Threads.total KvCallPc.forging s.calls + s.shared.made ≤ s.shared.begun
  holding : Threads.total KvCallPc.holding s.calls ≤ s.shared.held
  inside : ∀ k, Threads.total (KvCallPc.insideAt k) s.calls ≤ s.shared.lockedAt k
  created : s.shared.created = s.shared.made
  ready : s.shared.initState = .ready → s.shared.made = 1
  fault : s.shared.fault = false
  nodup : s.shared.ids.Nodup
  size : s.shared.ids.length ≤ kvRegistrySize

/-- A call that starts knows what its arguments tell it. -/
theorem enter_fact (call : KvApi) : (call.enter map).Fact map s := by
  unfold KvApi.enter
  split
  · trivial
  · split
    · trivial
    split
    · trivial
    · -- the id was found in the map, so it stands there
      rename_i id hid
      unfold kvLookupStorageId at hid
      split at hid
      · cases hid
      · obtain ⟨entry, hfind, hentry⟩ := Option.map_eq_some_iff.mp hid
        exact ⟨entry, List.mem_of_find?_eq_some hfind, hentry⟩
  · exact ⟨_, .inl rfl⟩
  · exact ⟨_, .inr rfl⟩

/-- A new call joins the others. -/
theorem Guarded.start {s : KvSystem} (h : Guarded map s) (call : KvApi) :
    Guarded map ⟨s.shared, s.calls ++ [call.enter map]⟩ := by
  obtain ⟨hmaking, hforging, hholding, hinside⟩ := enter_idle map call
  refine ⟨?_, h.handles, ?_, ?_, ?_, fun k => ?_, h.created, h.ready, h.fault, h.nodup, h.size⟩
  · intro pc hpc
    rcases List.mem_append.mp hpc with hold | hnew
    · exact h.facts pc hold
    · rw [List.mem_singleton.mp hnew]
      exact enter_fact call
  · rw [Threads.total_snoc, hmaking]
    exact h.making
  · rw [Threads.total_snoc, hforging]
    exact h.forging
  · rw [Threads.total_snoc, hholding]
    exact h.holding
  · rw [Threads.total_snoc, hinside]
    exact h.inside k

/-- A step of one call, with the facts and counts of the others. -/
theorem Guarded.advance {s : KvSystem} (h : Guarded map s) {k : ℕ} {env : KvRegistryEnv}
    {pc : KvCallPc} (hk : s.calls[k]? = some pc) :
    Guarded map ⟨(pc.step map env s.shared).1, s.calls.set k (pc.step map env s.shared).2⟩ := by
  have hf : pc.Fact map s.shared := h.facts pc (List.mem_of_getElem? hk)
  -- who is about to make the lock is the only one, and the lock is not there
  have hforging : pc.forging + s.shared.made ≤ 1 :=
    calc pc.forging + s.shared.made
        ≤ Threads.total KvCallPc.forging s.calls + s.shared.made :=
          Nat.add_le_add_right (Threads.le_total hk _) _
      _ ≤ s.shared.begun := h.forging
      _ ≤ 1 := s.shared.begun_le
  have hmoves : Moves s.shared pc (pc.step map env s.shared).1 (pc.step map env s.shared).2 :=
    KvCallPc.step_moves h.ready hf hforging
  refine ⟨?_, KvCallPc.step_handlesOk hf h.handles, ?_, ?_, ?_, fun j => ?_, ?_, hmoves.ready, ?_,
    ?_, ?_⟩
  · -- The facts: those of the other calls grow, this call's own is `step_fact`.
    intro pc' hpc'
    rcases List.mem_or_eq_of_mem_set hpc' with hother | rfl
    · exact (h.facts pc' hother).mono (pc.step_grows map env s.shared)
    · exact KvCallPc.step_fact hf h.handles
  · exact Threads.total_set_le hk h.making hmoves.making
  · -- The counts over the calls: each changes by what this call's own share does.
    have hset := Threads.total_set hk KvCallPc.forging (pc.step map env s.shared).2
    have hbegun := h.forging
    have hmove := hmoves.forging
    show Threads.total KvCallPc.forging (s.calls.set k (pc.step map env s.shared).2) +
      (pc.step map env s.shared).1.made ≤ (pc.step map env s.shared).1.begun
    omega
  · exact Threads.total_set_le hk h.holding hmoves.holding
  · exact Threads.total_set_le hk (h.inside j) (hmoves.inside j)
  · -- Each lock made is counted once.
    have hcreated := hmoves.created
    rw [h.created, Nat.add_comm] at hcreated
    exact Nat.add_left_cancel hcreated
  · rw [hmoves.fault, h.fault]
  · -- A new identifier was not among the old ones, and had room.
    rcases hmoves.ids with heq | ⟨id, hnew, -, heq⟩
    · exact heq ▸ h.nodup
    · rw [heq]
      exact List.concat_eq_append ▸ List.Nodup.concat hnew h.nodup
  · rcases hmoves.ids with heq | ⟨id, -, hroom, heq⟩
    · exact heq ▸ h.size
    · rw [heq, List.length_append]
      exact hroom

/-- One step keeps the whole invariant. -/
theorem Guarded.step {s : KvSystem} (h : Guarded map s) (a : KvAction) :
    Guarded map (KvSystem.step map s a).2 := by
  rcases Threads.step_cases (KvApi.enter map) (KvCallPc.step map) s a with
    ⟨call, rfl, hstep⟩ | ⟨-, hstep⟩ | ⟨k, env, pc, rfl, hk, -, hstep⟩
  · rw [KvSystem.step, hstep]
    exact h.start call
  · rw [KvSystem.step, hstep]
    exact h
  · rw [KvSystem.step, hstep]
    exact h.advance hk

/-- It holds before the first call. -/
theorem guarded_initial : Guarded map KvSystem.initial where
  facts := by rintro _ ⟨⟩
  handles := by rintro _ ⟨⟩
  making := Nat.le_refl 0
  forging := Nat.le_refl 0
  holding := Nat.le_refl 0
  inside k := Nat.zero_le _
  created := rfl
  ready := by rintro ⟨⟩
  fault := rfl
  nodup := List.nodup_nil
  size := Nat.zero_le _

/-- It holds after every run. -/
theorem guarded_run (map : List KvNsMap) (actions : List KvAction) :
    Guarded map (run (KvSystem.step map) actions KvSystem.initial).2 :=
  run_invariant (fun _ a h (_ : True) => h.step a) guarded_initial
    (Meets.of_forall (fun _ _ => trivial) _ _)

/-- The job of a thread between `kv_lock` and `kv_unlock`. -/
def KvCallPc.working : KvCallPc → Option KvJob
  | .inside job _ | .leaving job _ _ => some job
  | _ => none

/-- A call at work is inside its namespace. -/
theorem working_cases {job : KvJob} (h : pc.working = some job) (hf : pc.Fact map s) :
    ∃ k, pc.insideAt k = 1 ∧ job.Has map s k := by
  cases pc with
  | inside job' k =>
    obtain rfl := Option.some.inj h
    exact ⟨k, if_pos rfl, hf⟩
  | leaving job' k result =>
    obtain rfl := Option.some.inj h
    exact ⟨k, if_pos rfl, hf⟩
  | _ => cases h

/-- Two threads that work do so on two storages. -/
theorem Guarded.exclusive {s : KvSystem} (h : Guarded map s) {i j : ℕ} {pc pc' : KvCallPc}
    {job job' : KvJob} (hi : s.calls[i]? = some pc) (hj : s.calls[j]? = some pc') (hne : j ≠ i)
    (hjob : pc.working = some job) (hjob' : pc'.working = some job') :
    ∃ id id', job.storage map s.shared = some id ∧ job'.storage map s.shared = some id' ∧
      id ≠ id' := by
  obtain ⟨k, hk, ⟨id, hid, hget⟩, -⟩ := working_cases hjob (h.facts pc (List.mem_of_getElem? hi))
  obtain ⟨k', hk', ⟨id', hid', hget'⟩, -⟩ :=
    working_cases hjob' (h.facts pc' (List.mem_of_getElem? hj))
  refine ⟨id, id', hid, hid', ?_⟩
  rintro rfl
  -- one storage has one entry, and its lock cannot be held twice
  obtain rfl : k = k' := by
    obtain ⟨hlt, hk⟩ := List.getElem?_eq_some_iff.mp hget
    obtain ⟨hlt', hk'⟩ := List.getElem?_eq_some_iff.mp hget'
    exact h.nodup.getElem_inj_iff.mp (hk.trans hk'.symm)
  have hpair := Threads.pair_le_total hi hj hne (KvCallPc.insideAt k)
  have hbound := (h.inside k).trans (s.shared.lockedAt_le k)
  omega

/-- What the locks are for. -/
structure KvSystem.Safe (map : List KvNsMap) (s : KvSystem) : Prop where
  /-- The lock of the registry is not used before it is there, -/
  fault : s.shared.fault = false
  /-- and made only once. -/
  created : s.shared.created ≤ 1
  /-- Each storage has one entry. -/
  nodup : s.shared.ids.Nodup
  size : s.shared.ids.length ≤ kvRegistrySize
  /-- It is what the handles of the storage refer to, -/
  handles : ∀ h ∈ s.shared.handles, ∃ k, h.shared = some k ∧ s.shared.ids[k]? = some h.id
  /-- and what `kv_lock` is called for. -/
  entering : ∀ job shared, .entering job shared ∈ s.calls → ∃ k id, shared = some k ∧
    job.storage map s.shared = some id ∧ s.shared.ids[k]? = some id
  /-- Two threads between `kv_lock` and `kv_unlock` are about two storages. -/
  exclusive : ∀ (i j : ℕ) (pc pc' : KvCallPc) (job job' : KvJob), i ≠ j → s.calls[i]? = some pc →
    s.calls[j]? = some pc' → pc.working = some job → pc'.working = some job' →
    ∃ id id', job.storage map s.shared = some id ∧ job'.storage map s.shared = some id' ∧ id ≠ id'

/-- However the threads interleave and whatever the adapter answers, the registry and the storages
are used under their locks. -/
theorem kv_registry_safe (map : List KvNsMap) (actions : List KvAction) :
    KvSystem.Safe map (run (KvSystem.step map) actions KvSystem.initial).2 where
  fault := (guarded_run map actions).fault
  created := (guarded_run map actions).created ▸ Bool.toNat_le _
  nodup := (guarded_run map actions).nodup
  size := (guarded_run map actions).size
  handles := (guarded_run map actions).handles
  entering job shared hmem := by
    obtain ⟨k, hk, ⟨id, hid, hget⟩, -⟩ := (guarded_run map actions).facts _ hmem
    exact ⟨k, id, hk, hid, hget⟩
  exclusive i j pc pc' job job' hne hi hj hjob hjob' :=
    (guarded_run map actions).exclusive hi hj hne.symm hjob hjob'

end TrustSdk.Kv
