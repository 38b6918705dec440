import TrustSdk.Kv.RegistrySafety
import TrustSdk.Lib.Progress

/-!
# Every call on the namespaces returns

As long as no unlock has failed, a lock that is held is held by a thread (`Backs`), and a lock that
is being made is made by one. So some thread can go on as long as a call has not returned, and what
the calls have before them gets less (`KvCallPc.rank`): `kv_calls_return`.
-/

namespace TrustSdk.Kv

open Machine

variable {map : List KvNsMap} {env : KvRegistryEnv} {s s' : KvRegistry} {pc pc' : KvCallPc}

/-! ### Locks and those that hold them -/

/-- What the registry comes to have locked in a step, the thread comes to hold. -/
structure Backs (s : KvRegistry) (pc : KvCallPc) (s' : KvRegistry) (pc' : KvCallPc) : Prop where
  making : pc.making + s'.underway ≤ pc'.making + s.underway
  holding : pc.holding + s'.held ≤ pc'.holding + s.held
  inside : ∀ k, pc.insideAt k + s'.lockedAt k ≤ pc'.insideAt k + s.lockedAt k

/-- Apart from a lock, a step gives nothing up. -/
theorem Backs.quiet (hmaking : pc.making ≤ pc'.making) (hholding : pc.holding ≤ pc'.holding)
    (hinside : ∀ k, pc.insideAt k ≤ pc'.insideAt k) : Backs s pc s pc' where
  making := Nat.add_le_add_right hmaking _
  holding := Nat.add_le_add_right hholding _
  inside k := Nat.add_le_add_right (hinside k) _

/-- A call that owns nothing has nothing to give back. -/
theorem Backs.idle (h : pc.Idle) : Backs s pc s pc' :=
  .quiet (h.making ▸ Nat.zero_le _) (h.holding ▸ Nat.zero_le _) fun k => h.inside k ▸ Nat.zero_le _

/-- The handles play no part in it. -/
theorem Backs.handles (h : Backs s pc s' pc') (handles : List KvHandle) :
    Backs s pc { s' with handles := handles } pc' :=
  ⟨h.making, h.holding, h.inside⟩

/-- Entering a namespace takes its mutex and nothing else. -/
theorem lockShared_backs (job : KvJob) (shared : Option ℕ) :
    Backs s (.entering job shared) (lockShared env s job shared).1
      (lockShared env s job shared).2 := by
  have hidle : (KvCallPc.entering job shared).Idle := ⟨rfl, rfl, rfl, fun _ => rfl⟩
  unfold lockShared
  split
  · exact .idle hidle
  · rename_i k
    split
    · exact .idle hidle
    rename_i n hn
    split
    · exact .idle hidle
    split
    · exact .idle hidle
    · -- only here the mutex of `k` is taken, and the call that took it is inside
      refine ⟨le_rfl, le_rfl, fun j => ?_⟩
      by_cases hj : k = j
      · subst hj
        rw [KvRegistry.setLocked_lockedAt_self hn]
        simp [KvCallPc.insideAt]
      · rw [s.setLocked_lockedAt_ne hj]
        simp [KvCallPc.insideAt]

/-- Inside the namespace no lock is taken or given up. -/
theorem useStorage_backs (job : KvJob) (k : ℕ) :
    Backs s (.inside job k) (useStorage env s job k).1 (useStorage env s job k).2 := by
  have hrefs : ∀ f result, Backs s (.inside job k) (s.setRefs k f) (.leaving job k result) := by
    intro f result
    refine ⟨le_rfl, le_rfl, fun j => ?_⟩
    rw [s.setRefs_lockedAt]
    exact le_rfl
  unfold useStorage
  split
  · split
    · exact hrefs _ _
    · exact .quiet le_rfl le_rfl fun _ => le_rfl
  · exact hrefs (· - 1) env.storageClose
  · exact .quiet le_rfl le_rfl fun _ => le_rfl

/-- The lock that is let go of was held. -/
theorem unlockShared_backs (job : KvJob) (k : ℕ) (result : Option Err) (hunlock : env.unlock = none)
    (hlocked : 1 ≤ s.lockedAt k) :
    Backs s (.leaving job k result) (unlockShared env s job k result).1
      (unlockShared env s job k result).2 := by
  rw [unlockShared, if_pos hunlock]
  refine ⟨le_rfl, le_rfl, fun j => ?_⟩
  by_cases hj : k = j
  · subst hj
    have hentry : ∃ n, s.namespaces[k]? = some n := by
      refine Option.ne_none_iff_exists'.mp fun hnone => ?_
      simp [KvRegistry.lockedAt, hnone] at hlocked
    obtain ⟨n, hn⟩ := hentry
    rw [KvRegistry.setLocked_lockedAt_self hn]
    simpa [KvCallPc.insideAt] using hlocked
  · rw [s.setLocked_lockedAt_ne hj]
    simp [KvCallPc.insideAt, hj]

/-- The end of a call owns nothing. -/
theorem finishJob_backs (job : KvJob) (k : ℕ) (result : Option Err) :
    Backs s (.finishing job k result) (finishJob map env s k result job).1
      (finishJob map env s k result job).2 := by
  have hidle : (KvCallPc.finishing job k result).Idle := ⟨rfl, rfl, rfl, fun _ => rfl⟩
  unfold finishJob
  split
  · split
    · exact .idle hidle
    · exact .idle hidle
  · split
    · exact .idle hidle
    · exact (Backs.idle hidle).handles _
  · exact .idle hidle
  · exact (Backs.idle hidle).handles _

/-- Registering happens under the global lock. -/
theorem registering_backs (purpose : KvPurpose) (i : ℕ) :
    Backs s (.registering purpose i) ((KvCallPc.registering purpose i).step map env s).1
      ((KvCallPc.registering purpose i).step map env s).2 := by
  simp only [KvCallPc.step]
  split
  · exact .quiet le_rfl le_rfl fun _ => le_rfl
  split
  · exact .quiet le_rfl le_rfl fun _ => le_rfl
  split
  · exact .quiet le_rfl le_rfl fun _ => le_rfl
  split
  · exact .quiet le_rfl le_rfl fun _ => le_rfl
  · refine ⟨le_rfl, le_rfl, fun j => ?_⟩
    rw [s.append_lockedAt]
    exact le_rfl

/-- What the registry comes to have locked when no unlock fails. -/
theorem KvCallPc.step_backs (pc : KvCallPc) (hunlock : env.unlock = none)
    (hmaking : pc.making ≤ s.underway) (hholding : pc.holding ≤ s.held)
    (hinside : ∀ k, pc.insideAt k ≤ s.lockedAt k) :
    Backs s pc (pc.step map env s).1 (pc.step map env s).2 := by
  cases pc with
  | spinning purpose =>
    simp only [KvCallPc.step]
    split
    all_goals exact .idle ⟨rfl, rfl, rfl, fun _ => rfl⟩
  | competing purpose =>
    simp only [KvCallPc.step]
    split
    · exact ⟨Nat.le_add_right _ _, le_rfl, fun _ => le_rfl⟩
    · exact .idle ⟨rfl, rfl, rfl, fun _ => rfl⟩
  | creating purpose =>
    simp only [KvCallPc.step]
    split
    · exact .quiet le_rfl le_rfl fun _ => le_rfl
    · exact ⟨le_rfl, Nat.zero_le _, fun _ => le_rfl⟩
  | resetting e =>
    -- this thread is the one that is about it, so that the second compare-and-swap succeeds
    have hcreating : s.initState = .creating := by
      by_contra hne
      simp [making, KvRegistry.underway, hne] at hmaking
    refine ⟨?_, le_rfl, fun _ => le_rfl⟩
    simp [KvCallPc.step, making, KvRegistry.underway, hcreating]
  | publishing purpose => exact ⟨hmaking.trans (Nat.le_add_left _ _), le_rfl, fun _ => le_rfl⟩
  | locking purpose =>
    simp only [KvCallPc.step]
    split
    · exact .idle ⟨rfl, rfl, rfl, fun _ => rfl⟩
    split
    · exact ⟨le_rfl, le_rfl, fun _ => le_rfl⟩
    · exact .idle ⟨rfl, rfl, rfl, fun _ => rfl⟩
    · split
      all_goals exact ⟨le_rfl, Nat.le_add_right _ _, fun _ => le_rfl⟩
  | registering purpose i => exact registering_backs purpose i
  | unlocking purpose result =>
    have hstate : ((KvCallPc.unlocking purpose result).step map env s).1 =
        { s with lock := some false } := if_pos hunlock
    rw [hstate]
    refine ⟨?_, ?_, fun k => ?_⟩
    · exact Nat.add_le_add_right (Nat.zero_le _) _
    · exact hholding.trans (Nat.le_add_left _ _)
    · exact Nat.add_le_add_right (Nat.zero_le _) _
  | opening job => exact .idle ⟨rfl, rfl, rfl, fun _ => rfl⟩
  | starting job =>
    simp only [KvCallPc.step]
    repeat' split
    all_goals exact .idle ⟨rfl, rfl, rfl, fun _ => rfl⟩
  | entering job shared => exact lockShared_backs job shared
  | inside job k => exact useStorage_backs job k
  | leaving job k result =>
    refine unlockShared_backs job k result hunlock (le_trans ?_ (hinside k))
    simp [insideAt]
  | finishing job k result => exact finishJob_backs job k result
  | returned result => exact .idle ⟨rfl, rfl, rfl, fun _ => rfl⟩

/-! ### Steps that are left -/

/-- How many entries of the map `actrust_kv_init` still has to open. -/
def KvJob.rank (map : List KvNsMap) : KvJob → ℕ
  | .init i => 8 * (map.length - i)
  | _ => 0

/-- The steps that a call has before it at most, when no thread is in its way. A thread that still
spins as the lock comes to be there has less to do: it will not compete. -/
def KvCallPc.rank (map : List KvNsMap) (s : KvRegistry) : KvCallPc → ℕ
  | .spinning _ => 9 * map.length + if s.initState = .ready then 11 else 13
  | .competing _ => 9 * map.length + 12
  | .creating _ => 9 * map.length + 10
  | .resetting _ => 1
  | .publishing _ => 9 * map.length + 9
  | .locking _ => 9 * map.length + 8
  | .registering _ i => 8 * map.length + (map.length - i) + 7
  | .unlocking _ _ => 8 * map.length + 6
  | .opening job | .starting job => job.rank map + 5
  | .entering job _ => job.rank map + 4
  | .inside job _ => job.rank map + 3
  | .leaving job _ _ => job.rank map + 2
  | .finishing job _ _ => job.rank map + 1
  | .returned _ => 0

/-- The rank of a call does not grow when the registry does. -/
theorem rank_mono (map : List KvNsMap) (h : s.Grows s') (pc : KvCallPc) :
    pc.rank map s' ≤ pc.rank map s := by
  cases pc with
  | spinning purpose =>
    simp only [KvCallPc.rank]
    split
    · split
      · exact le_rfl
      · exact Nat.add_le_add_left (by decide) _
    · rename_i hnew
      split
      · rename_i hold
        exact absurd (h.ready hold) hnew
      · exact le_rfl
  | _ => exact le_rfl

/-- The answers of an adapter without errors. -/
def KvRegistryEnv.calm : KvRegistryEnv := ⟨none, none, none, true, none, none, none⟩

/-- Another thread has what the call needs. -/
def KvCallPc.Waits (s : KvRegistry) : KvCallPc → Prop
  | .spinning _ | .competing _ => s.initState = .creating
  | .locking _ => s.lock = some true
  | .entering _ (some k) => s.lockedAt k ≠ 0
  | _ => False

/-- The rank at the next entry of `actrust_kv_init`. -/
theorem initFrom_rank (i : ℕ) : (initFrom map i).rank map s ≤ 8 * (map.length - i) + 5 := by
  unfold initFrom
  split
  · exact le_rfl
  · exact Nat.zero_le _

/-- Behind the initialisation the rank is below that of the wait for it. -/
theorem prepared_rank (purpose : KvPurpose) :
    (purpose.prepared map).rank map s < 8 * map.length + 6 := by
  cases purpose with
  | init => exact Nat.lt_succ_of_le (initFrom_rank 0)
  | «open» id =>
    show 0 + 5 < _
    omega

/-- The end of a call is nearer than the step before it. -/
theorem finishJob_rank (job : KvJob) (k : ℕ) (result : Option Err) :
    (finishJob map env s k result job).2.rank map s' < job.rank map + 1 := by
  unfold finishJob
  split
  · rename_i i
    split
    · exact Nat.succ_pos _
    · simp only [KvJob.rank, initFrom]
      split
      · simp only [KvCallPc.rank, KvJob.rank]
        omega
      · exact Nat.succ_pos _
  · -- with the entry behind it the initialisation has one fewer to open
    split
    · exact Nat.succ_pos _
    · exact Nat.succ_pos _
  · exact Nat.succ_pos _
  · exact Nat.succ_pos _

/-- Looking the namespace up is nearer than before it. -/
theorem openStorage_rank (job : KvJob) :
    (openStorage map env s job).rank map s' < job.rank map + 5 := by
  unfold openStorage
  repeat' split
  · exact Nat.succ_pos _
  · exact Nat.succ_pos _
  · exact Nat.lt_succ_self _
  · exact Nat.succ_pos _
  · exact Nat.lt_succ_self _

/-- A thread that nothing is in the way of gets its lock. -/
theorem lockShared_rank {job : KvJob} {k : ℕ} (hfree : s.lockedAt k = 0) :
    (lockShared .calm s job (some k)).2.rank map s' < job.rank map + 4 := by
  simp only [lockShared, KvRegistryEnv.calm]
  split
  · exact Nat.succ_pos _
  · rename_i n hn
    have hunlocked : n.locked = false := by
      simpa [KvRegistry.lockedAt, hn] using hfree
    rw [if_neg (by simp [hunlocked])]
    exact Nat.lt_succ_self _

/-- So is the work inside it. -/
theorem useStorage_rank (job : KvJob) (k : ℕ) :
    (useStorage env s job k).2.rank map s' < job.rank map + 3 := by
  unfold useStorage
  split
  all_goals exact Nat.lt_succ_self _

/-- The loop over the map comes nearer to its end with every entry. -/
theorem registering_rank (purpose : KvPurpose) (i : ℕ) :
    ((KvCallPc.registering purpose i).step map env s).2.rank map s' <
      (KvCallPc.registering purpose i).rank map s := by
  have hunlocking : ∀ result, (KvCallPc.unlocking purpose result).rank map s' <
      (KvCallPc.registering purpose i).rank map s := by
    intro result
    simp only [KvCallPc.rank]
    omega
  simp only [KvCallPc.step]
  split
  · exact hunlocking _
  rename_i entry hentry
  -- the index moves on within the map
  have hnext : (KvCallPc.registering purpose (i + 1)).rank map s' <
      (KvCallPc.registering purpose i).rank map s := by
    obtain ⟨hlt, -⟩ := List.getElem?_eq_some_iff.mp hentry
    simp only [KvCallPc.rank]
    omega
  split
  · exact hnext
  split
  · exact hunlocking _
  split
  · exact hunlocking _
  · exact hnext

/-- A call that waits for no other has less before it when it has taken a step. -/
theorem KvCallPc.step_rank (hf : pc.Fact map s) (hready : s.initState = .ready → s.made = 1)
    (hfree : ¬pc.Waits s) (hunder : ∀ result, pc ≠ .returned result) :
    (pc.step map .calm s).2.rank map s < pc.rank map s := by
  cases pc with
  | spinning purpose =>
    simp only [KvCallPc.step]
    split
    · rename_i hset
      simp only [rank, hset, if_true]
      omega
    · rename_i hset
      have hnew : s.initState ≠ .ready := by
        rw [hset]
        rintro ⟨⟩
      simp only [rank, if_neg hnew]
      omega
    · rename_i hset
      exact absurd hset hfree
  | competing purpose =>
    simp only [KvCallPc.step]
    split
    · simp only [rank]
      omega
    · rename_i hset
      -- another thread was faster, and the lock is there by now
      have hnow : s.initState = .ready := by
        cases hstate : s.initState with
        | unset => exact absurd hstate hset
        | creating => exact absurd hstate hfree
        | ready => rfl
      simp only [rank, hnow, if_true]
      omega
  | creating purpose => exact Nat.lt_succ_self _
  | resetting e => exact Nat.zero_lt_one
  | publishing purpose => exact Nat.lt_succ_self _
  | locking purpose =>
    have hlock : s.lock = some false := by
      obtain ⟨b, hb⟩ := Option.isSome_iff_exists.mp (KvRegistry.made_eq_one.mp (hready hf.2))
      cases b with
      | false => exact hb
      | true => exact absurd hb hfree
    simp only [KvCallPc.step, KvRegistryEnv.calm, hlock]
    split
    · simp only [rank]
      omega
    · simp only [rank]
      omega
  | registering purpose i => exact registering_rank purpose i
  | unlocking purpose result =>
    simp only [KvCallPc.step, KvRegistryEnv.calm, if_true]
    split
    · exact Nat.succ_pos _
    · exact prepared_rank purpose
  | opening job => exact openStorage_rank job
  | starting job =>
    simp only [KvCallPc.step]
    repeat' split
    all_goals first | exact Nat.succ_pos _ | exact Nat.lt_succ_self _
  | entering job shared =>
    obtain ⟨k, rfl, -⟩ := hf
    exact lockShared_rank (not_not.mp hfree)
  | inside job k => exact useStorage_rank job k
  | leaving job k result => exact Nat.lt_succ_self _
  | finishing job k result => exact finishJob_rank job k result
  | returned result => exact absurd rfl (hunder result)

/-- A call that waits has nothing that another waits for. -/
theorem idle_of_waits (h : pc.Waits s) : pc.Idle := by
  cases pc with
  | spinning purpose => exact ⟨rfl, rfl, rfl, fun _ => rfl⟩
  | competing purpose => exact ⟨rfl, rfl, rfl, fun _ => rfl⟩
  | locking purpose => exact ⟨rfl, rfl, rfl, fun _ => rfl⟩
  | entering job shared => exact ⟨rfl, rfl, rfl, fun _ => rfl⟩
  | _ => cases h

/-! ### Runs -/

namespace KvSystem

/-- No unlock fails. -/
def Unlocks (_ : KvSystem) : KvAction → Prop
  | .start _ => True
  | .advance _ env => env.unlock = none

instance (s : KvSystem) : DecidablePred s.Unlocks
  | .start _ => inferInstanceAs (Decidable True)
  | .advance _ env => inferInstanceAs (Decidable (env.unlock = none))

/-- A call takes a step, and nothing fails. -/
def GoesOn (_ : KvSystem) (a : KvAction) : Prop := ∃ k, a = .advance k .calm

/-- Every call has returned. -/
def Over (s : KvSystem) : Prop := ∀ pc ∈ s.calls, ∃ result, pc = .returned result

/-- The ranks of all calls together. -/
def rank (map : List KvNsMap) (s : KvSystem) : ℕ :=
  Threads.total (KvCallPc.rank map s.shared) s.calls

/-- A lock that is held is held by a call. -/
structure Backed (map : List KvNsMap) (s : KvSystem) : Prop extends Guarded map s where
  maker : s.shared.underway ≤ Threads.total KvCallPc.making s.calls
  holder : s.shared.held ≤ Threads.total KvCallPc.holding s.calls
  insider : ∀ k, s.shared.lockedAt k ≤ Threads.total (KvCallPc.insideAt k) s.calls

variable {s : KvSystem}

/-- Before the first call nothing is owned. -/
theorem backed_initial : Backed map initial where
  toGuarded := guarded_initial
  maker := le_rfl
  holder := le_rfl
  insider _ := le_rfl

/-- A step of one call leaves what the others own. -/
theorem Backed.advance (h : Backed map s) {k : ℕ} (hunlock : env.unlock = none)
    (hk : s.calls[k]? = some pc) :
    Backed map ⟨(pc.step map env s.shared).1, s.calls.set k (pc.step map env s.shared).2⟩ := by
  have hbacks : Backs s.shared pc (pc.step map env s.shared).1 (pc.step map env s.shared).2 :=
    pc.step_backs hunlock ((Threads.le_total hk _).trans h.making)
      ((Threads.le_total hk _).trans h.holding) fun j => (Threads.le_total hk _).trans (h.inside j)
  exact ⟨h.toGuarded.advance hk, Threads.le_total_set hk h.maker hbacks.making,
    Threads.le_total_set hk h.holder hbacks.holding,
    fun j => Threads.le_total_set hk (h.insider j) (hbacks.inside j)⟩

/-- A new call owns nothing. -/
theorem Backed.start (h : Backed map s) (call : KvApi) :
    Backed map ⟨s.shared, s.calls ++ [call.enter map]⟩ := by
  refine ⟨h.toGuarded.start call, ?_, ?_, fun k => ?_⟩
  · exact h.maker.trans (by simp)
  · exact h.holder.trans (by simp)
  · exact (h.insider k).trans (by simp)

/-- A step keeps every lock owned by a call that can give it up. -/
theorem Backed.step (h : Backed map s) {a : KvAction} (hunlocks : s.Unlocks a) :
    Backed map (KvSystem.step map s a).2 := by
  rcases Threads.step_cases (KvApi.enter map) (KvCallPc.step map) s a with
    ⟨call, rfl, hstep⟩ | ⟨-, hstep⟩ | ⟨k, env, pc, rfl, hk, -, hstep⟩
  · rw [KvSystem.step, hstep]
    exact h.start call
  · rw [KvSystem.step, hstep]
    exact h
  · rw [KvSystem.step, hstep]
    exact h.advance hunlocks hk

/-- When no call holds anything, all locks are free. -/
theorem Backed.free (h : Backed map s) (hidle : ∀ pc ∈ s.calls, pc.Idle) :
    s.shared.initState ≠ .creating ∧ s.shared.lock ≠ some true ∧ ∀ k, s.shared.lockedAt k = 0 := by
  have hnone : ∀ w : KvCallPc → ℕ, (∀ pc ∈ s.calls, w pc = 0) → Threads.total w s.calls = 0 :=
    fun w hw => Threads.total_eq_zero.mpr hw
  refine ⟨fun hcreating => ?_, fun hheld => ?_, fun k => ?_⟩
  · have hmaker := h.maker
    rw [hnone _ fun pc hpc => (hidle pc hpc).making] at hmaker
    simp [KvRegistry.underway, hcreating] at hmaker
  · have hholder := h.holder
    rw [hnone _ fun pc hpc => (hidle pc hpc).holding] at hholder
    simp [KvRegistry.held, hheld] at hholder
  · have hinsider := h.insider k
    rw [hnone _ fun pc hpc => (hidle pc hpc).inside k] at hinsider
    exact Nat.le_zero.mp hinsider

/-- Not all calls that are under way wait. -/
theorem Backed.runnable (h : Backed map s) (hunder : ¬s.Over) :
    ∃ pc ∈ s.calls, (∀ result, pc ≠ .returned result) ∧ ¬pc.Waits s.shared := by
  -- if all of them waited, none would hold what another waits for
  by_contra hstuck
  push Not at hstuck
  have hidle : ∀ pc ∈ s.calls, pc.Idle := by
    intro pc hpc
    by_cases hover : ∃ result, pc = .returned result
    · obtain ⟨result, rfl⟩ := hover
      exact ⟨rfl, rfl, rfl, fun _ => rfl⟩
    · exact idle_of_waits (hstuck pc hpc fun result heq => hover ⟨result, heq⟩)
  obtain ⟨hcreating, hheld, hlocked⟩ := h.free hidle
  simp only [Over] at hunder
  push Not at hunder
  obtain ⟨pc, hpc, hunder⟩ := hunder
  have hwaits := hstuck pc hpc hunder
  cases pc with
  | spinning purpose => exact hcreating hwaits
  | competing purpose => exact hcreating hwaits
  | locking purpose => exact hheld hwaits
  | entering job shared =>
    cases shared with
    | none => exact hwaits
    | some k => exact hwaits (hlocked k)
  | _ => exact hwaits

/-- As long as a call has not returned, a step of one brings the rank down. -/
theorem Backed.nearer (h : Backed map s) (hunder : ¬s.Over) :
    ∃ a, s.GoesOn a ∧ Backed map (KvSystem.step map s a).2 ∧
      rank map (KvSystem.step map s a).2 < rank map s := by
  obtain ⟨pc, hpc, hunder, hfree⟩ := h.runnable hunder
  obtain ⟨k, hk⟩ := List.mem_iff_getElem?.mp hpc
  refine ⟨.advance k .calm, ⟨k, rfl⟩, h.step (a := .advance k .calm) rfl, ?_⟩
  have hlt := KvCallPc.step_rank (h.facts pc hpc) h.ready hfree hunder
  have hset := Threads.total_set hk (KvCallPc.rank map s.shared) (pc.step map .calm s.shared).2
  -- what the others have before them does not get more as the registry grows
  have hmono : Threads.total (KvCallPc.rank map (pc.step map .calm s.shared).1)
      (s.calls.set k (pc.step map .calm s.shared).2) ≤
      Threads.total (KvCallPc.rank map s.shared) (s.calls.set k (pc.step map .calm s.shared).2) :=
    Threads.total_mono fun pc' _ => rank_mono map (pc.step_grows map .calm s.shared) pc'
  rw [KvSystem.step, Threads.step_advance hk]
  calc Threads.total (KvCallPc.rank map (pc.step map .calm s.shared).1)
        (s.calls.set k (pc.step map .calm s.shared).2)
      ≤ Threads.total (KvCallPc.rank map s.shared) (s.calls.set k (pc.step map .calm s.shared).2) :=
        hmono
    _ < Threads.total (KvCallPc.rank map s.shared) s.calls := by omega

/-- As long as no unlock fails no thread waits for ever: from every state that the calls come to
they can all return, within the steps that they have before them, and then no lock is held. -/
theorem kv_calls_return {actions : List KvAction}
    (h : Meets (KvSystem.step map) Unlocks actions initial) :
    ∃ later, later.length ≤ rank map (run (KvSystem.step map) actions initial).2 ∧
      Meets (KvSystem.step map) GoesOn later (run (KvSystem.step map) actions initial).2 ∧
      (run (KvSystem.step map) (actions ++ later) initial).2.Over ∧
      (run (KvSystem.step map) (actions ++ later) initial).2.shared.lock ≠ some true ∧
      ∀ n ∈ (run (KvSystem.step map) (actions ++ later) initial).2.shared.namespaces,
        n.locked = false := by
  -- a rank that falls with every step bounds the steps that are left
  have hbacked : Backed map (run (KvSystem.step map) actions initial).2 :=
    run_invariant (fun _ _ hs hok => hs.step hok) backed_initial h
  obtain ⟨later, hlength, hmeets, hbacked', hover⟩ :=
    exists_run_of_rank (fun _ => Backed.nearer) hbacked
  refine ⟨later, hlength, hmeets, ?_⟩
  rw [run_append]
  -- a call that has returned owns no lock, so none is left taken
  have hidle : ∀ pc ∈ (run (KvSystem.step map) later
      (run (KvSystem.step map) actions initial).2).2.calls, pc.Idle := by
    intro pc hpc
    obtain ⟨result, rfl⟩ := hover pc hpc
    exact ⟨rfl, rfl, rfl, fun _ => rfl⟩
  obtain ⟨-, hlock, hlocked⟩ := hbacked'.free hidle
  refine ⟨hover, hlock, fun n hn => ?_⟩
  obtain ⟨k, hk⟩ := List.mem_iff_getElem?.mp hn
  simpa [KvRegistry.lockedAt, hk] using hlocked k

/-- Two threads open the same storage, and the second has to wait for the first. -/
def contendedRun : List KvAction :=
  [.start (.open [97]), .start (.open [97])] ++ List.replicate 10 (.advance 0 .calm) ++
    List.replicate 9 (.advance 1 .calm)

/-- Two calls at one namespace, the second waiting for the first. -/
theorem kv_calls_return_contended :
    (run (KvSystem.step [⟨[97], 7⟩]) contendedRun initial).2.calls =
        [.inside (.open 7) 0, .entering (.open 7) (some 0)] ∧
      ∃ later, (run (KvSystem.step [⟨[97], 7⟩]) (contendedRun ++ later) initial).2.Over := by
  have hunlocks : Meets (KvSystem.step [⟨[97], 7⟩]) Unlocks contendedRun initial := by decide
  obtain ⟨later, -, -, hover, -⟩ := kv_calls_return hunlocks
  exact ⟨by decide, later, hover⟩

end KvSystem

end TrustSdk.Kv
