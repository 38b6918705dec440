import TrustSdk.Kv.Calls

/-!
# A call and the map

What the public calls do to the map when storage and lock calls may fail and the machine may stop
(`KvCall.Takes`). A mutation that returns OK has changed the map; one that fails, or is cut short,
has changed it or not; every other call leaves the map alone, and an answer of theirs that is not
an error is the one of the map. `KvCall.program_takes` says so of every call on any medium.

`Finished` leaves open what a call that meets a failing storage call may return. That its answer is
an error unless it is the one expected (`Truthful`) is proved beside it.
-/

namespace TrustSdk.Kv

open ByteStore CrashLogic SlotTable

variable {cfg : KvConfig} {D : Device Err} {g : ℕ} {m m' : KvMap} {α : Type}

/-- An answer that is not an error is the expected one. -/
def Truthful (expected r : Except Err α) : Prop := ∀ a, r = .ok a → expected = .ok a

/-- An answer is truthful about itself. -/
theorem Truthful.refl (r : Except Err α) : Truthful r r := fun _ h => h

/-- An error is truthful about everything. -/
theorem Truthful.error (expected : Except Err α) (e : Err) : Truthful expected (.error e) := by
  rintro a ⟨⟩

/-- Ending with the expected answer. -/
theorem truthful_done (r : Except Err α) (s : D.State) :
    cwp D (.done r) (fun r' _ => Truthful r r') (fun _ => True) s :=
  cwp_done (Truthful.refl r) fun _ _ => trivial

/-! ### The answers of the calls -/

section Answers

variable {s : D.State} {expected : Except Err α}

/-- The lock around a call does not change its answer. -/
theorem kvWithLock_truthful {body : Io Err α}
    (h : cwp D body (fun r _ => Truthful expected r) (fun _ => True) s) :
    cwp D (kvWithLock body) (fun r _ => Truthful expected r) (fun _ => True) s := by
  refine cwp_lock ?_ fun e _ => Truthful.error expected e
  refine cwp_bind (cwp_attempt (h.mono ?_ fun _ hi => hi))
  intro r t ht
  cases r with
  -- a failing unlock turns the answer into an error
  | ok a =>
    exact cwp_unlock (cwp_done ht fun _ _ => trivial) fun e _ =>
      cwp_done (Truthful.error expected e) fun _ _ => trivial
  | error e =>
    exact cwp_unlock (cwp_done ht fun _ _ => trivial) fun _ _ => cwp_done ht fun _ _ => trivial

variable (hM : KvMedium cfg D) (hs : Ready cfg D s g m)
include hM hs

/-- A body that starts with recovery. -/
theorem kvLoadCurrent_truthful {f : KvSuperblock × ℕ → Io Err α}
    (hok : ∀ t sb index, Resting cfg D t g m →
      cwp D (f (sb, index)) (fun r _ => Truthful expected r) (fun _ => True) t) :
    cwp D (kvLoadCurrent cfg >>= f) (fun r _ => Truthful expected r) (fun _ => True) s :=
  kvLoadCurrent_bind hM hs (fun _ _ => trivial) (fun t sb index ht _ _ => hok t sb index ht)
    fun e _ _ _ => Truthful.error expected e

/-- `set` of a new key does not succeed on a full table. -/
theorem kvSetLocked_refuses {key value : Bytes} (hlook : m.lookup key = none)
    (hfull : m.keys.card = cfg.maxRecords) :
    cwp D (kvSetLocked cfg key value)
      (fun r _ => Truthful (.error (kvErr .noResource)) r) (fun _ => True) s := by
  refine kvLoadCurrent_truthful hM hs fun t sb index ht => ?_
  have htable := ht.view.table
  refine (kvFindRecord_reads_none hM.readable (fun _ _ => trivial) htable hlook).bind ?_
    fun e _ => Truthful.error _ e
  refine cwp_bind (cwp.mono (kvScanFree_spec hM.readable (fun _ _ => trivial) htable.valid
    cfg.maxRecords 0 (Nat.zero_add _)) ?_ fun _ hi => hi)
  have hnone : firstFree (entries cfg (D.view t)) cfg.maxRecords 0 = none := by
    cases hf : firstFree (entries cfg (D.view t)) cfg.maxRecords 0 with
    | none => rfl
    | some i =>
      -- a slot that is free in a full table
      obtain ⟨-, hlt, hfree⟩ := firstFree_some hf
      have hused := htable.entries.full_iff.mp hfull i (by omega)
      rw [show (recordAt cfg (D.view t) i).entry = none from hfree] at hused
      exact absurd hused (by simp)
  rw [hnone]
  rintro r u ⟨rfl, rfl | ⟨-, rfl⟩⟩ <;>
    exact truthful_done _ _

/-- `del` of a missing key does not succeed. -/
theorem kvDelLocked_refuses {key : Bytes} (hlook : m.lookup key = none) :
    cwp D (kvDelLocked cfg key)
      (fun r _ => Truthful (.error (kvErr .noResource)) r) (fun _ => True) s := by
  refine kvLoadCurrent_truthful hM hs fun t sb index ht => ?_
  exact (kvFindRecord_reads_none hM.readable (fun _ _ => trivial) ht.view.table hlook).bind
    (truthful_done _ _) fun e _ => Truthful.error _ e

/-- A mutation that the map does not allow does not return OK. -/
theorem KvMutation.program_refuses {op : KvMutation} (hv : op.Valid cfg)
    (hout : ∀ m', op.outcome cfg m ≠ (.ok (), m')) :
    cwp D (op.program cfg) (fun r _ => r ≠ .ok ()) (fun _ => True) s := by
  have hnever : ∀ {r : Except Err Unit}, Truthful (.error (kvErr .noResource)) r → r ≠ .ok () := by
    rintro r h rfl
    exact absurd (h () rfl) (by simp)
  cases op with
  | set key value =>
    -- a `set` is refused only because no slot is free
    have hfull : m.lookup key = none ∧ m.keys.card = cfg.maxRecords := by
      by_contra hroom
      exact hout _ (if_neg hroom)
    rw [KvMutation.program, actrustKvSet,
      if_neg (by rw [not_or, not_not, not_lt]; exact hv)]
    exact (kvWithLock_truthful (kvSetLocked_refuses hM hs hfull.1 hfull.2)).mono
      (fun _ _ => hnever) fun _ hi => hi
  | del key =>
    -- a `del` is refused only because the key is missing
    have hmissing : m.lookup key = none := by
      by_contra hpresent
      exact hout _ (if_neg hpresent)
    rw [KvMutation.program, actrustKvDel, if_neg (not_not.mpr (show KeyLenOk key from hv))]
    exact (kvWithLock_truthful (kvDelLocked_refuses hM hs hmissing)).mono
      (fun _ _ => hnever) fun _ hi => hi

/-- `kv_exists_locked` does not answer wrongly. -/
theorem kvExistsLocked_truthful (key : Bytes) :
    cwp D (kvExistsLocked cfg key) (fun r _ => Truthful (.ok (m.lookup key).isSome) r)
      (fun _ => True) s := by
  refine kvLoadCurrent_truthful hM hs fun t sb index ht => ?_
  cases hlook : m.lookup key with
  | none =>
    exact (kvFindRecord_reads_none hM.readable (fun _ _ => trivial) ht.view.table hlook).bind
      (truthful_done _ _) fun e _ => Truthful.error _ e
  | some v =>
    obtain ⟨i, -, -, hfind⟩ := kvFindRecord_reads_some (C := fun _ => True) hM.readable
      (fun _ _ => trivial) ht.view.table hlook
    exact hfind.bind (truthful_done _ _) fun e _ => Truthful.error _ e

/-- What the body of a get gives: the length and perhaps the value. -/
theorem kvGetLocked_truthful {key : Bytes} {outCap : ℕ} :
    cwp D (kvGetLocked cfg key outCap)
      (fun r _ => Truthful (match m.lookup key with
        | none => .error (kvErr .noResource)
        | some v => .ok (v.length, if outCap < v.length then none else some v)) r)
      (fun _ => True) s := by
  refine kvLoadCurrent_truthful hM hs fun t sb index ht => ?_
  have htable := ht.view.table
  cases hlook : m.lookup key with
  | none =>
    exact (kvFindRecord_reads_none hM.readable (fun _ _ => trivial) htable hlook).bind
      (truthful_done _ _) fun e _ => Truthful.error _ e
  | some v =>
    obtain ⟨i, hi, hslot, hfind⟩ := kvFindRecord_reads_some (C := fun _ => True) hM.readable
      (fun _ _ => trivial) htable hlook
    refine hfind.bind ((kvReadRecord_reads hM.readable (fun _ _ => trivial) hi).bind ?_
      fun e _ => Truthful.error _ e) fun e _ => Truthful.error _ e
    have hvalid := htable.valid i hi
    obtain ⟨hlen, hval⟩ := KvRecord.entry_some hslot hvalid
    -- the record read again is the one the scan found, so its length and value are the map's
    simp only [hvalid, not_true_eq_false, if_false]
    rw [hval, hlen]
    exact truthful_done _ _

/-- A get that reports no error gives the length and the value of the key. -/
def GetTruthful (m : KvMap) (key : Bytes) (outCap : ℕ) (r : Except Err KvGetResult) : Prop :=
  ∃ answer, r = .ok answer ∧ (answer.status = .ok () → answer = getOutcome m key outCap)

omit hM hs in
/-- Whatever the unlock returns, an answer without an error has the value. -/
theorem kvGetAnswer_truthful {key : Bytes} {outCap : ℕ} {r : Except Err (ℕ × Option Bytes)}
    {unlocked : Except Err Unit}
    (h : Truthful (match m.lookup key with
      | none => .error (kvErr .noResource)
      | some v => .ok (v.length, if outCap < v.length then none else some v)) r)
    (hstatus : (kvGetAnswer r unlocked).status = .ok ()) :
    kvGetAnswer r unlocked = getOutcome m key outCap := by
  cases r with
  | error e => exact absurd hstatus (by simp [kvGetAnswer])
  | ok a =>
    obtain ⟨len, value⟩ := a
    have hexpected := h (len, value) rfl
    -- an answer without a value is the one for a short buffer, which is not OK
    cases value with
    | none => exact absurd hstatus (by simp [kvGetAnswer])
    | some bs =>
      obtain rfl : unlocked = .ok () := hstatus
      cases hlook : m.lookup key with
      | none =>
        rw [hlook] at hexpected
        exact absurd hexpected (by simp)
      | some v =>
        rw [hlook] at hexpected
        by_cases hcap : outCap < v.length
        · exact absurd hexpected (by simp [hcap])
        · obtain ⟨rfl, rfl⟩ : v.length = len ∧ v = bs := by simpa [hcap] using hexpected
          simp only [getOutcome, hlook, kvGetAnswer, if_neg hcap]

/-- `actrust_kv_get` does not answer OK with a wrong value. -/
theorem actrustKvGet_truthful {key : Bytes} {outCap : ℕ} :
    cwp D (actrustKvGet cfg key outCap) (fun r _ => GetTruthful m key outCap r)
      (fun _ => True) s := by
  have hfails : ∀ e, GetTruthful m key outCap (.ok ⟨.error e, none, none⟩) :=
    fun e => ⟨_, rfl, by rintro ⟨⟩⟩
  have hdone : ∀ {answer : KvGetResult} {t : D.State}, GetTruthful m key outCap (.ok answer) →
      cwp D (pure answer) (fun r _ => GetTruthful m key outCap r) (fun _ => True) t :=
    fun h => cwp_done h fun _ _ => trivial
  by_cases hk : KeyLenOk key
  · rw [actrustKvGet, if_neg (not_not.mpr hk)]
    refine cwp_lock_attempt ?_ fun e _ => hdone (hfails e)
    refine cwp_bind (cwp_attempt ((kvGetLocked_truthful hM hs).mono ?_ fun _ hi => hi))
    intro r t htrue
    have hanswer : ∀ unlocked, GetTruthful m key outCap (.ok (kvGetAnswer r unlocked)) :=
      fun unlocked => ⟨_, rfl, kvGetAnswer_truthful htrue⟩
    exact cwp_unlock (hdone (hanswer _)) fun e _ => hdone (hanswer _)
  · rw [actrustKvGet, if_pos hk]
    exact hdone (hfails _)

end Answers

/-! ### The map of the calls -/

/-- The call, with this answer or cut short before it, may take the map from `m` to `m'`. -/
def KvCall.Takes (cfg : KvConfig) (m : KvMap) (reply : Option KvReply) (m' : KvMap) :
    KvCall → Prop
  | .mutate op =>
    (m' = m ∧ reply ≠ some (.status (.ok ()))) ∨
      (op.Valid cfg ∧ op.outcome cfg m = (.ok (), m'))
  | .kvGet key outCap =>
    m' = m ∧ ∀ answer, reply = some (.value answer) → answer.status = .ok () →
      answer = getOutcome m key outCap
  | .kvExists key =>
    m' = m ∧ ∀ found, reply = some (.found (.ok found)) → found = (m.lookup key).isSome
  | .kvOpen => m' = m
  | .kvClose => m' = m

/-- A map that the call may lead to, at a generation that is at most one further. -/
def KvCall.Leads (cfg : KvConfig) (g : ℕ) (m : KvMap) (call : KvCall) (reply : Option KvReply)
    (P : ℕ → KvMap → Prop) : Prop :=
  ∃ g' m', g' ≤ g + 1 ∧ P g' m' ∧ call.Takes cfg m reply m'

section Takes

variable {s : D.State}

/-- What a call leaves when it has returned. -/
def KvCall.Returns (cfg : KvConfig) (D : Device Err) (g : ℕ) (m : KvMap) (call : KvCall)
    (r : Except Err KvReply) (t : D.State) : Prop :=
  ∃ reply, r = .ok reply ∧ call.Leads cfg g m (some reply) (Ready cfg D t)

/-- What a call leaves when the machine stops. -/
def KvCall.Stops (cfg : KvConfig) (g : ℕ) (m : KvMap) (call : KvCall) (img : Image) : Prop :=
  call.Leads cfg g m none fun g' m' => Loads cfg g' m' img

/-- A call without an effect. -/
theorem KvCall.returns_same {call : KvCall} {reply : KvReply} (ht : Ready cfg D s g m)
    (hreply : call.Takes cfg m (some reply) m) (hnone : call.Takes cfg m none m) :
    cwp D (pure reply) (call.Returns cfg D g m) (call.Stops cfg g m) s :=
  cwp_done ⟨reply, rfl, g, m, Nat.le_succ g, ht, hreply⟩
    fun img hi => ⟨g, m, Nat.le_succ g, ht.crash img hi, hnone⟩

/-- A crash between two equal states stops the call without an effect. -/
theorem KvCall.stops_of_between {call : KvCall} (hnone : call.Takes cfg m none m) (img : Image)
    (h : Between cfg g m g m img) : call.Stops cfg g m img :=
  ⟨g, m, Nat.le_succ g, h.elim id id, hnone⟩

variable (hM : KvMedium cfg D) (hs : Ready cfg D s g m)
include hM hs

/-- What `set` and `del` take, through every fault and crash. -/
theorem KvMutation.program_takes {op : KvMutation} (hroom : g + 1 < 2 ^ 64) :
    cwp D ((KvCall.mutate op).program cfg) ((KvCall.mutate op).Returns cfg D g m)
      ((KvCall.mutate op).Stops cfg g m) s := by
  have hnone : (KvCall.mutate op).Takes cfg m none m := .inl ⟨rfl, by simp⟩
  have hstay : ∀ {r : Except Err Unit} {t : D.State}, r ≠ .ok () → Ready cfg D t g m →
      cwp D (pure (.status r)) ((KvCall.mutate op).Returns cfg D g m)
        ((KvCall.mutate op).Stops cfg g m) t := fun hr ht =>
    KvCall.returns_same ht (.inl ⟨rfl, by simpa using hr⟩) hnone
  refine cwp_bind (cwp_attempt ?_)
  by_cases hv : op.Valid cfg
  · have hspec := op.program_spec hM hs hv fun _ => hroom
    cases hout : op.outcome cfg m with
    | mk status m' =>
      cases status with
      | error e =>
        -- a mutation the map refuses changes nothing, whatever failed on the way
        have hrefuses := op.program_refuses hM hs hv (by rw [hout]; rintro _ ⟨⟩)
        have hsame : (op.outcome cfg m).2 = m :=
          KvMutation.outcome_same (g := g) (by rw [hout, nextGeneration])
        rw [hsame, hout, nextGeneration] at hspec
        refine (hspec.and hrefuses).mono ?_ ?_
        · rintro r t ⟨hfin, hr⟩
          exact hstay hr (hfin.ready.elim id id)
        · rintro img ⟨hi, -⟩
          exact KvCall.stops_of_between hnone img hi
      | ok u =>
        -- a mutation that may succeed has taken place or not; an error does not say which
        have hdone : ∀ reply, (KvCall.mutate op).Takes cfg m reply m' :=
          fun _ => .inr ⟨hv, hout⟩
        rw [hout, nextGeneration] at hspec
        refine hspec.mono ?_ ?_
        · rintro r t (⟨rfl, ht, -, -⟩ | ⟨-, herr, ht⟩)
          · exact cwp_done ⟨_, rfl, g + 1, m', Nat.le_refl _, .inl ht, hdone _⟩
              fun img hi => ⟨g + 1, m', Nat.le_refl _, (ht.crash img hi).loads, hdone _⟩
          · obtain ⟨e, rfl⟩ := herr (Nat.succ_ne_self g)
            rcases ht with ht | ht
            · exact hstay (by simp) ht
            · exact cwp_done ⟨_, rfl, g + 1, m', Nat.le_refl _, ht, hdone _⟩
                fun img hi => ⟨g + 1, m', Nat.le_refl _, ht.crash img hi, hdone _⟩
        · rintro img (hi | hi)
          · exact ⟨g, m, Nat.le_succ g, hi, hnone⟩
          · exact ⟨g + 1, m', Nat.le_refl _, hi, hdone _⟩
  · refine (KvMutation.program_invalid hs hv fun img hi =>
      KvCall.stops_of_between hnone img (.inl hi)).mono ?_ fun _ hi => hi
    rintro r t ⟨rfl, rfl⟩
    exact hstay (by simp) hs

/-- **One call.** From a store that holds `m`, on any medium, a call takes the map where its answer
says, and a crash during the call where a call without an answer may take it. -/
theorem KvCall.program_takes {call : KvCall} (hroom : g + 1 < 2 ^ 64) :
    cwp D (call.program cfg) (call.Returns cfg D g m) (call.Stops cfg g m) s := by
  -- the calls that only look leave the map as it is, so nothing is taken of them
  cases call with
  | kvOpen =>
    have hnone : KvCall.kvOpen.Takes cfg m none m := rfl
    refine cwp_bind (cwp_attempt ((actrustKvOpen_spec hM hs).mono ?_ ?_))
    · intro r t hfin
      exact KvCall.returns_same (hfin.ready.elim id id) rfl hnone
    · exact KvCall.stops_of_between hnone
  | kvClose =>
    have hnone : KvCall.kvClose.Takes cfg m none m := rfl
    have hcrash : ∀ img, D.crash s img → KvCall.kvClose.Stops cfg g m img :=
      fun img hi => KvCall.stops_of_between hnone img (.inl (hs.crash img hi))
    refine cwp_bind (cwp_attempt ((actrustKvClose_spec hcrash).mono ?_ fun _ hi => hi))
    rintro r t ⟨rfl, -⟩
    exact KvCall.returns_same hs rfl hnone
  | mutate op => exact KvMutation.program_takes hM hs hroom
  | kvGet key outCap =>
    have hnone : (KvCall.kvGet key outCap).Takes cfg m none m := ⟨rfl, by rintro _ ⟨⟩⟩
    have hreturns : ∀ {answer : KvGetResult} {t : D.State}, Ready cfg D t g m →
        (answer.status = .ok () → answer = getOutcome m key outCap) →
        cwp D (pure (.value answer)) ((KvCall.kvGet key outCap).Returns cfg D g m)
          ((KvCall.kvGet key outCap).Stops cfg g m) t := by
      intro answer t ht htrue
      refine KvCall.returns_same ht ⟨rfl, ?_⟩ hnone
      rintro _ ⟨⟩
      exact htrue
    refine cwp_bind ?_
    by_cases hk : KeyLenOk key
    · refine ((actrustKvGet_spec hM hs hk).and (actrustKvGet_truthful hM hs)).mono ?_ ?_
      · rintro _ t ⟨hfin, answer, rfl, htrue⟩
        exact hreturns (hfin.ready.elim id id) htrue
      · rintro img ⟨hi, -⟩
        exact KvCall.stops_of_between hnone img hi
    · rw [actrustKvGet, if_pos hk]
      exact cwp_done (hreturns hs (by rintro ⟨⟩)) fun img hi =>
        KvCall.stops_of_between hnone img (.inl (hs.crash img hi))
  | kvExists key =>
    have hnone : (KvCall.kvExists key).Takes cfg m none m := ⟨rfl, by rintro _ ⟨⟩⟩
    have hreturns : ∀ {r : Except Err Bool} {t : D.State}, Ready cfg D t g m →
        Truthful (.ok (m.lookup key).isSome) r →
        cwp D (pure (.found r)) ((KvCall.kvExists key).Returns cfg D g m)
          ((KvCall.kvExists key).Stops cfg g m) t := by
      intro r t ht htrue
      refine KvCall.returns_same ht ⟨rfl, ?_⟩ hnone
      rintro found ⟨⟩
      exact (Except.ok.inj (htrue found rfl)).symm
    refine cwp_bind (cwp_attempt ?_)
    by_cases hk : KeyLenOk key
    · have htruthful := kvWithLock_truthful (kvExistsLocked_truthful hM hs key)
      rw [← show actrustKvExists cfg key = _ from if_neg (not_not.mpr hk)] at htruthful
      refine ((actrustKvExists_spec hM hs hk).and htruthful).mono ?_ ?_
      · rintro r t ⟨hfin, htrue⟩
        exact hreturns (hfin.ready.elim id id) htrue
      · rintro img ⟨hi, -⟩
        exact KvCall.stops_of_between hnone img hi
    · rw [actrustKvExists, if_pos hk]
      exact cwp_done (hreturns hs (Truthful.error _ _)) fun img hi =>
        KvCall.stops_of_between hnone img (.inl (hs.crash img hi))

end Takes

end TrustSdk.Kv
