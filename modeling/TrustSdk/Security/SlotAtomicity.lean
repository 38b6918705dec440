import TrustSdk.Security.Reading

/-!
# A slot is written as a whole or not at all

Whatever calls fail during `actrust_sec_store_write`, and wherever the machine stops, a slot
that held a value still reads as the contents of one write: the new one if the call reports
success, the old one, or a backup with the old one next to it, if it reports an error.

Until the rename only names that begin with a dot are touched (`dotted`). From then on every
file that a crash may leave under the slot's name is whole and flushed (`Kept`), and the old
contents are under the slot's name or under the backup's (`Finished`).

* `secWriteSlot_meets` — the body of the write, from `secBackUp_meets`, `secReplace_meets`
  and `secRollback_meets`;
* `readsAs_of_holds` — what the names refer to is what `actrust_sec_store_read` gives back;
* `secStoreWrite_atomic` — the two together, over every run of the write;
* `slot_reads_written` — over any sequence of writes and crashes.
-/

namespace TrustSdk.Security

open SystemCalls FileStore

variable {sizeMax fuel : ℕ} {slotId : SecSlot} {pid : ℤ}

/-! ### Names -/

/-- A name that fits is left as it is. -/
theorem secFitName_some {s name : String} (h : secFitName s = some name) : name = s := by
  unfold secFitName at h
  split at h
  · exact (Option.some.inj h).symm
  · cases h

/-- The names of temporary and backup files. -/
def dotted : Set String := {n | n.toList.head? = some '.'}

/-- The name of a slot's file. -/
def slotName (slotId : SecSlot) : String := "sec_" ++ secHex slotId ++ ".bin"

/-- It always fits. -/
theorem secMakeName_eq (slotId : SecSlot) : secMakeName slotId = some (slotName slotId) := by
  have hdigits : (Nat.toDigits 16 slotId.toNat).length ≤ 8 :=
    (Nat.length_toDigits_le_iff (by decide) (by decide)).mpr slotId.toNat_lt
  have hhex : (secHex slotId).length = 8 := by
    simp only [secHex, String.length_ofList, List.length_leftpad]
    exact max_eq_left hdigits
  have hlen : (slotName slotId).length < secPathMax := by
    simp only [slotName, String.length_append, hhex]
    decide
  exact if_pos hlen

/-- The name of a slot has no dot in front. -/
theorem slotName_not_dotted (slotId : SecSlot) : slotName slotId ∉ dotted := by
  simp [slotName, dotted, String.toList_append]

/-- The name of a temporary file has one. -/
theorem secMakeTempName_dotted {sequence : ℕ} {name : String}
    (h : secMakeTempName slotId pid sequence = some name) : name ∈ dotted := by
  rw [secFitName_some h]
  simp [dotted, String.toList_append]

/-- So has the name of a backup. -/
theorem secMakeBackupName_dotted {sequence : ℕ} {name : String}
    (h : secMakeBackupName slotId pid sequence = some name) : name ∈ dotted := by
  rw [secFitName_some h]
  simp [dotted, String.toList_append]

/-- A temporary file is not taken for a backup: their suffixes differ. -/
theorem secMakeTempName_ne_backup {sequence sequence' : ℕ} {temp backup : String}
    (h : secMakeTempName slotId pid sequence = some temp)
    (h' : secMakeBackupName slotId pid sequence' = some backup) : temp ≠ backup := by
  intro heq
  have htemp : temp.toList.getLast? = some 'p' := by
    rw [secFitName_some h, String.toList_append, List.getLast?_append]
    rfl
  have hbackup : backup.toList.getLast? = some 'd' := by
    rw [secFitName_some h', String.toList_append, List.getLast?_append]
    rfl
  rw [heq, hbackup] at htemp
  exact absurd htemp (by decide)

/-- Numbers differ in their text. -/
theorem toString_inj {k k' : ℕ} (h : toString k = toString k') : k = k' := by
  have h : Nat.toDigits 10 k = Nat.toDigits 10 k' := by simpa using congrArg String.toList h
  simpa using congrArg (Nat.ofDigitChars 10 · 0) h

/-- Backups with different numbers have different names. -/
theorem secMakeBackupName_inj {sequence sequence' : ℕ} {name : String}
    (h : secMakeBackupName slotId pid sequence = some name)
    (h' : secMakeBackupName slotId pid sequence' = some name) : sequence = sequence' := by
  have heq := (secFitName_some h).symm.trans (secFitName_some h')
  simp only [String.append_assoc, String.append_right_inj, String.append_left_inj] at heq
  exact toString_inj heq

/-- No number is tried twice. -/
theorem secSequences_nodup : secSequences.Nodup := by
  unfold secSequences
  exact List.nodup_range

/-! ### Before the rename -/

/-- The temporary file is created under a name of its own; until then nothing is touched. -/
theorem secOpenTemp_meets {d : Disk String} (sequences : List ℕ) :
    Meets (Untouched dotted d)
      (fun r t => ∀ fd tempName, r = some (fd, tempName) →
        (∃ k, secMakeTempName slotId pid k = some tempName) ∧
          ∃ i m, d.Unused i ∧ fd = d.opened.length ∧ t = created d tempName i m)
      (secOpenTemp slotId pid sequences) d := by
  have hrefl := Untouched.refl dotted d
  -- on the numbers that are left; only a name that is taken already leads to the next one
  induction sequences with
  | nil => exact .pure hrefl nofun
  | cons k rest ih =>
    unfold secOpenTemp
    cases hname : secMakeTempName slotId pid k with
    | none => exact .pure hrefl nofun
    | some tempName =>
      refine .bind (.invoke hrefl (fun e _ => ?_) fun fd d' hdo => ?_)
      · cases e with
        | EEXIST => exact ih
        | EINTR => exact .pure hrefl nofun
        | ENOENT => exact .pure hrefl nofun
        | EACCES => exact .pure hrefl nofun
        | other n => exact .pure hrefl nofun
      · obtain ⟨i, m, -, hunused, rfl, rfl⟩ := does_createFile hdo
        have hd' : Untouched dotted d (created d tempName i m) :=
          (untouched_created hunused (.refl i _)).mono
            (Set.singleton_subset_iff.mpr (secMakeTempName_dotted hname))
        refine ⟨hd', .pure hd' ?_⟩
        rintro fd temp ⟨⟩
        exact ⟨⟨k, hname⟩, i, m, hunused, rfl, rfl⟩

/-- The names the loop over `sequences` may make. -/
def backupNames (slotId : SecSlot) (pid : ℤ) (sequences : List ℕ) : Set String :=
  {n | ∃ k ∈ sequences, secMakeBackupName slotId pid k = some n}

/-- The backups are among the dotted names. -/
theorem backupNames_dotted (sequences : List ℕ) :
    backupNames slotId pid sequences ⊆ dotted := by
  rintro n ⟨k, -, hn⟩
  exact secMakeBackupName_dotted hn

/-- The loop over the backup names touches these names only, and the backup it reports is a
file of that name which it has made. -/
theorem secBackUp_meets {name : String} {old : List UInt8} (sequences : List ℕ)
    (hnodup : sequences.Nodup) (hname : name ∉ dotted) {d : Disk String}
    (hold : Holds (Stored sizeMax old) d name) :
    Meets (Untouched (backupNames slotId pid sequences) d)
      (fun r t => ∀ b, r = some b → b ∈ backupNames slotId pid sequences ∧
        (d.link b).now = none ∧ Holds (Stored sizeMax old) t b)
      (secBackUp sizeMax fuel slotId pid name sequences) d := by
  induction sequences generalizing d with
  -- No name is left to try.
  | nil => exact .pure (.refl _ d) (by rintro _ ⟨⟩)
  | cons k rest ih =>
    obtain ⟨hk, hrest⟩ := List.nodup_cons.mp hnodup
    have hrefl := Untouched.refl (backupNames slotId pid (k :: rest)) d
    unfold secBackUp
    -- The name of this round may be too long to be made.
    cases hb : secMakeBackupName slotId pid k with
    | none => exact .pure hrefl (by rintro _ ⟨⟩)
    | some b =>
      have hsub : {b} ⊆ backupNames slotId pid (k :: rest) :=
        Set.singleton_subset_iff.mpr ⟨k, List.mem_cons_self, hb⟩
      have hsub' : backupNames slotId pid rest ⊆ backupNames slotId pid (k :: rest) := by
        rintro n ⟨k', hk', hn⟩
        exact ⟨k', List.mem_cons_of_mem k hk', hn⟩
      refine .bind ((secCreateBackup_meets fuel hold).mono (fun t ht => ht.mono hsub)
        fun created t ht hcreated => ?_)
      have ht' := ht.mono hsub
      cases created with
      | true =>
        -- The backup was made under this name.
        refine .pure ht' ?_
        rintro b' ⟨⟩
        exact ⟨⟨k, List.mem_cons_self, hb⟩, hcreated rfl⟩
      -- A name in use leads to the next one; any other error ends the search.
      | false =>
        refine .bind (.errno ht' fun e => ?_)
        split
        · exact .pure ht' (by rintro _ ⟨⟩)
        · have hname' : name ∉ ({b} : Set String) := by
            rintro rfl
            exact hname (secMakeBackupName_dotted hb)
          refine (ih hrest (hold.untouched ht hname')).mono
            (fun u hu => ht'.trans (hu.mono hsub')) fun r u _ hr b' hb' => ?_
          obtain ⟨⟨k', hk', hn⟩, hfree, hheld⟩ := hr b' hb'
          -- a later name is not the one this round has touched
          have hne : b' ∉ ({b} : Set String) := by
            rintro rfl
            exact hk (secMakeBackupName_inj hb hn ▸ hk')
          refine ⟨⟨k', List.mem_cons_of_mem k hk', hn⟩, ?_, hheld⟩
          rwa [← ht.link b' hne]

/-! ### From the rename on -/

/-- A file that holds, whole and flushed, one of the contents in `V`. -/
def StoredIn (sizeMax : ℕ) (V : Set (List UInt8)) (f : File) : Prop :=
  ∃ c ∈ V, Stored sizeMax c f

/-- A larger set of values. -/
theorem StoredIn.mono {V W : Set (List UInt8)} {f : File} (h : StoredIn sizeMax V f)
    (hVW : V ⊆ W) : StoredIn sizeMax W f := by
  obtain ⟨c, hc, hf⟩ := h
  exact ⟨c, hVW hc, hf⟩

section Slot

variable (sizeMax) (old new : List UInt8) (V : Set (List UInt8)) (name : String)
  (free : Set String)

/-- Where the write of a slot may end, before its cleanup: with the new contents under the
slot's name for good, with the old ones there, or with the old ones in a backup that the
cleanup leaves alone. `free` are the names that were free to begin with. -/
def Finished (w : WriteState) (t : Disk String) : Prop :=
  (∀ b, w.backup = some b → b ∈ dotted) ∧
    if w.success then Kept (Stored sizeMax new) t name
    else Holds (Stored sizeMax old) t name ∨
      ∃ b, w.backup = some b ∧ w.renamed = true ∧ w.preserveBackup = true ∧ b ∈ free ∧
        Holds (Stored sizeMax old) t b

variable {sizeMax old new V name free}

/-- The rollback brings the old contents back, or leaves them in the backup. -/
theorem secRollback_meets {d : Disk String} {b : String} (hb : b ∈ dotted) (hfree : b ∈ free)
    (hold : old ∈ V) (hkept : Kept (StoredIn sizeMax V) d name)
    (hheld : Holds (Stored sizeMax old) d b) (oldExists : Bool) :
    Meets (fun t => Kept (StoredIn sizeMax V) t name)
      (Finished sizeMax old new name free) (secRollback name oldExists (some b)) d := by
  refine .bind (.succeeds hkept ?_ fun v d' hdo => ?_)
  · -- the backup stays where it is
    refine .bind (.pure hkept ?_)
    refine .bind (.fsyncDir (P := fun t => Holds (Stored sizeMax old) t b) hkept hheld
      (fun t hJ hP => ⟨Kept.settled hJ, Holds.settled hP⟩) fun _ t hJ hP => .pure hJ ?_)
    refine ⟨?_, .inr ⟨b, rfl, rfl, rfl, hfree, hP⟩⟩
    rintro b' ⟨⟩
    exact hb
  · cases hdo with
    | renameat hnow hne =>
      obtain ⟨j, hj, hstored⟩ := hheld
      obtain rfl := Option.some.inj (hnow.symm.trans hj)
      have hkept' := Kept.renamed hkept hne ⟨old, hold, hstored⟩
      refine ⟨hkept', .bind (.pure hkept' ?_)⟩
      refine .bind (.fsyncDir (P := fun t => Holds (Stored sizeMax old) t name) hkept'
        (.relink hstored) (fun t hJ hP => ⟨Kept.settled hJ, Holds.settled hP⟩)
        fun _ t hJ hP => .pure hJ ?_)
      exact ⟨nofun, .inl hP⟩

/-- The rename and what follows it. -/
theorem secReplace_meets {d : Disk String} {temp b : String}
    (hb : b ∈ dotted) (htb : b ≠ temp) (hfree : b ∈ free) (hold : old ∈ V)
    (hname : name ∉ dotted) (hkept : Kept (StoredIn sizeMax V) d name)
    (hheld : Holds (Stored sizeMax old) d name) (hnew : Holds (Stored sizeMax new) d temp)
    (hbackup : Holds (Stored sizeMax old) d b) (oldExists : Bool) :
    Meets (fun t => Kept (StoredIn sizeMax (insert new V)) t name)
      (Finished sizeMax old new name free) (secReplace name temp oldExists (some b)) d := by
  have hkept := hkept.mono fun f hf => hf.mono (Set.subset_insert new V)
  have hbn : b ≠ name := ne_of_mem_of_not_mem hb hname
  refine .bind (.succeeds hkept ?_ fun v d₁ hdo => ?_)
  · -- A rename that fails leaves the old text in the slot.
    refine .pure hkept ⟨?_, .inl hheld⟩
    rintro b' ⟨⟩
    exact hb
  cases hdo with
  | renameat hnow hne =>
    obtain ⟨j, hj, hstored⟩ := hnew
    obtain rfl := Option.some.inj (hnow.symm.trans hj)
    rename_i i
    have hkept₁ := Kept.renamed hkept hne ⟨new, Set.mem_insert new V, hstored⟩
    have hbackup₁ := Holds.renamed (t := some i) hbackup htb hbn
    -- A directory that cannot be synced is rolled back from the backup.
    refine ⟨hkept₁, .bind (.succeeds hkept₁ ?_ fun v d₂ hsync => ?_)⟩
    · exact secRollback_meets hb hfree (Set.mem_insert_of_mem new hold) hkept₁ hbackup₁
        oldExists
    cases hsync with
    | fsyncDir =>
      -- the new file is all that a crash may leave
      have hdone := (Holds.relink (d := d.relink temp none) (n := name) hstored).settle
      refine ⟨hkept₁.settled, .bind (.succeeds hkept₁.settled ?_ fun v d₃ hunlink => ?_)⟩
      · -- So is a backup that cannot be removed.
        exact secRollback_meets hb hfree (Set.mem_insert_of_mem new hold) hkept₁.settled
          hbackup₁.settled oldExists
      cases hunlink with
      -- The backup is gone, which the slot does not notice.
      | unlinkat _ =>
        have hu := fun D : Disk String => Untouched.relink (d := D) (Set.mem_singleton b) none
        have hkept₃ := hkept₁.settled.untouched (hu _) hbn.symm
        exact ⟨hkept₃, .pure hkept₃ ⟨nofun, hdone.untouched (hu _) hbn.symm⟩⟩

/-- The body of the write, from the disk with the new temporary file. -/
theorem secWriteSlot_meets {d : Disk String} {temp : String} {k i m : ℕ}
    (hname : name ∉ dotted) (htemp : secMakeTempName slotId pid k = some temp)
    (hunused : d.Unused i) (hkept : Kept (StoredIn sizeMax V) d name)
    (hheld : Holds (Stored sizeMax old) d name) (hold : old ∈ V)
    (hfits : new.length ≤ sizeMax) :
    Meets (fun t => Kept (StoredIn sizeMax (insert new V)) t name)
      (Finished sizeMax old new name
        {b ∈ backupNames slotId pid secSequences | (d.link b).now = none})
      (secWriteSlot sizeMax fuel slotId pid name temp d.opened.length new)
      (created d temp i m) := by
  have htempDot := secMakeTempName_dotted htemp
  have hnt : name ∉ ({temp} : Set String) := by
    rintro rfl
    exact hname htempDot
  -- while the slot's name is untouched, stopping and giving up are both harmless
  have hJ : ∀ t, Untouched dotted d t → Kept (StoredIn sizeMax (insert new V)) t name :=
    fun t ht => (hkept.untouched ht hname).mono fun f hf => hf.mono (Set.subset_insert new V)
  -- A write that gives up leaves the slot with what it had.
  have hgive : ∀ (w : WriteState) t, Untouched dotted d t → w.success = false →
      w.backup = none → Finished sizeMax old new name
        {b ∈ backupNames slotId pid secSequences | (d.link b).now = none} w t := by
    intro w t ht hw hb
    refine ⟨by rw [hb]; exact nofun, ?_⟩
    rw [hw]
    exact .inl (hheld.untouched ht hname)
  have hdot : ∀ t, Untouched {temp} d t → Untouched dotted d t :=
    fun t ht => ht.mono (Set.singleton_subset_iff.mpr htempDot)
  refine .bind ((secFillTemp_meets fuel (created_fresh d temp i m) hfits).mono
    (fun t ht => hJ t (hdot t (untouched_created hunused ht))) fun filled t ht hstored => ?_)
  have hut := untouched_created hunused ht
  have hu := hdot t hut
  cases filled with
  -- The file could not be filled.
  | false => exact .pure (hJ t hu) (hgive _ t hu rfl rfl)
  | true =>
    have hnew : Holds (Stored sizeMax new) t temp :=
      ⟨i, by rw [ht.link]; exact created_link_self d temp i m, hstored rfl⟩
    have hheld' := hheld.untouched hut hnt
    refine .bind (.quiet trivial (hJ t hu) fun closed => ?_)
    -- The close may fail behind the last byte.
    cases closed with
    | false => exact .pure (hJ t hu) (hgive _ t hu rfl rfl)
    | true =>
      refine .bind (.invoke (hJ t hu) (fun e hmay => ?_) fun st t' hdo => ?_)
      · cases e with
        | ENOENT =>
          -- the slot's file is there
          obtain ⟨j, hj, -⟩ := hheld'
          exact nomatch hj.symm.trans (hmay rfl)
        | EINTR => exact .pure (hJ t hu) (hgive _ t hu rfl rfl)
        | EEXIST => exact .pure (hJ t hu) (hgive _ t hu rfl rfl)
        | EACCES => exact .pure (hJ t hu) (hgive _ t hu rfl rfl)
        | other n => exact .pure (hJ t hu) (hgive _ t hu rfl rfl)
      · obtain rfl := hdo.quiet trivial
        refine ⟨hJ t' hu, ?_⟩
        dsimp only
        -- A slot that is no regular file is refused.
        split
        · exact .bind (.setErrno (hJ t' hu) (.pure (hJ t' hu) (hgive _ t' hu rfl rfl)))
        · refine .bind ((secBackUp_meets secSequences secSequences_nodup hname hheld').mono
            (fun u hb => hJ u (hu.trans (hb.mono (backupNames_dotted _)))) fun r u hb hr => ?_)
          have hu' := hu.trans (hb.mono (backupNames_dotted _))
          cases r with
          -- No backup could be made.
          | none => exact .pure (hJ u hu') (hgive _ u hu' rfl rfl)
          | some b =>
            obtain ⟨hbn, hbfree, hbackup⟩ := hr b rfl
            -- Temporary file and backup have different names.
            have hbt : b ≠ temp := by
              obtain ⟨k', -, hk'⟩ := hbn
              exact (secMakeTempName_ne_backup htemp hk').symm
            have htb : temp ∉ backupNames slotId pid secSequences := by
              rintro ⟨k', -, hk'⟩
              exact secMakeTempName_ne_backup htemp hk' rfl
            have hfree : (d.link b).now = none := by
              rwa [hut.link b hbt] at hbfree
            refine secReplace_meets (backupNames_dotted _ hbn) hbt ?_ hold hname
              (hkept.untouched hu' hname) (hheld.untouched hu' hname)
              (hnew.untouched hb htb) hbackup true
            exact ⟨hbn, hfree⟩

/-! ### The cleanup -/

/-- What the cleanup reports. -/
def cleanupStatus (w : WriteState) : Except Err Unit :=
  if w.success then .ok () else .error (secErr .io)

/-- The cleanup touches dotted names only. -/
theorem secCleanup_untouched {d : Disk String} {temp : String} (htemp : temp ∈ dotted)
    (w : WriteState) (hw : ∀ b, w.backup = some b → b ∈ dotted) :
    Meets (Untouched dotted d) (fun r _ => r = cleanupStatus w) (secCleanup temp w) d := by
  -- the two descriptors are closed in every case
  have hrelease : ∀ t, Untouched dotted d t →
      Meets (Untouched dotted d) (fun r _ => r = cleanupStatus w)
        (secReleaseDir >>= fun _ => pure (cleanupStatus w)) t := fun t ht =>
    .bind (.bind (.quiet trivial ht fun _ => .bind (.quiet trivial ht fun _ =>
      .pure ht (.pure ht rfl))))
  -- the names that are unlinked are dotted, so the slot is not touched
  have hunlink : ∀ n, n ∈ dotted → ∀ (q : Prog String (Except Err Unit)) t,
      Untouched dotted d t →
      (∀ t', Untouched dotted d t' →
        Meets (Untouched dotted d) (fun r _ => r = cleanupStatus w) q t') →
      Meets (Untouched dotted d) (fun r _ => r = cleanupStatus w)
        (succeeds (.unlinkat n) >>= fun _ => q) t := by
    intro n hn q t ht hq
    refine .bind (.succeeds ht (hq t ht) fun v t' hdo => ?_)
    cases hdo with
    | unlinkat hnow =>
      have ht' := ht.trans (.relink hn none)
      exact ⟨ht', hq _ ht'⟩
  have hrefl := Untouched.refl dotted d
  refine .bind (secCloseFile_meets w.fd hrefl fun _ => ?_)
  obtain ⟨success, renamed, backup, preserve, fd⟩ := w
  cases renamed with
  | true =>
    cases backup with
    | none => exact hrelease d hrefl
    | some b =>
      cases preserve with
      | true => exact hrelease d hrefl
      | false => exact hunlink b (hw b rfl) _ d hrefl hrelease
  | false =>
    refine hunlink temp htemp _ d hrefl fun t ht => ?_
    cases backup with
    | none => exact hrelease t ht
    | some b =>
      cases preserve with
      | true => exact hrelease t ht
      | false => exact hunlink b (hw b rfl) _ t ht hrelease

/-- A cleanup that preserves the backup changes nothing. -/
theorem secCleanup_preserves {d : Disk String} {temp : String} {w : WriteState}
    (hrenamed : w.renamed = true) (hpreserve : w.preserveBackup = true) :
    Meets (fun t => t = d) (fun r _ => r = cleanupStatus w) (secCleanup temp w) d := by
  obtain ⟨success, renamed, backup, preserve, fd⟩ := w
  cases hrenamed
  cases hpreserve
  have hrelease : Meets (fun t => t = d)
      (fun r _ => r = cleanupStatus ⟨success, true, backup, true, fd⟩)
      (secReleaseDir >>= fun _ => pure (cleanupStatus ⟨success, true, backup, true, fd⟩)) d :=
    .bind (.bind (.quiet trivial rfl fun _ => .bind (.quiet trivial rfl fun _ =>
      .pure rfl (.pure rfl rfl))))
  refine .bind (secCloseFile_meets fd rfl fun _ => ?_)
  cases backup <;> exact hrelease

/-- What the write leaves once it has returned. -/
def Returned (sizeMax : ℕ) (old new : List UInt8) (name : String) (free : Set String)
    (r : Except Err Unit) (t : Disk String) : Prop :=
  (r = .ok () → Kept (Stored sizeMax new) t name) ∧
    ∀ e, r = .error e → Holds (Stored sizeMax old) t name ∨
      ∃ b ∈ free, Holds (Stored sizeMax old) t b

/-- The clean-up leaves the slot as the write left it. -/
theorem secCleanup_meets {d : Disk String} {temp : String} (htemp : temp ∈ dotted)
    (hname : name ∉ dotted) {w : WriteState} (hkept : Kept (StoredIn sizeMax V) d name)
    (hw : Finished sizeMax old new name free w d) :
    Meets (fun t => Kept (StoredIn sizeMax V) t name)
      (Returned sizeMax old new name free) (secCleanup temp w) d := by
  -- a write that went well has finished; one that failed left the old value, or it in a backup
  obtain ⟨hdotted, hend⟩ := hw
  have hcleanup := (secCleanup_untouched (d := d) htemp w hdotted).with_inv
  cases hsuccess : w.success with
  | true =>
    rw [hsuccess, if_pos rfl] at hend
    refine hcleanup.mono (fun t ht => hkept.untouched ht hname) fun r t _ hr => ?_
    rw [cleanupStatus, hsuccess] at hr
    exact ⟨fun _ => hend.untouched hr.1 hname, fun e he => nomatch hr.2.symm.trans he⟩
  | false =>
    rw [hsuccess] at hend
    have herror : ∀ r, r = cleanupStatus w → r ≠ .ok () := by
      rintro r rfl
      rw [cleanupStatus, hsuccess]
      exact nofun
    obtain hheld | ⟨b, -, hrenamed, hpreserve, hfree, hheld⟩ := hend
    · refine hcleanup.mono (fun t ht => hkept.untouched ht hname) fun r t _ hr => ?_
      exact ⟨fun hok => absurd hok (herror r hr.2), fun _ _ => .inl (hheld.untouched hr.1 hname)⟩
    · refine (secCleanup_preserves hrenamed hpreserve).mono ?_ fun r t ht hr => ?_
      · rintro t rfl
        exact hkept
      · subst ht
        exact ⟨fun hok => absurd hok (herror r hr), fun _ _ => .inr ⟨b, hfree, hheld⟩⟩

/-- The whole write, on a slot that holds `old`. -/
theorem actrustSecStoreWrite_meets {d : Disk String} {data : Option (List UInt8)} {len : ℕ}
    (hkept : Kept (StoredIn sizeMax V) d (slotName slotId))
    (hheld : Holds (Stored sizeMax old) d (slotName slotId)) (hold : old ∈ V)
    (hlen : len ≤ sizeMax) :
    Meets (fun t => Kept (StoredIn sizeMax (insert ((data.getD []).take len) V)) t
        (slotName slotId))
      (Returned sizeMax old ((data.getD []).take len) (slotName slotId)
        {b ∈ backupNames slotId pid secSequences | (d.link b).now = none})
      (actrustSecStoreWrite sizeMax fuel pid slotId data len) d := by
  have hname := slotName_not_dotted slotId
  have hfits : ((data.getD []).take len).length ≤ sizeMax :=
    (List.length_take_le _ _).trans hlen
  unfold actrustSecStoreWrite
  rw [secMakeName_eq]
  generalize (data.getD []).take len = new at hfits ⊢
  have hJ : ∀ t, Untouched dotted d t →
      Kept (StoredIn sizeMax (insert new V)) t (slotName slotId) :=
    fun t ht => (hkept.untouched ht hname).mono fun f hf => hf.mono (Set.subset_insert new V)
  have hgive : ∀ e t, Untouched dotted d t → Returned sizeMax old new (slotName slotId)
      {b ∈ backupNames slotId pid secSequences | (d.link b).now = none} (.error e) t :=
    fun e t ht => ⟨nofun, fun _ _ => .inl (hheld.untouched ht hname)⟩
  have hrelease : ∀ e t, Untouched dotted d t →
      Meets (fun t => Kept (StoredIn sizeMax (insert new V)) t (slotName slotId))
        (Returned sizeMax old new (slotName slotId)
          {b ∈ backupNames slotId pid secSequences | (d.link b).now = none})
        (secReleaseDir >>= fun _ => pure (.error e)) t :=
    fun e t ht => .bind (.bind (.quiet trivial (hJ t ht) fun _ =>
      .bind (.quiet trivial (hJ t ht) fun _ => .pure (hJ t ht) (.pure (hJ t ht) (hgive e t ht)))))
  have hrefl := Untouched.refl dotted d
  split
  · exact .pure (hJ d hrefl) (hgive _ d hrefl)
  refine .bind (.quiet trivial (hJ d hrefl) fun opened => ?_)
  cases opened with
  | false => exact .pure (hJ d hrefl) (hgive _ d hrefl)
  | true =>
    refine .bind (.quiet trivial (hJ d hrefl) fun locked => ?_)
    cases locked with
    | false =>
      exact .bind (.quiet trivial (hJ d hrefl) fun _ => .pure (hJ d hrefl) (hgive _ d hrefl))
    | true =>
      refine .bind ((secOpenTemp_meets secSequences).mono hJ fun r t ht hr => ?_)
      cases r with
      | none => exact hrelease _ t ht
      | some found =>
        obtain ⟨fd, temp⟩ := found
        obtain ⟨⟨k, hk⟩, i, m, hunused, rfl, rfl⟩ := hr fd temp rfl
        have hdot := secMakeTempName_dotted hk
        dsimp only
        split
        · -- no name for a backup: the temporary file is removed
          refine .bind (.quiet trivial (hJ _ ht) fun _ => ?_)
          refine .bind (.succeeds (hJ _ ht) (hrelease _ _ ht) fun v t' hdo => ?_)
          cases hdo with
          | unlinkat hnow =>
            have ht' := ht.trans (.relink hdot none)
            exact ⟨hJ _ ht', hrelease _ _ ht'⟩
        · refine .bind ((secWriteSlot_meets hname hk hunused hkept hheld hold hfits).mono
            (fun _ h => h) fun w u hu hw => ?_)
          exact secCleanup_meets hdot hname hu hw

end Slot

/-! ### The slot through a write -/

/-- What is asked of a write of `new` to a slot that holds `old`, where a crash so far might
leave any of the contents in `V`. -/
structure WriteAtomic (sizeMax fuel : ℕ) (pid : ℤ) (slotId : SecSlot)
    (data : Option (List UInt8)) (len : ℕ) (old : List UInt8) (V : Set (List UInt8))
    (s : Process String) : Prop where
  /-- A write that returns OK is there to stay. -/
  ok : ∀ t, Exec Step (actrustSecStoreWrite sizeMax fuel pid slotId data len) s (some (.ok ())) t →
    ReadsAs sizeMax slotId ((data.getD []).take len) t ∧
      ∀ u, Crashed t.disk u.disk → ReadsAs sizeMax slotId ((data.getD []).take len) u
  /-- One that returns an error leaves the old contents, or has made a backup of them. -/
  error : ∀ e t,
    Exec Step (actrustSecStoreWrite sizeMax fuel pid slotId data len) s (some (.error e)) t →
    ReadsAs sizeMax slotId old t ∨
      ∃ k ∈ secSequences, ∃ b, secMakeBackupName slotId pid k = some b ∧
        (s.disk.link b).now = none ∧ Holds (Stored sizeMax old) t.disk b
  /-- Wherever the machine stops, the slot reads as a whole value. -/
  crash : ∀ o t u, Exec Step (actrustSecStoreWrite sizeMax fuel pid slotId data len) s o t →
    Crashed t.disk u.disk → ∃ c ∈ insert ((data.getD []).take len) V, ReadsAs sizeMax slotId c u

/-- Every write of a slot is atomic, whatever calls fail and wherever the machine stops. -/
theorem secStoreWrite_atomic {s : Process String} {old : List UInt8} {V : Set (List UInt8)}
    (hheld : Holds (Stored sizeMax old) s.disk (slotName slotId))
    (hkept : Kept (StoredIn sizeMax V) s.disk (slotName slotId)) {len : ℕ}
    (hlen : len ≤ sizeMax) (fuel : ℕ) (pid : ℤ) (data : Option (List UInt8)) :
    WriteAtomic sizeMax fuel pid slotId data len old V s := by
  -- what the slot holds is one of the contents a crash may leave
  have hold : old ∈ V := by
    obtain ⟨i, hnow, hi⟩ := hheld
    obtain ⟨j, hj, c, hc, hstored⟩ := hkept.holds
    obtain rfl := Option.some.inj (hnow.symm.trans hj)
    rwa [← hi.data, hstored.data]
  have hmeets := @actrustSecStoreWrite_meets sizeMax fuel slotId pid old V s.disk data len
    hkept hheld hold hlen
  have hsynced : ∀ c f, Stored sizeMax c f → f.synced = true := fun _ _ hf => hf.synced
  refine ⟨fun t hexec => ?_, fun e t hexec => ?_, fun o t u hexec hcrash => ?_⟩
  · have hdone := (((hmeets.sound hexec).2 _ rfl).1 rfl)
    exact ⟨readsAs_of_holds (secMakeName_eq slotId) hdone.holds, fun u hcrash =>
      readsAs_of_holds (secMakeName_eq slotId) (hdone.crashed (hsynced _) hcrash).holds⟩
  · obtain hslot | ⟨b, ⟨⟨k, hk, hb⟩, hfree⟩, hbackup⟩ := ((hmeets.sound hexec).2 _ rfl).2 e rfl
    · exact .inl (readsAs_of_holds (secMakeName_eq slotId) hslot)
    · exact .inr ⟨k, hk, b, hb, hfree, hbackup⟩
  · have hcrashed := (hmeets.sound hexec).1.crashed (fun f ⟨_, _, hf⟩ => hf.synced) hcrash
    obtain ⟨i, hnow, c, hc, hstored⟩ := hcrashed.holds
    exact ⟨c, hc, readsAs_of_holds (secMakeName_eq slotId) ⟨i, hnow, hstored⟩⟩

/-- A store whose slot 7 holds one byte. -/
def sevenStored : Process String where
  disk :=
    { link := fun n => if n = slotName 7 then ⟨some 0, []⟩ else ⟨none, []⟩
      file := fun _ => ⟨true, true, secFileMode, [1], true⟩
      opened := [] }
  errno := .other 0

/-- The theorem at slot 7. -/
theorem secStoreWrite_atomic_seven :
    WriteAtomic 100 10 42 7 (some [2, 3]) 2 [1] {[1]} sevenStored := by
  have hstored : Stored 100 [1] ⟨true, true, secFileMode, [1], true⟩ :=
    ⟨by decide, rfl, by decide, rfl⟩
  have hlink : sevenStored.disk.link (slotName 7) = ⟨some 0, []⟩ := by
    simp [sevenStored]
  refine secStoreWrite_atomic ⟨0, by rw [hlink], hstored⟩ (fun t ht => ?_) (by decide) 10 42 _
  rw [hlink] at ht
  exact ⟨0, List.mem_singleton.mp ht, [1], rfl, hstored⟩

/-! ### The slot through its life -/

/-- What happens to a slot: writes of contents in `V`, complete or cut short, and crashes. -/
inductive SlotUse (sizeMax : ℕ) (slotId : SecSlot) (V : Set (List UInt8)) :
    Process String → Process String → Prop
  | write {fuel pid data len o s t} : len ≤ sizeMax → (data.getD []).take len ∈ V →
      Exec Step (actrustSecStoreWrite sizeMax fuel pid slotId data len) s o t →
      SlotUse sizeMax slotId V s t
  | crash {s t} : Crashed s.disk t.disk → SlotUse sizeMax slotId V s t

/-- A use of the store keeps the slot. -/
theorem SlotUse.kept {V : Set (List UInt8)} {s t : Process String}
    (h : SlotUse sizeMax slotId V s t)
    (hkept : Kept (StoredIn sizeMax V) s.disk (slotName slotId)) :
    Kept (StoredIn sizeMax V) t.disk (slotName slotId) := by
  cases h with
  | write hlen hnew hexec =>
    obtain ⟨i, hnow, old, hold, hstored⟩ := hkept.holds
    have hend := ((actrustSecStoreWrite_meets hkept ⟨i, hnow, hstored⟩ hold hlen).sound hexec).1
    rwa [Set.insert_eq_of_mem hnew] at hend
  | crash hcrash => exact hkept.crashed (fun f ⟨_, _, hf⟩ => hf.synced) hcrash

/-- A slot that was written once never again reads as anything but one of the contents that
were given to a write. -/
theorem slot_reads_written {V : Set (List UInt8)} {s t : Process String}
    (h : Relation.ReflTransGen (SlotUse sizeMax slotId V) s t)
    (hkept : Kept (StoredIn sizeMax V) s.disk (slotName slotId)) :
    ∃ c ∈ V, ReadsAs sizeMax slotId c t := by
  have hend : Kept (StoredIn sizeMax V) t.disk (slotName slotId) := by
    induction h with
    | refl => exact hkept
    | tail _ hstep ih => exact hstep.kept ih
  obtain ⟨i, hnow, c, hc, hstored⟩ := hend.holds
  exact ⟨c, hc, readsAs_of_holds (secMakeName_eq slotId) ⟨i, hnow, hstored⟩⟩

end TrustSdk.Security
