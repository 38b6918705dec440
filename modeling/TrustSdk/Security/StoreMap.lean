import TrustSdk.Lib.Histories
import TrustSdk.Security.SlotAtomicity

/-!
# The secure store as a map

Any sequence of writes, deletes and reads of any slots, each complete, failing or cut short, with
crashes in between. Of each slot is known what it may hold (`Known`): after a write or a delete that
returned OK that one value or nothing, after one that has not the values from before as well, and
behind anything else what it was. `secure_store_map` says that no slot ever holds anything else: no
part of a value, and nothing that was written to another slot.

A name is followed through everything that a crash might leave of it (`Tracks`); the other slots
keep what they have, though a flush of the directory settles theirs too (`Calm`).
-/

namespace TrustSdk.Security

open SystemCalls FileStore Histories

variable {sizeMax fuel : ℕ} {slotId : SecSlot} {pid : ℤ}

/-! ### Names -/

/-- The value of a hexadecimal digit. -/
def secHexDigit (c : Char) : ℕ := if c.isDigit then c.toNat - 48 else c.toNat - 87

/-- The number that hexadecimal digits stand for. -/
def secHexValue (digits : List Char) : ℕ := digits.foldl (fun n c => 16 * n + secHexDigit c) 0

/-- A hexadecimal digit is read back. -/
theorem secHexDigit_digitChar : ∀ d < 16, secHexDigit (Nat.digitChar d) = d := by decide

/-- So is the text of a number. -/
theorem secHexValue_toDigits (n : ℕ) : secHexValue (Nat.toDigits 16 n) = n := by
  induction n using Nat.strongRecOn with
  | ind n ih =>
    rcases lt_or_ge n 16 with hn | hn
    · rw [Nat.toDigits_of_lt_base hn]
      simpa [secHexValue] using secHexDigit_digitChar n hn
    · have hquot := ih (n / 16) (Nat.div_lt_self (by omega) (by omega))
      rw [Nat.toDigits_of_base_le (by omega) hn, secHexValue, List.foldl_append]
      change 16 * secHexValue (Nat.toDigits 16 (n / 16)) + secHexDigit (Nat.digitChar (n % 16)) = n
      rw [hquot, secHexDigit_digitChar _ (Nat.mod_lt n (by omega))]
      exact Nat.div_add_mod n 16

/-- Zeros in front do not count. -/
theorem secHexValue_leftpad (n : ℕ) (digits : List Char) :
    secHexValue (List.leftpad n '0' digits) = secHexValue digits := by
  rw [List.leftpad, secHexValue, List.foldl_append]
  congr 1
  induction n - digits.length with
  | zero => rfl
  | succ k ih => exact ih

/-- Slots differ in their names. -/
theorem slotName_injective {slotId slotId' : SecSlot} (h : slotName slotId = slotName slotId') :
    slotId = slotId' := by
  simp only [slotName, String.append_assoc, String.append_right_inj, String.append_left_inj] at h
  have hvalue := congrArg (fun s => secHexValue s.toList) h
  simp only [secHex, String.toList_ofList, secHexValue_leftpad, secHexValue_toDigits] at hvalue
  exact UInt32.toNat_inj.mp hvalue

/-! ### Values -/

/-- What a slot holds: nothing, or some bytes. -/
abbrev SlotValue := Option (List UInt8)

/-- The file that a name refers to, if any, holds this value. -/
def Shows (sizeMax : ℕ) : SlotValue → Option File → Prop
  | none, f => f = none
  | some c, f => ∃ f', f = some f' ∧ Stored sizeMax c f'

/-- The link shows one of the values. -/
def ShowsIn (sizeMax : ℕ) (P : Set SlotValue) (f : Option File) : Prop :=
  ∃ v ∈ P, Shows sizeMax v f

/-- More values. -/
theorem ShowsIn.mono {P P' : Set SlotValue} (hP : P ⊆ P') (f : Option File)
    (h : ShowsIn sizeMax P f) : ShowsIn sizeMax P' f := by
  obtain ⟨v, hv, hshows⟩ := h
  exact ⟨v, hP hv, hshows⟩

/-- What a link shows is on the medium. -/
theorem ShowsIn.synced {P : Set SlotValue} {f : File} (h : ShowsIn sizeMax P (some f)) :
    f.synced = true := by
  obtain ⟨v, -, hshows⟩ := h
  cases v with
  | none => exact absurd hshows (by rintro ⟨⟩)
  | some c =>
    obtain ⟨f', hf, hstored⟩ := hshows
    rw [Option.some.inj hf]
    exact hstored.synced

/-- A link without a file shows no value. -/
theorem ShowsIn.absent {P : Set SlotValue} (h : ShowsIn sizeMax P none) : none ∈ P := by
  obtain ⟨v, hv, hshows⟩ := h
  cases v with
  | none => exact hv
  | some c =>
    obtain ⟨f', hf, -⟩ := hshows
    exact absurd hf (by rintro ⟨⟩)

/-- A file that is shown stores one of the values. -/
theorem ShowsIn.stored {P : Set SlotValue} {f : File} (h : ShowsIn sizeMax P (some f)) :
    ∃ c, some c ∈ P ∧ Stored sizeMax c f := by
  obtain ⟨v, hv, hshows⟩ := h
  cases v with
  | none => exact absurd hshows (by rintro ⟨⟩)
  | some c =>
    obtain ⟨f', hf, hstored⟩ := hshows
    rw [Option.some.inj hf]
    exact ⟨c, hv, hstored⟩

/-- Neither a name nor a file has changed. -/
structure SameFiles (d t : Disk String) : Prop where
  link : t.link = d.link
  file : t.file = d.file

/-- One after the other. -/
theorem SameFiles.trans {d t u : Disk String} (h : SameFiles d t) (h' : SameFiles t u) :
    SameFiles d u :=
  ⟨h'.link.trans h.link, h'.file.trans h.file⟩

/-- Where the files are the same nothing happened to the name. -/
theorem SameFiles.calm {d t : Disk String} (h : SameFiles d t) (n : String) : Calm n d t where
  now := by rw [h.link]
  possible u hu := by rwa [h.link] at hu
  file i _ := by rw [h.file]

/-! ### A slot while it is written or deleted -/

/-- The slot may only hold the values in `P`, and the other slots are what they were. -/
structure Guards (sizeMax : ℕ) (P : Set SlotValue) (name : String) (d t : Disk String) : Prop where
  slot : Tracks (ShowsIn sizeMax P) t name
  other : ∀ n, n ∉ dotted → n ≠ name → Calm n d t

section Guards

variable {P : Set SlotValue} {name : String} {d t t' : Disk String}

/-- Nothing was done yet. -/
theorem Guards.start (h : Tracks (ShowsIn sizeMax P) d name) : Guards sizeMax P name d d :=
  ⟨h, fun n _ _ => .refl n d⟩

/-- Other names were touched. -/
theorem Guards.untouched (h : Guards sizeMax P name d t) (hname : name ∉ dotted)
    (hu : Untouched dotted t t') : Guards sizeMax P name d t' where
  slot := h.slot.calm (hu.calm hname)
  other n hn hne := (h.other n hn hne).trans (hu.calm hn)

/-- More values. -/
theorem Guards.mono {P' : Set SlotValue} (h : Guards sizeMax P name d t) (hP : P ⊆ P') :
    Guards sizeMax P' name d t :=
  ⟨h.slot.mono (ShowsIn.mono hP), h.other⟩

/-- Only descriptors were touched. -/
theorem Guards.sameFiles (h : Guards sizeMax P name d t) (hsame : SameFiles t t') :
    Guards sizeMax P name d t' :=
  ⟨h.slot.calm (hsame.calm name), fun n hn hne => (h.other n hn hne).trans (hsame.calm n)⟩

/-- Only descriptors had been touched. -/
theorem Guards.after (h : Guards sizeMax P name t t') (hsame : SameFiles d t) :
    Guards sizeMax P name d t' :=
  ⟨h.slot, fun n hn hne => (hsame.calm n).trans (h.other n hn hne)⟩

/-- A temporary or backup file is linked or unlinked. -/
theorem Guards.dotted (h : Guards sizeMax P name d t) (hname : name ∉ dotted) {b : String}
    (hb : b ∈ Security.dotted) (u : Option ℕ) : Guards sizeMax P name d (t.relink b u) :=
  h.untouched hname (.relink hb u)

/-- The slot's own name is linked or unlinked. -/
theorem Guards.relink (h : Guards sizeMax P name d t) {u : Option ℕ}
    (hu : ShowsIn sizeMax P (u.map t.file)) : Guards sizeMax P name d (t.relink name u) where
  slot := h.slot.relink hu
  other n hn hne := (h.other n hn hne).trans (.relink hne u)

/-- The links have settled. -/
theorem Guards.settle (h : Guards sizeMax P name d t) : Guards sizeMax P name d t.settle where
  slot := .settled h.slot.now
  other n hn hne := (h.other n hn hne).trans (.settle n t)

/-- Flushing the directory, whatever the answer. -/
theorem Guards.fsyncDir {Q : Bool → Disk String → Prop} (h : Guards sizeMax P name d t)
    (hfail : Q false t) (hok : Q true t.settle) :
    Meets (Guards sizeMax P name d) Q (succeeds .fsyncDir) t := by
  refine .succeeds h hfail fun v t' hdo => ?_
  cases hdo
  exact ⟨h.settle, hok⟩

end Guards

/-! ### Writing -/

/-- The old value of the slot is in the backup, if there was one. -/
def BackedUp (sizeMax : ℕ) (P : Set SlotValue) (oldExists : Bool) (t : Disk String) :
    Option String → Prop
  | none => oldExists = false ∧ none ∈ P
  | some b => b ∈ dotted ∧ ∃ old, some old ∈ P ∧ Holds (Stored sizeMax old) t b

/-- A call that has returned OK leaves the slot with this value, whatever a crash makes of it. -/
def Settled (sizeMax : ℕ) (v : SlotValue) (name : String) (r : Except Err Unit)
    (t : Disk String) : Prop :=
  r = .ok () → Tracks (ShowsIn sizeMax {v}) t name

/-- An error promises nothing. -/
theorem Settled.error {v : SlotValue} {name : String} (e : Err) (t : Disk String) :
    Settled sizeMax v name (.error e) t := by
  rintro ⟨⟩

/-- Where the write of a slot may end, before its cleanup. -/
def WriteEnds (sizeMax : ℕ) (new : List UInt8) (name : String) (w : WriteState) (t : Disk String) :
    Prop :=
  (∀ b, w.backup = some b → b ∈ dotted) ∧
    (w.success = true → Tracks (ShowsIn sizeMax {some new}) t name)

section Write

variable {P : Set SlotValue} {name : String} {d t : Disk String} {new : List UInt8}

/-- The rollback keeps the slot at one of the values. -/
theorem secRollback_guards (hname : name ∉ dotted) (h : Guards sizeMax P name d t)
    {oldExists : Bool} {backup : Option String}
    (hbackup : BackedUp sizeMax P oldExists t backup) :
    Meets (Guards sizeMax P name d) (WriteEnds sizeMax new name)
      (secRollback name oldExists backup) t := by
  -- The end of a rollback syncs the directory; either way the write has failed.
  have hend : ∀ {w : WriteState} {t : Disk String}, Guards sizeMax P name d t →
      w.success = false → (∀ b, w.backup = some b → b ∈ dotted) →
      Meets (Guards sizeMax P name d) (WriteEnds sizeMax new name)
        (succeeds .fsyncDir >>= fun _ => pure w) t := by
    intro w t ht hw hb
    have hends : ∀ t, WriteEnds sizeMax new name w t := fun t =>
      ⟨hb, fun hsuccess => absurd (hw.symm.trans hsuccess) (by simp)⟩
    exact .bind (ht.fsyncDir (.pure ht (hends _)) (.pure ht.settle (hends _)))
  cases backup with
  -- There was no slot before, so the rollback unlinks the one that was made.
  | none =>
    obtain ⟨rfl, habsent⟩ := hbackup
    have hnone : ∀ b, (none : Option String) = some b → b ∈ dotted := by rintro _ ⟨⟩
    refine .bind (.succeeds h ?_ fun v t' hdo => ?_)
    · exact .bind (.pure h (hend h rfl hnone))
    · cases hdo with
      | unlinkat hnow =>
        have h' : Guards sizeMax P name d (t.relink name none) := h.relink ⟨none, habsent, rfl⟩
        exact ⟨h', .bind (.pure h' (hend h' rfl hnone))⟩
  -- There was one: its backup is renamed back onto the slot.
  | some b =>
    -- What the backup holds is what the slot held before the write.
    obtain ⟨hb, old, hold, j, hj, hstored⟩ := hbackup
    refine .bind (.succeeds h ?_ fun v t' hdo => ?_)
    · -- the backup stays where it is
      refine .bind (.pure h (hend h rfl ?_))
      rintro _ ⟨⟩
      exact hb
    · cases hdo with
      | renameat hnow hne =>
        rw [hj] at hnow
        obtain rfl := Option.some.inj hnow
        have h' : Guards sizeMax P name d ((t.relink b none).relink name (some j)) :=
          (h.dotted hname hb none).relink ⟨some old, hold, _, rfl, hstored⟩
        refine ⟨h', .bind (.pure h' (hend h' rfl ?_))⟩
        rintro _ ⟨⟩

/-- The rename and what follows it. -/
theorem secReplace_guards (hname : name ∉ dotted) {temp : String} (htemp : temp ∈ dotted)
    (h : Guards sizeMax P name d t) (hnewP : some new ∈ P)
    (hnew : Holds (Stored sizeMax new) t temp) {oldExists : Bool} {backup : Option String}
    (hbackup : BackedUp sizeMax P oldExists t backup) (htb : backup ≠ some temp) :
    Meets (Guards sizeMax P name d) (WriteEnds sizeMax new name)
      (secReplace name temp oldExists backup) t := by
  -- The backup is a dotted name, which is no slot.
  have hdotted : ∀ b, backup = some b → b ∈ dotted := by
    rintro b rfl
    exact hbackup.1
  -- A rename that fails leaves the old slot.
  refine .bind (.succeeds h (.pure h ⟨hdotted, by rintro ⟨⟩⟩) fun v t₁ hdo => ?_)
  cases hdo with
  | renameat hnow hne =>
    obtain ⟨j, hj, hstored⟩ := hnew
    rw [hj] at hnow
    obtain rfl := Option.some.inj hnow
    -- From here the slot shows the new text, which is one of those allowed.
    have hshows : ∀ P : Set SlotValue, some new ∈ P → ShowsIn sizeMax P (some (t.file j)) :=
      fun P hmem => ⟨some new, hmem, _, rfl, hstored⟩
    have h₁ : Guards sizeMax P name d ((t.relink temp none).relink name (some j)) :=
      (h.dotted hname htemp none).relink (hshows P hnewP)
    -- the rename leaves the backup where it is
    have hbackup₁ : BackedUp sizeMax P oldExists ((t.relink temp none).relink name (some j))
        backup := by
      cases backup with
      | none => exact hbackup
      | some b =>
        obtain ⟨hb, old, hold, hheld⟩ := hbackup
        refine ⟨hb, old, hold, hheld.renamed ?_ (ne_of_mem_of_not_mem hb hname)⟩
        rintro rfl
        exact htb rfl
    -- The sync settles the backup as well as the slot.
    have hback₂ : BackedUp sizeMax P oldExists
        ((t.relink temp none).relink name (some j)).settle backup := by
      cases backup with
      | none => exact hbackup₁
      | some b =>
        obtain ⟨hb, old, hold, hheld⟩ := hbackup₁
        exact ⟨hb, old, hold, hheld.settled⟩
    -- The slot is settled with the new text alone.
    have hdone : Tracks (ShowsIn sizeMax {some new})
        ((t.relink temp none).relink name (some j)).settle name := by
      refine .settled ?_
      rw [Disk.relink_link_self, Link.relink_now]
      exact hshows _ rfl
    -- A directory that cannot be synced is rolled back.
    refine ⟨h₁, .bind (h₁.fsyncDir (secRollback_guards hname h₁ hbackup₁) ?_)⟩
    cases backup with
    | none => exact .pure h₁.settle ⟨hdotted, fun _ => hdone⟩
    -- The backup is removed last; where that fails, the write is rolled back.
    | some b =>
      have hb := hdotted b rfl
      refine .bind (.succeeds h₁.settle (secRollback_guards hname h₁.settle hback₂)
        fun v t₃ hunlink => ?_)
      cases hunlink with
      | unlinkat _ =>
        have h₃ := h₁.settle.dotted hname hb none
        have hb' : name ≠ b := (ne_of_mem_of_not_mem hb hname).symm
        exact ⟨h₃, .pure h₃ ⟨by rintro _ ⟨⟩, fun _ => hdone.calm (.relink hb' none)⟩⟩

/-- The body of the write, from the disk with the new temporary file. -/
theorem secWriteSlot_guards (hname : name ∉ dotted) {temp : String} {k i m : ℕ}
    (htemp : secMakeTempName slotId pid k = some temp) (hunused : d.Unused i)
    (h : Tracks (ShowsIn sizeMax P) d name) (hnewP : some new ∈ P)
    (hfits : new.length ≤ sizeMax) :
    Meets (Guards sizeMax P name d) (WriteEnds sizeMax new name)
      (secWriteSlot sizeMax fuel slotId pid name temp d.opened.length new)
      (created d temp i m) := by
  have htempDot := secMakeTempName_dotted htemp
  -- The temporary file is another name than the slot, so filling it is harmless.
  have hJ : ∀ t, Untouched dotted d t → Guards sizeMax P name d t :=
    fun t ht => (Guards.start h).untouched hname ht
  -- A write that gives up has neither a backup nor success.
  have hgive : ∀ (w : WriteState) t, w.success = false → w.backup = none →
      WriteEnds sizeMax new name w t := by
    intro w t hw hb
    refine ⟨by rw [hb]; rintro _ ⟨⟩, fun hsuccess => ?_⟩
    exact absurd (hw.symm.trans hsuccess) (by simp)
  have hdot : ∀ t, Untouched {temp} d t → Untouched dotted d t :=
    fun t ht => ht.mono (Set.singleton_subset_iff.mpr htempDot)
  refine .bind ((secFillTemp_meets fuel (created_fresh d temp i m) hfits).mono
    (fun t ht => hJ t (hdot t (untouched_created hunused ht))) fun filled t ht hstored => ?_)
  have hut := untouched_created hunused ht
  have hu := hdot t hut
  -- The file could not be filled.
  cases filled with
  | false => exact .pure (hJ t hu) (hgive _ t rfl rfl)
  | true =>
    have hnew : Holds (Stored sizeMax new) t temp :=
      ⟨i, by rw [ht.link]; exact created_link_self d temp i m, hstored rfl⟩
    -- The close may fail behind the last byte.
    refine .bind (.quiet trivial (hJ t hu) fun closed => ?_)
    cases closed with
    | false => exact .pure (hJ t hu) (hgive _ t rfl rfl)
    | true =>
      -- The slot is looked at: it is empty, or it holds what it held.
      refine .bind (.invoke (hJ t hu) (fun e hmay => ?_) fun st t' hdo => ?_)
      · cases e with
        | ENOENT =>
          -- the slot is empty, and a rollback leaves it so
          have hnow : (t.link name).now = none := hmay rfl
          have habsent := (hJ t hu).slot.now
          rw [hnow] at habsent
          exact secReplace_guards hname htempDot (hJ t hu) hnewP hnew ⟨rfl, habsent.absent⟩
            (by rintro ⟨⟩)
        | EINTR => exact .pure (hJ t hu) (hgive _ t rfl rfl)
        | EEXIST => exact .pure (hJ t hu) (hgive _ t rfl rfl)
        | EACCES => exact .pure (hJ t hu) (hgive _ t rfl rfl)
        | other n => exact .pure (hJ t hu) (hgive _ t rfl rfl)
      · cases hdo with
        | fstatat hnow =>
          have hshown := (hJ t hu).slot.now
          rw [hnow] at hshown
          obtain ⟨old, hold, hstoredOld⟩ := hshown.stored
          refine ⟨hJ t hu, ?_⟩
          dsimp only
          -- A slot that is no regular file is refused.
          split
          · exact .bind (.setErrno (hJ t hu) (.pure (hJ t hu) (hgive _ t rfl rfl)))
          · refine .bind ((secBackUp_meets secSequences secSequences_nodup hname
              ⟨_, hnow, hstoredOld⟩).mono
              (fun u hb => hJ u (hu.trans (hb.mono (backupNames_dotted _)))) fun r u hb hr => ?_)
            have hu' := hu.trans (hb.mono (backupNames_dotted _))
            cases r with
            -- No name was free for a backup.
            | none => exact .pure (hJ u hu') (hgive _ u rfl rfl)
            | some b =>
              obtain ⟨hbn, -, hheld⟩ := hr b rfl
              obtain ⟨k', -, hk'⟩ := hbn
              -- The temporary name is none of the backup's.
              have htb : temp ∉ backupNames slotId pid secSequences := by
                rintro ⟨k'', -, hk''⟩
                exact secMakeTempName_ne_backup htemp hk'' rfl
              refine secReplace_guards hname htempDot (hJ u hu') hnewP (hnew.untouched hb htb)
                ⟨secMakeBackupName_dotted hk', old, hold, hheld⟩ ?_
              rintro ⟨⟩
              exact secMakeTempName_ne_backup htemp hk' rfl

/-- So does the clean-up. -/
theorem secCleanup_guards (hname : name ∉ dotted) {temp : String} (htemp : temp ∈ dotted)
    {w : WriteState} (h : Guards sizeMax P name d t) (hw : WriteEnds sizeMax new name w t) :
    Meets (Guards sizeMax P name d) (Settled sizeMax (some new) name) (secCleanup temp w) t := by
  refine (secCleanup_untouched (d := t) htemp w hw.1).with_inv.mono
    (fun u hu => h.untouched hname hu) ?_
  rintro r u - ⟨hu, rfl⟩ hok
  refine (hw.2 ?_).calm (hu.calm hname)
  by_contra hfail
  rw [cleanupStatus, if_neg hfail] at hok
  exact absurd hok (by simp)

/-- The whole write: from any values that the slot may hold, it may hold these and the new one, and
only the new one once the write has returned OK. -/
theorem actrustSecStoreWrite_guards (h : Tracks (ShowsIn sizeMax P) d (slotName slotId))
    (fuel : ℕ) (pid : ℤ) (data : Option (List UInt8)) {len : ℕ} (hlen : len ≤ sizeMax) :
    Meets (Guards sizeMax ({some ((data.getD []).take len)} ∪ P) (slotName slotId) d)
      (Settled sizeMax (some ((data.getD []).take len)) (slotName slotId))
      (actrustSecStoreWrite sizeMax fuel pid slotId data len) d := by
  -- The slot is not a dotted name, so no temporary file is one.
  have hname := slotName_not_dotted slotId
  have hfits : ((data.getD []).take len).length ≤ sizeMax :=
    (List.length_take_le _ _).trans hlen
  have hmem : some ((data.getD []).take len) ∈ {some ((data.getD []).take len)} ∪ P := .inl rfl
  have hsub : P ⊆ {some ((data.getD []).take len)} ∪ P := Set.subset_union_right
  have h := h.mono (ShowsIn.mono hsub)
  unfold actrustSecStoreWrite
  rw [secMakeName_eq]
  generalize (data.getD []).take len = new at hfits hmem h ⊢
  generalize {some new} ∪ P = P' at hmem h ⊢
  have hJ : ∀ t, Untouched dotted d t → Guards sizeMax P' (slotName slotId) d t :=
    fun t ht => (Guards.start h).untouched hname ht
  have hrelease : ∀ e t, Untouched dotted d t → Meets (Guards sizeMax P' (slotName slotId) d)
      (Settled sizeMax (some new) (slotName slotId))
      (secReleaseDir >>= fun _ => pure (.error e)) t :=
    fun e t ht => .bind (.bind (.quiet trivial (hJ t ht) fun _ =>
      .bind (.quiet trivial (hJ t ht) fun _ => .pure (hJ t ht) (.pure (hJ t ht) (.error e t)))))
  have hrefl := Untouched.refl dotted d
  split
  · exact .pure (hJ d hrefl) (.error _ d)
  refine .bind (.quiet trivial (hJ d hrefl) fun opened => ?_)
  cases opened with
  | false => exact .pure (hJ d hrefl) (.error _ d)
  | true =>
    refine .bind (.quiet trivial (hJ d hrefl) fun locked => ?_)
    cases locked with
    | false =>
      exact .bind (.quiet trivial (hJ d hrefl) fun _ => .pure (hJ d hrefl) (.error _ d))
    | true =>
      refine .bind ((secOpenTemp_meets secSequences).mono hJ fun r t ht hr => ?_)
      cases r with
      | none => exact hrelease _ t ht
      | some found =>
        obtain ⟨fd, temp⟩ := found
        obtain ⟨⟨k, hk⟩, i, m, hunused, rfl, rfl⟩ := hr fd temp rfl
        have hdot := secMakeTempName_dotted hk
        dsimp only
        split
        · -- no name for a backup: the temporary file is removed
          refine .bind (.quiet trivial (hJ _ ht) fun _ => ?_)
          refine .bind (.succeeds (hJ _ ht) (hrelease _ _ ht) fun v t' hdo => ?_)
          cases hdo with
          | unlinkat hnow =>
            have ht' := ht.trans (.relink hdot none)
            exact ⟨hJ _ ht', hrelease _ _ ht'⟩
        · exact .bind ((secWriteSlot_guards hname hk hunused h hmem hfits).mono (fun _ hu => hu)
            fun w u hu hw => secCleanup_guards hname hdot hu hw)

/-- A write of all of a buffer. -/
theorem actrustSecStoreWrite_all (h : Tracks (ShowsIn sizeMax P) d (slotName slotId)) (fuel : ℕ)
    (pid : ℤ) {bytes : List UInt8} (hlen : bytes.length ≤ sizeMax) :
    Meets (Guards sizeMax ({some bytes} ∪ P) (slotName slotId) d)
      (Settled sizeMax (some bytes) (slotName slotId))
      (actrustSecStoreWrite sizeMax fuel pid slotId (some bytes) bytes.length) d := by
  have hwrite := actrustSecStoreWrite_guards h fuel pid (some bytes) hlen
  rwa [Option.getD_some, List.take_length] at hwrite

end Write

/-! ### Deleting -/

/-- The whole delete: the slot may be empty as well, and is once the delete has returned OK. -/
theorem actrustSecStoreDelete_guards {P : Set SlotValue} {d : Disk String}
    (h : Tracks (ShowsIn sizeMax P) d (slotName slotId)) :
    Meets (Guards sizeMax ({none} ∪ P) (slotName slotId) d)
      (Settled sizeMax none (slotName slotId))
      (actrustSecStoreDelete slotId) d := by
  have hmem : none ∈ ({none} ∪ P : Set SlotValue) := .inl rfl
  have hsub : P ⊆ {none} ∪ P := Set.subset_union_right
  have h := Guards.start (h.mono (ShowsIn.mono hsub))
  generalize {none} ∪ P = P' at hmem h ⊢
  -- whatever fails before the name is unlinked, nothing has changed
  have hrelease : ∀ e, Meets (Guards sizeMax P' (slotName slotId) d)
      (Settled sizeMax none (slotName slotId)) (secReleaseDir >>= fun _ => pure (.error e)) d :=
    fun e => .bind (.bind (.quiet trivial h fun _ =>
      .bind (.quiet trivial h fun _ => .pure h (.pure h (.error e d)))))
  unfold actrustSecStoreDelete
  rw [secMakeName_eq]
  refine .bind (.invoke h (fun e _ => .pure h (.error _ d)) fun _ d₁ hdir => ?_)
  obtain rfl := hdir.quiet trivial
  refine ⟨h, .bind (.quiet trivial h fun locked => ?_)⟩
  cases locked with
  | false => exact .bind (.quiet trivial h fun _ => .pure h (.error _ d₁))
  | true =>
    refine .bind (.invoke h (fun e _ => hrelease _) fun st d₂ hstat => ?_)
    obtain rfl := hstat.quiet trivial
    refine ⟨h, ?_⟩
    dsimp only
    split
    · exact hrelease _
    refine .bind (.invoke h (fun e _ => hrelease _) fun _ d₃ hunlink => ?_)
    cases hunlink with
    | unlinkat hnow =>
      have h' := h.relink (u := none) ⟨none, hmem, rfl⟩
      refine ⟨h', .bind (h'.fsyncDir ?_ ?_)⟩
      · -- the flush failed: the name is unlinked, but a crash may bring it back
        exact .bind (.andThen (.quiet trivial h' fun _ => ⟨fun _ => .quiet trivial h' fun _ =>
          .pure h' (.error _ _), fun _ => .pure h' (.error _ _)⟩))
      · have hdone : Tracks (ShowsIn sizeMax {none})
            (d₂.relink (slotName slotId) none).settle (slotName slotId) := by
          refine .settled ?_
          rw [Disk.relink_link_self, Link.relink_now]
          exact ⟨none, rfl, rfl⟩
        exact .bind (.andThen (.quiet trivial h'.settle fun _ => ⟨fun _ =>
          .quiet trivial h'.settle fun _ => .pure h'.settle fun _ => hdone,
          fun _ => .pure h'.settle fun _ => hdone⟩))

/-! ### Reading -/

/-- What a read says of a slot that may hold the values in `P`. -/
structure Answers (P : Set SlotValue) (outLen : ℕ) (r : SecReadResult) : Prop where
  ok : r.status = .ok () → some r.out ∈ P ∧ r.actualLen = some r.out.length
  tooSmall : r.status = .error (secErr .bufTooSmall) →
    ∃ c, some c ∈ P ∧ outLen < c.length ∧ r.actualLen = some c.length

/-- A failed read has no bytes. -/
theorem Answers.failed {P : Set SlotValue} {outLen : ℕ} {code : ErrCode} {actualLen : Option ℕ}
    {out : List UInt8} (hcode : code ≠ .bufTooSmall) :
    Answers P outLen ⟨.error (secErr code), out, actualLen⟩ := by
  refine ⟨by rintro ⟨⟩, fun h => absurd ?_ hcode⟩
  exact congrArg Err.code (Except.error.inj h)

/-- A read of a slot that is not there. -/
theorem Answers.missing {P : Set SlotValue} {outLen : ℕ} (e : Errno) :
    Answers P outLen { status := .error (secErr (if e = .ENOENT then .noResource else .io)) } := by
  refine .failed ?_
  split
  · rintro ⟨⟩
  · rintro ⟨⟩

/-- The loop that fills the buffer moves the position in the file only. -/
theorem secReadAll_sameFiles {fd : ℕ} (fuel left : ℕ) (total : List UInt8) (d : Disk String) :
    Meets (SameFiles d) (fun _ _ => True) (secReadAll fd fuel left total) d := by
  -- on the rounds; a read moves its descriptor and nothing else
  induction fuel generalizing left total d with
  | zero =>
    cases left with
    | zero => exact .pure ⟨rfl, rfl⟩ trivial
    | succ n => exact fun _ => ⟨rfl, rfl⟩
  | succ fuel ih =>
    cases left with
    | zero => exact .pure ⟨rfl, rfl⟩ trivial
    | succ n =>
      refine .bind (.invoke ⟨rfl, rfl⟩ (fun e _ => ?_) fun bs d' hdo => ?_)
      · cases e with
        | EINTR => exact ih (n + 1) total d
        | EEXIST => exact .pure ⟨rfl, rfl⟩ trivial
        | ENOENT => exact .pure ⟨rfl, rfl⟩ trivial
        | EACCES => exact .pure ⟨rfl, rfl⟩ trivial
        | other n => exact .pure ⟨rfl, rfl⟩ trivial
      · have hsame : SameFiles d d' := by
          cases hdo
          exact ⟨rfl, rfl⟩
        refine ⟨hsame, ?_⟩
        cases bs with
        | nil => exact .pure hsame trivial
        | cons b bs => exact (ih _ _ d').mono (fun t ht => hsame.trans ht) fun _ _ _ _ => trivial

/-- The whole read: it answers from the values that the slot may hold, and changes nothing. -/
theorem actrustSecStoreRead_answers {P : Set SlotValue} {d : Disk String}
    (h : ShowsIn sizeMax P ((d.link (slotName slotId)).now.map d.file)) (fuel outLen : ℕ) :
    Meets (SameFiles d) (fun r _ => Answers P outLen r)
      (actrustSecStoreRead sizeMax fuel slotId outLen) d := by
  have hrefl : SameFiles d d := ⟨rfl, rfl⟩
  have hclose : ∀ (fd : ℕ) t (r : SecReadResult), SameFiles d t → Answers P outLen r →
      Meets (SameFiles d) (fun r _ => Answers P outLen r)
        (do let _ ← succeeds (.close fd); let _ ← succeeds .closeDir; return r :
          Prog String SecReadResult) t :=
    fun fd t r ht hr => .bind (.quiet trivial ht fun _ =>
      .bind (.quiet trivial ht fun _ => .pure ht hr))
  unfold actrustSecStoreRead
  rw [secMakeName_eq]
  refine .bind (.invoke hrefl (fun e _ => .pure hrefl (.missing e)) fun _ d₁ hdir => ?_)
  obtain rfl := hdir.quiet trivial
  refine ⟨hrefl, .bind (.invoke hrefl (fun e _ => ?_) fun fd d₂ hopen => ?_)⟩
  · exact .bind (.quiet trivial hrefl fun _ => .pure hrefl (.missing e))
  cases hopen with
  | openFile hnow =>
    rename_i i
    -- the slot's name refers to a file, so it shows one of the values
    rw [hnow] at h
    obtain ⟨c, hc, hstored⟩ := h.stored
    have hopened : SameFiles d₁ (d₁.addDescriptor i) := ⟨rfl, rfl⟩
    have hfd := Disk.addDescriptor_last (d := d₁) i
    refine ⟨hopened, .bind (.invoke hopened (fun e _ => ?_) fun st d₃ hstat => ?_)⟩
    · exact hclose _ _ _ hopened (.failed (by rintro ⟨⟩))
    cases hstat with
    | fstat hfd' =>
      obtain rfl := Option.some.inj (hfd'.symm.trans hfd)
      have hsize : (d₁.file i).stat.size.toNat = c.length := by
        simp [File.stat, hstored.data]
      refine ⟨hopened, ?_⟩
      dsimp only [Disk.addDescriptor_file]
      rw [hsize]
      split
      · exact hclose _ _ _ hopened (.failed (by rintro ⟨⟩))
      split
      · rename_i hsmall
        exact hclose _ _ _ hopened ⟨by rintro ⟨⟩, fun _ => ⟨c, hc, hsmall, rfl⟩⟩
      have hread := (secReadAll_sameFiles fuel c.length [] (d₁.addDescriptor i)).and
        (secReadAll_meets fuel c.length [] hfd)
      refine .bind (hread.mono (fun t ht => hopened.trans ht.1) fun out t ht hout => ?_)
      have ht := hopened.trans ht.1
      refine .bind (.quiet trivial ht fun closeOk => .bind (.quiet trivial ht fun _ => ?_))
      cases out with
      | none => exact .pure ht (.failed (by rintro ⟨⟩))
      | some bs =>
        cases closeOk with
        | false => exact .pure ht (.failed (by rintro ⟨⟩))
        | true =>
          have hbs : bs = c := by
            rw [hout.2 bs rfl]
            simp [hstored.data]
          rw [hbs]
          exact .pure ht ⟨fun _ => ⟨hc, rfl⟩, by rintro ⟨⟩⟩

/-- What a read makes of a slot that holds `v`. -/
def SlotReads (sizeMax : ℕ) (slotId : SecSlot) : SlotValue → Process String → Prop
  | none, s => ∀ fuel outLen r t,
      Exec Step (actrustSecStoreRead sizeMax fuel slotId outLen) s (some r) t → r.status ≠ .ok ()
  | some c, s => ReadsAs sizeMax slotId c s

/-- A slot that shows a value reads as it. -/
theorem Tracks.slotReads {P : Set SlotValue} {s : Process String}
    (h : Tracks (ShowsIn sizeMax P) s.disk (slotName slotId)) :
    ∃ v ∈ P, SlotReads sizeMax slotId v s := by
  obtain ⟨v, hv, hshows⟩ := h.now
  refine ⟨v, hv, ?_⟩
  cases v with
  | none =>
    intro fuel outLen r t hexec hok
    have hempty : ShowsIn sizeMax {none} ((s.disk.link (slotName slotId)).now.map s.disk.file) :=
      ⟨none, rfl, hshows⟩
    have hread := actrustSecStoreRead_answers hempty fuel outLen
    have hmem := (((hread.sound hexec).2 r rfl).ok hok).1
    exact absurd hmem (by simp)
  | some c =>
    obtain ⟨f, hf, hstored⟩ := hshows
    obtain ⟨i, hnow, rfl⟩ := Option.map_eq_some_iff.mp hf
    exact readsAs_of_holds (secMakeName_eq slotId) ⟨i, hnow, hstored⟩

/-! ### The store through its life -/

/-- What happens to the store: calls with what they were given and what they returned, `none` for
one that was cut short, and crashes. -/
inductive StoreEvent where
  | wrote (slotId : SecSlot) (bytes : List UInt8) (result : Option (Except Err Unit))
  | deleted (slotId : SecSlot) (result : Option (Except Err Unit))
  | readBack (slotId : SecSlot) (outLen : ℕ) (result : Option SecReadResult)
  | crashed

/-- What each slot may hold. -/
abbrev Known := SecSlot → Set SlotValue

/-- What may be there after a call that was to leave one of `N`: the values from before stay
possible unless it returned OK. -/
def settledOn {α ρ : Type} (N P : Set α) : Option (Except Err ρ) → Set α
  | some (.ok _) => N
  | _ => N ∪ P

/-- What is known after an event. -/
def StoreEvent.learn (K : Known) : StoreEvent → Known
  | .wrote slotId bytes result =>
      Function.update K slotId (settledOn {some bytes} (K slotId) result)
  | .deleted slotId result => Function.update K slotId (settledOn {none} (K slotId) result)
  | .readBack _ _ _ => K
  | .crashed => K

/-- What an event says of the values known before it: a read answers from them. -/
def StoreEvent.Truthful (K : Known) : StoreEvent → Prop
  | .readBack slotId outLen (some r) => Answers (K slotId) outLen r
  | _ => True

/-- How the events come about. The machine may stop during any call. -/
inductive StoreStep (sizeMax : ℕ) : Process String → StoreEvent → Process String → Prop
  | write {fuel pid slotId data len o s t} : len ≤ sizeMax →
      Exec Step (actrustSecStoreWrite sizeMax fuel pid slotId data len) s o t →
      StoreStep sizeMax s (.wrote slotId ((data.getD []).take len) o) t
  | delete {slotId o s t} : Exec Step (actrustSecStoreDelete slotId) s o t →
      StoreStep sizeMax s (.deleted slotId o) t
  | read {fuel slotId outLen o s t} :
      Exec Step (actrustSecStoreRead sizeMax fuel slotId outLen) s o t →
      StoreStep sizeMax s (.readBack slotId outLen o) t
  | crash {s t} : Crashed s.disk t.disk → StoreStep sizeMax s .crashed t

/-- A run of the store with its events. -/
abbrev StoreRun (sizeMax : ℕ) : Process String → List StoreEvent → Process String → Prop :=
  Trace (StoreStep sizeMax)

/-- No slot holds anything but what is known of it, whatever a crash leaves. -/
def Conforms (sizeMax : ℕ) (K : Known) (s : Process String) : Prop :=
  ∀ slotId, Tracks (ShowsIn sizeMax (K slotId)) s.disk (slotName slotId)

/-- A call on one slot: it may hold the values in `P` afterwards. -/
theorem Conforms.update {K : Known} {s t : Process String} {slotId : SecSlot} {P Q : Set SlotValue}
    (h : Conforms sizeMax K s) (hg : Guards sizeMax P (slotName slotId) s.disk t.disk)
    (hQ : Tracks (ShowsIn sizeMax Q) t.disk (slotName slotId)) :
    Conforms sizeMax (Function.update K slotId Q) t := by
  intro other
  by_cases hother : other = slotId
  · subst hother
    rwa [Function.update_self]
  · rw [Function.update_of_ne hother]
    exact (h other).calm (hg.other _ (slotName_not_dotted other) fun hname =>
      hother (slotName_injective hname))

/-- What is known after a call that ended, or was cut. -/
theorem Guards.settledOn {v : SlotValue} {P : Set SlotValue} {d t : Disk String} {name : String}
    {o : Option (Except Err Unit)} (hg : Guards sizeMax ({v} ∪ P) name d t)
    (hok : ∀ r, o = some r → Settled sizeMax v name r t) :
    Tracks (ShowsIn sizeMax (settledOn {v} P o)) t name := by
  unfold Security.settledOn
  split
  · exact hok _ rfl rfl
  · exact hg.slot

/-- One event. -/
theorem StoreStep.conforms {K : Known} {s t : Process String} {event : StoreEvent}
    (h : StoreStep sizeMax s event t) (hK : Conforms sizeMax K s) :
    event.Truthful K ∧ Conforms sizeMax (event.learn K) t := by
  -- a write or a delete is about its own slot, a read about none, and a crash about all
  cases h with
  | write hlen hexec =>
    rename_i fuel pid slotId data len o
    have hend := (actrustSecStoreWrite_guards (hK slotId) fuel pid data hlen).sound hexec
    exact ⟨trivial, hK.update hend.1 (hend.1.settledOn hend.2)⟩
  | delete hexec =>
    rename_i slotId o
    have hend := (actrustSecStoreDelete_guards (hK slotId)).sound hexec
    exact ⟨trivial, hK.update hend.1 (hend.1.settledOn hend.2)⟩
  | read hexec =>
    rename_i fuel slotId outLen o
    have hend := (actrustSecStoreRead_answers (hK slotId).now fuel outLen).sound hexec
    refine ⟨?_, fun other => (hK other).calm (hend.1.calm _)⟩
    cases o with
    | none => exact trivial
    | some r => exact hend.2 r rfl
  | crash hcrash =>
    exact ⟨trivial, fun other => (hK other).crashed (fun _ => ShowsIn.synced) hcrash⟩

/-- The secure store is a map from slots to values: after any calls and crashes each slot reads as
one of the values known of it, and every read answered from what was known when it was made. -/
theorem secure_store_map {K : Known} {s t : Process String} {events : List StoreEvent}
    (hrun : StoreRun sizeMax s events t) (hstart : Conforms sizeMax K s) :
    (∀ slotId, ∃ v ∈ learned StoreEvent.learn K events slotId, SlotReads sizeMax slotId v t) ∧
      InKeeping StoreEvent.learn StoreEvent.Truthful K events := by
  obtain ⟨hend, htruthful⟩ := hrun.informed StoreStep.conforms hstart
  exact ⟨fun slotId => Tracks.slotReads (hend slotId), htruthful⟩

/-- Of the store of `sevenStored`, its slot 7 holds a value and the others are empty. -/
def knownSeven : Known := fun slotId => if slotId = 7 then {some [1]} else {none}

/-- What is known of the slots of the example. -/
theorem sevenStored_conforms : Conforms 100 knownSeven sevenStored := by
  intro slotId t ht
  by_cases hseven : slotId = 7
  · subst hseven
    have hlink : sevenStored.disk.link (slotName 7) = ⟨some 0, []⟩ := by simp [sevenStored]
    rw [hlink] at ht
    obtain rfl := List.mem_singleton.mp ht
    have hstored : Stored 100 [1] (sevenStored.disk.file 0) := ⟨by decide, rfl, by decide, rfl⟩
    exact ⟨some [1], rfl, _, rfl, hstored⟩
  · have hname : slotName slotId ≠ slotName 7 := fun h => hseven (slotName_injective h)
    have hlink : sevenStored.disk.link (slotName slotId) = ⟨none, []⟩ := by
      simp [sevenStored, hname]
    rw [hlink] at ht
    obtain rfl := List.mem_singleton.mp ht
    refine ⟨none, ?_, rfl⟩
    rw [knownSeven, if_neg hseven]
    rfl

/-- The disk after slot 7 was deleted. -/
def sevenDeleted : Process String where
  disk := (sevenStored.disk.relink (slotName 7) none).settle
  errno := .other 0

/-- A delete of slot 7. -/
theorem sevenStored_delete :
    Exec Step (actrustSecStoreDelete 7) sevenStored (some (.ok ())) sevenDeleted := by
  have hnow : (sevenStored.disk.link (slotName 7)).now = some 0 := by simp [sevenStored]
  unfold actrustSecStoreDelete
  rw [secMakeName_eq]
  refine (exec_invoke .openDir).bind ((exec_succeeds .flock).bind ?_)
  refine (exec_invoke (.fstatat hnow)).bind ((exec_invoke (.unlinkat hnow)).bind ?_)
  refine (exec_succeeds .fsyncDir).bind ?_
  exact ((exec_succeeds .flock).bind (exec_succeeds .closeDir)).bind .done

/-- A slot that is deleted and lost sight of in a crash is empty. -/
theorem secure_store_map_seven :
    ∃ v ∈ learned StoreEvent.learn knownSeven [.deleted 7 (some (.ok ())), .crashed] 7,
      SlotReads 100 7 v sevenDeleted := by
  have hcrash : Crashed sevenDeleted.disk sevenDeleted.disk :=
    ⟨fun n => ⟨_, Link.now_mem_possible _, rfl⟩, fun _ _ => rfl, rfl⟩
  have hrun : StoreRun 100 sevenStored [.deleted 7 (some (.ok ())), .crashed] sevenDeleted :=
    .step (.delete sevenStored_delete) (.step (.crash hcrash) .start)
  exact (secure_store_map hrun sevenStored_conforms).1 7

end TrustSdk.Security
