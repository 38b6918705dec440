import TrustSdk.Security.SecureStore

/-!
# What the transfers of the secure store leave

Each function that fills a file changes that file and nothing else (`Confined`), and when it
reports success the file has the whole contents:

* `secWriteAll_meets`, `secCopyFile_meets` — the loops, by induction on the rounds;
* `secFillTemp_meets`, `secFillBackup_meets` — the file is private and flushed as well;
* `secCreateBackup_meets` — the backup is a new file under a name that was free.
-/

namespace TrustSdk.Security

open SystemCalls FileStore

/-- A file that a read of the slot accepts, with the contents `c`, flushed. -/
structure Stored (sizeMax : ℕ) (c : List UInt8) (f : File) : Prop where
  regular : secStatIsRegular f.stat = true
  data : f.data = c
  fits : c.length ≤ sizeMax
  synced : f.synced = true

/-! ### Writing at the end of a file -/

/-- The descriptor stands at the end of file `i`. -/
def AtEnd (fd i : ℕ) (d : Disk String) : Prop :=
  d.opened[fd]? = some ⟨i, (d.file i).data.length⟩

/-- `bs` was added at the end of file `i`, where the descriptor still stands. -/
structure Added (fd i : ℕ) (bs : List UInt8) (d d' : Disk String) : Prop where
  data : (d'.file i).data = (d.file i).data ++ bs
  isReg : (d'.file i).isReg = (d.file i).isReg
  owned : (d'.file i).owned = (d.file i).owned
  mode : (d'.file i).mode = (d.file i).mode
  atEnd : AtEnd fd i d'

/-- Nothing was added. -/
theorem Added.nil {fd i : ℕ} {d : Disk String} (h : AtEnd fd i d) : Added fd i [] d d :=
  ⟨(List.append_nil _).symm, rfl, rfl, rfl, h⟩

/-- One after the other. -/
theorem Added.trans {fd i : ℕ} {bs bs' : List UInt8} {d d' d'' : Disk String}
    (h : Added fd i bs d d') (h' : Added fd i bs' d' d'') : Added fd i (bs ++ bs') d d'' where
  data := by rw [h'.data, h.data, List.append_assoc]
  isReg := h'.isReg.trans h.isReg
  owned := h'.owned.trans h.owned
  mode := h'.mode.trans h.mode
  atEnd := h'.atEnd

/-- The disk after `bs` was written through a descriptor at the end of file `i`. -/
def appendTo (d : Disk String) (fd i : ℕ) (bs : List UInt8) : Disk String :=
  (d.setFile i { d.file i with data := (d.file i).data ++ bs, synced := false }).seek fd
    ⟨i, (d.file i).data.length + bs.length⟩

/-- What is appended. -/
theorem added_appendTo {d : Disk String} {fd i : ℕ} (bs : List UInt8) (h : AtEnd fd i d) :
    Added fd i bs d (appendTo d fd i bs) where
  data := by simp [appendTo]
  isReg := by simp [appendTo]
  owned := by simp [appendTo]
  mode := by simp [appendTo]
  atEnd := by
    refine (Disk.seek_self (d := d.setFile i _) h _).trans ?_
    simp [appendTo]

/-- And only there. -/
theorem confined_appendTo (d : Disk String) (fd i : ℕ) (bs : List UInt8) :
    Confined i d (appendTo d fd i bs) :=
  (Confined.setFile i _).trans (Confined.seek i fd _)

/-- What a write at the end of a file does. -/
theorem does_write {d d' : Disk String} {fd i n : ℕ} {bs : List UInt8} (h : AtEnd fd i d)
    (hdo : Does d (.write fd bs) n d') : n ≤ bs.length ∧ d' = appendTo d fd i (bs.take n) := by
  cases hdo with
  | write hfd hk =>
    obtain rfl := Option.some.inj (hfd.symm.trans h)
    refine ⟨hk, ?_⟩
    rw [appendTo, overwrite_end, List.length_take, min_eq_left hk]

/-- The loop that writes the whole buffer: what it changes on the way is file `i` only, and
when it reports success the buffer was added to the file. -/
theorem secWriteAll_meets {fd i : ℕ} (fuel : ℕ) (buf : List UInt8) (d : Disk String)
    (hend : AtEnd fd i d) :
    Meets (fun t => Confined i d t ∧ ∀ e, e ≠ fd → t.opened[e]? = d.opened[e]?)
      (fun b t => b = true → Added fd i buf d t) (secWriteAll fd fuel buf) d := by
  induction fuel generalizing buf d with
  | zero =>
    -- On the fuel; without any, nothing was promised.
    cases buf with
    | nil => exact .pure ⟨.refl i d, fun _ _ => rfl⟩ fun _ => .nil hend
    | cons b bs => exact fun _ => ⟨.refl i d, fun _ _ => rfl⟩
  | succ fuel ih =>
    cases buf with
    | nil => exact .pure ⟨.refl i d, fun _ _ => rfl⟩ fun _ => .nil hend
    | cons b bs =>
      refine .bind (.invoke ⟨.refl i d, fun _ _ => rfl⟩ (fun e _ => ?_) fun n d' hdo => ?_)
      · -- an interrupted call is made again, any other failure ends the loop
        cases e with
        | EINTR => exact ih (b :: bs) d hend
        | EEXIST => exact .pure ⟨.refl i d, fun _ _ => rfl⟩ nofun
        | ENOENT => exact .pure ⟨.refl i d, fun _ _ => rfl⟩ nofun
        | EACCES => exact .pure ⟨.refl i d, fun _ _ => rfl⟩ nofun
        | other n => exact .pure ⟨.refl i d, fun _ _ => rfl⟩ nofun
      · -- Some bytes were taken, at the end of the file.
        obtain ⟨hn, rfl⟩ := does_write hend hdo
        have hconf := confined_appendTo d fd i ((b :: bs).take n)
        have hothers : ∀ e, e ≠ fd →
            (appendTo d fd i ((b :: bs).take n)).opened[e]? = d.opened[e]? :=
          fun e he => Disk.seek_of_ne he _
        refine ⟨⟨hconf, hothers⟩, ?_⟩
        -- Taking none ends the loop; else the rest follows at the new end.
        cases n with
        | zero => exact .pure ⟨hconf, hothers⟩ nofun
        | succ n =>
          have hadd := added_appendTo ((b :: bs).take (n + 1)) hend
          refine (ih ((b :: bs).drop (n + 1)) _ hadd.atEnd).mono
            (fun t ht => ⟨hconf.trans ht.1, fun e he => (ht.2 e he).trans (hothers e he)⟩) ?_
          intro r t _ hr hok
          have h := hadd.trans (hr hok)
          rwa [List.take_append_drop] at h

/-! ### Copying a file -/

/-- The disk after `n` bytes were read through a descriptor of file `j`. -/
theorem does_read {d d' : Disk String} {fd j off count : ℕ} {bs : List UInt8}
    (h : d.opened[fd]? = some ⟨j, off⟩) (hdo : Does d (.read fd count) bs d') :
    (∃ k ≤ count, bs = ((d.file j).data.drop off).take k) ∧
      d' = d.seek fd ⟨j, off + bs.length⟩ := by
  cases hdo with
  | read hfd hk =>
    obtain rfl := Option.some.inj (hfd.symm.trans h)
    exact ⟨⟨_, hk, rfl⟩, rfl⟩

/-- A prefix read off a list, and what is left to read. -/
theorem take_eq_append {data bs : List UInt8} {k n : ℕ} (hbs : bs = data.take k) (hk : k ≤ n) :
    data.take n = bs ++ (data.drop bs.length).take (n - bs.length) := by
  have hlen : bs.length ≤ n := by
    rw [hbs, List.length_take]
    exact (min_le_left _ _).trans hk
  have hprefix : bs <+: data := hbs ▸ List.take_prefix k data
  have htake : data.take bs.length = bs := (List.prefix_iff_eq_take.mp hprefix).symm
  conv_lhs => rw [← Nat.add_sub_cancel' hlen, List.take_add, htake]

/-- The copy loop: it changes file `i` only, and when it reports success the file has got the
bytes that were left to copy. -/
theorem secCopyFile_meets {src dst i j : ℕ} (hfd : src ≠ dst) (hij : j ≠ i) (fuel rounds : ℕ)
    (remaining off : ℕ) (d : Disk String) (hsrc : d.opened[src]? = some ⟨j, off⟩)
    (hend : AtEnd dst i d) :
    Meets (Confined i d)
      (fun b t => b = true → Added dst i (((d.file j).data.drop off).take remaining) d t)
      (secCopyFile fuel src dst rounds remaining) d := by
  induction rounds generalizing remaining off d with
  | zero =>
    -- On the rounds; without one left, nothing was promised.
    cases remaining with
    | zero => exact .pure (.refl i d) fun _ => .nil hend
    | succ n => exact fun _ => .refl i d
  | succ rounds ih =>
    cases remaining with
    | zero => exact .pure (.refl i d) fun _ => .nil hend
    | succ n =>
      refine .bind (.invoke (.refl i d) (fun e _ => ?_) fun bs d' hdo => ?_)
      · -- An interrupted read is made again.
        cases e with
        | EINTR => exact ih (n + 1) off d hsrc hend
        | EEXIST => exact .pure (.refl i d) nofun
        | ENOENT => exact .pure (.refl i d) nofun
        | EACCES => exact .pure (.refl i d) nofun
        | other n => exact .pure (.refl i d) nofun
      · obtain ⟨⟨k, hk, hbs⟩, rfl⟩ := does_read hsrc hdo
        have hseek := Confined.seek i (d := d) src ⟨j, off + bs.length⟩
        refine ⟨hseek, ?_⟩
        have hend' : AtEnd dst i (d.seek src ⟨j, off + bs.length⟩) :=
          (Disk.seek_of_ne hfd.symm _).trans hend
        have htake := take_eq_append hbs (hk.trans (min_le_left _ _))
        -- The end of the file before the count is a failure.
        cases bs with
        | nil => exact .pure hseek nofun
        | cons b bs =>
          refine .bind ((secWriteAll_meets fuel (b :: bs) _ hend').mono
            (fun t ht => hseek.trans ht.1) fun ok t ht hadd => ?_)
          -- The bytes could not be written.
          cases ok with
          | false => exact .pure (hseek.trans ht.1) nofun
          | true =>
            have hadd := hadd rfl
            have hsrc' : t.opened[src]? = some ⟨j, off + (b :: bs).length⟩ :=
              (ht.2 src hfd).trans (Disk.seek_self hsrc _)
            -- what was read is in file `i`, and file `j` is as it was
            have hdata : (t.file j).data = (d.file j).data := by
              rw [ht.1.file j hij]
              rfl
            refine (ih _ _ t hsrc' hadd.atEnd).mono
              (fun u hu => hseek.trans (ht.1.trans hu)) fun r u _ hr hok => ?_
            have h := hadd.trans (hr hok)
            rw [hdata, ← List.drop_drop, ← htake] at h
            exact ⟨h.data, h.isReg, h.owned, h.mode, h.atEnd⟩

/-! ### Filling a new file -/

/-- The disk after file `i` was made private. -/
def makePrivate (d : Disk String) (i : ℕ) : Disk String :=
  d.setFile i { d.file i with mode := secFileMode, synced := false }

/-- The mode of the file is set. -/
theorem confined_makePrivate (d : Disk String) (i : ℕ) : Confined i d (makePrivate d i) :=
  .setFile i _

/-- `fchmod` sets the mode and nothing else. -/
theorem does_fchmod {d d' : Disk String} {fd i off : ℕ} {v : Unit}
    (h : d.opened[fd]? = some ⟨i, off⟩) (hdo : Does d (.fchmod fd secFileMode) v d') :
    d' = makePrivate d i := by
  cases hdo with
  | fchmod hfd =>
    obtain rfl := Option.some.inj (hfd.symm.trans h)
    rfl

/-- `fsync` brings the file to the medium. -/
theorem does_fsync {d d' : Disk String} {fd i off : ℕ} {v : Unit}
    (h : d.opened[fd]? = some ⟨i, off⟩) (hdo : Does d (.fsync fd) v d') :
    d' = d.setFile i { d.file i with synced := true } := by
  cases hdo with
  | fsync hfd =>
    obtain rfl := Option.some.inj (hfd.symm.trans h)
    rfl

/-- `lseek` moves the descriptor. -/
theorem does_lseek {d d' : Disk String} {fd offset j off : ℕ} {v : Unit}
    (h : d.opened[fd]? = some ⟨j, off⟩) (hdo : Does d (.lseek fd offset) v d') :
    d' = d.seek fd ⟨j, offset⟩ := by
  cases hdo with
  | lseek hfd =>
    obtain rfl := Option.some.inj (hfd.symm.trans h)
    rfl

/-- A file that was just created: empty, not yet flushed. -/
structure Fresh (fd i : ℕ) (d : Disk String) : Prop where
  isReg : (d.file i).isReg = true
  owned : (d.file i).owned = true
  data : (d.file i).data = []
  atEnd : AtEnd fd i d

/-- Setting the mode of a new file. -/
theorem Fresh.makePrivate {fd i : ℕ} {d : Disk String} (h : Fresh fd i d) :
    Fresh fd i (makePrivate d i) ∧ ((Security.makePrivate d i).file i).mode = secFileMode := by
  refine ⟨⟨?_, ?_, ?_, ?_⟩, ?_⟩
  · simpa [Security.makePrivate] using h.isReg
  · simpa [Security.makePrivate] using h.owned
  · simpa [Security.makePrivate] using h.data
  · simpa [Security.makePrivate, AtEnd] using h.atEnd
  · simp [Security.makePrivate]

/-- A new file with the right mode that was filled and flushed is stored. -/
theorem Added.stored {sizeMax fd i : ℕ} {bs : List UInt8} {d t : Disk String}
    (h : Added fd i bs d t) (hfresh : Fresh fd i d) (hmode : (d.file i).mode = secFileMode)
    (hfits : bs.length ≤ sizeMax) :
    Stored sizeMax bs ((t.setFile i { t.file i with synced := true }).file i) where
  regular := by
    simp [secStatIsRegular, File.stat, h.isReg, h.owned, h.mode, hfresh.isReg, hfresh.owned,
      hmode, secFileMode]
  data := by simp [h.data, hfresh.data]
  fits := hfits
  synced := by simp

/-- The temporary file: nothing else changes, and on success it is stored. -/
theorem secFillTemp_meets {sizeMax fd i : ℕ} (fuel : ℕ) {data : List UInt8} {d : Disk String}
    (hfresh : Fresh fd i d) (hfits : data.length ≤ sizeMax) :
    Meets (Confined i d) (fun b t => b = true → Stored sizeMax data (t.file i))
      (secFillTemp fuel fd data) d := by
  refine .bind (.invoke (.refl i d) (fun e _ => .pure (.refl i d) nofun) fun st d' hdo => ?_)
  obtain rfl := hdo.quiet trivial
  refine ⟨.refl i _, ?_⟩
  dsimp only
  split
  · -- the file is private before the first byte is in it
    exact .pure (.refl i _) nofun
  refine .check (.refl i _) nofun fun v d₁ hchmod => ?_
  obtain rfl := does_fchmod hfresh.atEnd hchmod
  obtain ⟨hfresh₁, hmode⟩ := hfresh.makePrivate
  have hconf := confined_makePrivate d' i
  refine .andThen ((secWriteAll_meets fuel data _ hfresh₁.atEnd).mono
    (fun t ht => hconf.trans ht.1) fun b t ht hadd => ⟨fun hb => ?_, fun _ => nofun⟩)
  -- only a file that was written whole and synced is reported as filled
  have hadd := hadd hb
  refine .succeeds (hconf.trans ht.1) nofun fun v d₂ hsync => ?_
  obtain rfl := does_fsync hadd.atEnd hsync
  exact ⟨(hconf.trans ht.1).trans (.setFile i _), fun _ => hadd.stored hfresh₁ hmode hfits⟩

/-- The backup file: nothing else changes, and on success it has the contents of file `j`. -/
theorem secFillBackup_meets {sizeMax src dst i j off : ℕ} (fuel : ℕ) {d : Disk String}
    (hfd : src ≠ dst) (hij : j ≠ i) (hsrc : d.opened[src]? = some ⟨j, off⟩)
    (hfresh : Fresh dst i d) (hfits : (d.file j).data.length ≤ sizeMax) :
    Meets (Confined i d) (fun b t => b = true → Stored sizeMax (d.file j).data (t.file i))
      (secFillBackup fuel src dst (d.file j).data.length) d := by
  -- The file is looked at, made private, and filled from the start.
  refine .bind (.invoke (.refl i d) (fun e _ => .pure (.refl i d) nofun) fun st d' hdo => ?_)
  obtain rfl := hdo.quiet trivial
  refine ⟨.refl i _, ?_⟩
  dsimp only
  split
  · exact .pure (.refl i _) nofun
  refine .check (.refl i _) nofun fun v d₁ hchmod => ?_
  obtain rfl := does_fchmod hfresh.atEnd hchmod
  obtain ⟨hfresh₁, hmode⟩ := hfresh.makePrivate
  have hconf := confined_makePrivate d' i
  refine .check hconf nofun fun v d₂ hseek => ?_
  obtain rfl := does_lseek (d := makePrivate d' i) hsrc hseek
  have hfresh₂ : Fresh dst i ((makePrivate d' i).seek src ⟨j, 0⟩) :=
    ⟨hfresh₁.isReg, hfresh₁.owned, hfresh₁.data, (Disk.seek_of_ne hfd.symm _).trans hfresh₁.atEnd⟩
  have hconf := hconf.trans (.seek i src ⟨j, 0⟩)
  have hfile : ((makePrivate d' i).seek src ⟨j, 0⟩).file j = d'.file j := hconf.file j hij
  -- the copy starts at the beginning of the file and takes all of it
  have hcopy := secCopyFile_meets hfd hij fuel fuel (d'.file j).data.length 0 _
    (Disk.seek_self (d := makePrivate d' i) hsrc ⟨j, 0⟩) hfresh₂.atEnd
  refine .andThen (hcopy.mono (fun t ht => hconf.trans ht)
    fun b t ht hadd => ⟨fun hb => ?_, fun _ => nofun⟩)
  have hadd := hadd hb
  rw [hfile, List.drop_zero, List.take_length] at hadd
  -- Synced, the copy is stored as the original was.
  refine .succeeds (hconf.trans ht) nofun fun v d₃ hsync => ?_
  obtain rfl := does_fsync hadd.atEnd hsync
  exact ⟨(hconf.trans ht).trans (.setFile i _), fun _ => hadd.stored hfresh₂ hmode hfits⟩

/-! ### The backup -/

/-- The disk after an empty file `i` was created and opened under the name `n`. -/
def created (d : Disk String) (n : String) (i m : ℕ) : Disk String :=
  ((d.relink n (some i)).setFile i ⟨true, true, m, [], false⟩).addDescriptor i

/-- A file that is created is new and empty. -/
theorem does_createFile {d d' : Disk String} {n : String} {mode fd : ℕ}
    (hdo : Does d (.createFile n mode) fd d') :
    ∃ i m, (d.link n).now = none ∧ d.Unused i ∧ fd = d.opened.length ∧ d' = created d n i m := by
  cases hdo with
  | createFile hnone hunused => exact ⟨_, _, hnone, hunused, rfl, rfl⟩

/-- The name links to it. -/
theorem created_link_self (d : Disk String) (n : String) (i m : ℕ) :
    ((created d n i m).link n).now = some i := by
  simp [created]

/-- It is fresh. -/
theorem created_fresh (d : Disk String) (n : String) (i m : ℕ) :
    Fresh d.opened.length i (created d n i m) := by
  refine ⟨?_, ?_, ?_, ?_⟩
  · simp [created]
  · simp [created]
  · simp [created]
  · refine (Disk.addDescriptor_last i).trans ?_
    simp [created]

/-- Creating a file, and then changing it, touches its name only. -/
theorem untouched_created {d t : Disk String} {n : String} {i m : ℕ} (hunused : d.Unused i)
    (ht : Confined i (created d n i m) t) : Untouched {n} d t where
  link k hk := by
    rw [ht.link]
    exact Disk.relink_link_of_ne hk _
  file k hk j hj := by
    have hij : j ≠ i := fun h => hunused.1 k (h ▸ hj)
    rw [ht.file j hij]
    exact Disk.setFile_file_of_ne hij _

/-- Closing a file changes none. -/
theorem secCloseFile_meets {J : Disk String → Prop} {Q : Bool → Disk String → Prop}
    {d : Disk String} (fd : Option ℕ) (hJ : J d) (h : ∀ b, Q b d) :
    Meets J Q (secCloseFile fd) d := by
  cases fd with
  | none => exact .pure hJ (h true)
  | some fd => exact .quiet trivial hJ h

/-- The cleanup reports success only if the backup was made, and then it leaves it alone. -/
theorem secCloseBackup_meets {d₀ d : Disk String} {backupName : String}
    (hd : Untouched {backupName} d₀ d) (srcfd dstfd : Option ℕ) (success : Bool) :
    Meets (Untouched {backupName} d₀) (fun b t => b = true → success = true ∧ t = d)
      (secCloseBackup srcfd dstfd backupName success) d := by
  -- the error is kept over the two closes; a copy that failed is unlinked again
  refine .bind (.errno hd fun e => .bind (secCloseFile_meets srcfd hd fun b => ?_))
  refine .bind (secCloseFile_meets dstfd hd fun b' => ?_)
  cases hs : success && b && b' with
  | true =>
    have hsuccess : success = true := by
      simp only [Bool.and_eq_true] at hs
      exact hs.1.1
    exact .pure hd fun _ => ⟨hsuccess, rfl⟩
  | false =>
    cases dstfd with
    | none => exact .bind (.setErrno hd (.pure hd nofun))
    | some fd =>
      refine .bind (.succeeds hd (.bind (.setErrno hd (.pure hd nofun))) fun v d' hdo => ?_)
      have hd' : Untouched {backupName} d₀ d' := by
        cases hdo with
        | unlinkat hnow => exact hd.trans (.relink (Set.mem_singleton _) none)
      exact ⟨hd', .bind (.setErrno hd' (.pure hd' nofun))⟩

/-- The backup of a slot: only the backup's name is touched, and on success it was free and now
refers to a file with the contents of the slot. -/
theorem secCreateBackup_meets {sizeMax : ℕ} (fuel : ℕ) {d : Disk String}
    {name backupName : String} {old : List UInt8} (hold : Holds (Stored sizeMax old) d name) :
    Meets (Untouched {backupName} d)
      (fun b t => b = true →
        (d.link backupName).now = none ∧ Holds (Stored sizeMax old) t backupName)
      (secCreateBackup sizeMax fuel name backupName) d := by
  obtain ⟨j, hnow, hj⟩ := hold
  -- a cleanup after a failure reports it
  have hclose : ∀ srcfd dstfd t, Untouched {backupName} d t →
      Meets (Untouched {backupName} d)
        (fun b t => b = true →
          (d.link backupName).now = none ∧ Holds (Stored sizeMax old) t backupName)
        (secCloseBackup srcfd dstfd backupName false) t := by
    intro srcfd dstfd t ht
    exact (secCloseBackup_meets ht srcfd dstfd false).mono (fun _ hu => hu)
      fun b u _ hb htrue => nomatch (hb htrue).1
  -- The original is opened first.
  have hrefl := Untouched.refl {backupName} d
  refine .bind (.invoke hrefl (fun e _ => hclose none none d hrefl) fun src d₁ hopen => ?_)
  cases hopen with
  | openFile hi =>
    obtain rfl := Option.some.inj (hi.symm.trans hnow)
    rename_i i
    have hd₁ : Untouched {backupName} d (d.addDescriptor i) :=
      ⟨fun _ _ => rfl, fun _ _ _ _ => rfl⟩
    have hsrc := Disk.addDescriptor_last (d := d) i
    refine ⟨hd₁, .bind (.invoke hd₁ (fun e _ => hclose _ none _ hd₁) fun st d₂ hstat => ?_)⟩
    -- Its length and kind decide whether it can be copied.
    cases hstat with
    | fstat hfd =>
      obtain rfl := Option.some.inj (hfd.symm.trans hsrc)
      refine ⟨hd₁, ?_⟩
      dsimp only
      split
      · exact hclose _ none _ hd₁
      -- The backup is created under a free name.
      refine .bind (.invoke hd₁ (fun e _ => hclose _ none _ hd₁) fun dst d₃ hcreate => ?_)
      obtain ⟨b, m, hfree, hunused, rfl, rfl⟩ := does_createFile hcreate
      have hib : i ≠ b := by
        rintro rfl
        exact hunused.1 name (hnow ▸ (d.link name).now_mem_possible)
      have hfile : (created (d.addDescriptor i) backupName b m).file i = d.file i :=
        Disk.setFile_file_of_ne hib _
      have hd₃ : ∀ t, Confined b (created (d.addDescriptor i) backupName b m) t →
          Untouched {backupName} d t := fun t ht => hd₁.trans (untouched_created hunused ht)
      have hfds : d.opened.length ≠ (d.addDescriptor i).opened.length := by
        simp [Disk.addDescriptor]
      have hfits : ((created (d.addDescriptor i) backupName b m).file i).data.length ≤ sizeMax := by
        rw [hfile, hj.data]
        exact hj.fits
      have hsrc' : (created (d.addDescriptor i) backupName b m).opened[d.opened.length]? = _ :=
        Disk.addDescriptor_of_some hsrc b
      have hfill := secFillBackup_meets fuel hfds hib hsrc'
        (created_fresh (d.addDescriptor i) backupName b m) hfits
      rw [hfile] at hfill
      -- It is filled, and closed either way.
      refine ⟨hd₃ _ (.refl b _), .bind (hfill.mono hd₃ fun success t ht hsuccess => ?_)⟩
      refine (secCloseBackup_meets (hd₃ t ht) _ _ success).mono (fun _ hu => hu) ?_
      rintro r u - hr htrue
      obtain ⟨hs, rfl⟩ := hr htrue
      refine ⟨hfree, b, ?_, hj.data ▸ hsuccess hs⟩
      rw [ht.link]
      exact created_link_self _ _ _ _

end TrustSdk.Security
