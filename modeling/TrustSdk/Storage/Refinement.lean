import TrustSdk.Storage.Adapter

/-!
# The storage adapter is a write-through device

A program over storage calls, run on the adapter with its file (`implement`), does what it may do
on a device whose writes reach the medium at once: partial transfers, signals and the page cache do
not show, and a crash during a write leaves a mixture of the region before and behind it
(`storage_refines`). Writes and flushes must not fail: a write that has failed stays in the page
cache, where a later crash may still undo a part of it.
-/

namespace TrustSdk.Storage

open ByteStore SystemCalls PositionedFile WriteCache CrashLogic

section Calls

variable {w : World Err} {fuel regionSize off : ℕ} {bs : Bytes} {s : Cache}
  {st : Option StorageHandle}

/-- A crash leaves a mixture of the file before and behind the bytes, or they have been flushed. -/
def Cuts (old : Image) (off : ℕ) (bs : Bytes) (t : Cache) : Prop :=
  (t.medium = old ∧ ∀ img, Leaves t img → Torn old (patch old off bs) img) ∨
    t = ⟨patch old off bs, []⟩

/-- What a call that writes comes to: the bytes are on the medium, or a call has failed with some
of them on their way. -/
def Put (w : World Err) (old : Image) (off : ℕ) (bs : Bytes) (r : Except Err Unit) (t : Cache) :
    Prop :=
  (r = .ok () ∧ t = ⟨patch old off bs, []⟩) ∨
    (r = .error (storageErr .io) ∧ ¬w.WritesSucceed ∧ Writing old off bs t)

/-- A write on its way is cut somewhere. -/
theorem Writing.cuts {old : Image} {t : Cache} (h : Writing old off bs t) : Cuts old off bs t := by
  obtain ⟨k, -, hwritten⟩ := h
  exact .inl ⟨hwritten.medium, hwritten.torn⟩

/-- A clean file is its medium. -/
theorem eq_of_clean (h : Clean s) : s = ⟨s.medium, []⟩ := by
  rw [← show s.pending = [] from h]

/-- The flush at the end of a write. -/
theorem storageFlush_spec {old : Image} (h : Written old off bs bs.length s) :
    wp (Step w) (Cuts old off bs) (Put w old off bs) storageFlush s := by
  have hcuts : Cuts old off bs s := .inl ⟨h.medium, h.torn⟩
  refine wp_bind (wp_call (I := Cuts old off bs) hcuts fun r s' hstep => ?_)
  cases hstep with
  | fsync => exact ⟨.inr h.flushed, wp_pure (.inr h.flushed) (.inl ⟨rfl, h.flushed⟩)⟩
  | fsyncFails hfails =>
    exact ⟨hcuts, wp_pure hcuts
      (.inr ⟨rfl, fun hsucceed => hsucceed.fsync hfails, bs.length, Nat.le_refl _, h⟩)⟩

/-- Nothing to put. -/
theorem put_nil (hclean : Clean s) (w : World Err) (off : ℕ) :
    wp (Step w) (Cuts s.medium off []) (Put w s.medium off [])
      (pure (.ok ()) : Prog (Except Err Unit)) s := by
  refine wp_pure (.inl ⟨rfl, (Written.start hclean off []).torn⟩) (.inl ⟨rfl, ?_⟩)
  rw [patch_nil]
  exact eq_of_clean hclean

/-- `actrust_storage_write` puts its bytes, or fails, or is cut. -/
theorem actrustStorageWrite_spec (hst : storageValidHandle st = true) (hclean : Clean s)
    (hin : off + bs.length ≤ regionSize) :
    wp (Step w) (Cuts s.medium off bs) (Put w s.medium off bs)
      (actrustStorageWrite fuel regionSize st off bs) s := by
  have hloop := storagePwrite_spec (w := w) fuel (m := bs.length) (Written.start hclean off bs)
    (by omega)
  rw [Nat.add_zero, List.drop_zero, List.take_length, Nat.zero_add] at hloop
  unfold actrustStorageWrite
  rw [hst, storageValidRange_iff.mpr hin, if_neg (by simp)]
  cases bs with
  | nil =>
    rw [storagePwrite]
    exact put_nil hclean w off
  | cons b bs =>
    refine wp_bind (hloop.mono (fun _ ht => ht.cuts) ?_)
    intro ok t hwriting hputs
    cases ok with
    | false => exact wp_pure hwriting.cuts (.inr ⟨rfl, hputs, hwriting⟩)
    | true => exact storageFlush_spec hputs

/-- `actrust_storage_erase` puts zeros. -/
theorem actrustStorageErase_spec {len : ℕ} (hst : storageValidHandle st = true) (hclean : Clean s)
    (hin : off + len ≤ regionSize) :
    wp (Step w) (Cuts s.medium off (zeros len)) (Put w s.medium off (zeros len))
      (actrustStorageErase fuel regionSize st off len) s := by
  have hlength : (zeros len).length = len := List.length_replicate
  have hloop := storageEraseLoop_spec (w := w) fuel (Written.start hclean off (zeros len))
    (Nat.zero_add len) (Nat.le_refl len)
  rw [Nat.add_zero] at hloop
  unfold actrustStorageErase
  rw [hst, storageValidRange_iff.mpr hin, if_neg (by simp)]
  cases len with
  | zero => exact put_nil hclean w off
  | succ len =>
    refine wp_bind (hloop.mono (fun _ ht => ht.cuts) ?_)
    intro ok t hwriting hputs
    cases ok with
    | false => exact wp_pure hwriting.cuts (.inr ⟨rfl, hputs, hwriting⟩)
    | true => exact storageFlush_spec (hlength.symm ▸ hputs)

/-- A call on a range outside of the region is refused, and does nothing. -/
theorem actrustStorageWrite_refused (hout : ¬off + bs.length ≤ regionSize) :
    actrustStorageWrite fuel regionSize st off bs = pure (.error (storageErr .invalidArg)) := by
  have hrange : storageValidRange regionSize off bs.length = false := by
    rw [← Bool.not_eq_true, storageValidRange_iff]
    exact hout
  unfold actrustStorageWrite
  rw [hrange, if_pos (.inr rfl)]

/-- Outside the region an erase is refused. -/
theorem actrustStorageErase_refused {len : ℕ} (hout : ¬off + len ≤ regionSize) :
    actrustStorageErase fuel regionSize st off len = pure (.error (storageErr .invalidArg)) := by
  have hrange : storageValidRange regionSize off len = false := by
    rw [← Bool.not_eq_true, storageValidRange_iff]
    exact hout
  unfold actrustStorageErase
  rw [hrange, if_pos (.inr rfl)]

/-- So is a read. -/
theorem actrustStorageRead_refused {len : ℕ} (hout : ¬off + len ≤ regionSize) :
    actrustStorageRead fuel regionSize st off len = pure (.error (storageErr .invalidArg)) := by
  have hrange : storageValidRange regionSize off len = false := by
    rw [← Bool.not_eq_true, storageValidRange_iff]
    exact hout
  unfold actrustStorageRead
  rw [hrange, if_pos (.inr rfl)]

/-- `actrust_storage_read` answers the bytes, or an error. -/
theorem actrustStorageRead_spec {len : ℕ} (hst : storageValidHandle st = true)
    (hin : off + len ≤ regionSize) (hsize : regionSize ≤ w.size) :
    wp (Step w) (fun t => t = s)
      (fun r _ => r = .ok (slice s.view off len) ∨ r = .error (storageErr .io))
      (actrustStorageRead fuel regionSize st off len) s := by
  have hloop : wp (Step w) (fun t => t = s)
      (fun r _ => ∀ bs, r = some bs → bs = slice s.view off len)
      (storagePread off len fuel []) s :=
    storagePread_spec fuel (by omega) rfl (Nat.zero_le _)
  unfold actrustStorageRead
  rw [hst, storageValidRange_iff.mpr hin, if_neg (by simp)]
  refine wp_bind (hloop.mono (fun _ ht => ht) ?_)
  rintro r t rfl hread
  cases r with
  | none => exact wp_pure rfl (.inr rfl)
  | some bs => exact wp_pure rfl (.inl (by rw [hread bs rfl]))

/-- `actrust_storage_get_capacity` answers the size of the file. -/
theorem actrustStorageGetCapacity_spec (hst : storageValidHandle st = true)
    (hsize : w.size < 2 ^ 32) :
    wp (Step w) (fun t => t = s) (fun r _ => r = .ok w.size ∨ r = .error (storageErr .io))
      (actrustStorageGetCapacity st) s := by
  unfold actrustStorageGetCapacity
  rw [hst, if_neg (by simp)]
  refine wp_bind (wp_call (I := fun t => t = s) rfl fun r s' hstep => ?_)
  cases hstep with
  | fstat => exact ⟨rfl, wp_pure rfl (.inl (by rw [Nat.mod_eq_of_lt hsize]))⟩
  | fstatFails => exact ⟨rfl, wp_pure rfl (.inr rfl)⟩

/-- A flush of a flushed file. -/
theorem actrustStorageSync_spec (hst : storageValidHandle st = true) (hclean : Clean s) :
    wp (Step w) (fun t => t = s)
      (fun r _ => r = .ok () ∨ (r = .error (storageErr .io) ∧ ¬w.WritesSucceed))
      (actrustStorageSync st) s := by
  unfold actrustStorageSync storageFlush
  rw [hst, if_neg (by simp)]
  refine wp_bind (wp_call (I := fun t => t = s) rfl fun r s' hstep => ?_)
  cases hstep with
  | fsync =>
    have hsame : (⟨s.view, []⟩ : Cache) = s := by
      rw [view_of_clean hclean]
      exact (eq_of_clean hclean).symm
    exact ⟨hsame, wp_pure hsame (.inl rfl)⟩
  | fsyncFails hfails =>
    exact ⟨rfl, wp_pure rfl (.inr ⟨rfl, fun hsucceed => hsucceed.fsync hfails⟩)⟩

end Calls

/-! ### Programs over the adapter -/

variable {α : Type} (fuel : ℕ) (st : Option StorageHandle) (erases : ℕ → ℕ → Bool)

/-- A program over storage calls, on the adapter. A write of zeros is an erase where `erases` says
so of its range. -/
def implement (regionSize : ℕ) : Io Err α → Prog (Except Err α)
  | .done r => return r
  | .capacity k => do
    let r ← actrustStorageGetCapacity st
    implement regionSize (k r)
  | .read off len k => do
    let r ← actrustStorageRead fuel regionSize st off len
    implement regionSize (k r)
  | .write off bs k => do
    let r ←
      if erases off bs.length = true ∧ bs = zeros bs.length then
        actrustStorageErase fuel regionSize st off bs.length
      else actrustStorageWrite fuel regionSize st off bs
    implement regionSize (k r)
  | .sync k => do
    let r ← actrustStorageSync st
    implement regionSize (k r)
  | .lock k => do
    let r ← lock
    implement regionSize (k r)
  | .unlock k => do
    let r ← unlock
    implement regionSize (k r)

variable {fuel st erases} {w : World Err} {s : Cache}

section Device

variable {fault lockFault : Err → Prop} {torn : Image → Image → Image → Prop}

/-- A device whose writes reach the medium at once, over a region as large as the file. What `torn`
says of the image an unfinished write leaves may be more than that it is a mixture. -/
def adapterDevice (w : World Err) (fault lockFault : Err → Prop)
    (torn : Image → Image → Image → Prop) : Device Err :=
  direct w.size (storageErr .invalidArg) fault lockFault torn

/-- The image is a mixture that some write to `mid` may leave, but not one that `torn` allows. -/
def Escapes (w : World Err) (fault lockFault : Err → Prop) (torn : Image → Image → Image → Prop)
    (p : Io Err α) (old mid img : Image) : Prop :=
  ∃ off bs, Issues (adapterDevice w fault lockFault torn) p old mid off bs ∧
    Torn mid (patch mid off bs) img ∧ ¬torn mid (patch mid off bs) img

/-- A crash that leaves this image is one of the program on the device, or the image escapes. -/
def CrashesTo (w : World Err) (fault lockFault : Err → Prop) (torn : Image → Image → Image → Prop)
    (p : Io Err α) (old mid img : Image) : Prop :=
  CrashLogic.Exec (adapterDevice w fault lockFault torn) p old (.crashed img) ∨
    Escapes w fault lockFault torn p old mid img

/-- Every crash from here leaves such an image. -/
def Crashes (w : World Err) (fault lockFault : Err → Prop) (torn : Image → Image → Image → Prop)
    (p : Io Err α) (old : Image) (t : Cache) : Prop :=
  ∀ img, Leaves t img → CrashesTo w fault lockFault torn p old t.medium img

/-- The program has returned on the device too, and the file is flushed. -/
def Returns (w : World Err) (fault lockFault : Err → Prop) (torn : Image → Image → Image → Prop)
    (p : Io Err α) (old : Image) (r : Except Err α) (t : Cache) : Prop :=
  Clean t ∧ CrashLogic.Exec (adapterDevice w fault lockFault torn) p old (.returned r t.medium)

/-- A clean file may be found so after a crash. -/
theorem crashes_of_clean (hclean : Clean s) (p : Io Err α) :
    Crashes w fault lockFault torn p s.medium s :=
  fun _ hleaves => .inl (.crash ((leaves_of_clean hclean).mp hleaves))

/-- What follows a call of the program follows the program. -/
theorem wp_behind {p q : Io Err α} {old mid : Image} {prog : Prog (Except Err α)} {t : Cache}
    (h : wp (Step w) (Crashes w fault lockFault torn q mid) (Returns w fault lockFault torn q mid)
      prog t)
    (hexec : ∀ o, CrashLogic.Exec (adapterDevice w fault lockFault torn) q mid o →
      CrashLogic.Exec (adapterDevice w fault lockFault torn) p old o)
    (hissues : ∀ mid' off bs, Issues (adapterDevice w fault lockFault torn) q mid mid' off bs →
      Issues (adapterDevice w fault lockFault torn) p old mid' off bs) :
    wp (Step w) (Crashes w fault lockFault torn p old) (Returns w fault lockFault torn p old)
      prog t := by
  refine h.mono (fun t hcrashes img hleaves => ?_) fun r t _ hreturns => ?_
  · rcases hcrashes img hleaves with hcrashed | ⟨off, bs, hissued, htorn, hnot⟩
    · exact .inl (hexec _ hcrashed)
    · exact .inr ⟨off, bs, hissues _ _ _ hissued, htorn, hnot⟩
  · exact ⟨hreturns.1, hexec _ hreturns.2⟩

/-- The adapter keeps to the device, and leaves the file flushed. -/
theorem implement_spec (hst : storageValidHandle st = true) (hw : w.WritesSucceed)
    (hsize : w.size < 2 ^ 32) (hio : fault (storageErr .io))
    (hlock : ∀ e, w.lockFault e → lockFault e) (p : Io Err α) (hclean : Clean s) :
    wp (Step w) (Crashes w fault lockFault torn p s.medium)
      (Returns w fault lockFault torn p s.medium) (implement fuel st erases w.size p) s := by
  -- one call of the interface after the other; between them the file is clean
  induction p generalizing s with
  | done r => exact wp_pure (crashes_of_clean hclean _) ⟨hclean, .done⟩
  -- The capacity is read off the file, or `fstat` fails.
  | capacity k ih =>
    refine wp_bind ((actrustStorageGetCapacity_spec hst hsize).mono ?_ ?_)
    · rintro t rfl
      exact crashes_of_clean hclean _
    · rintro r t rfl (rfl | rfl)
      · exact wp_behind (ih _ hclean) (fun _ => .capacity) fun _ _ _ => .capacity
      · exact wp_behind (ih _ hclean) (fun _ => .capacityFault hio) fun _ _ _ => .capacityFault hio
  -- A read within the region sees what was written, since the file is clean.
  | read off len k ih =>
    by_cases hin : off + len ≤ w.size
    · refine wp_bind ((actrustStorageRead_spec hst hin (Nat.le_refl _)).mono ?_ ?_)
      · rintro t rfl
        exact crashes_of_clean hclean _
      · rintro r t rfl (rfl | rfl)
        · rw [view_of_clean hclean]
          exact wp_behind (ih _ hclean) (fun _ => .read hin) fun _ _ _ => .read hin
        · exact wp_behind (ih _ hclean) (fun _ => .readFault hio) fun _ _ _ => .readFault hio
    · -- Out of range the call is refused before any system call.
      rw [implement, actrustStorageRead_refused hin]
      exact wp_behind (ih _ hclean) (fun _ => .readRange hin) fun _ _ _ => .readRange hin
  | write off bs k ih =>
    -- a write and an erase put their bytes in the same way
    have hcall : ∀ q : Prog (Except Err Unit), off + bs.length ≤ w.size →
        wp (Step w) (Cuts s.medium off bs) (Put w s.medium off bs) q s →
        wp (Step w) (Crashes w fault lockFault torn (.write off bs k) s.medium)
          (Returns w fault lockFault torn (.write off bs k) s.medium)
          (q >>= fun r => implement fuel st erases w.size (k r)) s := by
      intro q hin hq
      refine wp_bind (hq.mono (fun t hcuts img hleaves => ?_) ?_)
      · -- A crash in it leaves old and new bytes; where that is torn as allowed, it is a crash
        -- here.
        rcases hcuts with ⟨hmedium, hmixed⟩ | rfl
        · by_cases htorn : torn s.medium (patch s.medium off bs) img
          · exact .inl (.writeCrash hin htorn rfl)
          · refine .inr ⟨off, bs, ?_, ?_, ?_⟩ <;> rw [hmedium]
            · exact .here
            · exact hmixed img hleaves
            · exact htorn
        · exact .inl (.write hin (.crash (leaves_flushed.mp hleaves)))
      · -- Written and synced, or not synced, which `WritesSucceed` excludes.
        rintro r t - (⟨rfl, rfl⟩ | ⟨-, hfails, -⟩)
        · exact wp_behind (ih _ (s := ⟨patch s.medium off bs, []⟩) rfl) (fun _ => .write hin)
            fun _ _ _ => .write hin
        · exact absurd hw hfails
    rw [implement]
    by_cases hin : off + bs.length ≤ w.size
    · -- The all-zero write may be made by an erase.
      split_ifs with herase
      · refine hcall _ hin ?_
        have hspec : wp (Step w) (Cuts s.medium off (zeros bs.length))
            (Put w s.medium off (zeros bs.length))
            (actrustStorageErase fuel w.size st off bs.length) s :=
          actrustStorageErase_spec hst hclean hin
        rw [← herase.2] at hspec
        exact hspec
      · exact hcall _ hin (actrustStorageWrite_spec hst hclean hin)
    · rw [actrustStorageErase_refused hin, actrustStorageWrite_refused hin, ite_self]
      exact wp_behind (ih _ hclean) (fun _ => .writeRange hin) fun _ _ _ => .writeRange hin
  -- A sync of a clean file changes nothing.
  | sync k ih =>
    refine wp_bind ((actrustStorageSync_spec hst hclean).mono ?_ ?_)
    · rintro t rfl
      exact crashes_of_clean hclean _
    · rintro r t rfl (rfl | ⟨-, hfails⟩)
      · exact wp_behind (ih _ hclean) (fun _ => .sync) fun _ _ _ => .sync
      · exact absurd hw hfails
  -- The lock answers as the world lets it.
  | lock k ih =>
    refine wp_bind (wp_call (crashes_of_clean hclean _) fun r s' hstep => ?_)
    cases hstep with
    | lock =>
      exact ⟨crashes_of_clean hclean _,
        wp_behind (ih _ hclean) (fun _ => .lock) fun _ _ _ => .lock⟩
    | lockFails he =>
      exact ⟨crashes_of_clean hclean _,
        wp_behind (ih _ hclean) (fun _ => .lockFault (hlock _ he)) fun _ _ _ =>
          .lockFault (hlock _ he)⟩
  | unlock k ih =>
    refine wp_bind (wp_call (crashes_of_clean hclean _) fun r s' hstep => ?_)
    cases hstep with
    | unlock =>
      exact ⟨crashes_of_clean hclean _,
        wp_behind (ih _ hclean) (fun _ => .unlock) fun _ _ _ => .unlock⟩
    | unlockFails he =>
      exact ⟨crashes_of_clean hclean _,
        wp_behind (ih _ hclean) (fun _ => .unlockFault (hlock _ he)) fun _ _ _ =>
          .unlockFault (hlock _ he)⟩

end Device

/-- The loops of the adapter have rounds enough for the region, so that interruptions alone can keep
a program from its end. -/
theorem implement_lasts {regionSize n : ℕ} (hfuel : regionSize + n ≤ fuel) (p : Io Err α) :
    Lasts (implement fuel st erases regionSize p) n := by
  -- every call of the interface lasts as long as its loop
  induction p with
  | done r => exact trivial
  | capacity k ih =>
    -- One system call or none.
    refine Lasts.bind ?_ ih
    unfold actrustStorageGetCapacity
    split_ifs
    · exact trivial
    · intro r
      cases r <;> exact trivial
  -- The loop ends within the length of the region.
  | read off len k ih =>
    refine Lasts.bind ?_ ih
    unfold actrustStorageRead
    split_ifs with hbad
    · exact trivial
    · rw [not_or, Bool.not_eq_false, Bool.not_eq_false, storageValidRange_iff] at hbad
      refine Lasts.bind (storagePread_lasts (by rw [List.length_nil]; omega)) fun r => ?_
      cases r <;> exact trivial
  | write off bs k ih =>
    have hflush : Lasts storageFlush n := by
      intro r
      cases r <;> exact trivial
    rw [implement]
    split_ifs with herase
    · -- The erase writes buffer by buffer.
      refine Lasts.bind ?_ ih
      unfold actrustStorageErase
      split_ifs with hbad hnone
      · exact trivial
      · exact trivial
      · rw [not_or, Bool.not_eq_false, Bool.not_eq_false, storageValidRange_iff] at hbad
        refine Lasts.bind (storageEraseLoop_lasts (by omega) (Nat.le_refl _)) fun ok => ?_
        cases ok with
        | false => exact trivial
        | true => exact hflush
    · -- A write behind a range check lasts as long as its bytes.
      refine Lasts.bind ?_ ih
      unfold actrustStorageWrite
      split_ifs with hbad hsome
      · exact trivial
      · rw [not_or, Bool.not_eq_false, Bool.not_eq_false, storageValidRange_iff] at hbad
        refine Lasts.bind (storagePwrite_lasts (by omega)) fun ok => ?_
        cases ok with
        | false => exact trivial
        | true => exact hflush
      · rw [not_or, Bool.not_eq_false, Bool.not_eq_false, storageValidRange_iff] at hbad
        refine Lasts.bind (storagePwrite_lasts (by omega)) fun ok => ?_
        cases ok <;> exact trivial
  | sync k ih =>
    refine Lasts.bind ?_ ih
    unfold actrustStorageSync
    split_ifs
    · exact trivial
    · intro r
      cases r <;> exact trivial
  | lock k ih => exact fun r => ih r
  | unlock k ih => exact fun r => ih r

/-! ### Undisturbed runs -/

section Undisturbed

variable {off : ℕ} {img : Image}

/-- All of it is written at once. -/
theorem storagePwrite_runs {bs : Bytes} (hbs : bs ≠ []) (hfuel : 0 < fuel) :
    SystemCalls.Exec (Step w) (storagePwrite fuel off bs) ⟨img, []⟩ (some true)
      ⟨img, [(off, bs)]⟩ := by
  obtain ⟨fuel, rfl⟩ := Nat.exists_eq_add_one.mpr hfuel
  obtain ⟨b, rest, rfl⟩ := List.exists_cons_of_ne_nil hbs
  have hwrite : Step w ⟨img, []⟩ (.pwrite off (b :: rest)) (.ok (rest.length + 1))
      ⟨img, [(off, (b :: rest).take (rest.length + 1))]⟩ :=
    .pwrite (Nat.succ_pos rest.length) (Nat.le_refl _)
  rw [← List.length_cons (a := b), List.take_length] at hwrite
  rw [storagePwrite]
  refine .bind (.call hwrite .done) ?_
  show SystemCalls.Exec (Step w)
    (storagePwrite fuel (off + (rest.length + 1)) ((b :: rest).drop (b :: rest).length)) _ _ _
  rw [List.drop_length, storagePwrite]
  exact .done

/-- All of it is read at once. -/
theorem storagePread_runs {len : ℕ} {s : Cache} (hin : off + len ≤ w.size) (hfuel : 0 < fuel) :
    SystemCalls.Exec (Step w) (storagePread off len fuel []) s (some (some (slice s.view off len)))
      s := by
  -- a read that is neither short nor interrupted needs one round
  obtain ⟨fuel, rfl⟩ := Nat.exists_eq_add_one.mpr hfuel
  rw [storagePread]
  split_ifs with hnone
  · obtain rfl : len = 0 := Nat.le_zero.mp hnone
    exact .done
  · have hread : Step w s (.pread off len) (.ok (slice s.view off len)) s :=
      .pread (Nat.le_refl len) (.inl hin) fun hlen => .inl hlen
    refine .bind (.call hread .done) ?_
    cases hslice : slice s.view off len with
    | nil =>
      rw [← slice_length s.view off len, hslice] at hnone
      exact absurd (Nat.le_refl 0) hnone
    | cons b bs =>
      have hall : len ≤ ([] ++ b :: bs).length := by
        rw [List.nil_append, ← hslice]
        exact Nat.le_of_eq (slice_length s.view off len).symm
      dsimp only
      cases fuel <;> rw [storagePread, if_pos hall] <;> exact .done

/-- A write that is carried out at once. -/
theorem actrustStorageWrite_runs {bs : Bytes} (hst : storageValidHandle st = true)
    (hin : off + bs.length ≤ w.size) (hfuel : 0 < fuel) :
    SystemCalls.Exec (Step w) (actrustStorageWrite fuel w.size st off bs) ⟨img, []⟩
      (some (.ok ())) ⟨patch img off bs, []⟩ := by
  unfold actrustStorageWrite
  rw [hst, storageValidRange_iff.mpr hin, if_neg (by simp)]
  cases bs with
  | nil =>
    rw [patch_nil, storagePwrite]
    exact .done
  | cons b bs =>
    exact (storagePwrite_runs (List.cons_ne_nil b bs) hfuel).bind (.call .fsync .done)

/-- A read that is answered at once. -/
theorem actrustStorageRead_runs {len : ℕ} (hst : storageValidHandle st = true)
    (hin : off + len ≤ w.size) (hfuel : 0 < fuel) :
    SystemCalls.Exec (Step w) (actrustStorageRead fuel w.size st off len) s
      (some (.ok (slice s.view off len))) s := by
  unfold actrustStorageRead
  rw [hst, storageValidRange_iff.mpr hin, if_neg (by simp)]
  exact (storagePread_runs hin hfuel).bind .done

/-- A run in which no call fails, is interrupted or comes back with less than was asked for. -/
theorem implement_runs (hst : storageValidHandle st = true) (hsize : w.size < 2 ^ 32)
    (hfuel : 0 < fuel) (p : Io Err α) (img : Image) :
    SystemCalls.Exec (Step w) (implement fuel st (fun _ _ => false) w.size p) ⟨img, []⟩
      (some (p.run w.size (storageErr .invalidArg) img).1)
      ⟨(p.run w.size (storageErr .invalidArg) img).2, []⟩ := by
  -- without a fault each call is one system call, or two
  induction p generalizing img with
  | done r => exact .done
  | capacity k ih =>
    refine .bind (a := .ok w.size) ?_ (ih _ img)
    unfold actrustStorageGetCapacity
    rw [hst, if_neg (by simp), ← Nat.mod_eq_of_lt hsize]
    exact .call .fstat .done
  | read off len k ih =>
    rw [implement, Io.run]
    split_ifs with hin
    · exact (actrustStorageRead_runs hst hin hfuel).bind (ih _ img)
    · rw [actrustStorageRead_refused hin]
      exact ih _ img
  | write off bs k ih =>
    rw [implement, Io.run, if_neg (by simp)]
    -- In range the system calls give what the interface says.
    split_ifs with hin
    · exact (actrustStorageWrite_runs hst hin hfuel).bind (ih _ _)
    · rw [actrustStorageWrite_refused hin]
      exact ih _ img
  | sync k ih =>
    refine .bind (a := .ok ()) ?_ (ih _ img)
    unfold actrustStorageSync
    rw [hst, if_neg (by simp)]
    exact .call .fsync .done
  | lock k ih => exact .call .lock (ih _ img)
  | unlock k ih => exact .call .unlock (ih _ img)

end Undisturbed

/-- What a call answers when a system call fails. -/
def IoError (e : Err) : Prop := e = storageErr .io

/-- **Refinement.** A program over the adapter returns what it may return on a device whose writes
reach the medium at once, with the region that it leaves there; wherever the machine stops, a crash
leaves a region that it may leave there; and with rounds enough it comes to an end behind `n`
interruptions. -/
theorem storage_refines (hst : storageValidHandle st = true) (hw : w.WritesSucceed)
    (hsize : w.size < 2 ^ 32) (p : Io Err α) (hclean : Clean s) {o : Option (Except Err α)}
    {t : Cache} (h : SystemCalls.Exec (Step w) (implement fuel st erases w.size p) s o t) :
    (∀ r, o = some r → Clean t ∧ CrashLogic.Exec
      (adapterDevice w IoError w.lockFault Torn) p s.medium
      (.returned r t.medium)) ∧
    (∀ img, Leaves t img → CrashLogic.Exec
      (adapterDevice w IoError w.lockFault Torn) p s.medium (.crashed img)) ∧
    ∀ n, w.size + n ≤ fuel → Lasts (implement fuel st erases w.size p) n := by
  have hio : IoError (storageErr .io) := rfl
  have hspec : wp (Step w) (Crashes w IoError w.lockFault Torn p s.medium)
      (Returns w IoError w.lockFault Torn p s.medium)
      (implement fuel st erases w.size p) s :=
    implement_spec hst hw hsize hio (fun _ he => he) p hclean
  obtain ⟨hcrashes, hreturns⟩ := SystemCalls.Exec.sound h hspec
  refine ⟨hreturns, fun img hleaves => ?_, fun n hfuel => implement_lasts hfuel p⟩
  rcases hcrashes img hleaves with hcrashed | ⟨off, bs, -, htorn, hnot⟩
  · exact hcrashed
  · exact absurd htorn hnot

/-- A file of four bytes, and no call that fails. -/
def smallFile : World Err := ⟨4, fun _ => False, fun _ => False⟩

/-- One byte of two has been written, and the write of the other is interrupted, when the machine
stops: a crash may have kept that byte. -/
theorem storage_refines_torn :
    CrashLogic.Exec (adapterDevice smallFile IoError (fun _ => False) Torn)
      (.write 1 [7, 8] .done) (fun _ => 0) (.crashed (patch (fun _ => 0) 1 [7])) := by
  have hrun : SystemCalls.Exec (Step smallFile)
      (implement 4 (some ⟨3, false⟩) (fun _ _ => false) 4
        (.write 1 [7, 8] (.done : _ → Io Err Unit)))
      ⟨fun _ => 0, []⟩ none ⟨fun _ => 0, [(1, [7])]⟩ :=
    .call (.pwrite Nat.one_pos (by decide)) (.call .pwriteInterrupted .stop)
  have hclean : Clean (⟨fun _ => 0, []⟩ : Cache) := rfl
  refine (storage_refines rfl ⟨fun _ _ => id, id⟩ (by decide) _ hclean hrun).2.1 _ ?_
  exact ⟨fun _ => 0, rfl, fun a => .inr rfl, False.elim⟩

end TrustSdk.Storage
