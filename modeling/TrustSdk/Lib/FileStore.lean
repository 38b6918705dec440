import TrustSdk.Lib.SystemCalls
import Mathlib.Data.Set.Insert
import Mathlib.Logic.Function.Basic
import Mathlib.Data.List.Basic

/-!
# A directory of files under crashes

One directory of a POSIX file system: names that refer to files, files with their contents,
and the descriptors a process has open. Every call may fail, and then it changes nothing but
the error number. What a crash may leave is part of the state: of a name, every file it has
referred to since the directory was last flushed (`Link.possible`); of a file, its contents
if it was flushed since it was last written, and anything at all otherwise (`Crashed`).

* `Step` — what each call may do;
* `Meets` — what a program guarantees of every disk its runs go through and return with;
* `Holds` and `Kept` — a name that refers to a file of some kind, and one that does so
  whatever a crash leaves;
* `Untouched` and `Confined` — the frames: all names but some, and all files but one, are as
  they were.
-/

namespace FileStore

open SystemCalls

variable {Name : Type}

/-- The error numbers the programs compare with. -/
inductive Errno where
  | EINTR
  | EEXIST
  | ENOENT
  | EACCES
  | other (n : ℕ)
  deriving DecidableEq, Repr

/-- What `stat` reports of a file: its kind, whether it belongs to the caller, its mode and
its size. -/
structure Stat where
  isReg : Bool
  owned : Bool
  mode : ℕ
  size : ℤ
  deriving DecidableEq, Repr

/-- A file, and whether it has been flushed since it was last changed. -/
structure File where
  isReg : Bool
  owned : Bool
  mode : ℕ
  data : List UInt8
  synced : Bool
  deriving DecidableEq, Repr

/-- What `stat` answers of a file. -/
def File.stat (f : File) : Stat := ⟨f.isReg, f.owned, f.mode, f.data.length⟩

/-- A directory entry: the file the name refers to now, and what it has referred to since the
directory was last flushed. -/
structure Link where
  now : Option ℕ
  earlier : List (Option ℕ)
  deriving DecidableEq, Repr

namespace Link

/-- What the name may refer to after a crash. -/
def possible (l : Link) : List (Option ℕ) := l.now :: l.earlier

/-- Make the name refer to `t`. -/
def relink (l : Link) (t : Option ℕ) : Link := ⟨t, l.possible⟩

/-- Flush the entry. -/
def settle (l : Link) : Link := ⟨l.now, []⟩

@[simp] theorem relink_now (l : Link) (t : Option ℕ) : (l.relink t).now = t := rfl

@[simp] theorem settle_now (l : Link) : l.settle.now = l.now := rfl

/-- The present target is possible. -/
theorem now_mem_possible (l : Link) : l.now ∈ l.possible := List.mem_cons_self

/-- A link that is set may still show its old target. -/
theorem mem_possible_relink {l : Link} {t u : Option ℕ} :
    u ∈ (l.relink t).possible ↔ u = t ∨ u ∈ l.possible := List.mem_cons

/-- A settled link shows its present target only. -/
theorem mem_possible_settle {l : Link} {u : Option ℕ} :
    u ∈ l.settle.possible ↔ u = l.now := List.mem_singleton

end Link

/-- An open file and the position in it. -/
structure Descriptor where
  file : ℕ
  offset : ℕ
  deriving DecidableEq, Repr

/-- The directory, its files and the open descriptors. A descriptor number is the position in
`opened`; it is not given again when it is closed. -/
structure Disk (Name : Type) where
  link : Name → Link
  file : ℕ → File
  opened : List Descriptor

namespace Disk

variable (d : Disk Name)

/-- A file to which no name refers or may come to refer, and which is not open. -/
def Unused (i : ℕ) : Prop :=
  (∀ n, some i ∉ (d.link n).possible) ∧ ∀ e ∈ d.opened, e.file ≠ i

/-- Make a name refer to `t`. -/
def relink [DecidableEq Name] (n : Name) (t : Option ℕ) : Disk Name :=
  { d with link := Function.update d.link n ((d.link n).relink t) }

/-- Replace a file. -/
def setFile (i : ℕ) (f : File) : Disk Name := { d with file := Function.update d.file i f }

/-- Open a file at its beginning. -/
def addDescriptor (i : ℕ) : Disk Name := { d with opened := d.opened ++ [⟨i, 0⟩] }

/-- Move the position of a descriptor. -/
def seek (fd : ℕ) (e : Descriptor) : Disk Name := { d with opened := d.opened.set fd e }

/-- Flush the directory. -/
def settle : Disk Name := { d with link := fun n => (d.link n).settle }

variable {d}

@[simp] theorem relink_file [DecidableEq Name] (n : Name) (t : Option ℕ) :
    (d.relink n t).file = d.file := rfl

@[simp] theorem relink_opened [DecidableEq Name] (n : Name) (t : Option ℕ) :
    (d.relink n t).opened = d.opened := rfl

@[simp] theorem relink_link_self [DecidableEq Name] (n : Name) (t : Option ℕ) :
    (d.relink n t).link n = (d.link n).relink t := Function.update_self _ _ _

@[simp] theorem relink_link_of_ne [DecidableEq Name] {n m : Name} (h : m ≠ n) (t : Option ℕ) :
    (d.relink n t).link m = d.link m := Function.update_of_ne h _ _

@[simp] theorem setFile_link (i : ℕ) (f : File) : (d.setFile i f).link = d.link := rfl

@[simp] theorem setFile_opened (i : ℕ) (f : File) : (d.setFile i f).opened = d.opened := rfl

@[simp] theorem setFile_file_self (i : ℕ) (f : File) : (d.setFile i f).file i = f :=
  Function.update_self _ _ _

@[simp] theorem setFile_file_of_ne {i j : ℕ} (h : j ≠ i) (f : File) :
    (d.setFile i f).file j = d.file j := Function.update_of_ne h _ _

@[simp] theorem addDescriptor_link (i : ℕ) : (d.addDescriptor i).link = d.link := rfl

@[simp] theorem addDescriptor_file (i : ℕ) : (d.addDescriptor i).file = d.file := rfl

@[simp] theorem seek_link (fd : ℕ) (e : Descriptor) : (d.seek fd e).link = d.link := rfl

@[simp] theorem seek_file (fd : ℕ) (e : Descriptor) : (d.seek fd e).file = d.file := rfl

@[simp] theorem settle_link (n : Name) : d.settle.link n = (d.link n).settle := rfl

@[simp] theorem settle_file : d.settle.file = d.file := rfl

/-- The descriptor that was just opened. -/
theorem addDescriptor_last (i : ℕ) :
    (d.addDescriptor i).opened[d.opened.length]? = some ⟨i, 0⟩ := by
  simp [addDescriptor]

/-- Opening a file leaves the other descriptors as they are. -/
theorem addDescriptor_of_some {fd : ℕ} {e : Descriptor} (h : d.opened[fd]? = some e) (i : ℕ) :
    (d.addDescriptor i).opened[fd]? = some e := by
  obtain ⟨hlt, -⟩ := List.getElem?_eq_some_iff.mp h
  rw [addDescriptor, List.getElem?_append_left hlt, h]

/-- The descriptor that is moved. -/
theorem seek_self {fd : ℕ} {e : Descriptor} (h : d.opened[fd]? = some e) (e' : Descriptor) :
    (d.seek fd e').opened[fd]? = some e' := by
  obtain ⟨hlt, -⟩ := List.getElem?_eq_some_iff.mp h
  exact List.getElem?_set_self hlt

/-- The other descriptors. -/
theorem seek_of_ne {fd other : ℕ} (h : other ≠ fd) (e : Descriptor) :
    (d.seek fd e).opened[other]? = d.opened[other]? :=
  List.getElem?_set_ne h.symm

end Disk

/-- The contents of a file after `bs` was written at `offset`; a gap is filled with zeros. -/
def overwrite (data : List UInt8) (offset : ℕ) (bs : List UInt8) : List UInt8 :=
  data.take offset ++ List.replicate (offset - data.length) 0 ++ bs ++
    data.drop (offset + bs.length)

/-- A write at the end appends. -/
theorem overwrite_end (data bs : List UInt8) : overwrite data data.length bs = data ++ bs := by
  simp [overwrite]

/-- The calls that may fail. The directory itself is opened, locked and closed by calls of
their own; `write` and `read` give the count to transfer at most. -/
inductive Call (Name : Type) where
  | openDir (create : Bool)
  | closeDir
  | flock (exclusive : Bool)
  | createFile (n : Name) (mode : ℕ)
  | openFile (n : Name)
  | close (fd : ℕ)
  | fstat (fd : ℕ)
  | fstatat (n : Name)
  | fchmod (fd mode : ℕ)
  | lseek (fd offset : ℕ)
  | read (fd count : ℕ)
  | write (fd : ℕ) (bs : List UInt8)
  | fsync (fd : ℕ)
  | fsyncDir
  | unlinkat (n : Name)
  | renameat (old new : Name)

/-- What a call gives back when it succeeds. -/
@[reducible] def Value : Call Name → Type
  | .createFile _ _ | .openFile _ | .write _ _ => ℕ
  | .fstat _ | .fstatat _ => Stat
  | .read _ _ => List UInt8
  | _ => Unit

/-- What a program asks of the system: a call, or the error number. -/
inductive Request (Name : Type) where
  | call (c : Call Name)
  | errno
  | setErrno (e : Errno)

/-- What a program receives for a request. -/
@[reducible] def Answer : Request Name → Type
  | .call c => Except Errno (Value c)
  | .errno => Errno
  | .setErrno _ => Unit

/-- The directory, and the error number of the last call that failed. -/
structure Process (Name : Type) where
  disk : Disk Name
  errno : Errno

section Calls

variable [DecidableEq Name]

/-- What a call does when it succeeds. -/
inductive Does (d : Disk Name) : (c : Call Name) → Value c → Disk Name → Prop
  | openDir {create} : Does d (.openDir create) () d
  | closeDir : Does d .closeDir () d
  | flock {exclusive} : Does d (.flock exclusive) () d
  | createFile {n mode i m} : (d.link n).now = none → d.Unused i →
      Does d (.createFile n mode) d.opened.length
        (((d.relink n (some i)).setFile i ⟨true, true, m, [], false⟩).addDescriptor i)
  | openFile {n i} : (d.link n).now = some i →
      Does d (.openFile n) d.opened.length (d.addDescriptor i)
  | close {fd} : Does d (.close fd) () d
  | fstat {fd e} : d.opened[fd]? = some e → Does d (.fstat fd) (d.file e.file).stat d
  | fstatat {n i} : (d.link n).now = some i → Does d (.fstatat n) (d.file i).stat d
  | fchmod {fd mode e} : d.opened[fd]? = some e →
      Does d (.fchmod fd mode) ()
        (d.setFile e.file { d.file e.file with mode := mode, synced := false })
  | lseek {fd offset e} : d.opened[fd]? = some e →
      Does d (.lseek fd offset) () (d.seek fd ⟨e.file, offset⟩)
  | read {fd count k e} : d.opened[fd]? = some e → k ≤ count →
      Does d (.read fd count) (((d.file e.file).data.drop e.offset).take k)
        (d.seek fd ⟨e.file, e.offset + (((d.file e.file).data.drop e.offset).take k).length⟩)
  | write {fd bs e} {k : ℕ} : d.opened[fd]? = some e → k ≤ bs.length →
      Does d (.write fd bs) k
        ((d.setFile e.file { d.file e.file with
          data := overwrite (d.file e.file).data e.offset (bs.take k), synced := false }).seek
            fd ⟨e.file, e.offset + k⟩)
  | fsync {fd e} : d.opened[fd]? = some e →
      Does d (.fsync fd) () (d.setFile e.file { d.file e.file with synced := true })
  | fsyncDir : Does d .fsyncDir () d.settle
  | unlinkat {n i} : (d.link n).now = some i → Does d (.unlinkat n) () (d.relink n none)
  | renameat {a b i} : (d.link a).now = some i → a ≠ b →
      Does d (.renameat a b) () ((d.relink a none).relink b (some i))

/-- The error numbers a failing call may give: any, except that a name that refers to a file
is not reported missing. -/
def MayFail (d : Disk Name) : Call Name → Errno → Prop
  | .openFile n, e | .fstatat n, e => e = .ENOENT → (d.link n).now = none
  | _, _ => True

/-- The answers of the system. A call that fails leaves its error number and changes nothing
else; what one that succeeds leaves there is not specified. -/
inductive Step : Process Name → (r : Request Name) → Answer r → Process Name → Prop
  | does {d c v d' e e'} : Does d c v d' → Step ⟨d, e⟩ (.call c) (.ok v) ⟨d', e'⟩
  | fails {d c e e'} : MayFail d c e' → Step ⟨d, e⟩ (.call c) (.error e') ⟨d, e'⟩
  | errno {d e} : Step ⟨d, e⟩ .errno e ⟨d, e⟩
  | setErrno {d e e'} : Step ⟨d, e⟩ (.setErrno e') () ⟨d, e'⟩

/-- What a crash may leave. -/
structure Crashed (d d' : Disk Name) : Prop where
  link : ∀ n, ∃ t ∈ (d.link n).possible, d'.link n = ⟨t, []⟩
  file : ∀ i, (d.file i).synced = true → d'.file i = d.file i
  opened : d'.opened = []

/-! ### Programs over the directory -/

/-- A program that makes these calls. -/
abbrev Prog (Name : Type) (α : Type) : Type := Sys (@Answer Name) α

/-- Make a call. -/
def invoke (c : Call Name) : Prog Name (Except Errno (Value c)) := Sys.ask (Request.call c)

/-- Make a call and report whether it succeeded. -/
def succeeds (c : Call Name) : Prog Name Bool := do
  match ← invoke c with
  | .ok _ => return true
  | .error _ => return false

/-- Read the error number. -/
def errno : Prog Name Errno := Sys.ask Request.errno

/-- Set the error number. -/
def setErrno (e : Errno) : Prog Name Unit := Sys.ask (Request.setErrno e)

/-- Every disk a run of the program from `d` goes through satisfies `J`, and one it returns
with satisfies `Q`, whatever the error number is to begin with. -/
def Meets {α : Type} (J : Disk Name → Prop) (Q : α → Disk Name → Prop) (p : Prog Name α)
    (d : Disk Name) : Prop :=
  ∀ e, wp Step (fun s => J s.disk) (fun a s => Q a s.disk) p ⟨d, e⟩

namespace Meets

variable {α β : Type} {J J' : Disk Name → Prop} {Q Q' : α → Disk Name → Prop}
  {R : β → Disk Name → Prop} {p : Prog Name α} {f : α → Prog Name β} {d : Disk Name}

/-- The invariant holds where the program starts. -/
theorem inv (h : Meets J Q p d) : J d := (h (.other 0)).inv

/-- The rule of consequence. -/
theorem mono (h : Meets J Q p d) (hJ : ∀ t, J t → J' t) (hQ : ∀ a t, J t → Q a t → Q' a t) :
    Meets J' Q' p d :=
  fun e => (h e).mono (fun t => hJ t.disk) fun a t => hQ a t.disk

/-- The invariant is part of every postcondition. -/
theorem with_inv (h : Meets J Q p d) : Meets J (fun a t => J t ∧ Q a t) p d :=
  fun e => (h e).with_inv

/-- The rule of the end. -/
theorem pure {a : α} (hJ : J d) (hQ : Q a d) : Meets J Q (Pure.pure a : Prog Name α) d :=
  fun _ => wp_pure hJ hQ

/-- The rule of sequencing. -/
theorem bind (h : Meets J (fun a t => Meets J R (f a) t) p d) : Meets J R (p >>= f) d :=
  fun e => wp_bind ((h e).mono (fun _ ht => ht) fun _ t _ hf => hf t.errno)

/-- The rule of a call: it fails and changes nothing, or does what the call does. -/
theorem invoke {c : Call Name} {Q : Except Errno (Value c) → Disk Name → Prop} (hJ : J d)
    (hfail : ∀ e, MayFail d c e → Q (.error e) d)
    (hok : ∀ v d', Does d c v d' → J d' ∧ Q (.ok v) d') :
    Meets J Q (FileStore.invoke c) d := by
  intro e
  refine wp_call (I := fun s : Process Name => J s.disk) hJ fun r s' hstep => ?_
  cases hstep with
  | does hdo => exact hok _ _ hdo
  | fails hmay => exact ⟨hJ, hfail _ hmay⟩

/-- The same for a call that is only asked whether it succeeded. -/
theorem succeeds {c : Call Name} {Q : Bool → Disk Name → Prop} (hJ : J d) (hfail : Q false d)
    (hok : ∀ v d', Does d c v d' → J d' ∧ Q true d') :
    Meets J Q (FileStore.succeeds c) d := by
  refine bind (Meets.invoke hJ (fun e _ => pure hJ hfail) fun v d' hdo => ?_)
  obtain ⟨hJ', hQ'⟩ := hok v d' hdo
  exact ⟨hJ', pure hJ' hQ'⟩

/-- Nothing is assumed of the error number a program reads. -/
theorem errno {Q : Errno → Disk Name → Prop} (hJ : J d) (h : ∀ e, Q e d) :
    Meets J Q FileStore.errno d := by
  intro e
  refine wp_call (I := fun s : Process Name => J s.disk) hJ fun r s' hstep => ?_
  cases hstep
  exact ⟨hJ, h e⟩

/-- Setting `errno` changes no file. -/
theorem setErrno {e' : Errno} {Q : Unit → Disk Name → Prop} (hJ : J d) (h : Q () d) :
    Meets J Q (FileStore.setErrno e') d := by
  intro e
  refine wp_call (I := fun s : Process Name => J s.disk) hJ fun r s' hstep => ?_
  cases hstep
  exact ⟨hJ, h⟩

/-- The second part is run when the first answered true. -/
theorem andThen {p q : Prog Name Bool} {Q : Bool → Disk Name → Prop}
    (h : Meets J (fun b t => (b = true → Meets J Q q t) ∧ (b = false → Q false t)) p d) :
    Meets J Q (p.andThen q) d :=
  fun e => wp_andThen ((h e).mono (fun _ ht => ht) fun _ t _ hb =>
    ⟨fun htrue => hb.1 htrue t.errno, hb.2⟩)

/-- A check that is followed by others: what a failing call leaves is the disk before it. -/
theorem check {c : Call Name} {q : Prog Name Bool} {Q : Bool → Disk Name → Prop} (hJ : J d)
    (hfail : Q false d) (hok : ∀ v d', Does d c v d' → Meets J Q q d') :
    Meets J Q ((FileStore.succeeds c).andThen q) d := by
  refine andThen (Meets.succeeds hJ ⟨nofun, fun _ => hfail⟩ fun v d' hdo => ?_)
  exact ⟨(hok v d' hdo).inv, fun _ => hok v d' hdo, nofun⟩

/-- Both of two specifications. -/
theorem and (h : Meets J Q p d) (h' : Meets J' Q' p d) :
    Meets (fun t => J t ∧ J' t) (fun a t => Q a t ∧ Q' a t) p d :=
  fun e => (h e).and (h' e)

/-- What a program meets holds of each of its runs. -/
theorem sound {s t : Process Name} {o : Option α} (h : Meets J Q p s.disk)
    (he : Exec Step p s o t) : J t.disk ∧ ∀ a, o = some a → Q a t.disk :=
  he.sound (h s.errno)

end Meets

/-- A call that leaves the disk alone. -/
def Call.Quiet : Call Name → Prop
  | .openDir _ | .closeDir | .flock _ | .close _ | .fstat _ | .fstatat _ => True
  | _ => False

/-- A call that only looks leaves the disk. -/
theorem Does.quiet {d d' : Disk Name} {c : Call Name} {v : Value c} (h : Does d c v d')
    (hc : c.Quiet) : d' = d := by
  cases h <;> first | rfl | exact hc.elim

/-- A quiet call, whatever its answer. -/
theorem Meets.quiet {c : Call Name} {J : Disk Name → Prop} {Q : Bool → Disk Name → Prop}
    {d : Disk Name} (hc : c.Quiet) (hJ : J d) (h : ∀ b, Q b d) :
    Meets J Q (FileStore.succeeds c) d := by
  refine succeeds hJ (h false) fun v d' hdo => ?_
  rw [hdo.quiet hc]
  exact ⟨hJ, h true⟩

end Calls

/-! ### Frames -/

/-- The names outside `N`, and the files they may refer to, are as they were. -/
structure Untouched (N : Set Name) (d d' : Disk Name) : Prop where
  link : ∀ n ∉ N, d'.link n = d.link n
  file : ∀ n ∉ N, ∀ i, some i ∈ (d.link n).possible → d'.file i = d.file i

namespace Untouched

variable {N M : Set Name} {d d' d'' : Disk Name}

/-- Nothing was touched. -/
theorem refl (N : Set Name) (d : Disk Name) : Untouched N d d :=
  ⟨fun _ _ => rfl, fun _ _ _ _ => rfl⟩

/-- One after the other. -/
theorem trans (h : Untouched N d d') (h' : Untouched N d' d'') : Untouched N d d'' where
  link n hn := (h'.link n hn).trans (h.link n hn)
  file n hn i hi := by
    have hi' : some i ∈ (d'.link n).possible := by rwa [h.link n hn]
    exact (h'.file n hn i hi').trans (h.file n hn i hi)

/-- Fewer names are promised. -/
theorem mono (h : Untouched N d d') (hNM : N ⊆ M) : Untouched M d d' :=
  ⟨fun n hn => h.link n fun hm => hn (hNM hm), fun n hn => h.file n fun hm => hn (hNM hm)⟩

/-- Changing what a name in `N` refers to. -/
theorem relink [DecidableEq Name] {n : Name} (hn : n ∈ N) (t : Option ℕ) :
    Untouched N d (d.relink n t) where
  link _ hm := Disk.relink_link_of_ne (ne_of_mem_of_not_mem hn hm).symm t
  file _ _ _ _ := rfl

end Untouched

/-- No name has changed, and no file but `i`. -/
structure Confined (i : ℕ) (d d' : Disk Name) : Prop where
  link : d'.link = d.link
  file : ∀ j, j ≠ i → d'.file j = d.file j

namespace Confined

variable {i : ℕ} {d d' d'' : Disk Name}

/-- Nothing was written. -/
theorem refl (i : ℕ) (d : Disk Name) : Confined i d d := ⟨rfl, fun _ _ => rfl⟩

/-- One after the other. -/
theorem trans (h : Confined i d d') (h' : Confined i d' d'') : Confined i d d'' :=
  ⟨h'.link.trans h.link, fun j hj => (h'.file j hj).trans (h.file j hj)⟩

/-- Moving a descriptor writes nothing. -/
theorem seek (i fd : ℕ) (e : Descriptor) : Confined i d (d.seek fd e) := ⟨rfl, fun _ _ => rfl⟩

/-- Writing one file. -/
theorem setFile (i : ℕ) (f : File) : Confined i d (d.setFile i f) :=
  ⟨rfl, fun _ hj => Disk.setFile_file_of_ne hj f⟩

/-- Changing a file that only names in `N` refer to. -/
theorem untouched {N : Set Name} (h : Confined i d d')
    (hi : ∀ n ∉ N, some i ∉ (d.link n).possible) : Untouched N d d' where
  link n _ := congrFun h.link n
  file n hn j hj := h.file j fun hij => hi n hn (hij ▸ hj)

end Confined

/-! ### What a name refers to -/

/-- The name refers to a file that satisfies `F`. -/
def Holds (F : File → Prop) (d : Disk Name) (n : Name) : Prop :=
  ∃ i, (d.link n).now = some i ∧ F (d.file i)

/-- Whatever a crash leaves of the name, it refers to a file that satisfies `F`. -/
def Kept (F : File → Prop) (d : Disk Name) (n : Name) : Prop :=
  ∀ t ∈ (d.link n).possible, ∃ i, t = some i ∧ F (d.file i)

section Names

variable {F F' : File → Prop} {d d' : Disk Name} {n : Name} {N : Set Name}

/-- What is kept holds now. -/
theorem Kept.holds (h : Kept F d n) : Holds F d n := h _ (d.link n).now_mem_possible

/-- A weaker property is kept. -/
theorem Kept.mono (h : Kept F d n) (hF : ∀ f, F f → F' f) : Kept F' d n := by
  intro t ht
  obtain ⟨i, hti, hi⟩ := h t ht
  exact ⟨i, hti, hF _ hi⟩

/-- A name that was not touched holds what it held. -/
theorem Holds.untouched (h : Holds F d n) (hu : Untouched N d d') (hn : n ∉ N) :
    Holds F d' n := by
  obtain ⟨i, hnow, hi⟩ := h
  have hmem : some i ∈ (d.link n).possible := hnow ▸ (d.link n).now_mem_possible
  refine ⟨i, ?_, ?_⟩
  · rw [hu.link n hn, hnow]
  · rwa [hu.file n hn i hmem]

/-- And keeps it. -/
theorem Kept.untouched (h : Kept F d n) (hu : Untouched N d d') (hn : n ∉ N) :
    Kept F d' n := by
  intro t ht
  rw [hu.link n hn] at ht
  obtain ⟨i, rfl, hi⟩ := h t ht
  exact ⟨i, rfl, by rwa [hu.file n hn i ht]⟩

/-- A name made to refer to one more file that satisfies `F`. -/
theorem Kept.relink [DecidableEq Name] {i : ℕ} (h : Kept F d n) (hi : F (d.file i)) :
    Kept F (d.relink n (some i)) n := by
  intro t ht
  rw [Disk.relink_link_self, Link.mem_possible_relink] at ht
  obtain rfl | ht := ht
  · exact ⟨i, rfl, hi⟩
  · exact h t ht

/-- Once the directory is flushed only what the name refers to now is left. -/
theorem Holds.settle (h : Holds F d n) : Kept F d.settle n := by
  intro t ht
  obtain ⟨i, hnow, hi⟩ := h
  rw [Disk.settle_link, Link.mem_possible_settle, hnow] at ht
  exact ⟨i, ht, hi⟩

/-- A name that is linked to a good file holds it. -/
theorem Holds.relink [DecidableEq Name] {i : ℕ} (hi : F (d.file i)) :
    Holds F (d.relink n (some i)) n :=
  ⟨i, by rw [Disk.relink_link_self, Link.relink_now], hi⟩

/-- A rename over a name adds one file to what a crash may leave there. -/
theorem Kept.renamed [DecidableEq Name] {m : Name} {i : ℕ} (h : Kept F d n) (hmn : m ≠ n)
    (hi : F (d.file i)) : Kept F ((d.relink m none).relink n (some i)) n :=
  (h.untouched (.relink (Set.mem_singleton m) none) hmn.symm).relink hi

/-- A rename leaves the other names alone. -/
theorem Holds.renamed [DecidableEq Name] {m k : Name} {t : Option ℕ} (h : Holds F d k)
    (hm : k ≠ m) (hn : k ≠ n) : Holds F ((d.relink m none).relink n t) k := by
  have h' := h.untouched (.relink (Set.mem_singleton m) none) hm
  exact h'.untouched (.relink (Set.mem_singleton n) t) hn

/-- What holds now holds when the links have settled. -/
theorem Holds.settled (h : Holds F d n) : Holds F d.settle n := h.settle.holds

/-- What is kept stays kept. -/
theorem Kept.settled (h : Kept F d n) : Kept F d.settle n := h.holds.settle

/-- Flushing the directory, whatever the answer. -/
theorem Meets.fsyncDir [DecidableEq Name] {J P : Disk Name → Prop} {Q : Bool → Disk Name → Prop}
    (hJ : J d) (hP : P d) (hsettle : ∀ t, J t → P t → J t.settle ∧ P t.settle)
    (h : ∀ b t, J t → P t → Q b t) : Meets J Q (FileStore.succeeds .fsyncDir) d := by
  refine .succeeds hJ (h false d hJ hP) fun v d' hdo => ?_
  cases hdo with
  | fsyncDir =>
    obtain ⟨hJ', hP'⟩ := hsettle d hJ hP
    exact ⟨hJ', h true _ hJ' hP'⟩

/-- Files that are flushed survive a crash, and so does what a name may refer to. -/
theorem Kept.crashed (h : Kept F d n) (hF : ∀ f, F f → f.synced = true) (hc : Crashed d d') :
    Kept F d' n := by
  intro t ht
  obtain ⟨u, hu, hlink⟩ := hc.link n
  rw [hlink] at ht
  obtain rfl : t = u := List.mem_singleton.mp ht
  obtain ⟨i, rfl, hi⟩ := h t hu
  exact ⟨i, rfl, by rwa [hc.file i (hF _ hi)]⟩

end Names

/-! ### What a name may come to refer to -/

/-- Whatever a crash leaves of the name, `R` holds of its file, or of there being none. -/
def Tracks (R : Option File → Prop) (d : Disk Name) (n : Name) : Prop :=
  ∀ t ∈ (d.link n).possible, R (t.map d.file)

/-- The name refers to the same file, and a crash leaves of it nothing that it did not before. -/
structure Calm (n : Name) (d d' : Disk Name) : Prop where
  now : (d'.link n).now = (d.link n).now
  possible : ∀ t ∈ (d'.link n).possible, t ∈ (d.link n).possible
  file : ∀ i, some i ∈ (d'.link n).possible → d'.file i = d.file i

section Tracks

variable {R R' : Option File → Prop} {d d' d'' : Disk Name} {n m : Name} {N : Set Name}
  {t : Option ℕ}

/-- Nothing happened to the name. -/
theorem Calm.refl (n : Name) (d : Disk Name) : Calm n d d := ⟨rfl, fun _ ht => ht, fun _ _ => rfl⟩

/-- One after the other. -/
theorem Calm.trans (h : Calm n d d') (h' : Calm n d' d'') : Calm n d d'' where
  now := h'.now.trans h.now
  possible t ht := h.possible t (h'.possible t ht)
  file i hi := (h'.file i hi).trans (h.file i (h'.possible _ hi))

/-- A name that was not touched is calm. -/
theorem Untouched.calm (h : Untouched N d d') (hn : n ∉ N) : Calm n d d' where
  now := by rw [h.link n hn]
  possible t ht := by rwa [h.link n hn] at ht
  file i hi := h.file n hn i (by rwa [h.link n hn] at hi)

/-- Linking another name. -/
theorem Calm.relink [DecidableEq Name] (h : n ≠ m) (t : Option ℕ) : Calm n d (d.relink m t) :=
  (Untouched.relink (Set.mem_singleton m) t).calm h

/-- Settling keeps what is shown now. -/
theorem Calm.settle (n : Name) (d : Disk Name) : Calm n d d.settle where
  now := rfl
  possible t ht := by
    rw [Disk.settle_link, Link.mem_possible_settle] at ht
    rw [ht]
    exact (d.link n).now_mem_possible
  file _ _ := rfl

/-- A weaker property. -/
theorem Tracks.mono (h : Tracks R d n) (hR : ∀ f, R f → R' f) : Tracks R' d n :=
  fun t ht => hR _ (h t ht)

/-- The present target has it. -/
theorem Tracks.now (h : Tracks R d n) : R ((d.link n).now.map d.file) :=
  h _ (d.link n).now_mem_possible

/-- A calm name keeps it. -/
theorem Tracks.calm (h : Tracks R d n) (hc : Calm n d d') : Tracks R d' n := by
  intro t ht
  have hsame : t.map d'.file = t.map d.file := by
    cases t with
    | none => rfl
    | some i => exact congrArg some (hc.file i ht)
  rw [hsame]
  exact h t (hc.possible t ht)

/-- A new target that has it as well. -/
theorem Tracks.relink [DecidableEq Name] (h : Tracks R d n) (ht : R (t.map d.file)) :
    Tracks R (d.relink n t) n := by
  intro u hu
  rw [Disk.relink_link_self, Link.mem_possible_relink] at hu
  rcases hu with rfl | hu
  · exact ht
  · exact h u hu

/-- Once the directory is flushed only what the name refers to now is left. -/
theorem Tracks.settled (h : R ((d.link n).now.map d.file)) : Tracks R d.settle n := by
  intro t ht
  rw [Disk.settle_link, Link.mem_possible_settle] at ht
  rw [ht]
  exact h

/-- Files that are flushed survive a crash. -/
theorem Tracks.crashed (h : Tracks R d n) (hR : ∀ f, R (some f) → f.synced = true)
    (hc : Crashed d d') : Tracks R d' n := by
  intro t ht
  obtain ⟨u, hu, hlink⟩ := hc.link n
  rw [hlink] at ht
  obtain rfl : t = u := List.mem_singleton.mp ht
  have hsame : t.map d'.file = t.map d.file := by
    cases t with
    | none => rfl
    | some i => exact congrArg some (hc.file i (hR _ (h _ hu)))
  rw [hsame]
  exact h t hu

end Tracks

end FileStore
