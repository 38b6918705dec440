import TrustSdk.Security.Transfers

/-!
# What a slot reads as

A slot *reads as* `c` if `actrust_sec_store_read` can succeed on it and gives nothing but `c`
whenever it does (`ReadsAs`). It is enough that the slot's name refers to a stored file with
the contents `c` (`readsAs_of_holds`).
-/

namespace TrustSdk.Security

open SystemCalls FileStore

variable {sizeMax fuel : ℕ} {slotId : SecSlot}

/-- What `actrust_sec_store_read` makes of a slot, called with a buffer of any size: calls that
succeed give `c`, and one with a buffer of the size of `c` may. -/
def ReadsAs (sizeMax : ℕ) (slotId : SecSlot) (c : List UInt8) (s : Process String) : Prop :=
  (∃ fuel r t, Exec Step (actrustSecStoreRead sizeMax fuel slotId c.length) s (some r) t ∧
    r.status = .ok ()) ∧
  ∀ fuel outLen r t, Exec Step (actrustSecStoreRead sizeMax fuel slotId outLen) s (some r) t →
    r.status = .ok () → r.out = c ∧ r.actualLen = some c.length

/-! ### What a read gives -/

/-- The loop that fills the buffer gives the bytes of the file. -/
theorem secReadAll_meets {fd i : ℕ} (fuel left : ℕ) (total : List UInt8) {off : ℕ}
    {d : Disk String} (hfd : d.opened[fd]? = some ⟨i, off⟩) :
    Meets (fun _ => True)
      (fun r _ => ∀ out, r = some out → out = total ++ ((d.file i).data.drop off).take left)
      (secReadAll fd fuel left total) d := by
  -- on the rounds; each reads a part of what is left, and an interrupted one is made again
  induction fuel generalizing left total off d with
  | zero =>
    cases left with
    | zero => exact .pure trivial fun out h => by simpa using h.symm
    | succ n => exact fun _ => trivial
  | succ fuel ih =>
    cases left with
    | zero => exact .pure trivial fun out h => by simpa using h.symm
    | succ n =>
      refine .bind (.invoke trivial (fun e _ => ?_) fun bs d' hdo => ⟨trivial, ?_⟩)
      · cases e with
        | EINTR => exact ih (n + 1) total hfd
        | EEXIST => exact .pure trivial nofun
        | ENOENT => exact .pure trivial nofun
        | EACCES => exact .pure trivial nofun
        | other n => exact .pure trivial nofun
      · obtain ⟨⟨k, hk, hbs⟩, rfl⟩ := does_read hfd hdo
        have htake := take_eq_append hbs hk
        cases bs with
        | nil => exact .pure trivial nofun
        | cons b bs =>
          refine (ih _ (total ++ b :: bs) (Disk.seek_self hfd _)).mono (fun _ h => h) ?_
          intro r t _ hr out hout
          rw [hr out hout, htake, Disk.seek_file, List.drop_drop, List.append_assoc]

/-- A read that succeeds gives the contents of the file the slot refers to. -/
theorem actrustSecStoreRead_meets {d : Disk String} {name : String} {c : List UInt8}
    (hname : secMakeName slotId = some name) (hheld : Holds (Stored sizeMax c) d name)
    (outLen : ℕ) :
    Meets (fun _ => True)
      (fun r _ => r.status = .ok () → r.out = c ∧ r.actualLen = some c.length)
      (actrustSecStoreRead sizeMax fuel slotId outLen) d := by
  obtain ⟨i, hnow, hi⟩ := hheld
  -- on every way out the two descriptors are closed and the result stays
  have hclose : ∀ (fd : ℕ) t (r : SecReadResult), r.status ≠ .ok () →
      Meets (fun _ => True)
        (fun r _ => r.status = .ok () → r.out = c ∧ r.actualLen = some c.length)
        (do let _ ← succeeds (.close fd); let _ ← succeeds .closeDir; return r :
          Prog String SecReadResult) t :=
    fun fd t r hr => .bind (.quiet trivial trivial fun _ =>
      .bind (.quiet trivial trivial fun _ => .pure trivial fun h => absurd h hr))
  unfold actrustSecStoreRead
  rw [hname]
  refine .bind (.invoke trivial (fun e _ => .pure trivial (by rintro ⟨⟩)) fun _ d₁ hdir => ⟨trivial, ?_⟩)
  obtain rfl := hdir.quiet trivial
  refine .bind (.invoke trivial (fun e _ => ?_) fun fd d₂ hopen => ⟨trivial, ?_⟩)
  · exact .bind (.quiet trivial trivial fun _ => .pure trivial (by rintro ⟨⟩))
  cases hopen with
  -- the file that is opened is the one the link shows
  | openFile hj =>
    obtain rfl := Option.some.inj (hj.symm.trans hnow)
    rename_i i
    have hfd := Disk.addDescriptor_last (d := d₁) i
    refine .bind (.invoke trivial (fun e _ => hclose _ _ _ (by rintro ⟨⟩)) fun st d₃ hstat =>
      ⟨trivial, ?_⟩)
    cases hstat with
    | fstat hfd' =>
      obtain rfl := Option.some.inj (hfd'.symm.trans hfd)
      dsimp only
      split
      · exact hclose _ _ _ (by rintro ⟨⟩)
      split
      · exact hclose _ _ _ (by rintro ⟨⟩)
      refine .bind ((secReadAll_meets fuel _ [] hfd).mono (fun _ h => h) fun out t _ hout => ?_)
      refine .bind (.quiet trivial trivial fun closeOk => ?_)
      refine .bind (.quiet trivial trivial fun _ => ?_)
      cases out with
      | none => exact .pure trivial (by rintro ⟨⟩)
      | some bs =>
        cases closeOk with
        | false => exact .pure trivial (by rintro ⟨⟩)
        | true =>
          have hbs : bs = c := by
            rw [hout bs rfl]
            simp [File.stat, hi.data]
          exact .pure trivial fun _ => ⟨hbs, by rw [hbs]⟩

/-! ### A read that nothing disturbs -/

/-- A system call, as an execution. -/
theorem exec_invoke {d d' : Disk String} {e : Errno} {c : Call String} {v : Value c}
    (h : Does d c v d') : Exec Step (invoke c) ⟨d, e⟩ (some (.ok v)) ⟨d', e⟩ :=
  .call (.does h) .done

/-- Likewise one that is only asked whether it succeeded. -/
theorem exec_succeeds {d d' : Disk String} {e : Errno} {c : Call String} {v : Value c}
    (h : Does d c v d') : Exec Step (succeeds c) ⟨d, e⟩ (some true) ⟨d', e⟩ :=
  (exec_invoke h).bind .done

/-- One call reads the whole file. -/
theorem exec_secReadAll {d : Disk String} {e : Errno} {fd i : ℕ}
    (hfd : d.opened[fd]? = some ⟨i, 0⟩) :
    ∃ t, Exec Step (secReadAll fd 1 (d.file i).data.length []) ⟨d, e⟩
      (some (some (d.file i).data)) ⟨t, e⟩ := by
  cases hdata : (d.file i).data with
  | nil => exact ⟨d, .done⟩
  | cons b bs =>
    have hread : Does d (.read fd (bs.length + 1)) _ _ := .read hfd le_rfl
    rw [List.drop_zero, hdata, ← List.length_cons, List.take_length] at hread
    have hrest : ∀ u, Exec Step (secReadAll fd 0 ((b :: bs).length - (b :: bs).length) (b :: bs)) u
        (some (some (b :: bs))) u := by
      intro u
      rw [Nat.sub_self]
      exact .done
    exact ⟨_, (exec_invoke hread).bind (hrest _)⟩

/-- A buffer that is large enough gets the contents of a stored file. -/
theorem exec_actrustSecStoreRead {d : Disk String} {e : Errno} {name : String} {c : List UInt8}
    {outLen : ℕ} (hname : secMakeName slotId = some name) (hheld : Holds (Stored sizeMax c) d name)
    (hlen : c.length ≤ outLen) :
    ∃ t, Exec Step (actrustSecStoreRead sizeMax 1 slotId outLen) ⟨d, e⟩
      (some ⟨.ok (), c, some c.length⟩) ⟨t, e⟩ := by
  obtain ⟨i, hnow, hi⟩ := hheld
  have hfd := Disk.addDescriptor_last (d := d) i
  obtain ⟨t, hread⟩ := exec_secReadAll (e := e) hfd
  refine ⟨t, ?_⟩
  unfold actrustSecStoreRead
  rw [hname]
  -- the directory, the file, its size, its bytes, and the two closes
  refine (exec_invoke .openDir).bind ((exec_invoke (.openFile hnow)).bind ?_)
  refine (exec_invoke (.fstat hfd)).bind ?_
  have hi : Stored sizeMax c (d.file i) := hi
  have hsize : (d.file i).stat.size = c.length := by
    rw [File.stat, hi.data]
  have hfits := hi.fits
  have haccept : ¬ (!secStatIsRegular (d.file i).stat || decide ((d.file i).stat.size < 0) ||
      decide ((sizeMax : ℤ) < (d.file i).stat.size)) = true := by
    rw [hi.regular, hsize]
    simpa using hfits
  have hbuffer : ¬ outLen < (d.file i).stat.size.toNat := by
    rw [hsize]
    simpa using hlen
  dsimp only [Disk.addDescriptor_file]
  rw [if_neg haccept, if_neg hbuffer, hsize]
  rw [Disk.addDescriptor_file, hi.data] at hread
  exact hread.bind ((exec_succeeds .close).bind ((exec_succeeds .closeDir).bind .done))

/-- A slot that refers to a stored file reads as its contents. -/
theorem readsAs_of_holds {s : Process String} {name : String} {c : List UInt8}
    (hname : secMakeName slotId = some name) (hheld : Holds (Stored sizeMax c) s.disk name) :
    ReadsAs sizeMax slotId c s := by
  refine ⟨?_, fun fuel outLen r t hexec =>
    ((actrustSecStoreRead_meets hname hheld outLen).sound hexec).2 r rfl⟩
  obtain ⟨t, hread⟩ := exec_actrustSecStoreRead (e := s.errno) hname hheld le_rfl
  exact ⟨1, _, _, hread, rfl⟩

end TrustSdk.Security
