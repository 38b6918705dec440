import TrustSdk.Lib.CrashLogic
import TrustSdk.Kv.Invariant

/-!
# The media a KV store runs on

What the store relies on in its storage adapter, whatever it does with the writes it has
not yet made durable: `KvMedium`. A crash during or after a write may leave the write torn
on any image a crash could have left before it; a new superblock, however, can be read only
when everything issued before it is on the medium (`Reach`).

The rules here are the rules of the crash logic with these laws put in. `Reads` is the
judgement for programs that only read: they leave the state alone and return the expected
value, unless a storage call fails.
-/

namespace TrustSdk.Kv

open ByteStore CrashLogic

variable {cfg : KvConfig} {D : Device Err} {α β : Type}

/-- The bytes `bs`, written at the offset of a superblock, can be read as that superblock. -/
def TookEffect (off : ℕ) (bs : Bytes) (img : Image) : Prop :=
  ∃ i < 2, off = kvSuperblockOffset i ∧ superblockAt img i = kvDecodeSuperblock bs

/-- The images a crash may leave once `bs` has been issued for `off`. -/
def Reach (cfg : KvConfig) (D : Device Err) (s : D.State) (off : ℕ) (bs : Bytes)
    (img' : Image) : Prop :=
  ∃ img, D.crash s img ∧ TornWrite cfg img (patch img off bs) img' ∧
    (TookEffect off bs img' → img = D.view s)

/-- A crash leaves what reads see. -/
def Exact (D : Device Err) (s : D.State) : Prop := ∀ img, D.crash s img → img = D.view s

/-- The laws of a device on which a store of configuration `cfg` runs. -/
structure KvMedium (cfg : KvConfig) (D : Device Err) : Prop where
  capacity : cfg.kvRegionSize ≤ D.capacity
  /-- The adapter has no status `ACTRUST_ERR_NO_RESOURCE`. -/
  fault_code : ∀ e, D.fault e → e.code ≠ .noResource
  /-- Calls may fail only where writes reach the medium at once. -/
  fault_exact : ∀ e, D.fault e → ∀ s, Exact D s
  view_write : ∀ s off bs, D.view (D.write s off bs) = patch (D.view s) off bs
  view_sync : ∀ s, D.view (D.sync s) = D.view s
  view_interrupt : ∀ s off bs s', D.interrupt s off bs s' →
    TornWrite cfg (D.view s) (patch (D.view s) off bs) (D.view s')
  crash_sync : ∀ s, Exact D (D.sync s)
  crash_write : ∀ s off bs img, D.crash (D.write s off bs) img → Reach cfg D s off bs img
  crash_interrupt : ∀ s off bs s' img, D.interrupt s off bs s' → D.crash s' img →
    Reach cfg D s off bs img

/-- What the reading parts of the store rely on: the region fits, and a failing read is told
apart from an empty region. -/
structure KvReadable (cfg : KvConfig) (D : Device Err) : Prop where
  capacity : cfg.kvRegionSize ≤ D.capacity
  fault_code : ∀ e, D.fault e → e.code ≠ .noResource

theorem KvMedium.readable (hM : KvMedium cfg D) : KvReadable cfg D := ⟨hM.capacity, hM.fault_code⟩

/-- The adapter's write-through medium: a write that returns OK is durable, one that fails
or is cut short leaves a torn image. -/
def writeThrough (cfg : KvConfig) (capacity : ℕ) (fault lockFault : Err → Prop) : Device Err :=
  direct capacity ⟨.adapterStorage, .invalidArg⟩ fault lockFault (TornWrite cfg)

/-- The storage without a cache: what is written is on the medium at once. -/
theorem writeThrough_medium {capacity : ℕ} {fault lockFault : Err → Prop}
    (hcap : cfg.kvRegionSize ≤ capacity) (hcode : ∀ e, fault e → e.code ≠ .noResource) :
    KvMedium cfg (writeThrough cfg capacity fault lockFault) where
  capacity := hcap
  fault_code := hcode
  fault_exact := fun _ _ _ _ h => h
  view_write := fun _ _ _ => rfl
  view_sync := fun _ => rfl
  view_interrupt := fun _ _ _ _ h => h
  crash_sync := fun _ _ h => h
  crash_write := by
    rintro s off bs img rfl
    exact ⟨s, rfl, TornWrite.full cfg _ _, fun _ => rfl⟩
  crash_interrupt := by
    rintro s off bs s' img h rfl
    exact ⟨s, rfl, h, fun _ => rfl⟩

/-! ### Reading -/

/-- Some call of the device may fail. -/
def MayFail (D : Device Err) : Prop := (∃ e, D.fault e) ∨ ∃ e, D.lockFault e

/-- An error that a failing storage call is the reason of. -/
structure Faulted (D : Device Err) (e : Err) : Prop where
  fault : ∃ e', D.fault e'
  code : e.code ≠ .noResource

/-- The program leaves the state alone and returns `a`, unless a storage call fails. -/
def Reads (D : Device Err) (s : D.State) (C : Image → Prop) (p : Io Err α) (a : α) : Prop :=
  cwp D p (fun r t => t = s ∧ (r = .ok a ∨ ∃ e, Faulted D e ∧ r = .error e)) C s

section Reads

variable {s : D.State} {C : Image → Prop} {p : Io Err α} {a : α}

/-- A value that is known without the storage. -/
theorem Reads.pure (hC : ∀ img, D.crash s img → C img) : Reads D s C (pure a) a :=
  cwp_done ⟨rfl, Or.inl rfl⟩ hC

/-- After a read the program goes on with what was read, or ends with the error of the read. -/
theorem Reads.bind {f : α → Io Err β} {Q : Except Err β → D.State → Prop} (h : Reads D s C p a)
    (hok : cwp D (f a) Q C s) (hfault : ∀ e, Faulted D e → Q (.error e) s) :
    cwp D (p >>= f) Q C s := by
  refine cwp_bind (cwp.mono h ?_ fun _ hi => hi)
  rintro r t ⟨rfl, rfl | ⟨e, he, rfl⟩⟩
  · exact hok
  · exact hfault e he

/-- The same when the program looks at the error itself. -/
theorem Reads.attempt {f : Except Err α → Io Err β} {Q : Except Err β → D.State → Prop}
    (h : Reads D s C p a) (hok : cwp D (f (.ok a)) Q C s)
    (hfault : ∀ e, Faulted D e → cwp D (f (.error e)) Q C s) :
    cwp D (p.attempt >>= f) Q C s := by
  refine cwp_bind (cwp_attempt (cwp.mono h ?_ fun _ hi => hi))
  rintro r t ⟨rfl, rfl | ⟨e, he, rfl⟩⟩
  · exact hok
  · exact hfault e he

/-- Two reading programs in a row. -/
theorem Reads.andThen {f : α → Io Err β} {b : β} (h : Reads D s C p a) (hf : Reads D s C (f a) b) :
    Reads D s C (p >>= f) b :=
  h.bind hf fun e he => ⟨rfl, Or.inr ⟨e, he, rfl⟩⟩

/-- A reading program whose error the next one replaces. -/
theorem Reads.attemptThen {f : Except Err α → Io Err β} {b : β} (h : Reads D s C p a)
    (hC : ∀ img, D.crash s img → C img) (hok : Reads D s C (f (.ok a)) b)
    (hfault : ∀ e, Faulted D e → ∃ e', f (.error e) = Io.fail e' ∧ e'.code ≠ .noResource) :
    Reads D s C (p.attempt >>= f) b := by
  refine h.attempt hok fun e he => ?_
  obtain ⟨e', hfe, hcode⟩ := hfault e he
  rw [hfe]
  exact cwp_done ⟨rfl, Or.inr ⟨e', ⟨he.fault, hcode⟩, rfl⟩⟩ hC

end Reads

section Calls

variable (hM : KvMedium cfg D) {s : D.State} {C : Image → Prop}
  (hC : ∀ img, D.crash s img → C img)
include hM hC

/-- A write inside the region, with the states it may lead to. -/
theorem storageWrite_bind {off : ℕ} {bs : Bytes} {f : Unit → Io Err β}
    {Q : Except Err β → D.State → Prop} (hin : off + bs.length ≤ cfg.kvRegionSize)
    (hcrash : ∀ img, Reach cfg D s off bs img → C img)
    (hok : ∀ t, D.view t = patch (D.view s) off bs →
      (∀ img, D.crash t img → Reach cfg D s off bs img) → cwp D (f ()) Q C t)
    (hfault : ∀ e t, D.fault e → Exact D t →
      TornWrite cfg (D.view s) (patch (D.view s) off bs) (D.view t) → Q (.error e) t) :
    cwp D (actrustStorageWrite off bs >>= f) Q C s := by
  have hwrite := hM.crash_write s off bs
  have hokw := hok (D.write s off bs) (hM.view_write s off bs) hwrite
  refine cwp_bind (cwp_write (hin.trans hM.capacity) hC ⟨hokw, fun img hi => ?_⟩ ?_)
  · exact hcrash img (hwrite img hi)
  · intro s' hs'
    refine ⟨fun img hi => hcrash img (hM.crash_interrupt s off bs s' img hs' hi), fun e he => ?_⟩
    exact hfault e s' he (hM.fault_exact e he s') (hM.view_interrupt s off bs s' hs')

/-- A sync leaves what the storage shows as it is, or fails. -/
theorem storageSync_bind {f : Unit → Io Err β} {Q : Except Err β → D.State → Prop}
    (hok : ∀ t, D.view t = D.view s → Exact D t → cwp D (f ()) Q C t)
    (hfault : ∀ e, D.fault e → Exact D s → Q (.error e) s) :
    cwp D (actrustStorageSync >>= f) Q C s := by
  have hoks := hok (D.sync s) (hM.view_sync s) (hM.crash_sync s)
  refine cwp_bind (cwp_sync hC ⟨hoks, hoks.crash⟩ fun e he => ?_)
  exact hfault e he (hM.fault_exact e he s)

end Calls

section Reading

variable (hM : KvReadable cfg D) {s : D.State} {C : Image → Prop}
  (hC : ∀ img, D.crash s img → C img)
include hM hC

/-- Inside the region a read answers what the storage shows. -/
theorem storageRead_reads {off len : ℕ} (hin : off + len ≤ cfg.kvRegionSize) :
    Reads D s C (actrustStorageRead off len) (slice (D.view s) off len) := by
  refine cwp_read (hin.trans hM.capacity) hC ⟨rfl, Or.inl rfl⟩ fun e he => ⟨rfl, Or.inr ?_⟩
  exact ⟨e, ⟨⟨e, he⟩, hM.fault_code e he⟩, rfl⟩

/-- `kv_read_superblock` -/
theorem kvReadSuperblock_reads {i : ℕ} (hi : i < 2) :
    Reads D s C (kvReadSuperblock i) (superblockAt (D.view s) i) :=
  (storageRead_reads hM hC (kvSuperblock_region hi)).andThen (Reads.pure hC)

/-- `kv_read_record` -/
theorem kvReadRecord_reads {i : ℕ} (hi : i < cfg.maxRecords) :
    Reads D s C (kvReadRecord cfg i) (recordAt cfg (D.view s) i) :=
  (storageRead_reads hM hC (kvRecord_region hi)).andThen (Reads.pure hC)

/-- `kv_read_journal` -/
theorem kvReadJournal_reads {i : ℕ} (hi : i < 2) :
    Reads D s C (kvReadJournal cfg i) (journalAt cfg (D.view s) i) :=
  (storageRead_reads hM hC (kvJournalOffset_end_le hi)).andThen (Reads.pure hC)

/-! ### The reading parts of the store -/

/-- `kv_select_superblock` answers the superblock in force. -/
theorem kvSelectSuperblock_reads {sb : KvSuperblock} {index : ℕ}
    (hsel : Selected cfg (D.view s) sb index) :
    Reads D s C (kvSelectSuperblock cfg) (sb, index) := by
  refine (kvReadSuperblock_reads hM hC (by omega)).andThen ?_
  refine (kvReadSuperblock_reads hM hC (by omega)).andThen ?_
  rw [show kvNewerSuperblock cfg _ _ = some (sb, index) from hsel]
  exact Reads.pure hC

/-- `kv_current_superblock` finds the same one. -/
theorem kvCurrentSuperblock_reads {sb : KvSuperblock} {index : ℕ}
    (hsel : Selected cfg (D.view s) sb index) :
    Reads D s C (kvCurrentSuperblock cfg) (some (sb, index)) := by
  refine (kvSelectSuperblock_reads hM hC hsel).attemptThen hC (Reads.pure hC) fun e he => ?_
  exact ⟨e, if_neg he.code, he.code⟩

/-- With a superblock in place, an invalid journal counts as none. -/
theorem kvScanJournal_reads {i : ℕ} (hi : i < 2) :
    Reads D s C (kvScanJournal cfg false i)
      (if kvJournalIsValid (journalAt cfg (D.view s) i) then some (journalAt cfg (D.view s) i)
        else none) := by
  refine (kvReadJournal_reads hM hC hi).andThen ?_
  by_cases hz : journalAt cfg (D.view s) i = .zero cfg
  · -- a slot that was never written is empty, not broken
    rw [hz, if_neg KvJournal.zero_not_valid, if_pos (by simp [kvJournalIsZero])]
    exact Reads.pure hC
  · rw [if_neg (by simpa [kvJournalIsZero] using hz)]
    by_cases hv : kvJournalIsValid (journalAt cfg (D.view s) i)
    · rw [if_pos hv, if_neg (by simpa using hv)]
      exact Reads.pure hC
    · rw [if_neg hv, if_pos (by simpa using hv)]
      exact Reads.pure hC

end Reading

end TrustSdk.Kv
