import TrustSdk.Kv.Atomicity

/-!
# The items of a region

A region is divided into two superblocks, the record slots and two journal slots: its items
(`KvItem`). Each has an offset, an encoding and a validity check, and the store touches an item
only by reading it or by writing it whole (`KvItem.write_eq`).

* `KvItem.decode_encode_iff`, `KvItem.encode_decode` — the encodings, in both directions;
* `KvItem.Precedes`, `KvItem.Precedes.disjoint` — the order of the items in the region;
* `KvItem.write_frame` — a write to one item, finished or torn, leaves every other one.

A superblock has 36 reserved bytes, which are written as zeros whatever the value holds.
-/

namespace TrustSdk.Kv

open ByteStore CrashLogic

variable {cfg : KvConfig} {capacity : ℕ}

/-- `kv_superblock_t` with its `reserved` bytes. -/
structure KvFullSuperblock extends KvSuperblock where
  reserved : ByteArr 36
  deriving DecidableEq

/-- The reserved bytes are not read: the target is cleared first. -/
def kvDecodeFullSuperblock (bs : Bytes) : KvFullSuperblock :=
  { kvDecodeSuperblock bs with reserved := .zero 36 }

/-- What `kv.c` reads and writes as one piece of the region. -/
inductive KvItem (cfg : KvConfig) where
  | superblock (index : Fin 2)
  | record (index : Fin cfg.maxRecords)
  | journal (index : Fin kvJournalSlots)
  deriving DecidableEq

namespace KvItem

/-- The structure an item is decoded into. -/
def Value : KvItem cfg → Type
  | superblock _ => KvFullSuperblock
  | record _ => KvRecord cfg
  | journal _ => KvJournal cfg

/-- Where the item starts in the region. -/
def offset : KvItem cfg → ℕ
  | superblock index => kvSuperblockOffset index
  | record index => kvRecordOffset cfg index
  | journal index => kvJournalOffset cfg index

/-- The bytes from the offset on that belong to the item. -/
def size : KvItem cfg → ℕ
  | superblock _ => kvSuperblockSize
  | record _ => cfg.kvRecordSize
  | journal _ => cfg.kvJournalSize

/-- The bytes that are read and written. A record slot is padded to four bytes. -/
def wireSize : KvItem cfg → ℕ
  | superblock _ => kvSuperblockSize
  | record _ => cfg.kvRecordWireSize
  | journal _ => cfg.kvJournalSize

/-- The bytes the encoder of the item gives. -/
def encode : (item : KvItem cfg) → item.Value → Bytes
  | superblock _, sb => kvEncodeSuperblock sb.toKvSuperblock
  | record _, r => kvEncodeRecord r
  | journal _, j => kvEncodeJournal j

/-- The value the decoder of the item makes of its bytes. -/
def decode : (item : KvItem cfg) → Bytes → item.Value
  | superblock _, bs => kvDecodeFullSuperblock bs
  | record _, bs => kvDecodeRecord cfg bs
  | journal _, bs => kvDecodeJournal cfg bs

/-- The check `kv.c` makes of the item after it is read. -/
def isValid : (item : KvItem cfg) → item.Value → Bool
  | superblock _, sb => kvSuperblockIsValid cfg sb.toKvSuperblock
  | record _, r => kvRecordIsValid r
  | journal _, j => kvJournalIsValid j

/-- The value that an image holds. -/
def readAt (item : KvItem cfg) (img : Image) : item.Value :=
  item.decode (slice img item.offset item.wireSize)

/-- The call that writes the item. -/
def write : (item : KvItem cfg) → item.Value → Io Err Unit
  | superblock index, sb => kvWriteSuperblock index sb.toKvSuperblock
  | record index, r => kvWriteRecord index r
  | journal index, j => kvWriteJournal index j

/-- Every item is written by one call of the storage. -/
theorem write_eq (item : KvItem cfg) (v : item.Value) :
    item.write v = actrustStorageWrite item.offset (item.encode v) := by
  cases item <;> rfl

@[simp] theorem encode_length (item : KvItem cfg) (v : item.Value) :
    (item.encode v).length = item.wireSize := by
  cases item with
  | superblock index => exact kvEncodeSuperblock_length v.toKvSuperblock
  | record index => exact kvEncodeRecord_length v
  | journal index => exact kvEncodeJournal_length v

/-! ### The encodings -/

/-- The reserved bytes of a superblock are zeros. -/
def Clear : (item : KvItem cfg) → item.Value → Prop
  | superblock _, sb => sb.reserved = .zero 36
  | record _, _ => True
  | journal _, _ => True

/-- Decoding undoes encoding exactly for the values whose reserved bytes are clear. -/
theorem decode_encode_iff (item : KvItem cfg) (v : item.Value) :
    item.decode (item.encode v) = v ↔ item.Clear v := by
  cases item with
  | superblock index =>
    obtain ⟨sb, reserved⟩ := v
    have hsb : kvDecodeSuperblock (kvEncodeSuperblock sb) = sb := by
      have h := kvDecodeSuperblock_encode sb []
      rwa [List.append_nil] at h
    -- the encoder has no reserved bytes, so the decoded superblock has them clear
    show (⟨kvDecodeSuperblock (kvEncodeSuperblock sb), .zero 36⟩ : KvFullSuperblock) = _ ↔
      reserved = .zero 36
    rw [hsb, KvFullSuperblock.mk.injEq]
    exact ⟨fun h => h.2.symm, fun h => ⟨rfl, h.symm⟩⟩
  | record index =>
    have h := kvDecodeRecord_encode v []
    rw [List.append_nil] at h
    exact ⟨fun _ => trivial, fun _ => h⟩
  | journal index =>
    have h := kvDecodeJournal_encode v []
    rw [List.append_nil] at h
    exact ⟨fun _ => trivial, fun _ => h⟩

/-- Every byte of a record or a journal belongs to a field. -/
theorem encode_decode {item : KvItem cfg} (hitem : ∀ index, item ≠ superblock index) {bs : Bytes}
    (hlen : bs.length = item.wireSize) : item.encode (item.decode bs) = bs := by
  cases item with
  | superblock index => exact absurd rfl (hitem index)
  | record index =>
    have h := @kvEncodeRecord_decode cfg bs hlen.ge
    exact h.trans (List.take_of_length_le hlen.le)
  | journal index => exact kvEncodeJournal_decode hlen

/-! ### The order of the items -/

/-- One item comes before another in the region. -/
def Precedes : KvItem cfg → KvItem cfg → Prop
  | superblock i, superblock j => i < j
  | superblock _, _ => True
  | record i, record j => i < j
  | record _, journal _ => True
  | journal i, journal j => i < j
  | _, _ => False

/-- Any two items are ordered in the region. -/
theorem precedes_or {a b : KvItem cfg} (h : a ≠ b) : a.Precedes b ∨ b.Precedes a := by
  cases a with
  | superblock i =>
    cases b with
    | superblock j => exact lt_or_gt_of_ne fun heq => h (congrArg superblock heq)
    | record j => exact .inl trivial
    | journal j => exact .inl trivial
  | record i =>
    cases b with
    | superblock j => exact .inr trivial
    | record j => exact lt_or_gt_of_ne fun heq => h (congrArg record heq)
    | journal j => exact .inl trivial
  | journal i =>
    cases b with
    | superblock j => exact .inr trivial
    | record j => exact .inr trivial
    | journal j => exact lt_or_gt_of_ne fun heq => h (congrArg journal heq)

/-- A record slot, its padding included, ends before the next. -/
theorem record_slot_end_le {i j : ℕ} (h : i < j) :
    kvRecordOffset cfg i + cfg.kvRecordSize ≤ kvRecordOffset cfg j := by
  calc kvRecordOffset cfg i + cfg.kvRecordSize
      = kvDataOffset + cfg.kvRecordSize * (i + 1) := by
        rw [kvRecordOffset, Nat.mul_succ, Nat.add_assoc]
    _ ≤ kvDataOffset + cfg.kvRecordSize * j := Nat.add_le_add_left (Nat.mul_le_mul_left _ h) _
    _ = kvRecordOffset cfg j := rfl

/-- A superblock ends before the next starts. -/
theorem superblock_end_le {i j : ℕ} (h : i < j) :
    kvSuperblockOffset i + kvSuperblockSize ≤ kvSuperblockOffset j := by
  calc kvSuperblockOffset i + kvSuperblockSize
      = (i + 1) * kvSuperblockSize := by rw [kvSuperblockOffset, Nat.succ_mul]
    _ ≤ j * kvSuperblockSize := Nat.mul_le_mul_right _ h
    _ = kvSuperblockOffset j := rfl

/-- An item ends, with its padding, before the items it precedes. -/
theorem Precedes.end_le {a b : KvItem cfg} (h : a.Precedes b) : a.offset + a.size ≤ b.offset := by
  cases a with
  | superblock i =>
    have hend := kvSuperblockOffset_end_le i.isLt
    cases b with
    | superblock j => exact superblock_end_le h
    | record j => exact hend.trans (kvDataOffset_le_record cfg j)
    | journal j => exact hend.trans (kvDataOffset_le_journal cfg j)
  | record i =>
    cases b with
    | superblock j => exact h.elim
    | record j => exact record_slot_end_le h
    | journal j =>
      -- the last record ends where the journal starts
      have hend : kvRecordOffset cfg i + cfg.kvRecordSize ≤ cfg.kvJournalOffsetBase :=
        record_slot_end_le i.isLt
      exact hend.trans (Nat.le_add_right _ _)
  | journal i =>
    cases b with
    | superblock j => exact h.elim
    | record j => exact h.elim
    | journal j => exact kvJournalOffset_end_le_of_lt h

/-- Two different items share no byte. -/
theorem disjoint {a b : KvItem cfg} (h : a ≠ b) :
    a.offset + a.size ≤ b.offset ∨ b.offset + b.size ≤ a.offset :=
  (precedes_or h).imp Precedes.end_le Precedes.end_le

/-- Every item lies in the region. -/
theorem inside (item : KvItem cfg) : item.offset + item.size ≤ cfg.kvRegionSize := by
  cases item with
  | superblock index => exact kvSuperblock_region index.isLt
  | record index =>
    have hend : kvRecordOffset cfg index + cfg.kvRecordSize ≤ cfg.kvJournalOffsetBase :=
      record_slot_end_le index.isLt
    exact hend.trans (Nat.le_add_right _ _)
  | journal index => exact kvJournalOffset_end_le index.isLt

/-- An item is not longer than its place. -/
theorem wireSize_le (item : KvItem cfg) : item.wireSize ≤ item.size := by
  cases item with
  | superblock index => exact le_rfl
  | record index => exact kvRecordWireSize_le cfg
  | journal index => exact le_rfl

/-! ### Writing an item -/

/-- Bytes outside an item do not matter to the others. -/
theorem readAt_frame {a b : KvItem cfg} {img img' : Image} (hne : b ≠ a)
    (h : SameOutside img img' a.offset a.wireSize) : b.readAt img' = b.readAt img := by
  have ha := a.wireSize_le
  have hb := b.wireSize_le
  have hapart : b.offset + b.wireSize ≤ a.offset ∨ a.offset + a.wireSize ≤ b.offset :=
    (disjoint hne).imp (Nat.add_le_add_left hb _).trans (Nat.add_le_add_left ha _).trans
  rw [readAt, h.slice_eq hapart, readAt]

/-- Whatever becomes of a write, the bytes outside the item stay. -/
theorem write_sameOutside (item : KvItem cfg) (v : item.Value) {img : Image}
    {o : Outcome Err (faulty cfg capacity) Unit}
    (h : Exec (faulty cfg capacity) (item.write v) img o) :
    SameOutside img (leaves o) item.offset item.wireSize := by
  -- what is left of the write, torn or not, differs only inside the item
  have hkeep (img' : Image)
      (htorn : TornWrite cfg img (patch img item.offset (item.encode v)) img') :
      SameOutside img img' item.offset item.wireSize := by
    have hout := htorn.mixture.sameOutside
    rwa [item.encode_length v] at hout
  have hsame := SameOutside.refl img item.offset item.wireSize
  have hdone := hkeep _ (TornWrite.full cfg _ _)
  have hspec : cwp (faulty cfg capacity) (item.write v)
      (fun _ t => SameOutside img t item.offset item.wireSize)
      (fun img' => SameOutside img img' item.offset item.wireSize) img := by
    rw [write_eq]
    refine ⟨?_, fun _ => ⟨hsame, ?_⟩,
      -- the write may fail, be cut short, or be carried out and then fail
      fun _ => ⟨⟨hdone, ?_⟩, fun t ht => ⟨?_, fun e _ => ⟨hkeep t ht, ?_⟩⟩⟩⟩
    · rintro img' rfl
      exact hsame
    · rintro img' rfl
      exact hsame
    · rintro img' rfl
      exact hdone
    · rintro img' rfl
      exact hkeep _ ht
    · rintro img' rfl
      exact hkeep _ ht
  have hmeets := h.sound hspec
  cases o with
  | returned r t => exact hmeets.1
  | crashed img' => exact hmeets

end KvItem

/-- The formats and the layout of a configuration. -/
structure KvLayoutExact (cfg : KvConfig) (capacity : ℕ) : Prop where
  value : ∀ (item : KvItem cfg) (v : item.Value), item.decode (item.encode v) = v ↔ item.Clear v
  image : ∀ item : KvItem cfg, (∀ index, item ≠ .superblock index) → ∀ bs : Bytes,
    bs.length = item.wireSize → item.encode (item.decode bs) = bs
  inside : ∀ item : KvItem cfg, item.wireSize ≤ item.size ∧
    item.offset + item.size ≤ cfg.kvRegionSize ∧ cfg.kvRegionSize < 2 ^ 32
  disjoint : ∀ a b : KvItem cfg, a ≠ b →
    a.offset + a.size ≤ b.offset ∨ b.offset + b.size ≤ a.offset
  frame : ∀ (a : KvItem cfg) (v : a.Value) img o, Exec (faulty cfg capacity) (a.write v) img o →
    ∀ b, b ≠ a → b.readAt (leaves o) = b.readAt img ∧
      b.isValid (b.readAt (leaves o)) = b.isValid (b.readAt img)

/-- The encodings lose nothing but the reserved bytes of a superblock, and the items are apart. -/
theorem kv_layout_exact (cfg : KvConfig) (capacity : ℕ) : KvLayoutExact cfg capacity where
  value := KvItem.decode_encode_iff
  image _ hitem _ hlen := KvItem.encode_decode hitem hlen
  inside item := ⟨item.wireSize_le, item.inside, kvRegionSize_lt cfg⟩
  disjoint _ _ h := KvItem.disjoint h
  frame a v img o hexec b hne := by
    have hread := KvItem.readAt_frame hne (a.write_sameOutside v hexec)
    exact ⟨hread, congrArg b.isValid hread⟩

/-- Reserved bytes that are not zero do not come back. -/
theorem reserved_bytes_lost : ¬ ∀ (item : KvItem tinyConfig) (v : item.Value),
    item.decode (item.encode v) = v := by
  intro h
  let sb : KvFullSuperblock := ⟨kvMakeSuperblock 1 0, .ofBytes 36 (List.replicate 36 7)⟩
  have hback : kvDecodeFullSuperblock (kvEncodeSuperblock sb.toKvSuperblock) = sb :=
    h (.superblock 0) sb
  have hzero : ByteArr.zero 36 = sb.reserved := congrArg KvFullSuperblock.reserved hback
  exact absurd hzero (by decide)

end TrustSdk.Kv
