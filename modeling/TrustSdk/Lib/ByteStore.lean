import Mathlib.Data.List.Basic
import Mathlib.Algebra.Group.Nat.Defs
import Mathlib.Order.Basic

/-!
# Byte-addressed images

A storage medium read as a function from addresses to bytes, with the two accesses a
block or file interface offers: reading a range (`slice`) and overwriting a range
(`patch`). A write that is cut short leaves a byte-wise mixture of the two images
(`Torn`); both the finished write and the torn one leave every byte outside their range
alone, which is the frame condition `SameOutside`.

The second half is the data carried by such ranges: byte arrays of a fixed size
(`ByteArr`) and little-endian integers (`leBytes`, `leNat`).
-/

namespace ByteStore

/-- A string of bytes. -/
abbrev Bytes := List UInt8

/-- The contents of a medium: one byte at every address. -/
abbrev Image := ℕ → UInt8

/-- The `len` bytes of an image that start at `off`. -/
def slice (img : Image) (off len : ℕ) : Bytes :=
  (List.range len).map fun i => img (off + i)

/-- The image after `bs` has been written at `off`. -/
def patch (img : Image) (off : ℕ) (bs : Bytes) : Image :=
  fun a => if off ≤ a ∧ a < off + bs.length then bs.getD (a - off) 0 else img a

/-- `img` is a byte-wise mixture of `old` and `new`. -/
def Torn (old new img : Image) : Prop :=
  ∀ a, img a = old a ∨ img a = new a

/-- `img'` agrees with `img` at every address outside the range. -/
def SameOutside (img img' : Image) (off len : ℕ) : Prop :=
  ∀ a, ¬ (off ≤ a ∧ a < off + len) → img' a = img a

/-! ### Slices -/

@[simp] theorem slice_length (img : Image) (off len : ℕ) : (slice img off len).length = len := by
  simp [slice]

/-- A byte of a slice. -/
theorem slice_getD {img : Image} {off len i : ℕ} (h : i < len) :
    (slice img off len).getD i 0 = img (off + i) := by
  simp [slice, List.getD_eq_getElem?_getD, List.getElem?_range h]

/-- A slice depends on its window. -/
theorem slice_congr {img img' : Image} {off len : ℕ}
    (h : ∀ a, off ≤ a → a < off + len → img' a = img a) :
    slice img' off len = slice img off len := by
  refine List.map_congr_left fun i hi => ?_
  rw [List.mem_range] at hi
  exact h _ (by omega) (by omega)

/-- Two images that agree on a range agree on every part of it. -/
theorem slice_sub {img img' : Image} {off len : ℕ}
    (h : slice img' off len = slice img off len) {o l : ℕ} (ho : off ≤ o)
    (hl : o + l ≤ off + len) : slice img' o l = slice img o l := by
  refine slice_congr fun a h1 h2 => ?_
  have hlt : a - off < len := by omega
  have hd := congrArg (fun bs : Bytes => bs.getD (a - off) 0) h
  simp only [slice_getD hlt] at hd
  rwa [Nat.add_sub_cancel' (by omega : off ≤ a)] at hd

/-- A slice without its beginning. -/
theorem slice_drop (img : Image) (off len k : ℕ) :
    (slice img off len).drop k = slice img (off + k) (len - k) := by
  apply List.ext_getElem
  · simp
  · intro i h1 h2
    simp [slice, Nat.add_assoc]

/-- The beginning of a slice. -/
theorem slice_take (img : Image) (off : ℕ) {len k : ℕ} (h : k ≤ len) :
    (slice img off len).take k = slice img off k := by
  apply List.ext_getElem
  · simp [h]
  · intro i h1 h2
    simp [slice]

/-! ### Writes and the frame -/

/-- A patch is read back. -/
theorem slice_patch (img : Image) (off : ℕ) (bs : Bytes) :
    slice (patch img off bs) off bs.length = bs := by
  apply List.ext_getElem
  · simp
  · intro i h1 h2
    simp [slice, patch, h2]

/-- Two writes next to each other are one. -/
theorem patch_append (img : Image) (off : ℕ) (bs cs : Bytes) :
    patch (patch img off bs) (off + bs.length) cs = patch img off (bs ++ cs) := by
  funext a
  simp only [patch, List.length_append, List.getD_eq_getElem?_getD]
  by_cases hcs : off + bs.length ≤ a ∧ a < off + bs.length + cs.length
  · rw [if_pos hcs, if_pos (by omega), List.getElem?_append_right (by omega), Nat.sub_sub]
  · rw [if_neg hcs]
    by_cases hbs : off ≤ a ∧ a < off + bs.length
    · rw [if_pos hbs, if_pos (by omega), List.getElem?_append_left (by omega)]
    · rw [if_neg hbs, if_neg (by omega)]

/-- Reading back the first bytes of what was written. -/
theorem slice_patch_take (img : Image) (off : ℕ) (bs : Bytes) {k : ℕ} (h : k ≤ bs.length) :
    slice (patch img off bs) off k = bs.take k := by
  rw [← slice_take _ _ h, slice_patch]

/-- A patch stays inside its window. -/
theorem SameOutside.patch (img : Image) (off : ℕ) (bs : Bytes) :
    SameOutside img (ByteStore.patch img off bs) off bs.length :=
  fun _ ha => if_neg ha

/-- Nothing differs. -/
theorem SameOutside.refl (img : Image) (off len : ℕ) : SameOutside img img off len :=
  fun _ _ => rfl

/-- The relation is symmetric. -/
theorem SameOutside.symm {img img' : Image} {off len : ℕ} (h : SameOutside img img' off len) :
    SameOutside img' img off len := fun a ha => (h a ha).symm

/-- And transitive. -/
theorem SameOutside.trans {img img' img'' : Image} {off len : ℕ} (h : SameOutside img img' off len)
    (h' : SameOutside img' img'' off len) : SameOutside img img'' off len :=
  fun a ha => (h' a ha).trans (h a ha)

/-- Images that agree outside a range and on it are equal. -/
theorem SameOutside.eq_of_slice {img img' : Image} {off len : ℕ} (h : SameOutside img img' off len)
    (heq : slice img' off len = slice img off len) : img' = img := by
  funext a
  by_cases ha : off ≤ a ∧ a < off + len
  · have hlt : a - off < len := by omega
    have hbyte := congrArg (fun bs : Bytes => bs.getD (a - off) 0) heq
    simp only [slice_getD hlt] at hbyte
    rwa [Nat.add_sub_cancel' ha.1] at hbyte
  · exact h a ha

/-- The old image is torn nowhere. -/
theorem Torn.refl (old new : Image) : Torn old new old := fun _ => Or.inl rfl

/-- The first bytes of a write are a mixture of the old and the new image. -/
theorem Torn.patch_take (img : Image) (off : ℕ) (bs : Bytes) (len : ℕ) :
    Torn img (ByteStore.patch img off bs) (ByteStore.patch img off (bs.take len)) := by
  intro a
  by_cases ha : off ≤ a ∧ a < off + (bs.take len).length
  · have hin : off ≤ a ∧ a < off + bs.length := by
      have hle := List.length_take_le len bs
      rw [List.length_take] at ha
      omega
    have hlt : a - off < len := by
      rw [List.length_take] at ha
      omega
    refine Or.inr ?_
    rw [ByteStore.patch, ByteStore.patch, if_pos ha, if_pos hin, List.getD_eq_getElem?_getD,
      List.getD_eq_getElem?_getD, List.getElem?_take_of_lt hlt]
  · exact Or.inl (if_neg ha)

/-- A torn write stays inside its own range. -/
theorem Torn.sameOutside {img img' : Image} {off : ℕ} {bs : Bytes}
    (h : Torn img (ByteStore.patch img off bs) img') : SameOutside img img' off bs.length := by
  intro a ha
  rcases h a with h | h
  · exact h
  · rw [h]; exact if_neg ha

/-- A range disjoint from the one written reads as before. -/
theorem SameOutside.slice_eq {img img' : Image} {off len : ℕ} (h : SameOutside img img' off len)
    {o l : ℕ} (hd : o + l ≤ off ∨ off + len ≤ o) : slice img' o l = slice img o l :=
  slice_congr fun a h1 h2 => h a (by omega)

/-- Bytes on which the old and the new image agree survive a torn write. -/
theorem Torn.slice_eq {old new img : Image} (h : Torn old new img) {off len : ℕ}
    (heq : slice new off len = slice old off len) : slice img off len = slice old off len := by
  refine slice_congr fun a h1 h2 => ?_
  have hlt : a - off < len := by omega
  have hd := congrArg (fun bs : Bytes => bs.getD (a - off) 0) heq
  simp only [slice_getD hlt, Nat.add_sub_cancel' h1] at hd
  rcases h a with h | h
  · exact h
  · rw [h, hd]

/-! ### Byte arrays of a fixed size -/

/-- A byte array of `n` bytes. -/
@[ext] structure ByteArr (n : ℕ) where
  val : Bytes
  length_val : val.length = n
  deriving DecidableEq

namespace ByteArr

variable {n : ℕ}

attribute [simp] length_val

/-- The array whose first bytes are `bs` (cut off at `n`) and whose other bytes are zero. -/
def ofBytes (n : ℕ) (bs : Bytes) : ByteArr n :=
  ⟨(bs ++ List.replicate n 0).take n, by simp⟩

/-- The array of zeros. -/
def zero (n : ℕ) : ByteArr n := ⟨List.replicate n 0, by simp⟩

/-- What `ofBytes` reads from a long enough list are the first `n` bytes of it. -/
theorem ofBytes_val {bs : Bytes} (h : n ≤ bs.length) : (ofBytes n bs).1 = bs.take n := by
  simp [ofBytes, List.take_append_of_le_length h]

/-- A field is read back from its bytes and what stands behind them. -/
theorem ofBytes_append (a : ByteArr n) (bs : Bytes) : ofBytes n (a.1 ++ bs) = a := by
  apply ByteArr.ext
  rw [ofBytes_val (by simp), List.take_append_of_le_length (by simp),
    List.take_of_length_le (by simp)]

/-- Zero padding keeps the bytes that were put in. -/
theorem take_ofBytes {bs : Bytes} (h : bs.length ≤ n) : (ofBytes n bs).1.take bs.length = bs := by
  rw [ofBytes, List.take_take, Nat.min_eq_left h, List.take_append_of_le_length (Nat.le_refl _),
    List.take_length]

end ByteArr

/-! ### Little-endian integers -/

/-- The low `n` bytes of `v`, least significant first. -/
def leBytes : ℕ → ℕ → Bytes
  | 0, _ => []
  | n + 1, v => UInt8.ofNat (v % 256) :: leBytes n (v / 256)

/-- The number whose little-endian bytes are given. -/
def leNat : Bytes → ℕ
  | [] => 0
  | b :: bs => b.toNat + 256 * leNat bs

@[simp] theorem leBytes_length (n v : ℕ) : (leBytes n v).length = n := by
  induction n generalizing v with
  | zero => rfl
  | succ n ih => simp [leBytes, ih]

/-- A number is read back from its bytes, up to their width. -/
theorem leNat_leBytes (n v : ℕ) : leNat (leBytes n v) = v % 256 ^ n := by
  induction n generalizing v with
  | zero => simp [leBytes, leNat, Nat.mod_one]
  | succ n ih =>
    have hb : (UInt8.ofNat (v % 256)).toNat = v % 256 := by
      simp [UInt8.toNat_ofNat']
    rw [leBytes, leNat, ih, hb, Nat.pow_succ', Nat.mod_mul]

/-- Reading back an integer that fits its field. -/
theorem leNat_leBytes_append {n v : ℕ} (h : v < 256 ^ n) (bs : Bytes) :
    leNat ((leBytes n v ++ bs).take n) = v := by
  rw [List.take_append_of_le_length (by simp), List.take_of_length_le (by simp), leNat_leBytes,
    Nat.mod_eq_of_lt h]

/-- A list of bytes is determined by its length and the number it stands for. -/
theorem leBytes_leNat (bs : Bytes) : leBytes bs.length (leNat bs) = bs := by
  induction bs with
  | nil => rfl
  | cons b bs ih =>
    have hb := b.toNat_lt
    have hmod : (b.toNat + 256 * leNat bs) % 256 = b.toNat := by omega
    have hdiv : (b.toNat + 256 * leNat bs) / 256 = leNat bs := by omega
    rw [List.length_cons, leNat, leBytes, hmod, hdiv, ih, UInt8.ofNat_toNat]

/-- The bytes bound the number. -/
theorem leNat_lt (bs : Bytes) : leNat bs < 256 ^ bs.length := by
  induction bs with
  | nil => simp [leNat]
  | cons b bs ih =>
    have hb := b.toNat_lt
    rw [List.length_cons, Nat.pow_succ, leNat]
    omega

/-- Bytes are determined by their number and their width. -/
theorem leBytes_leNat_take {bs : Bytes} {n : ℕ} (h : n ≤ bs.length) :
    leBytes n (leNat (bs.take n) % 256 ^ n) = bs.take n := by
  have hlen : (bs.take n).length = n := List.length_take_of_le h
  have hlt := leNat_lt (bs.take n)
  rw [hlen] at hlt
  rw [Nat.mod_eq_of_lt hlt]
  have h := leBytes_leNat (bs.take n)
  rwa [hlen] at h

/-- Likewise for two byte strings. -/
theorem leNat_injective {bs cs : Bytes} (hlen : bs.length = cs.length) (h : leNat bs = leNat cs) :
    bs = cs := by
  rw [← leBytes_leNat bs, ← leBytes_leNat cs, hlen, h]

/-- A slice begins with its first byte. -/
theorem slice_succ (img : Image) (off n : ℕ) :
    slice img off (n + 1) = img off :: slice img (off + 1) n := by
  simp only [slice, List.range_succ_eq_map, List.map_cons, List.map_map, Nat.add_zero]
  refine congrArg _ (List.map_congr_left fun i _ => ?_)
  rw [Function.comp_apply, Nat.succ_eq_add_one, Nat.add_comm i 1, Nat.add_assoc]

/-- Numbers of one byte do not mix: what a torn write leaves of a field is the old number or
the new one. -/
theorem Torn.leNat_slice {old new img : Image} (h : Torn old new img) {off n : ℕ}
    (ho : leNat (slice old off n) < 256) (hn : leNat (slice new off n) < 256) :
    leNat (slice img off n) = leNat (slice old off n) ∨
      leNat (slice img off n) = leNat (slice new off n) := by
  cases n with
  | zero => exact Or.inl rfl
  | succ n =>
    simp only [slice_succ, leNat] at ho hn ⊢
    -- all bytes but the first are zero on both sides
    have hold : leNat (slice old (off + 1) n) = 0 := by omega
    have hnew : leNat (slice new (off + 1) n) = 0 := by omega
    have hrest : slice img (off + 1) n = slice old (off + 1) n :=
      h.slice_eq (leNat_injective (by simp) (hnew.trans hold.symm))
    rw [hrest, hold, hnew]
    rcases h off with h | h
    · exact Or.inl (by rw [h])
    · exact Or.inr (by rw [h])

end ByteStore
