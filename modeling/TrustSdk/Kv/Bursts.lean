import TrustSdk.Kv.Atomicity
import TrustSdk.Lib.CyclicCheck

/-!
# Bursts of errors

The CRC-32 of the store is the cyclic check of its 32-bit polynomial over the bits of the
bytes, the lowest bit of each byte first (`kvCrc32Update_toBitVec`), so it tells apart any two
byte strings that differ inside four consecutive bytes (`kvCrc32_burst`). A used record whose
key or value bytes are hit by such a burst keeps its checksum and its length, and is refused
(`kvRecordIsValid_burst`). `crc_detects_bursts` puts the two together.
-/

namespace TrustSdk.Kv

open ByteStore CyclicCheck

/-! ### The loop as a cyclic check -/

/-- The polynomial, its lowest coefficient in the highest bit. -/
def kvCrcPoly : BitVec 32 := 0xEDB88320#32

/-- The test `crc & 1U` of the loop reads the lowest bit. -/
theorem and_one_eq_one (c : UInt32) : c &&& 1 = 1 ↔ c.toBitVec.getLsbD 0 = true := by
  have hlow := BitVec.and_one_eq_setWidth_ofBool_getLsbD (x := c.toBitVec)
  rw [← UInt32.toBitVec_inj, UInt32.toBitVec_and]
  change c.toBitVec &&& 1#32 = 1#32 ↔ _
  rw [hlow]
  cases c.toBitVec.getLsbD 0 <;> decide

/-- One round of the loop is one step of the shift register. -/
theorem kvCrc32Bit_toBitVec (c : UInt32) :
    (kvCrc32Bit c).toBitVec = step kvCrcPoly c.toBitVec := by
  unfold kvCrc32Bit step
  by_cases h : c.toBitVec.getLsbD 0 = true
  · rw [if_pos ((and_one_eq_one c).mpr h), if_pos h]
    rfl
  · rw [if_neg fun hc => h ((and_one_eq_one c).mp hc), if_neg h, BitVec.xor_zero]
    rfl

/-- Eight rounds are eight steps. -/
theorem repeat_kvCrc32Bit (n : ℕ) (c : UInt32) :
    (Nat.repeat kvCrc32Bit n c).toBitVec = (step kvCrcPoly)^[n] c.toBitVec := by
  induction n with
  | zero => rfl
  | succ n ih =>
    rw [Function.iterate_succ_apply', ← ih]
    exact kvCrc32Bit_toBitVec _

/-- The bits of a byte, the lowest first. -/
def byteBits (b : UInt8) : List Bool := (List.range 8).map b.toBitVec.getLsbD

@[simp] theorem byteBits_length (b : UInt8) : (byteBits b).length = 8 := by
  simp [byteBits]

/-- The bits of a byte, in the order the loop takes them, spell the byte. -/
theorem word_byteBits (b : UInt8) : (word (byteBits b) : BitVec 32) = b.toUInt32.toBitVec := by
  apply BitVec.eq_of_getLsbD_eq
  intro i hi
  rw [getLsbD_word, UInt8.toBitVec_toUInt32, BitVec.getLsbD_setWidth]
  by_cases h8 : i < 8
  · simp [byteBits, hi, h8]
  · have hnone : (byteBits b)[i]? = none := List.getElem?_eq_none (by simp; omega)
    rw [hnone, BitVec.getLsbD_of_ge b.toBitVec i (by omega)]
    simp

/-- A byte is determined by its bits. -/
theorem byteBits_injective : Function.Injective byteBits := by
  intro a b h
  have hword : a.toUInt32.toBitVec = b.toUInt32.toBitVec := by
    rw [← word_byteBits, h, word_byteBits]
  exact UInt8.toUInt32_inj.mp (UInt32.toBitVec_inj.mp hword)

/-- One byte of `kv_crc32_update` feeds its eight bits. -/
theorem kvCrc32Byte_toBitVec (c : UInt32) (b : UInt8) :
    (kvCrc32Byte c b).toBitVec = feed kvCrcPoly c.toBitVec (byteBits b) := by
  have hlen : (byteBits b).length ≤ 32 := by simp
  rw [kvCrc32Byte, repeat_kvCrc32Bit, feed_eq hlen, word_byteBits, byteBits_length,
    UInt32.toBitVec_xor]

/-- The loop over the bytes feeds their bits to the register. -/
theorem kvCrc32Update_toBitVec (c : UInt32) (data : Bytes) :
    (kvCrc32Update c data).toBitVec = feed kvCrcPoly c.toBitVec (data.flatMap byteBits) := by
  induction data generalizing c with
  | nil => rfl
  | cons b data ih =>
    rw [List.flatMap_cons, feed_append, ← kvCrc32Byte_toBitVec]
    exact ih (kvCrc32Byte c b)

/-! ### Strings -/

/-- Eight bits for every byte. -/
theorem flatMap_byteBits_length (data : Bytes) :
    (data.flatMap byteBits).length = 8 * data.length := by
  induction data with
  | nil => rfl
  | cons b data ih =>
    rw [List.flatMap_cons, List.length_append, ih, byteBits_length, List.length_cons]
    omega

/-- Data is determined by its bits. -/
theorem flatMap_byteBits_injective : Function.Injective (List.flatMap byteBits) := by
  intro xs
  induction xs with
  | nil =>
    intro ys h
    have hlen := congrArg List.length h
    rw [flatMap_byteBits_length, flatMap_byteBits_length, List.length_nil] at hlen
    exact (List.length_eq_zero_iff.mp (by omega)).symm
  | cons x xs ih =>
    intro ys h
    cases ys with
    | nil =>
      have hlen := congrArg List.length h
      rw [flatMap_byteBits_length, flatMap_byteBits_length, List.length_nil,
        List.length_cons] at hlen
      omega
    | cons y ys =>
      rw [List.flatMap_cons, List.flatMap_cons] at h
      obtain ⟨hx, hxs⟩ := List.append_inj h (by simp)
      rw [byteBits_injective hx, ih hxs]

/-- Byte strings that differ inside four consecutive bytes have different checksums. -/
theorem kvCrc32_burst {start : ℕ} {xs ys : Bytes} (h : Burst start 4 xs ys) :
    kvCrc32 xs ≠ kvCrc32 ys := by
  obtain ⟨pre, a, b, suf, rfl, rfl, hlen, ha, hne⟩ := h.split
  -- the two pieces differ within four bytes, so within the 32 bits that the register tells apart
  have hbits : (a.flatMap byteBits).length ≤ 32 := by
    rw [flatMap_byteBits_length]
    omega
  have hsame : (a.flatMap byteBits).length = (b.flatMap byteBits).length := by
    rw [flatMap_byteBits_length, flatMap_byteBits_length, hlen]
  have hpoly : kvCrcPoly.msb = true := rfl
  have hfeed := feed_burst hpoly (0xFFFFFFFF : UInt32).toBitVec (pre.flatMap byteBits)
    (suf.flatMap byteBits) hsame hbits fun hab => hne (flatMap_byteBits_injective hab)
  -- the final complement does not hide a difference
  intro hcrc
  have hupdate := UInt32.toBitVec_inj.mpr (UInt32.not_inj.mp hcrc)
  rw [kvCrc32Update_toBitVec, kvCrc32Update_toBitVec] at hupdate
  simp only [List.flatMap_append] at hupdate
  exact hfeed hupdate

/-! ### Records -/

variable {cfg : KvConfig}

/-- What a used record that is accepted has been checked for. -/
theorem kvRecordIsValid_crc {r : KvRecord cfg} (hused : r.head.used = kvRecordInUse)
    (h : kvRecordIsValid r = true) : r.head.crc32 = kvRecordCrc r := by
  have hne : kvRecordInUse ≠ kvRecordNotUsed := by decide
  rw [kvRecordIsValid, hused, if_neg hne] at h
  split at h
  · exact absurd h (by decide)
  · exact of_decide_eq_true h

/-- Where two byte strings agree on a window, the windows are equal. -/
theorem take_drop_congr {xs ys : Bytes} {k n : ℕ}
    (h : ∀ i, k ≤ i → i < k + n → xs[i]? = ys[i]?) : (xs.drop k).take n = (ys.drop k).take n := by
  refine List.ext_getElem? fun i => ?_
  by_cases hi : i < n
  · rw [List.getElem?_take_of_lt hi, List.getElem?_take_of_lt hi, List.getElem?_drop,
      List.getElem?_drop, h (k + i) (by omega) (by omega)]
  · rw [List.getElem?_take_eq_none (by omega), List.getElem?_take_eq_none (by omega)]

/-- The fields before the key are in the first twelve bytes. -/
theorem kvDecodeRecord_head {xs ys : Bytes} (h : ∀ i < 12, xs[i]? = ys[i]?) :
    (kvDecodeRecord cfg ys).head =
      { (kvDecodeRecord cfg xs).head with key := (kvDecodeRecord cfg ys).head.key } := by
  -- the fields before the key lie in the first twelve bytes
  have hbyte : ∀ k < 12, kvGetU8 (ys.drop k) = kvGetU8 (xs.drop k) := by
    intro k hk
    simp only [kvGetU8, List.getD_eq_getElem?_getD, List.getElem?_drop, Nat.add_zero, h k hk]
  have htake : ∀ k n, k + n ≤ 12 → (ys.drop k).take n = (xs.drop k).take n :=
    fun k n hkn => take_drop_congr fun i _ hi => (h i (by omega)).symm
  have h0 := hbyte 0 (by omega)
  rw [List.drop_zero, List.drop_zero] at h0
  simp only [kvDecodeRecord, kvGetU16, kvGetU32, htake 2 2 (by omega), htake 4 4 (by omega),
    htake 8 4 (by omega), hbyte 1 (by omega), h0]

/-- The four bytes of an encoding before its checksum, and what follows it. -/
def beforeCrc (r : KvRecord cfg) : Bytes :=
  r.head.used :: r.head.keyLen :: kvPutU16 r.head.reserved

/-- What follows the CRC in the encoding. -/
def afterCrc (r : KvRecord cfg) : Bytes :=
  kvPutU32 r.head.valueLen ++ (r.head.key.1 ++ r.value.1)

/-- The encoding around its CRC field. -/
theorem kvEncodeRecord_eq (r : KvRecord cfg) :
    kvEncodeRecord r = beforeCrc r ++ (kvPutU32 r.head.crc32 ++ afterCrc r) := rfl

/-- The bytes that the checksum of a record covers. -/
def kvRecordCovered (r : KvRecord cfg) : Bytes :=
  (kvEncodeRecord { r with head := { r.head with crc32 := 0 } }).take
    (kvRecordHeadWireSize + r.head.valueLen.toNat)

/-- Outside the checksum field the covered bytes are those of the encoding. -/
theorem kvRecordCovered_getElem? (r : KvRecord cfg) {i : ℕ} (hi : i < 4 ∨ 8 ≤ i)
    (hlt : i < kvRecordHeadWireSize + r.head.valueLen.toNat) :
    (kvRecordCovered r)[i]? = (kvEncodeRecord r)[i]? := by
  have hbefore : (beforeCrc r).length = 4 := by simp [beforeCrc]
  -- the CRC field is the only part that depends on `c`
  have hsame : ∀ c, (beforeCrc r ++ (kvPutU32 c ++ afterCrc r))[i]? =
      if i < 4 then (beforeCrc r)[i]? else (afterCrc r)[i - 8]? := by
    intro c
    have hput : (kvPutU32 c).length = 4 := kvPutU32_length c
    split_ifs with h4
    · rw [List.getElem?_append_left (by omega)]
    · rw [List.getElem?_append_right (by omega), List.getElem?_append_right (by omega), hput,
        hbefore, Nat.sub_sub]
  rw [kvRecordCovered, List.getElem?_take_of_lt hlt, kvEncodeRecord_eq, kvEncodeRecord_eq, hsame]
  exact hsame 0

/-- The checksum field itself is covered as zero. -/
theorem kvRecordCovered_getElem?_crc (r : KvRecord cfg) {i : ℕ} (hi : 4 ≤ i) (hi' : i < 8) :
    (kvRecordCovered r)[i]? = (kvPutU32 0)[i - 4]? := by
  have hbefore : (beforeCrc r).length = 4 := by simp [beforeCrc]
  have hlt : i < kvRecordHeadWireSize + r.head.valueLen.toNat := by
    unfold kvRecordHeadWireSize
    omega
  rw [kvRecordCovered, List.getElem?_take_of_lt hlt, kvEncodeRecord_eq]
  change (beforeCrc r ++ (kvPutU32 0 ++ afterCrc r))[i]? = _
  rw [List.getElem?_append_right (by omega), hbefore,
    List.getElem?_append_left (by rw [kvPutU32_length]; omega)]

/-- A burst in the key or the used part of the value is a burst in the covered bytes. -/
theorem kvRecordCovered_burst {r r' : KvRecord cfg} {start width : ℕ}
    (hlen : r'.head.valueLen = r.head.valueLen) (hstart : 12 ≤ start)
    (hend : start + width ≤ kvRecordHeadWireSize + r.head.valueLen.toNat)
    (h : Burst start width (kvEncodeRecord r) (kvEncodeRecord r')) :
    Burst start width (kvRecordCovered r) (kvRecordCovered r') where
  length := by simp [kvRecordCovered, hlen]
  ne heq := by
    -- a byte outside the burst is the same in both, so a difference of the encodings is one of the
    -- covered parts
    refine h.ne (List.ext_getElem? fun i => ?_)
    by_cases hi : start ≤ i ∧ i < start + width
    · have hcovered := kvRecordCovered_getElem? r (i := i) (by omega) (by omega)
      have hcovered' := kvRecordCovered_getElem? r' (i := i) (by omega) (by rw [hlen]; omega)
      rw [← hcovered, ← hcovered', heq]
    · exact h.outside i hi
  outside i hi := by
    -- beyond the covered length both are empty, and at the CRC field both hold zero
    by_cases hlt : i < kvRecordHeadWireSize + r.head.valueLen.toNat
    · by_cases hcrc : i < 4 ∨ 8 ≤ i
      · rw [kvRecordCovered_getElem? r hcrc hlt,
          kvRecordCovered_getElem? r' hcrc (by rw [hlen]; exact hlt), h.outside i hi]
      · rw [kvRecordCovered_getElem?_crc r (by omega) (by omega),
          kvRecordCovered_getElem?_crc r' (by omega) (by omega)]
    · rw [kvRecordCovered, kvRecordCovered, List.getElem?_take_eq_none (by omega),
        List.getElem?_take_eq_none (by rw [hlen]; omega)]

/-- A used record that is accepted is no longer accepted once a burst has hit its key or the
used part of its value. -/
theorem kvRecordIsValid_burst {r : KvRecord cfg} (hused : r.head.used = kvRecordInUse)
    (hvalid : kvRecordIsValid r = true) {start width : ℕ} (hwidth : width ≤ 4)
    (hstart : 12 ≤ start) (hend : start + width ≤ kvRecordHeadWireSize + r.head.valueLen.toNat)
    {bytes : Bytes} (h : Burst start width (kvEncodeRecord r) bytes) :
    kvRecordIsValid (kvDecodeRecord cfg bytes) = false := by
  have hsize : bytes.length = cfg.kvRecordWireSize := by
    rw [← h.length, kvEncodeRecord_length]
  have hbytes : kvEncodeRecord (kvDecodeRecord cfg bytes) = bytes := by
    rw [kvEncodeRecord_decode hsize.ge, List.take_of_length_le hsize.le]
  have hr : kvDecodeRecord cfg (kvEncodeRecord r) = r := by
    have hdecode := kvDecodeRecord_encode r []
    rwa [List.append_nil] at hdecode
  -- the flag, the lengths and the stored checksum are as they were
  have hhead : (kvDecodeRecord cfg bytes).head =
      { r.head with key := (kvDecodeRecord cfg bytes).head.key } := by
    have hagree : ∀ i < 12, (kvEncodeRecord r)[i]? = bytes[i]? :=
      fun i hi => h.outside i (by omega)
    have hfields : (kvDecodeRecord cfg bytes).head = _ := kvDecodeRecord_head hagree
    rwa [hr] at hfields
  generalize kvDecodeRecord cfg bytes = r' at hbytes hhead
  rw [← hbytes] at h
  have hused' : r'.head.used = kvRecordInUse := by rw [hhead]; exact hused
  have hlen : r'.head.valueLen = r.head.valueLen := by rw [hhead]
  have hcrc : r'.head.crc32 = r.head.crc32 := by rw [hhead]
  have hcovered := (kvRecordCovered_burst hlen hstart hend h).mono hwidth
  by_contra hne
  refine kvCrc32_burst hcovered ?_
  change kvRecordCrc r = kvRecordCrc r'
  rw [← kvRecordIsValid_crc hused hvalid, ← hcrc,
    kvRecordIsValid_crc hused' (Bool.eq_true_of_not_eq_false hne)]

/-- Every burst inside four consecutive bytes changes the checksum, and one inside the key or
the used part of the value of an accepted record makes the record unacceptable. -/
theorem crc_detects_bursts (cfg : KvConfig) :
    (∀ (xs ys : Bytes) (start : ℕ), Burst start 4 xs ys → kvCrc32 xs ≠ kvCrc32 ys) ∧
      ∀ (r : KvRecord cfg) (bytes : Bytes) (start width : ℕ),
        r.head.used = kvRecordInUse → kvRecordIsValid r = true → width ≤ 4 → 12 ≤ start →
        start + width ≤ kvRecordHeadWireSize + r.head.valueLen.toNat →
        Burst start width (kvEncodeRecord r) bytes →
        kvRecordIsValid (kvDecodeRecord cfg bytes) = false :=
  ⟨fun _ _ _ h => kvCrc32_burst h, fun _ _ _ _ hused hvalid hwidth hstart hend h =>
    kvRecordIsValid_burst hused hvalid hwidth hstart hend h⟩

/-- One byte changed in a string, and the key byte of a record. -/
theorem crc_detects_bursts_tiny :
    kvCrc32 [1, 2, 3] ≠ kvCrc32 [1, 7, 3] ∧
      kvRecordIsValid (kvDecodeRecord tinyConfig
        ((kvEncodeRecord (kvMakeRecord tinyConfig [1] [1])).set 12 9)) = false := by
  obtain ⟨hstrings, hrecords⟩ := crc_detects_bursts tinyConfig
  refine ⟨hstrings _ _ 1 (.mono (.set rfl (by decide)) (by decide)), ?_⟩
  exact hrecords (kvMakeRecord tinyConfig [1] [1]) _ 12 1 rfl
    (kvMakeRecord_isValid (by decide) (by decide)) (by decide) (by decide) (by decide)
    (.set (x := 1) rfl (by decide))

end TrustSdk.Kv
