import TrustSdk.Crypto.Cbc

/-!
# Round trips through AES-CBC

What an encryption returns can be decrypted again, with one exception: without padding an empty
plaintext is encrypted to an empty ciphertext, and no empty ciphertext is accepted
(`cbc_correct_iff`). What the two directions write stays inside the capacity they are given, and
a counted padding is accepted exactly when it is legal (`pkcs7_accepts_iff`).

The cipher is a parameter with the laws `Mbedtls.Inverse`. `aesCbcCrypt_cases` and
`swCryptoAesEncrypt_ok` say once what a call does; `stripPadding` is compared with the padding
library on the bytes it finds in the output buffer.
-/

namespace TrustSdk.Crypto

open ByteStore BlockPadding

variable {lib : Mbedtls} {sizeMax outputCap n : ℕ} {key : CryptoKey} {padding : CryptoPadding}
  {mode : AesMode} {iv input p : Bytes} {out output : Image}

/-! ### The cipher call -/

/-- The three ways a cipher call ends. -/
theorem aesCbcCrypt_cases (lib : Mbedtls) (key : AesKey) (mode : AesMode) (iv input : Bytes)
    (out : Image) :
    (∃ e, aesCbcCrypt lib key mode iv input out = (.error e, out)) ∨
      (∃ e, aesCbcCrypt lib key mode iv input out =
        (.error e, patch out 0 (List.replicate input.length 0))) ∨
      ∃ data, iv.length = aesBlockSize ∧ input.length % aesBlockSize = 0 ∧
        lib.cbc key mode iv input = some data ∧
        aesCbcCrypt lib key mode iv input out = (.ok (), patch out 0 data) := by
  unfold aesCbcCrypt
  split_ifs with hargs
  · exact .inl ⟨_, rfl⟩
  obtain ⟨hiv, hlen⟩ := not_or.mp hargs
  cases hkey : lib.aesSetkey mode key with
  | none => exact .inl ⟨_, rfl⟩
  | some aes =>
    cases hcrypt : lib.aesCryptCbc aes mode iv input with
    | none => exact .inr (.inl ⟨cryptoErr .hwFailure, by simp only [hcrypt]⟩)
    | some data =>
      refine .inr (.inr ⟨data, not_not.mp hiv, not_not.mp hlen, ?_, by simp only [hcrypt]⟩)
      rw [Mbedtls.cbc, hkey, Option.bind_some, hcrypt]

/-- A call of the library that goes well. -/
theorem aesCbcCrypt_of_cbc {key : AesKey} {data : Bytes} (hiv : iv.length = aesBlockSize)
    (hlen : input.length % aesBlockSize = 0) (h : lib.cbc key mode iv input = some data)
    (out : Image) : aesCbcCrypt lib key mode iv input out = (.ok (), patch out 0 data) := by
  obtain ⟨aes, hkey, hcrypt⟩ := Option.bind_eq_some_iff.mp h
  unfold aesCbcCrypt
  rw [if_neg (not_or.mpr ⟨not_not.mpr hiv, not_not.mpr hlen⟩), hkey]
  simp only [hcrypt]

/-- CBC keeps the length. -/
theorem Mbedtls.Inverse.cbc_length (hlib : lib.Inverse) {key : AesKey} {data : Bytes}
    (h : lib.cbc key mode iv input = some data) : data.length = input.length := by
  obtain ⟨aes, -, hcrypt⟩ := Option.bind_eq_some_iff.mp h
  exact hlib.length aes mode iv input data hcrypt

/-- The cipher call writes as much as it reads. -/
theorem aesCbcCrypt_sameOutside (hlib : lib.Inverse) (key : AesKey) (mode : AesMode)
    (iv input : Bytes) (out : Image) :
    SameOutside out (aesCbcCrypt lib key mode iv input out).2 0 input.length := by
  rcases aesCbcCrypt_cases lib key mode iv input out with
    ⟨e, h⟩ | ⟨e, h⟩ | ⟨data, -, -, hcbc, h⟩
  · rw [h]
    exact SameOutside.refl out 0 _
  · have hsame := SameOutside.patch out 0 (List.replicate input.length 0)
    rw [List.length_replicate] at hsame
    rwa [h]
  · have hsame := SameOutside.patch out 0 data
    rw [hlib.cbc_length hcbc] at hsame
    rwa [h]

/-! ### The padded length -/

/-- How a padded length and a padding byte come out of the padding modes. -/
inductive PaddedTo (input : Bytes) : CryptoPadding → ℕ → UInt8 → Prop
  | none {v : UInt8} (hmod : input.length % aesBlockSize = 0) : PaddedTo input .none input.length v
  | pkcs7 : PaddedTo input .pkcs7 (input.length + fill aesBlockSize input.length)
      (.ofNat (fill aesBlockSize input.length))
  | zeros {n : ℕ} (hle : input.length ≤ n) (hpos : 0 < n) (hmod : n % aesBlockSize = 0) :
      PaddedTo input .zeros n 0

/-- What `cbc_padded_len` answers. -/
theorem cbcPaddedLen_ok {v : UInt8} (h : cbcPaddedLen sizeMax padding input.length = .ok (n, v)) :
    PaddedTo input padding n v := by
  -- the three kinds of padding, each with its own length
  cases padding with
  | none =>
    simp only [cbcPaddedLen] at h
    split_ifs at h with hmod
    cases h
    exact .none (not_not.mp hmod)
  | pkcs7 =>
    have hfill : (UInt8.ofNat (aesBlockSize - input.length % aesBlockSize)).toNat =
        fill aesBlockSize input.length :=
      UInt8.toNat_ofNat_of_lt' ((fill_le aesBlockSize _).trans_lt (by decide))
    simp only [cbcPaddedLen] at h
    split_ifs at h
    cases h
    rw [hfill]
    exact .pkcs7
  | zeros =>
    have hceil :
        input.length ≤ (input.length + aesBlockSize - 1) / aesBlockSize * aesBlockSize := by
      simp only [aesBlockSize]
      omega
    simp only [cbcPaddedLen] at h
    split_ifs at h with hmax hzero
    · cases h
      rw [hzero] at hceil
      exact .zeros (hceil.trans (Nat.zero_le _)) (by decide) (Nat.mod_self _)
    · cases h
      exact .zeros hceil (Nat.pos_of_ne_zero hzero) (Nat.mul_mod_left _ _)
  | other => cases h

/-- Padding only adds. -/
theorem PaddedTo.le {v : UInt8} (h : PaddedTo input padding n v) : input.length ≤ n := by
  cases h with
  | none => exact le_rfl
  | pkcs7 => exact Nat.le_add_right _ _
  | zeros hle => exact hle

/-- To whole blocks. -/
theorem PaddedTo.mod {v : UInt8} (h : PaddedTo input padding n v) : n % aesBlockSize = 0 := by
  cases h with
  | none hmod => exact hmod
  | pkcs7 => exact add_fill_mod (by decide) _
  | zeros _ _ hmod => exact hmod

/-- Only an empty input without padding stays empty. -/
theorem PaddedTo.pos {v : UInt8} (h : PaddedTo input padding n v)
    (hne : ¬ (padding = .none ∧ input = [])) : 0 < n := by
  cases h with
  | none =>
    refine Nat.pos_of_ne_zero fun hzero => hne ⟨rfl, ?_⟩
    exact List.length_eq_zero_iff.mp hzero
  | pkcs7 => exact Nat.add_pos_right _ (fill_pos (by decide) _)
  | zeros _ hpos => exact hpos

/-- The bytes that are encrypted. -/
def paddedInput (n : ℕ) (v : UInt8) (input : Bytes) : Bytes :=
  input ++ List.replicate (n - input.length) v

/-- The padded text has the padded length. -/
theorem paddedInput_length {v : UInt8} (h : input.length ≤ n) :
    (paddedInput n v input).length = n := by
  rw [paddedInput, List.length_append, List.length_replicate, Nat.add_sub_cancel' h]

/-- The padded input, as it is built in the output buffer. -/
theorem padded_eq {v : UInt8} (output : Image) (input : Bytes) (n : ℕ) :
    (if input.length < n then
        patch (patch output 0 input) input.length (List.replicate (n - input.length) v)
      else patch output 0 input) = patch output 0 (paddedInput n v input) := by
  have happend := patch_append output 0 input (List.replicate (n - input.length) v)
  rw [Nat.zero_add] at happend
  split_ifs with hlt
  · exact happend
  · rw [paddedInput, Nat.sub_eq_zero_of_le (not_lt.mp hlt), List.replicate_zero, List.append_nil]

/-! ### Encryption -/

/-- An encryption, once its arguments are accepted. -/
theorem swCryptoAesEncrypt_eq {v : UInt8} (hkey : key.type = .aes)
    (hlen : cbcPaddedLen sizeMax padding input.length = .ok (n, v)) (hcap : n ≤ outputCap) :
    swCryptoAesEncrypt lib sizeMax key padding iv input output outputCap =
      match aesCbcCrypt lib key.aes .encrypt iv (paddedInput n v input)
        (patch output 0 (paddedInput n v input)) with
      | (.ok _, out) => ⟨.ok (), out, some n⟩
      | (.error e, out) => ⟨.error e, out, none⟩ := by
  have hslice : slice (patch output 0 (paddedInput n v input)) 0 n = paddedInput n v input := by
    have h := slice_patch output 0 (paddedInput n v input)
    rwa [paddedInput_length (cbcPaddedLen_ok hlen).le] at h
  cases hcrypt : aesCbcCrypt lib key.aes .encrypt iv (paddedInput n v input)
    (patch output 0 (paddedInput n v input)) with
  | mk err out =>
    cases err <;> simp only [swCryptoAesEncrypt, if_neg (not_not.mpr hkey), hlen,
      if_neg (not_lt.mpr hcap), padded_eq, hslice, hcrypt]

/-- What an encryption that returns OK has done. -/
theorem swCryptoAesEncrypt_ok
    (h : (swCryptoAesEncrypt lib sizeMax key padding iv input output outputCap).status = .ok ()) :
    ∃ n v data, key.type = .aes ∧ PaddedTo input padding n v ∧
      iv.length = aesBlockSize ∧ lib.cbc key.aes .encrypt iv (paddedInput n v input) = some data ∧
      swCryptoAesEncrypt lib sizeMax key padding iv input output outputCap =
        ⟨.ok (), patch (patch output 0 (paddedInput n v input)) 0 data, some n⟩ := by
  -- the checks in their order, each with its error; behind them the library is called on the padded
  -- text
  by_cases hkey : key.type = .aes
  swap
  · rw [swCryptoAesEncrypt, if_pos hkey] at h
    cases h
  cases hlen : cbcPaddedLen sizeMax padding input.length with
  | error e =>
    rw [swCryptoAesEncrypt, if_neg (not_not.mpr hkey), hlen] at h
    cases h
  | ok padded =>
    obtain ⟨n, v⟩ := padded
    by_cases hcap : n ≤ outputCap
    swap
    · rw [swCryptoAesEncrypt, if_neg (not_not.mpr hkey), hlen] at h
      simp only [if_pos (not_le.mp hcap)] at h
      cases h
    rw [swCryptoAesEncrypt_eq hkey hlen hcap] at h ⊢
    rcases aesCbcCrypt_cases lib key.aes .encrypt iv (paddedInput n v input)
      (patch output 0 (paddedInput n v input)) with ⟨e, hc⟩ | ⟨e, hc⟩ | ⟨data, hiv, -, hcbc, hc⟩
    · rw [hc] at h
      cases h
    · rw [hc] at h
      cases h
    · rw [hc]
      exact ⟨n, v, data, hkey, cbcPaddedLen_ok hlen, hiv, hcbc, rfl⟩

/-- An encryption writes inside the capacity only. -/
theorem swCryptoAesEncrypt_bounded (hlib : lib.Inverse) (i : ℕ) (hi : outputCap ≤ i) :
    (swCryptoAesEncrypt lib sizeMax key padding iv input output outputCap).output i = output i := by
  by_cases hkey : key.type = .aes
  swap
  · rw [swCryptoAesEncrypt, if_pos hkey]
  cases hlen : cbcPaddedLen sizeMax padding input.length with
  | error e => rw [swCryptoAesEncrypt, if_neg (not_not.mpr hkey), hlen]
  | ok padded =>
    obtain ⟨n, v⟩ := padded
    by_cases hcap : n ≤ outputCap
    swap
    · rw [swCryptoAesEncrypt, if_neg (not_not.mpr hkey), hlen]
      simp only [if_pos (not_le.mp hcap)]
    -- what is written, before and by the library, lies in the padded length, which the capacity
    -- covers
    have hpadded : (paddedInput n v input).length = n :=
      paddedInput_length (cbcPaddedLen_ok hlen).le
    have hbuilt := SameOutside.patch output 0 (paddedInput n v input)
    have hcrypt := aesCbcCrypt_sameOutside hlib key.aes .encrypt iv (paddedInput n v input)
      (patch output 0 (paddedInput n v input))
    have hout : ¬ (0 ≤ i ∧ i < 0 + (paddedInput n v input).length) := by
      rw [hpadded]
      omega
    have hsame := (hcrypt i hout).trans (hbuilt i hout)
    rw [swCryptoAesEncrypt_eq hkey hlen hcap]
    revert hsame
    cases aesCbcCrypt lib key.aes .encrypt iv (paddedInput n v input)
      (patch output 0 (paddedInput n v input)) with
    | mk err out => cases err <;> exact id

/-! ### Stripping the padding -/

/-- What a decryption is to give back. -/
def unpadded : CryptoPadding → Bytes → Bytes
  | .zeros, input => input.rdropWhile (· = 0)
  | _, input => input

/-- One byte more. -/
theorem slice_concat (img : Image) (len : ℕ) :
    slice img 0 (len + 1) = slice img 0 len ++ [img len] := by
  rw [slice, slice, List.range_succ, List.map_append, List.map_singleton, Nat.zero_add]

/-- The loop finds the end of what is left without the zeros. -/
theorem zerosStripped_eq (out : Image) (len : ℕ) :
    slice out 0 (zerosStripped out len) = (slice out 0 len).rdropWhile (· = 0) := by
  induction len with
  | zero => rfl
  | succ len ih =>
    rw [zerosStripped, slice_concat]
    split_ifs with hzero
    · rw [ih, List.rdropWhile_concat_pos _ _ _ (by simpa using hzero)]
    · rw [List.rdropWhile_concat_neg _ _ _ (by simpa using hzero), slice_concat]

/-- A slice that is not empty. -/
theorem slice_ne_nil (out : Image) (hn : 0 < n) : slice out 0 n ≠ [] := by
  intro hnil
  have hlen := congrArg List.length hnil
  rw [slice_length] at hlen
  exact hn.ne' hlen

/-- Its last byte. -/
theorem getLast_slice (out : Image) (hn : 0 < n) :
    (slice out 0 n).getLast (slice_ne_nil out hn) = out (n - 1) := by
  obtain ⟨m, rfl⟩ := Nat.exists_eq_succ_of_ne_zero hn.ne'
  simp only [slice_concat, List.getLast_append_singleton, Nat.succ_sub_one]

/-- The bytes in front of the end of a buffer. -/
theorem drop_slice (out : Image) {k : ℕ} (hk : k ≤ n) :
    (slice out 0 n).drop ((slice out 0 n).length - k) = slice out (n - k) k := by
  rw [slice_length, slice_drop, Nat.zero_add, Nat.sub_sub_self hk]

/-- A counted padding is accepted exactly when it is legal. -/
theorem stripPadding_pkcs7_iff (hn : aesBlockSize ≤ n) :
    (stripPadding .pkcs7 out n).status = .ok () ↔ LegalPad aesBlockSize (slice out 0 n) := by
  have hpos : 0 < n := lt_of_lt_of_le (by decide) hn
  rw [legalPad_iff (by decide) (slice_ne_nil out hpos), getLast_slice out hpos]
  simp only [stripPadding]
  split_ifs with hrange hpad
  · refine ⟨nofun, fun h => ?_⟩
    rcases hrange with hzero | hlong
    · exact absurd hzero h.1
    · exact absurd h.2.1 (not_le.mpr hlong)
  · refine ⟨nofun, fun h => ?_⟩
    rw [drop_slice out (h.2.1.trans hn)] at h
    exact absurd h.2.2 hpad
  · obtain ⟨hne, hle⟩ := not_or.mp hrange
    rw [drop_slice out ((not_lt.mp hle).trans hn)]
    exact ⟨fun _ => ⟨hne, not_lt.mp hle, not_not.mp hpad⟩, fun _ => rfl⟩

/-- What is stripped off a padding that was put on. -/
theorem stripPadding_pkcs7 {k : ℕ} (hk : 0 < k) (hle : k ≤ aesBlockSize)
    (hslice : slice out 0 (input.length + k) = input ++ List.replicate k (.ofNat k)) :
    stripPadding .pkcs7 out (input.length + k) = ⟨.ok (), out, some input.length⟩ := by
  have hpos : 0 < input.length + k := Nat.add_pos_right _ hk
  have hval : (UInt8.ofNat k).toNat = k := UInt8.toNat_ofNat_of_lt' (hle.trans_lt (by decide))
  have hlast : out (input.length + k - 1) = .ofNat k := by
    rw [← getLast_slice out hpos]
    simp only [hslice]
    exact getLast_padded hk _ _
  have hne : UInt8.ofNat k ≠ 0 := by
    intro hzero
    rw [hzero] at hval
    exact hk.ne hval
  have htail : slice out (input.length + k - k) k = List.replicate k (.ofNat k) := by
    rw [← drop_slice out (Nat.le_add_left k _), hslice, drop_padded]
  simp only [stripPadding, hlast, hval]
  rw [if_neg (not_or.mpr ⟨hne, not_lt.mpr hle⟩), if_neg (not_not.mpr htail), Nat.add_sub_cancel]

/-- Stripping finds the input in front of the padding it was given. -/
theorem PaddedTo.strip {v : UInt8} (h : PaddedTo input padding n v)
    (hslice : slice out 0 n = paddedInput n v input) :
    ∃ m, stripPadding padding out n = ⟨.ok (), out, some m⟩ ∧
      slice out 0 m = unpadded padding input := by
  cases h with
  | none =>
    refine ⟨input.length, rfl, ?_⟩
    rw [hslice, paddedInput, Nat.sub_self, List.replicate_zero, List.append_nil]
    rfl
  | pkcs7 =>
    rw [paddedInput, Nat.add_sub_cancel_left] at hslice
    refine ⟨input.length, stripPadding_pkcs7 (fill_pos (by decide) _) (fill_le _ _) hslice, ?_⟩
    have htake := congrArg (List.take input.length) hslice
    rwa [slice_take _ _ (Nat.le_add_right _ _), List.take_left] at htake
  | zeros =>
    refine ⟨zerosStripped out n, rfl, ?_⟩
    rw [zerosStripped_eq, hslice, paddedInput, rdropWhile_append_zeros]
    rfl

/-- Taking the padding off writes inside the text only. -/
theorem stripPadding_sameOutside (padding : CryptoPadding) (out : Image) (n : ℕ) :
    SameOutside out (stripPadding padding out n).output 0 n := by
  have hwipe := SameOutside.patch out 0 (List.replicate n 0)
  rw [List.length_replicate] at hwipe
  have hsame := SameOutside.refl out 0 n
  cases padding with
  | none => exact hsame
  | pkcs7 =>
    simp only [stripPadding]
    split_ifs
    · exact hwipe
    · exact hwipe
    · exact hsame
  | zeros => exact hsame
  | other => exact hwipe

/-! ### Decryption -/

/-- A decryption, once its arguments are accepted. -/
theorem swCryptoAesDecrypt_eq (hkey : key.type = .aes) (hcap : input.length ≤ outputCap)
    (hmod : input.length % aesBlockSize = 0) (hpos : 0 < input.length) :
    swCryptoAesDecrypt lib key padding iv input output outputCap =
      match aesCbcCrypt lib key.aes .decrypt iv input output with
      | (.error e, out) => ⟨.error e, out, none⟩
      | (.ok _, out) => stripPadding padding out input.length := by
  cases hcrypt : aesCbcCrypt lib key.aes .decrypt iv input output with
  | mk err out =>
    cases err <;> simp only [swCryptoAesDecrypt, if_neg (not_not.mpr hkey),
      if_neg (not_lt.mpr hcap), if_neg (not_or.mpr ⟨not_not.mpr hmod, hpos.ne'⟩), hcrypt]

/-- A decryption that is not refused for its arguments. -/
theorem swCryptoAesDecrypt_cases (lib : Mbedtls) (key : CryptoKey) (padding : CryptoPadding)
    (iv input : Bytes) (output : Image) (outputCap : ℕ) :
    (∃ e len, swCryptoAesDecrypt lib key padding iv input output outputCap =
      ⟨.error e, output, len⟩) ∨
    (key.type = .aes ∧ input.length ≤ outputCap ∧ input.length % aesBlockSize = 0 ∧
      0 < input.length) := by
  unfold swCryptoAesDecrypt
  split_ifs with hkey hcap hlen
  · exact .inl ⟨_, _, rfl⟩
  · exact .inl ⟨_, _, rfl⟩
  · exact .inl ⟨_, _, rfl⟩
  · obtain ⟨hmod, hpos⟩ := not_or.mp hlen
    exact .inr ⟨not_not.mp hkey, not_lt.mp hcap, not_not.mp hmod, Nat.pos_of_ne_zero hpos⟩

/-- Decrypting writes inside the capacity only. -/
theorem swCryptoAesDecrypt_bounded (hlib : lib.Inverse) (i : ℕ) (hi : outputCap ≤ i) :
    (swCryptoAesDecrypt lib key padding iv input output outputCap).output i = output i := by
  rcases swCryptoAesDecrypt_cases lib key padding iv input output outputCap with
    ⟨e, len, h⟩ | ⟨hkey, hcap, hmod, hpos⟩
  · rw [h]
  have hout : ¬ (0 ≤ i ∧ i < 0 + input.length) := by omega
  have hcrypt := aesCbcCrypt_sameOutside hlib key.aes .decrypt iv input output i hout
  rw [swCryptoAesDecrypt_eq hkey hcap hmod hpos]
  revert hcrypt
  cases aesCbcCrypt lib key.aes .decrypt iv input output with
  | mk err out =>
    intro hcrypt
    cases err with
    | error e => exact hcrypt
    | ok _ => exact (stripPadding_sameOutside padding out input.length i hout).trans hcrypt

/-- A decryption of whole blocks that the cipher accepts. -/
theorem swCryptoAesDecrypt_of_cbc (hlib : lib.Inverse) (padding : CryptoPadding) (output : Image)
    {plain : Bytes} (hkey : key.type = .aes) (hiv : iv.length = aesBlockSize)
    (hcap : input.length ≤ outputCap) (hmod : input.length % aesBlockSize = 0) (hpos : 0 < input.length)
    (hcbc : lib.cbc key.aes .decrypt iv input = some plain) :
    swCryptoAesDecrypt lib key padding iv input output outputCap =
      stripPadding padding (patch output 0 plain) input.length ∧
    slice (patch output 0 plain) 0 input.length = plain := by
  have hslice := slice_patch output 0 plain
  rw [hlib.cbc_length hcbc] at hslice
  rw [swCryptoAesDecrypt_eq hkey hcap hmod hpos, aesCbcCrypt_of_cbc hiv hmod hcbc]
  exact ⟨rfl, hslice⟩

/-- Counted padding: the ciphertexts that are accepted. -/
theorem pkcs7_accepts_iff (hlib : lib.Inverse) :
    (swCryptoAesDecrypt lib key .pkcs7 iv input output outputCap).status = .ok () ↔
      (key.type = .aes ∧ iv.length = aesBlockSize ∧ input.length ≤ outputCap) ∧
        input ≠ [] ∧ input.length % aesBlockSize = 0 ∧
        ∃ plain, lib.cbc key.aes .decrypt iv input = some plain ∧ LegalPad aesBlockSize plain := by
  have hblock {len : ℕ} (hpos : 0 < len) (hmod : len % aesBlockSize = 0) : aesBlockSize ≤ len :=
    Nat.le_of_dvd hpos (Nat.dvd_of_mod_eq_zero hmod)
  -- the checks, then the library, and last the padding, which is legal or refused
  constructor
  · intro h
    rcases swCryptoAesDecrypt_cases lib key .pkcs7 iv input output outputCap with
      ⟨e, len, herr⟩ | ⟨hkey, hcap, hmod, hpos⟩
    · rw [herr] at h
      cases h
    have hne : input ≠ [] := List.ne_nil_of_length_pos hpos
    rcases aesCbcCrypt_cases lib key.aes .decrypt iv input output with
      ⟨e, hc⟩ | ⟨e, hc⟩ | ⟨plain, hiv, -, hcbc, -⟩
    · rw [swCryptoAesDecrypt_eq hkey hcap hmod hpos, hc] at h
      cases h
    · rw [swCryptoAesDecrypt_eq hkey hcap hmod hpos, hc] at h
      cases h
    · obtain ⟨heq, hslice⟩ :=
        swCryptoAesDecrypt_of_cbc hlib .pkcs7 output hkey hiv hcap hmod hpos hcbc
      rw [heq, stripPadding_pkcs7_iff (hblock hpos hmod), hslice] at h
      exact ⟨⟨hkey, hiv, hcap⟩, hne, hmod, plain, hcbc, h⟩
  · rintro ⟨⟨hkey, hiv, hcap⟩, hne, hmod, plain, hcbc, hlegal⟩
    have hpos := List.length_pos_of_ne_nil hne
    obtain ⟨heq, hslice⟩ :=
      swCryptoAesDecrypt_of_cbc hlib .pkcs7 output hkey hiv hcap hmod hpos hcbc
    rw [heq, stripPadding_pkcs7_iff (hblock hpos hmod), hslice]
    exact hlegal

/-! ### The two directions together -/

/-- What software CBC promises for a key, a vector, a padding mode and a plaintext. -/
structure CbcCorrect (lib : Mbedtls) (sizeMax : ℕ) (key : CryptoKey) (padding : CryptoPadding)
    (iv input : Bytes) : Prop where
  /-- What was encrypted is decrypted to the plaintext again. -/
  roundTrip : ∀ output outputCap,
    (swCryptoAesEncrypt lib sizeMax key padding iv input output outputCap).status = .ok () →
      ∃ n,
        (swCryptoAesEncrypt lib sizeMax key padding iv input output outputCap).outputLen = some n ∧
        ∀ output' outputCap', n ≤ outputCap' →
          let cipher := slice
            (swCryptoAesEncrypt lib sizeMax key padding iv input output outputCap).output 0 n
          let answer := swCryptoAesDecrypt lib key padding iv cipher output' outputCap'
          answer.status = .ok () ∧ ∃ m, answer.outputLen = some m ∧
            slice answer.output 0 m = unpadded padding input
  accepts : ∀ cipher output outputCap,
    (swCryptoAesDecrypt lib key .pkcs7 iv cipher output outputCap).status = .ok () ↔
      (key.type = .aes ∧ iv.length = aesBlockSize ∧ cipher.length ≤ outputCap) ∧
        cipher ≠ [] ∧ cipher.length % aesBlockSize = 0 ∧
        ∃ plain, lib.cbc key.aes .decrypt iv cipher = some plain ∧ LegalPad aesBlockSize plain
  bounded : ∀ cipher output outputCap i, outputCap ≤ i →
    (swCryptoAesEncrypt lib sizeMax key padding iv input output outputCap).output i = output i ∧
      (swCryptoAesDecrypt lib key padding iv cipher output outputCap).output i = output i

/-- An empty plaintext that is encrypted without padding. -/
def EmptyUnpadded (lib : Mbedtls) (key : CryptoKey) (padding : CryptoPadding) (iv input : Bytes) :
    Prop :=
  padding = .none ∧ input = [] ∧ key.type = .aes ∧ iv.length = aesBlockSize ∧
    (lib.cbc key.aes .encrypt iv []).isSome

/-- The empty plaintext is encrypted, and the empty ciphertext is refused. -/
theorem EmptyUnpadded.refused (h : EmptyUnpadded lib key padding iv input) :
    ¬ CbcCorrect lib sizeMax key padding iv input := by
  obtain ⟨rfl, rfl, hkey, hiv, hsome⟩ := h
  obtain ⟨data, hcbc⟩ := Option.isSome_iff_exists.mp hsome
  intro hcorrect
  have hlen : cbcPaddedLen sizeMax .none ([] : Bytes).length = .ok (0, 0) := rfl
  have henc (output : Image) : swCryptoAesEncrypt lib sizeMax key .none iv [] output 0 =
      ⟨.ok (), patch (patch output 0 []) 0 data, some 0⟩ := by
    rw [swCryptoAesEncrypt_eq hkey hlen le_rfl]
    have hc := aesCbcCrypt_of_cbc hiv rfl hcbc (patch output 0 [])
    simp only [paddedInput, List.length_nil, Nat.sub_self, List.replicate_zero, List.append_nil, hc]
  obtain ⟨n, hn, hback⟩ := hcorrect.roundTrip (fun _ => 0) 0 (by rw [henc])
  rw [henc] at hn hback
  cases hn
  have hdec := (hback (fun _ => 0) 0 le_rfl).1
  simp [swCryptoAesDecrypt, hkey, slice] at hdec

/-- The two directions agree except on an empty plaintext without padding. -/
theorem cbc_correct_iff (hlib : lib.Inverse) : CbcCorrect lib sizeMax key padding iv input ↔
    ¬ EmptyUnpadded lib key padding iv input := by
  refine ⟨fun h hempty => hempty.refused h, fun hne => ⟨?_, ?_, ?_⟩⟩
  · -- encrypting went well, so the text was padded to a length that is not zero
    intro output outputCap hok
    obtain ⟨n, v, data, hkey, hpadded, hiv, hcbc, heq⟩ := swCryptoAesEncrypt_ok hok
    have hplain := paddedInput_length (v := v) hpadded.le
    have hdata : data.length = n := (hlib.cbc_length hcbc).trans hplain
    have hpos : 0 < n := by
      refine hpadded.pos fun ⟨hnone, hnil⟩ => hne ⟨hnone, hnil, hkey, hiv, ?_⟩
      subst hnone hnil
      cases hpadded with
      | none => exact Option.isSome_iff_exists.mpr ⟨data, hcbc⟩
    rw [heq]
    refine ⟨n, rfl, fun output' outputCap' hcap => ?_⟩
    have hcipher : slice (patch (patch output 0 (paddedInput n v input)) 0 data) 0 n = data := by
      have h := slice_patch (patch output 0 (paddedInput n v input)) 0 data
      rwa [hdata] at h
    -- the library is an inverse on whole blocks
    have hback : lib.cbc key.aes .decrypt iv data = some (paddedInput n v input) := by
      refine (hlib.inverse key.aes iv _ data hiv ?_ ?_).mp hcbc
      · rw [hplain, hpadded.mod]
      · rw [hdata, hpadded.mod]
    simp only [hcipher]
    rw [← hdata] at hcap hpos
    obtain ⟨hdec, hslice⟩ := swCryptoAesDecrypt_of_cbc hlib padding output' hkey hiv hcap
      (hdata.symm ▸ hpadded.mod) hpos hback
    rw [hdata] at hdec hslice
    obtain ⟨m, hstrip, hm⟩ := hpadded.strip hslice
    rw [hdec, hstrip]
    exact ⟨rfl, m, rfl, hm⟩
  · exact fun cipher output outputCap => pkcs7_accepts_iff hlib
  · exact fun cipher output outputCap i hi =>
      ⟨swCryptoAesEncrypt_bounded hlib i hi, swCryptoAesDecrypt_bounded hlib i hi⟩

/-- A cipher that maps every text to itself, as AES does with the empty one. -/
def plainCipher : Mbedtls where
  AesContext := Unit
  aesSetkeyEnc _ _ := some ()
  aesSetkeyDec _ _ := some ()
  aesCryptCbc _ _ _ input := some input

/-- The cipher of the example is one. -/
theorem plainCipher_inverse : plainCipher.Inverse where
  length _ _ _ _ _ h := congrArg List.length (Option.some.inj h).symm
  inverse _ _ _ _ _ _ _ :=
    ⟨fun h => congrArg some (Option.some.inj h).symm,
      fun h => congrArg some (Option.some.inj h).symm⟩

/-- An AES key of 128 zero bits. -/
def zeroKey : CryptoKey := ⟨.aes, List.replicate 16 0, 128⟩

/-- The text that fails. -/
theorem emptyUnpadded_zeroKey :
    EmptyUnpadded plainCipher zeroKey .none (List.replicate 16 0) [] :=
  ⟨rfl, rfl, rfl, rfl, rfl⟩

/-- An empty plaintext, with a vector that is refused and with one that is accepted. -/
theorem cbc_correct_empty : CbcCorrect plainCipher (2 ^ 32 - 1) zeroKey .none [] [] ∧
    ¬ CbcCorrect plainCipher (2 ^ 32 - 1) zeroKey .none (List.replicate 16 0) [] :=
  ⟨(cbc_correct_iff plainCipher_inverse).mpr fun h => absurd h.2.2.2.1 (by decide),
    fun h => (cbc_correct_iff plainCipher_inverse).mp h emptyUnpadded_zeroKey⟩

/-- The claim fails for it. -/
theorem not_cbc_correct : ¬ ∀ (key : CryptoKey) (padding : CryptoPadding) (iv input : Bytes),
    CbcCorrect plainCipher (2 ^ 32 - 1) key padding iv input :=
  fun h => emptyUnpadded_zeroKey.refused (h zeroKey .none (List.replicate 16 0) [])

end TrustSdk.Crypto
