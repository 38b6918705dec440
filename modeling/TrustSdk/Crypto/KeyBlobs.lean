import TrustSdk.Crypto.Keys
import TrustSdk.Security.StoreMap

/-!
# Key blobs

What `key_serialize` writes of a key, `key_deserialize` gives back, or fails
(`keyDeserialize_serialize`); the blob of a key that fits its descriptor has room in the buffer that
`sw_crypto_key_open` reads it into. No two descriptors of the tables share a slot.
-/

namespace TrustSdk.Crypto

open SystemCalls FileStore Security ByteStore

variable {lib : PkLibrary}

/-- The DER form of a key fits the buffer it is written to, and parses as the key. -/
structure PkLibrary.Lawful (lib : PkLibrary) : Prop where
  fits : ∀ pk der, lib.writeKeyDer pk = some der → der.length ≤ ecDerMaxSize
  parse : ∀ pk der, lib.writeKeyDer pk = some der → lib.parseKey der = some pk

/-! ### Descriptors -/

/-- The key is what its descriptor says. -/
def Fits : KeySpec → SwKey lib → Prop
  | .ec curve, .ec pk => lib.groupId pk = some curve
  | .aes keyBits, .aes bits data => bits = keyBits ∧ data.length = keyBits / 8
  | _, _ => False

/-- A key of this kind has room in a blob. -/
def KeySpec.Storable : KeySpec → Prop
  | .ec _ => True
  | .aes keyBits => keyBits / 8 ≤ aesKeyMaxBytes

/-- Every key of the table has a length that its blob can hold. -/
theorem gKeyTable_storable : ∀ desc ∈ gKeyTable, desc.spec.Storable := by
  simp [gKeyTable, KeySpec.Storable, aesKeyMaxBytes]

/-- Keys of one type have one specification, so a migration needs to compare the types only. -/
theorem gKeyTable_spec_eq : ∀ a ∈ gKeyTable, ∀ b ∈ gKeyTable,
    a.spec.type = b.spec.type → a.spec = b.spec := by
  decide

/-- The slot of a key of the table. -/
theorem gKeyTable_slot : ∀ desc ∈ gKeyTable,
    keyidToSlotid desc.keyId = secSlotKey desc.slotIndex := by
  decide

/-- No two keys share a slot. -/
theorem gKeyTable_injective : ∀ a ∈ gKeyTable, ∀ b ∈ gKeyTable,
    secSlotKey a.slotIndex = secSlotKey b.slotIndex → a = b := by
  decide

/-- No two certificates share a slot. -/
theorem gCertTable_injective : ∀ a ∈ gCertTable, ∀ b ∈ gCertTable,
    secSlotCert a.slotIndex = secSlotCert b.slotIndex → a = b := by
  decide

/-- No key shares its slot with a certificate. -/
theorem secSlotKey_ne_cert : ∀ a ∈ gKeyTable, ∀ b ∈ gCertTable,
    secSlotKey a.slotIndex ≠ secSlotCert b.slotIndex := by
  decide

/-- The ids of the keys are different. -/
theorem gKeyTable_keyId_injective : ∀ a ∈ gKeyTable, ∀ b ∈ gKeyTable,
    a.keyId = b.keyId → a = b := by
  decide

/-- The ids of the certificates are different. -/
theorem gCertTable_certId_injective : ∀ a ∈ gCertTable, ∀ b ∈ gCertTable,
    a.certId = b.certId → a = b := by
  decide

/-- A key that was looked up stands in the table under its id. -/
theorem actrustCryptoKeyLookup_some {keyId : UInt32} {desc : KeyDesc}
    (h : actrustCryptoKeyLookup keyId = some desc) : desc ∈ gKeyTable ∧ desc.keyId = keyId :=
  ⟨List.mem_of_find?_eq_some h, by simpa using List.find?_some h⟩

/-- So does a certificate. -/
theorem actrustCryptoCertLookup_some {certId : UInt32} {desc : CertDesc}
    (h : actrustCryptoCertLookup certId = some desc) : desc ∈ gCertTable ∧ desc.certId = certId :=
  ⟨List.mem_of_find?_eq_some h, by simpa using List.find?_some h⟩

/-- Every key of the table is found under its id. -/
theorem actrustCryptoKeyLookup_keyId : ∀ desc ∈ gKeyTable,
    actrustCryptoKeyLookup desc.keyId = some desc := by
  decide

/-! ### Blobs -/

/-- The two bytes of a length. -/
theorem bits_le {bits : ℕ} (h : bits < 65536) :
    (UInt8.ofNat (bits &&& 0xff)).toNat ||| (UInt8.ofNat (bits >>> 8 &&& 0xff)).toNat <<< 8 =
      bits := by
  have hmask : ∀ n, n &&& 0xff = n % 2 ^ 8 := fun n => Nat.and_two_pow_sub_one_eq_mod n 8
  rw [UInt8.toNat_ofNat', UInt8.toNat_ofNat', hmask, hmask, Nat.mod_mod, Nat.mod_mod, Nat.or_comm,
    ← Nat.shiftLeft_add_eq_or_of_lt (Nat.mod_lt _ (by decide)), Nat.shiftRight_eq_div_pow,
    Nat.shiftLeft_eq]
  omega

/-- A blob with the mark of an EC key. -/
theorem keyDeserialize_ec (env : KeyEnv lib) (payload : Bytes) :
    keyDeserialize env (keyTypeByte .ec :: payload) =
      if env.alloc then ecDeserialize env payload else .error (cryptoErr .noMem) := by
  cases h : env.alloc <;> simp [keyDeserialize, h]

/-- A blob with the mark of an AES key. -/
theorem keyDeserialize_aes (env : KeyEnv lib) (payload : Bytes) :
    keyDeserialize env (keyTypeByte .aes :: payload) =
      if env.alloc then aesDeserialize payload else .error (cryptoErr .noMem) := by
  cases h : env.alloc <;> simp [keyDeserialize, h, keyTypeByte]

/-- An EC key that parses is the parsed one, unless something else fails. -/
theorem ecDeserialize_some (env : KeyEnv lib) {payload : Bytes} {pk : lib.Pk}
    (hparse : lib.parseKey payload = some pk) :
    ecDeserialize env payload = .ok (.ec pk) ∨ ∃ e, ecDeserialize env payload = .error e := by
  unfold ecDeserialize
  split
  · exact .inr ⟨_, rfl⟩
  · rw [hparse]
    cases env.parseAlloc with
    | true => exact .inl rfl
    | false => exact .inr ⟨_, rfl⟩

/-- An AES key is read back from its length and its bytes. -/
theorem aesDeserialize_serialize {bits : ℕ} {data : Bytes} (hbits : bits / 8 ≤ aesKeyMaxBytes)
    (hdata : data.length = bits / 8) :
    aesDeserialize (UInt8.ofNat (bits &&& 0xff) :: UInt8.ofNat (bits >>> 8 &&& 0xff) ::
      data.take (bits / 8)) = .ok (.aes bits data : SwKey lib) := by
  have hlt : bits < 65536 := by
    rw [aesKeyMaxBytes] at hbits
    omega
  have htake : data.take (bits / 8) = data := by rw [← hdata, List.take_length]
  rw [aesDeserialize, bits_le hlt, htake, if_neg, htake]
  rintro (hlong | hlen)
  · exact absurd hbits (not_le.mpr hlong)
  · exact hlen (by rw [hdata])

/-- The blob of an EC key is its DER text behind the mark. -/
theorem keySerialize_ec {pk : lib.Pk} {blob : Bytes} (h : keySerialize (.ec pk) = .ok blob) :
    ∃ der, lib.writeKeyDer pk = some der ∧ blob = keyTypeByte .ec :: der := by
  simp only [keySerialize] at h
  split at h
  · exact absurd h (by rintro ⟨⟩)
  · rename_i der hder
    exact ⟨der, hder, (Except.ok.inj h).symm⟩

/-- What a blob is read back as, in spite of what may fail: the key it was written from. -/
theorem keyDeserialize_serialize (hlib : lib.Lawful) {spec : KeySpec} (hspec : spec.Storable)
    {key : SwKey lib} (hfits : Fits spec key) {blob : Bytes} (hblob : keySerialize key = .ok blob)
    (env : KeyEnv lib) :
    (∀ key', keyDeserialize env blob = .ok key' → key' = key) ∧
      (env.alloc = true → env.rngLock = .ok () → env.parseAlloc = true →
        keyDeserialize env blob = .ok key) := by
  -- the DER text parses to its key by the law of the library, the AES payload carries its own
  -- length
  cases key with
  | ec pk =>
    obtain ⟨der, hder, rfl⟩ := keySerialize_ec hblob
    rw [keyDeserialize_ec]
    have hparse := hlib.parse pk der hder
    refine ⟨fun key' hkey' => ?_, fun halloc hlock hroom => ?_⟩
    · split at hkey'
      · rcases ecDeserialize_some env hparse with hok | ⟨e, herr⟩
        · exact (Except.ok.inj (hok.symm.trans hkey')).symm
        · exact absurd (herr.symm.trans hkey') (by rintro ⟨⟩)
      · exact absurd hkey' (by rintro ⟨⟩)
    · rw [if_pos halloc, ecDeserialize, hlock, hroom, hparse]
  | aes bits data =>
    cases spec with
    | ec curve => exact hfits.elim
    | aes keyBits =>
      obtain ⟨rfl, hdata⟩ := hfits
      rw [← Except.ok.inj hblob, keyDeserialize_aes, aesDeserialize_serialize hspec hdata]
      refine ⟨fun key' hkey' => ?_, fun halloc _ _ => if_pos halloc⟩
      split at hkey'
      · exact (Except.ok.inj hkey').symm
      · exact absurd hkey' (by rintro ⟨⟩)

/-- A blob fits the buffer of the source. -/
theorem keySerialize_length (hlib : lib.Lawful) {spec : KeySpec} (hspec : spec.Storable)
    {key : SwKey lib} (hfits : Fits spec key) {blob : Bytes}
    (hblob : keySerialize key = .ok blob) : blob.length ≤ keyBlobSize := by
  cases key with
  | ec pk =>
    obtain ⟨der, hder, rfl⟩ := keySerialize_ec hblob
    rw [List.length_cons, keyBlobSize, add_comm]
    exact Nat.add_le_add_left (hlib.fits pk der hder) 1
  | aes bits data =>
    cases spec with
    | ec curve => exact hfits.elim
    | aes keyBits =>
      obtain ⟨rfl, hdata⟩ := hfits
      have hlen : data.length ≤ aesKeyMaxBytes := hdata.trans_le hspec
      rw [← Except.ok.inj hblob, List.length_cons, List.length_cons, List.length_cons,
        List.length_take, keyBlobSize, ecDerMaxSize]
      rw [aesKeyMaxBytes] at hlen
      omega

/-- What a slot holds of a key. -/
def Blob : Option (SwKey lib) → SlotValue → Prop
  | none, v => v = none
  | some key, v => ∃ blob, keySerialize key = .ok blob ∧ v = some blob

/-- What a slot may hold if its key is one of these. -/
def blobs (P : Set (Option (SwKey lib))) : Set SlotValue := {v | ∃ key ∈ P, Blob key v}

/-- More keys, more blobs. -/
theorem blobs_mono {P P' : Set (Option (SwKey lib))} (h : P ⊆ P') : blobs P ⊆ blobs P' := by
  rintro v ⟨key, hkey, hblob⟩
  exact ⟨key, h hkey, hblob⟩

/-- A blob is the blob of one of the keys. -/
theorem some_mem_blobs {P : Set (Option (SwKey lib))} {blob : Bytes} (h : some blob ∈ blobs P) :
    ∃ key, some key ∈ P ∧ keySerialize key = .ok blob := by
  obtain ⟨key, hkey, hblob⟩ := h
  cases key with
  | none => exact absurd hblob (by rintro ⟨⟩)
  | some key =>
    obtain ⟨blob', hserial, heq⟩ := hblob
    rw [Option.some.inj heq]
    exact ⟨key, hkey, hserial⟩

end TrustSdk.Crypto
