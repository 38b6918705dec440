import TrustSdk.Crypto.KeyBlobs

/-!
# The keys in custody

What is known of the slots of keys and certificates (`Custody`), what it takes that they hold
nothing else (`Custody.Reflects`), and what each program does to that: a key that is stored fits its
descriptor, since it was generated for it, was compared with it, or comes from a slot with the same
specification.
-/

namespace TrustSdk.Crypto

open SystemCalls FileStore Security ByteStore

variable {lib : PkLibrary} {sizeMax fuel : ℕ} {pid : ℤ}

/-! ### What is known -/

/-- Which keys and which certificates the slots may hold, by key id and by certificate id. -/
structure Custody (lib : PkLibrary) where
  keys : UInt32 → Set (Option (SwKey lib))
  certs : UInt32 → Set SlotValue

/-- What is known of one key changes. -/
def Custody.setKey (K : Custody lib) (keyId : UInt32) (P : Set (Option (SwKey lib))) :
    Custody lib :=
  { K with keys := Function.update K.keys keyId P }

/-- What is known of one certificate changes. -/
def Custody.setCert (K : Custody lib) (certId : UInt32) (P : Set SlotValue) : Custody lib :=
  { K with certs := Function.update K.certs certId P }

@[simp] theorem Custody.setKey_self (K : Custody lib) (keyId : UInt32)
    (P : Set (Option (SwKey lib))) : (K.setKey keyId P).keys keyId = P :=
  Function.update_self _ _ _

/-- The other keys stay. -/
theorem Custody.setKey_of_ne {K : Custody lib} {keyId other : UInt32} (h : other ≠ keyId)
    (P : Set (Option (SwKey lib))) : (K.setKey keyId P).keys other = K.keys other :=
  Function.update_of_ne h _ _

@[simp] theorem Custody.setCert_self (K : Custody lib) (certId : UInt32) (P : Set SlotValue) :
    (K.setCert certId P).certs certId = P :=
  Function.update_self _ _ _

/-- The other certificates stay. -/
theorem Custody.setCert_of_ne {K : Custody lib} {certId other : UInt32} (h : other ≠ certId)
    (P : Set SlotValue) : (K.setCert certId P).certs other = K.certs other :=
  Function.update_of_ne h _ _

/-- No slot holds anything but what is known of it, and every key fits its descriptor. -/
structure Custody.Reflects (sizeMax : ℕ) (K : Custody lib) (d : Disk String) : Prop where
  keys : ∀ desc ∈ gKeyTable, Tracks (ShowsIn sizeMax (blobs (K.keys desc.keyId))) d
    (slotName (secSlotKey desc.slotIndex))
  certs : ∀ desc ∈ gCertTable, Tracks (ShowsIn sizeMax (K.certs desc.certId)) d
    (slotName (secSlotCert desc.slotIndex))
  fits : ∀ desc ∈ gKeyTable, ∀ key, some key ∈ K.keys desc.keyId → Fits desc.spec key

namespace Custody.Reflects

variable {K : Custody lib} {d t : Disk String}

/-- A call on one key, which was to leave one of `N`. -/
theorem setKey {ρ : Type} {o : Option (Except Err ρ)} {N : Set (Option (SwKey lib))}
    (h : K.Reflects sizeMax d) {desc : KeyDesc} (hdesc : desc ∈ gKeyTable)
    (hg : Guards sizeMax (blobs (N ∪ K.keys desc.keyId)) (slotName (secSlotKey desc.slotIndex)) d t)
    (hok : ∀ a, o = some (.ok a) →
      Tracks (ShowsIn sizeMax (blobs N)) t (slotName (secSlotKey desc.slotIndex)))
    (hN : ∀ key, some key ∈ N → Fits desc.spec key) :
    (K.setKey desc.keyId (settledOn N (K.keys desc.keyId) o)).Reflects sizeMax t where
  keys other hother := by
    -- the slots of the table are different, so the guard of one covers the others
    by_cases heq : other = desc
    · subst heq
      rw [Custody.setKey_self]
      unfold settledOn
      split
      · exact hok _ rfl
      · exact hg.slot
    · have hne : other.keyId ≠ desc.keyId :=
        fun hid => heq (gKeyTable_keyId_injective other hother desc hdesc hid)
      rw [Custody.setKey_of_ne hne]
      exact (h.keys other hother).calm (hg.other _ (slotName_not_dotted _) fun hname =>
        heq (gKeyTable_injective other hother desc hdesc (slotName_injective hname)))
  certs other hother := (h.certs other hother).calm
    (hg.other _ (slotName_not_dotted _) fun hname =>
      secSlotKey_ne_cert desc hdesc other hother (slotName_injective hname).symm)
  fits other hother key hkey := by
    by_cases heq : other = desc
    · subst heq
      rw [Custody.setKey_self] at hkey
      unfold settledOn at hkey
      split at hkey
      · exact hN key hkey
      · rcases hkey with hkey | hkey
        · exact hN key hkey
        · exact h.fits other hother key hkey
    · have hne : other.keyId ≠ desc.keyId :=
        fun hid => heq (gKeyTable_keyId_injective other hother desc hdesc hid)
      rw [Custody.setKey_of_ne hne] at hkey
      exact h.fits other hother key hkey

/-- A call on one certificate, which was to leave `v`. -/
theorem setCert {o : Option (Except Err Unit)} {v : SlotValue} (h : K.Reflects sizeMax d)
    {desc : CertDesc} (hdesc : desc ∈ gCertTable)
    (hg : Guards sizeMax ({v} ∪ K.certs desc.certId) (slotName (secSlotCert desc.slotIndex)) d t)
    (hok : ∀ r, o = some r → Settled sizeMax v (slotName (secSlotCert desc.slotIndex)) r t) :
    (K.setCert desc.certId (settledOn {v} (K.certs desc.certId) o)).Reflects sizeMax t where
  keys other hother := (h.keys other hother).calm
    (hg.other _ (slotName_not_dotted _) fun hname =>
      secSlotKey_ne_cert other hother desc hdesc (slotName_injective hname))
  certs other hother := by
    by_cases heq : other = desc
    · subst heq
      rw [Custody.setCert_self]
      exact hg.settledOn hok
    · have hne : other.certId ≠ desc.certId :=
        fun hid => heq (gCertTable_certId_injective other hother desc hdesc hid)
      rw [Custody.setCert_of_ne hne]
      exact (h.certs other hother).calm (hg.other _ (slotName_not_dotted _) fun hname =>
        heq (gCertTable_injective other hother desc hdesc (slotName_injective hname)))
  fits := h.fits

/-- Whatever leaves names and files alone. -/
theorem sameFiles (h : K.Reflects sizeMax d) (hsame : SameFiles d t) : K.Reflects sizeMax t where
  keys desc hdesc := (h.keys desc hdesc).calm (hsame.calm _)
  certs desc hdesc := (h.certs desc hdesc).calm (hsame.calm _)
  fits := h.fits

/-- A crash keeps what is known. -/
theorem crashed (h : K.Reflects sizeMax d) (hcrash : Crashed d t) : K.Reflects sizeMax t where
  keys desc hdesc := (h.keys desc hdesc).crashed (fun _ => ShowsIn.synced) hcrash
  certs desc hdesc := (h.certs desc hdesc).crashed (fun _ => ShowsIn.synced) hcrash
  fits := h.fits

end Custody.Reflects

/-! ### The programs -/

/-- What the library or the generator gave, as what a slot may come to hold. -/
def made (key : Except Err (SwKey lib)) : Set (Option (SwKey lib)) :=
  {v | ∃ k, key = .ok k ∧ v = some k}

/-- The keys among what a slot may hold. -/
def present (P : Set (Option (SwKey lib))) : Set (Option (SwKey lib)) := {v ∈ P | v ≠ none}

/-- A key that was generated fits its curve. -/
theorem newEcKey_fits {env : KeyEnv lib} {curve : EcCurve} {key : SwKey lib}
    (h : newEcKey env curve = .ok key) : Fits (.ec curve) key := by
  simp only [newEcKey, bind, Except.bind] at h
  -- the errors on the way, and then the generated key
  split at h
  · cases h
  split at h
  · cases h
  split at h
  · cases h
  split at h
  · cases h
  · rename_i pk _
    rw [← Except.ok.inj h]
    exact pk.2

/-- A symmetric key fits its length. -/
theorem newSymKey_fits {env : KeyEnv lib} {keyBits : ℕ} {key : SwKey lib}
    (h : newSymKey env keyBits = .ok key) : Fits (.aes keyBits) key := by
  simp only [newSymKey, bind, Except.bind] at h
  split at h
  · cases h
  split at h
  · cases h
  split at h
  · cases h
  · rename_i bs _
    rw [← Except.ok.inj h]
    exact ⟨rfl, bs.2⟩

/-- A new key fits its entry of the table. -/
theorem newKey_fits {env : KeyEnv lib} {spec : KeySpec} {key : SwKey lib}
    (h : newKey env spec = .ok key) : Fits spec key := by
  cases spec with
  | ec curve => exact newEcKey_fits h
  | aes keyBits => exact newSymKey_fits h

/-- An imported key is on the curve of the descriptor, whatever its text says. -/
theorem importedKey_fits {env : KeyEnv lib} {format : KeyFormat} {bytes : Bytes} {spec : KeySpec}
    {key : SwKey lib} (h : importedKey env format bytes spec = .ok key) : Fits spec key := by
  -- an import checks the curve, and a symmetric key is not imported here
  cases spec with
  | aes keyBits =>
    simp only [importedKey] at h
    split at h
    · cases h
    · cases h
  | ec curve =>
    simp only [importedKey, bind, Except.bind] at h
    split at h
    · cases h
    split at h
    · cases h
    split at h
    · cases h
    split at h
    · split at h
      · rename_i hcurve
        rw [← Except.ok.inj h]
        exact hcurve
      · cases h
    · cases h

section Programs

variable {K : Custody lib} {P : Set (Option (SwKey lib))} {d : Disk String} {desc : KeyDesc}

/-- The blob of a key. -/
theorem blobs_singleton {key : SwKey lib} {blob : Bytes} (h : keySerialize key = .ok blob) :
    {some blob} ⊆ blobs ({some key} : Set (Option (SwKey lib))) := by
  rintro v rfl
  exact ⟨some key, rfl, blob, h, rfl⟩

/-- Storing a key that fits. -/
theorem swStoreKeyBlob_guards (hlib : lib.Lawful) (hmax : keyBlobSize ≤ sizeMax)
    (hdesc : desc ∈ gKeyTable) {key : SwKey lib} (hfits : Fits desc.spec key)
    (h : Tracks (ShowsIn sizeMax (blobs P)) d (slotName (secSlotKey desc.slotIndex))) :
    Meets (Guards sizeMax (blobs ({some key} ∪ P)) (slotName (secSlotKey desc.slotIndex)) d)
      (fun r t => r = .ok () → Tracks (ShowsIn sizeMax (blobs {some key})) t
        (slotName (secSlotKey desc.slotIndex)))
      (swStoreKeyBlob sizeMax fuel pid key desc.keyId) d := by
  unfold swStoreKeyBlob
  split
  · exact .pure (.start (h.mono (ShowsIn.mono (blobs_mono Set.subset_union_right))))
      (by rintro ⟨⟩)
  · rename_i blob hblob
    have hlen := keySerialize_length hlib (gKeyTable_storable desc hdesc) hfits hblob
    have hone := blobs_singleton hblob
    rw [gKeyTable_slot desc hdesc]
    refine (actrustSecStoreWrite_all h fuel pid (hlen.trans hmax)).mono
      (fun t ht => ht.mono ?_) fun r t _ hr hok => (hr hok).mono (ShowsIn.mono hone)
    exact Set.union_subset (hone.trans (blobs_mono Set.subset_union_left))
      (blobs_mono Set.subset_union_right)

/-- Opening a key. -/
theorem swCryptoKeyOpen_answers (hlib : lib.Lawful) (hdesc : desc ∈ gKeyTable)
    (hP : ∀ key, some key ∈ P → Fits desc.spec key)
    (h : ShowsIn sizeMax (blobs P)
      ((d.link (slotName (secSlotKey desc.slotIndex))).now.map d.file)) (fuel : ℕ)
    (env : KeyEnv lib) :
    Meets (SameFiles d) (fun r _ => ∀ key, r = .ok key → some key ∈ P)
      (swCryptoKeyOpen sizeMax fuel env desc.keyId) d := by
  unfold swCryptoKeyOpen
  rw [gKeyTable_slot desc hdesc]
  refine .bind ((actrustSecStoreRead_answers h fuel keyBlobSize).mono (fun t ht => ht)
    fun r t ht hr => ?_)
  split
  · exact .pure ht (by rintro key ⟨⟩)
  · rename_i hok
    refine .pure ht fun key hkey => ?_
    obtain ⟨key', hmem, hblob⟩ := some_mem_blobs (hr.ok hok).1
    have hread := keyDeserialize_serialize hlib (gKeyTable_storable desc hdesc) (hP key' hmem)
      hblob env
    rwa [hread.1 key hkey]

/-- Storing a key that was just made. -/
theorem swKeepKey_guards (hlib : lib.Lawful) (hmax : keyBlobSize ≤ sizeMax)
    (hdesc : desc ∈ gKeyTable) {key : Except Err (SwKey lib)}
    (hfits : ∀ k, key = .ok k → Fits desc.spec k)
    (h : Tracks (ShowsIn sizeMax (blobs P)) d (slotName (secSlotKey desc.slotIndex))) :
    Meets (Guards sizeMax (blobs (made key ∪ P)) (slotName (secSlotKey desc.slotIndex)) d)
      (fun r t => ∀ k, r = .ok k → key = .ok k ∧ Tracks (ShowsIn sizeMax (blobs (made key))) t
        (slotName (secSlotKey desc.slotIndex)))
      (swKeepKey sizeMax fuel pid key desc.keyId) d := by
  unfold swKeepKey
  -- a key that could not be made is not stored
  cases key with
  | error e =>
    exact .pure (.start (h.mono (ShowsIn.mono (blobs_mono Set.subset_union_right))))
      (by rintro k ⟨⟩)
  | ok key =>
    have hmade : {some key} ⊆ made (.ok key) := by
      rintro v rfl
      exact ⟨key, rfl, rfl⟩
    have hsub : blobs ({some key} ∪ P) ⊆ blobs (made (.ok key) ∪ P) :=
      blobs_mono (Set.union_subset_union_left P hmade)
    refine .bind ((swStoreKeyBlob_guards hlib hmax hdesc (hfits key rfl) h).mono
      (fun t ht => ht.mono hsub) fun r t ht hr => ?_)
    split
    · exact .pure (ht.mono hsub) (by rintro k ⟨⟩)
    · exact .pure (ht.mono hsub) fun k hk =>
        ⟨hk, (hr rfl).mono (ShowsIn.mono (blobs_mono hmade))⟩

/-- Migrating a key to another slot: what is read of the one is written to the other. -/
theorem swCryptoKeyMigrate_guards (hlib : lib.Lawful) (hmax : keyBlobSize ≤ sizeMax)
    (hK : K.Reflects sizeMax d) {source target : KeyDesc} (hsource : source ∈ gKeyTable)
    (htarget : target ∈ gKeyTable) (htype : source.spec.type = target.spec.type)
    (env : KeyEnv lib) :
    Meets (Guards sizeMax (blobs (present (K.keys source.keyId) ∪ K.keys target.keyId))
        (slotName (secSlotKey target.slotIndex)) d)
      (fun r t => r = .ok () → Tracks (ShowsIn sizeMax (blobs (present (K.keys source.keyId)))) t
        (slotName (secSlotKey target.slotIndex)))
      (swCryptoKeyMigrate sizeMax fuel pid env source.keyId target.keyId) d := by
  -- the target keeps its key until the blob is written
  have hstart := Guards.start ((hK.keys target htarget).mono (ShowsIn.mono
    (blobs_mono (Set.subset_union_right (s := present (K.keys source.keyId))))))
  unfold swCryptoKeyMigrate
  split
  · exact .pure hstart (by rintro ⟨⟩)
  refine .bind ((swCryptoKeyOpen_answers hlib hsource (hK.fits source hsource)
    (hK.keys source hsource).now fuel env).mono (fun t ht => hstart.sameFiles ht)
    fun r t ht hr => ?_)
  cases r with
  | error e => exact .pure (hstart.sameFiles ht) (by rintro ⟨⟩)
  | ok key =>
    have hmem := hr key rfl
    have hfits := hK.fits source hsource key hmem
    -- the two entries have one type, so the key that fits the source fits the target
    rw [gKeyTable_spec_eq source hsource target htarget htype] at hfits
    have hone : {some key} ⊆ present (K.keys source.keyId) := by
      rintro v rfl
      exact ⟨hmem, by rintro ⟨⟩⟩
    refine (swStoreKeyBlob_guards hlib hmax htarget hfits
      ((hK.keys target htarget).calm (ht.calm _))).mono (fun u hu => ?_) fun r u _ hr hok => ?_
    · exact (hu.after ht).mono (blobs_mono (Set.union_subset_union_left _ hone))
    · exact (hr hok).mono (ShowsIn.mono (blobs_mono hone))

end Programs

end TrustSdk.Crypto
