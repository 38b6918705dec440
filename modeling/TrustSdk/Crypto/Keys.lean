import TrustSdk.Crypto.Cbc
import TrustSdk.Security.SecureStore

/-!
# Keys and certificates in the secure store

The software backend keeps a key as one blob in a slot of the secure store: a byte for the type of
the key, then the DER form of an EC key, or the length in bits and the bytes of an AES key. What
opens, generates, imports, migrates and destroys keys are programs over the calls of the secure
store, and so are the calls on certificates. The library that parses, writes and generates EC keys
is a parameter (`PkLibrary`); what it and the system answer during a call comes with the call
(`KeyEnv`).

The tables are those of the development profile, in which every key is kept by the software
backend.
-/

namespace TrustSdk.Crypto

open SystemCalls FileStore Security ByteStore

/-! ### Descriptors -/

/-- `actrust_crypto_ec_curve_t` -/
inductive EcCurve where
  | secp256r1
  | secp256k1
  deriving DecidableEq, Repr

/-- The `type` and the `spec` of a key descriptor. -/
inductive KeySpec where
  | ec (curve : EcCurve)
  | aes (keyBits : ℕ)
  deriving DecidableEq, Repr

/-- The type of a key by its entry of the table. -/
def KeySpec.type : KeySpec → CryptoKeyType
  | .ec _ => .ec
  | .aes _ => .aes

/-- `actrust_crypto_key_desc_t` -/
structure KeyDesc where
  keyId : UInt32
  slotIndex : ℕ
  spec : KeySpec
  deriving DecidableEq, Repr

/-- `actrust_crypto_cert_desc_t` -/
structure CertDesc where
  certId : UInt32
  slotIndex : ℕ
  deriving DecidableEq, Repr

/-- `g_key_table` -/
def gKeyTable : List KeyDesc :=
  [⟨0x1000, 0, .ec .secp256r1⟩, ⟨0x1001, 1, .ec .secp256r1⟩, ⟨0x1002, 2, .aes 256⟩,
    ⟨0x1003, 3, .ec .secp256r1⟩]

/-- `g_cert_table` -/
def gCertTable : List CertDesc := [⟨0x3000, 0⟩, ⟨0x3001, 1⟩]

/-- `ACTRUST_SEC_SLOT_KEY(n)` -/
def secSlotKey (n : ℕ) : SecSlot := 0x1000 + UInt32.ofNat n

/-- `ACTRUST_SEC_SLOT_CERT(n)` -/
def secSlotCert (n : ℕ) : SecSlot := 0x3000 + UInt32.ofNat n

/-- `actrust_crypto_key_lookup` -/
def actrustCryptoKeyLookup (keyId : UInt32) : Option KeyDesc :=
  gKeyTable.find? fun desc => desc.keyId == keyId

/-- `actrust_crypto_cert_lookup` -/
def actrustCryptoCertLookup (certId : UInt32) : Option CertDesc :=
  gCertTable.find? fun desc => desc.certId == certId

/-- `keyid_to_slotid` -/
def keyidToSlotid (keyId : UInt32) : SecSlot :=
  match actrustCryptoKeyLookup keyId with
  | some desc => secSlotKey desc.slotIndex
  | none => keyId

/-! ### The library -/

/-- The calls of the crypto library on EC keys. A call that returns an error is `none`;
`writeKeyDer` writes to a buffer of `EC_DER_MAX_SIZE` bytes, `groupId` gives the curve of the key if
it is on one of those above, and `pemRead` decodes a private key. -/
structure PkLibrary where
  Pk : Type
  parseKey : Bytes → Option Pk
  writeKeyDer : Pk → Option Bytes
  groupId : Pk → Option EcCurve
  pemRead : Bytes → Option Bytes

/-- What the library and the system answer during one call: whether memory is found for a key, for
the copy of a PEM text and by the parser, whether the random generator can be locked, and what is
generated. -/
structure KeyEnv (lib : PkLibrary) where
  alloc : Bool
  pemAlloc : Bool
  pkSetup : Bool
  parseAlloc : Bool
  rngLock : Except Err Unit
  ecpGenKey : (curve : EcCurve) → Option {pk : lib.Pk // lib.groupId pk = some curve}
  ctrDrbgRandom : (n : ℕ) → Option {bs : Bytes // bs.length = n}

/-- `EC_DER_MAX_SIZE` -/
def ecDerMaxSize : ℕ := 256

/-- `AES_KEY_MAX_BYTES` -/
def aesKeyMaxBytes : ℕ := 32

/-- `sizeof(key_blob_t)` -/
def keyBlobSize : ℕ := 1 + ecDerMaxSize

/-- A key of the software backend. -/
inductive SwKey (lib : PkLibrary) where
  | ec (pk : lib.Pk)
  | aes (bits : ℕ) (data : Bytes)

/-- The values of `actrust_crypto_key_type_t`. -/
def keyTypeByte : CryptoKeyType → UInt8
  | .ec => 1
  | .aes => 2

variable {lib : PkLibrary}

/-! ### Blobs -/

/-- `key_serialize` -/
def keySerialize : SwKey lib → Except Err Bytes
  | .ec pk =>
    match lib.writeKeyDer pk with
    | none => .error (cryptoErr .hwFailure)
    | some der => .ok (keyTypeByte .ec :: der)
  | .aes bits data =>
    .ok (keyTypeByte .aes :: UInt8.ofNat (bits &&& 0xff) :: UInt8.ofNat (bits >>> 8 &&& 0xff) ::
      data.take (bits / 8))

/-- The EC case of `key_deserialize`. -/
def ecDeserialize (env : KeyEnv lib) (payload : Bytes) : Except Err (SwKey lib) :=
  match env.rngLock with
  | .error e => .error e
  | .ok () =>
    match env.parseAlloc, lib.parseKey payload with
    | true, some pk => .ok (.ec pk)
    | _, _ => .error (cryptoErr .hwFailure)

/-- The AES case of `key_deserialize`. -/
def aesDeserialize : Bytes → Except Err (SwKey lib)
  | lo :: hi :: data =>
    let bits := lo.toNat ||| hi.toNat <<< 8
    let keyBytes := bits / 8
    if aesKeyMaxBytes < keyBytes ∨ 2 + data.length ≠ 2 + keyBytes then
      .error (cryptoErr .invalidArg)
    else .ok (.aes bits (data.take keyBytes))
  | _ => .error (cryptoErr .invalidArg)

/-- `key_deserialize` -/
def keyDeserialize (env : KeyEnv lib) : Bytes → Except Err (SwKey lib)
  | [] => .error (cryptoErr .invalidArg)
  | type :: payload =>
    if !env.alloc then .error (cryptoErr .noMem)
    else if type = keyTypeByte .ec then ecDeserialize env payload
    else if type = keyTypeByte .aes then aesDeserialize payload
    else .error (cryptoErr .invalidArg)

/-! ### The software backend -/

section Backend

variable (sizeMax fuel : ℕ) (pid : ℤ)

/-- `sw_store_key_blob` -/
def swStoreKeyBlob (key : SwKey lib) (keyId : UInt32) : Prog String (Except Err Unit) :=
  match keySerialize key with
  | .error e => return .error e
  | .ok blob =>
    actrustSecStoreWrite sizeMax fuel pid (keyidToSlotid keyId) (some blob) blob.length

/-- `sw_crypto_key_open` -/
def swCryptoKeyOpen (env : KeyEnv lib) (keyId : UInt32) : Prog String (Except Err (SwKey lib)) := do
  let r ← actrustSecStoreRead sizeMax fuel (keyidToSlotid keyId) keyBlobSize
  match r.status with
  | .error e => return .error e
  | .ok () => return keyDeserialize env r.out

/-- `sw_crypto_key_destroy` -/
def swCryptoKeyDestroy (keyId : UInt32) : Prog String (Except Err Unit) :=
  actrustSecStoreDelete (keyidToSlotid keyId)

/-- `sw_crypto_key_migrate` -/
def swCryptoKeyMigrate (env : KeyEnv lib) (sourceId targetId : UInt32) :
    Prog String (Except Err Unit) := do
  if sourceId = targetId then return .error (cryptoErr .invalidArg)
  match ← swCryptoKeyOpen sizeMax fuel env sourceId with
  | .error e => return .error e
  | .ok sourceKey => swStoreKeyBlob sizeMax fuel pid sourceKey targetId

/-- The end of a call that makes a key: it is stored, and handed out if that went well. -/
def swKeepKey (key : Except Err (SwKey lib)) (keyId : UInt32) :
    Prog String (Except Err (SwKey lib)) := do
  match key with
  | .error e => return .error e
  | .ok key =>
    match ← swStoreKeyBlob sizeMax fuel pid key keyId with
    | .error e => return .error e
    | .ok () => return .ok key

/-- The key that `sw_crypto_key_generate_ec_impl` makes. -/
def newEcKey (env : KeyEnv lib) (curve : EcCurve) : Except Err (SwKey lib) := do
  if !env.alloc then .error (cryptoErr .noMem)
  if !env.pkSetup then .error (cryptoErr .hwFailure)
  env.rngLock
  match env.ecpGenKey curve with
  | none => .error (cryptoErr .hwFailure)
  | some pk => .ok (.ec pk)

/-- The key that `sw_crypto_key_generate_sym_impl` makes. -/
def newSymKey (env : KeyEnv lib) (keyBits : ℕ) : Except Err (SwKey lib) := do
  if !env.alloc then .error (cryptoErr .noMem)
  env.rngLock
  match env.ctrDrbgRandom (keyBits / 8) with
  | none => .error (cryptoErr .hwFailure)
  | some bs => .ok (.aes keyBits bs)

/-- The key that `sw_crypto_key_generate` makes for an entry. -/
def newKey (env : KeyEnv lib) : KeySpec → Except Err (SwKey lib)
  | .ec curve => newEcKey env curve
  | .aes keyBits => newSymKey env keyBits

/-- `sw_crypto_key_generate` -/
def swCryptoKeyGenerate (env : KeyEnv lib) (keyId : UInt32) (params : KeySpec) :
    Prog String (Except Err (SwKey lib)) :=
  swKeepKey sizeMax fuel pid (newKey env params) keyId

/-- `actrust_crypto_format_t`; `other` is any value that the enumeration does not name. -/
inductive KeyFormat where
  | privatePem
  | privateDer
  | other
  deriving DecidableEq, Repr

/-- `actrust_crypto_pem_to_der` for a private key. -/
def actrustCryptoPemToDer (env : KeyEnv lib) (pem : Bytes) (derCap : ℕ) : Except Err Bytes :=
  if pem = [] ∨ derCap = 0 then .error (cryptoErr .invalidArg)
  else if !env.pemAlloc then .error (cryptoErr .noMem)
  else
    match lib.pemRead pem with
    | none => .error (cryptoErr .io)
    | some [] => .error (cryptoErr .invalidArg)
    | some decoded =>
      if derCap < decoded.length then .error (cryptoErr .bufTooSmall) else .ok decoded

/-- The DER form of what `sw_crypto_key_import` was given. -/
def importedDer (env : KeyEnv lib) (key : Bytes) : KeyFormat → Except Err Bytes
  | .privatePem => actrustCryptoPemToDer env key ecDerMaxSize
  | .privateDer => if ecDerMaxSize < key.length then .error (cryptoErr .bufTooSmall) else .ok key
  | .other => .error (cryptoErr .invalidArg)

/-- The key that `sw_crypto_key_import` makes for a descriptor. -/
def importedKey (env : KeyEnv lib) (format : KeyFormat) (key : Bytes) :
    KeySpec → Except Err (SwKey lib)
  | .aes _ =>
    if key = [] then .error (cryptoErr .invalidArg) else .error (cryptoErr .unsupported)
  | .ec curve => do
    if key = [] then .error (cryptoErr .invalidArg)
    let der ← importedDer env key format
    match ← keyDeserialize env (keyTypeByte .ec :: der) with
    | .ec pk =>
      if lib.groupId pk = some curve then .ok (.ec pk) else .error (cryptoErr .invalidArg)
    | .aes _ _ => .error (cryptoErr .invalidArg)

/-- `sw_crypto_key_import` -/
def swCryptoKeyImport (env : KeyEnv lib) (keyId : UInt32) (format : KeyFormat) (key : Bytes) :
    Prog String (Except Err (SwKey lib)) :=
  match actrustCryptoKeyLookup keyId with
  | none => return .error (cryptoErr .unsupported)
  | some desc => swKeepKey sizeMax fuel pid (importedKey env format key desc.spec) keyId

/-! ### The calls -/

/-- `actrust_crypto_key_open` -/
def actrustCryptoKeyOpen (env : KeyEnv lib) (keyId : UInt32) :
    Prog String (Except Err (SwKey lib)) :=
  match actrustCryptoKeyLookup keyId with
  | none => return .error (cryptoErr .invalidArg)
  | some _ => swCryptoKeyOpen sizeMax fuel env keyId

/-- `actrust_crypto_key_generate` -/
def actrustCryptoKeyGenerate (env : KeyEnv lib) (keyId : UInt32) :
    Prog String (Except Err (SwKey lib)) :=
  match actrustCryptoKeyLookup keyId with
  | none => return .error (cryptoErr .invalidArg)
  | some desc => swCryptoKeyGenerate sizeMax fuel pid env keyId desc.spec

/-- Whether `actrust_crypto_key_migrate` hands the request to the backend. -/
def migrates (sourceId targetId : UInt32) : Bool :=
  match actrustCryptoKeyLookup sourceId, actrustCryptoKeyLookup targetId with
  | some source, some target => sourceId != targetId && source.spec.type == target.spec.type
  | _, _ => false

/-- `actrust_crypto_key_migrate` -/
def actrustCryptoKeyMigrate (env : KeyEnv lib) (sourceId targetId : UInt32) :
    Prog String (Except Err Unit) :=
  if sourceId = targetId then return .error (cryptoErr .invalidArg)
  else if !migrates sourceId targetId then return .error (cryptoErr .unsupported)
  else swCryptoKeyMigrate sizeMax fuel pid env sourceId targetId

/-- `actrust_crypto_key_import` -/
def actrustCryptoKeyImport (env : KeyEnv lib) (keyId : UInt32) (format : KeyFormat) (key : Bytes) :
    Prog String (Except Err (SwKey lib)) :=
  if key = [] then return .error (cryptoErr .invalidArg)
  else
    match actrustCryptoKeyLookup keyId with
    | none => return .error (cryptoErr .invalidArg)
    | some _ => swCryptoKeyImport sizeMax fuel pid env keyId format key

/-- `actrust_crypto_key_destroy` -/
def actrustCryptoKeyDestroy (keyId : UInt32) : Prog String (Except Err Unit) :=
  match actrustCryptoKeyLookup keyId with
  | none => return .error (cryptoErr .invalidArg)
  | some _ => swCryptoKeyDestroy keyId

/-- `actrust_crypto_cert_write` -/
def actrustCryptoCertWrite (certId : UInt32) (cert : Bytes) : Prog String (Except Err Unit) :=
  match actrustCryptoCertLookup certId with
  | none => return .error (cryptoErr .invalidArg)
  | some desc =>
    if cert = [] then return .error (cryptoErr .invalidArg)
    else
      actrustSecStoreWrite sizeMax fuel pid (secSlotCert desc.slotIndex) (some cert) cert.length

/-- `actrust_crypto_cert_read` -/
def actrustCryptoCertRead (certId : UInt32) (outCap : ℕ) : Prog String SecReadResult :=
  match actrustCryptoCertLookup certId with
  | none => return { status := .error (cryptoErr .invalidArg) }
  | some desc =>
    if outCap = 0 then return { status := .error (cryptoErr .invalidArg) }
    else actrustSecStoreRead sizeMax fuel (secSlotCert desc.slotIndex) outCap

/-- `actrust_crypto_cert_delete` -/
def actrustCryptoCertDelete (certId : UInt32) : Prog String (Except Err Unit) :=
  match actrustCryptoCertLookup certId with
  | none => return .error (cryptoErr .invalidArg)
  | some desc => actrustSecStoreDelete (secSlotCert desc.slotIndex)

end Backend

end TrustSdk.Crypto
