import TrustSdk.Lib.BlockPadding
import TrustSdk.Lib.ByteStore
import TrustSdk.Common.Errno

/-!
# AES-CBC in software

The CBC cases of `sw_crypto_aes_encrypt` and `sw_crypto_aes_decrypt`, with the block cipher of the
crypto library as a parameter (`Mbedtls`). An output buffer is an image and its capacity, so that
what a call writes, and where, can be read off the image it leaves.
-/

namespace TrustSdk.Crypto

open ByteStore BlockPadding

/-- `CRYPTO_ERR(reason)` -/
def cryptoErr (reason : ErrCode) : Err := ⟨.crypto, reason⟩

/-- `AES_BLOCK_SIZE` -/
def aesBlockSize : ℕ := 16

/-- `actrust_crypto_key_type_t` -/
inductive CryptoKeyType where
  | ec
  | aes
  deriving DecidableEq

/-- `actrust_crypto_padding_t`; `other` is any value that the enumeration does not name. -/
inductive CryptoPadding where
  | none
  | pkcs7
  | zeros
  | other
  deriving DecidableEq

/-- The two directions of `aes_setkey`. -/
inductive AesMode where
  | encrypt
  | decrypt
  deriving DecidableEq

/-- The key of `mbedtls_aes_setkey_enc` and its sibling. -/
structure AesKey where
  data : Bytes
  bits : ℕ

/-- What this module reads of a key handle. -/
structure CryptoKey where
  type : CryptoKeyType
  aes : AesKey

/-- The AES calls of the crypto library. A call that returns an error is `none`; `aesCryptCbc`
returns what it writes to its output. -/
structure Mbedtls where
  AesContext : Type
  aesSetkeyEnc : Bytes → ℕ → Option AesContext
  aesSetkeyDec : Bytes → ℕ → Option AesContext
  aesCryptCbc : AesContext → AesMode → (iv input : Bytes) → Option Bytes

namespace Mbedtls

variable (lib : Mbedtls)

/-- `aes_setkey` -/
def aesSetkey : AesMode → AesKey → Option lib.AesContext
  | .encrypt, key => lib.aesSetkeyEnc key.data key.bits
  | .decrypt, key => lib.aesSetkeyDec key.data key.bits

/-- A key set up for one direction, and the cipher applied. -/
def cbc (key : AesKey) (mode : AesMode) (iv input : Bytes) : Option Bytes :=
  (lib.aesSetkey mode key).bind fun aes => lib.aesCryptCbc aes mode iv input

/-- What the callers rely on: the cipher preserves lengths, and on whole blocks the two
directions undo each other. -/
structure Inverse : Prop where
  length : ∀ aes mode iv input out, lib.aesCryptCbc aes mode iv input = some out →
    out.length = input.length
  inverse : ∀ key iv plain cipher, iv.length = aesBlockSize → plain.length % aesBlockSize = 0 →
    cipher.length % aesBlockSize = 0 →
    (lib.cbc key .encrypt iv plain = some cipher ↔ lib.cbc key .decrypt iv cipher = some plain)

end Mbedtls

variable (lib : Mbedtls)

/-- The status and the output buffer. A failing cipher leaves the output wiped. -/
def aesCbcCrypt (key : AesKey) (mode : AesMode) (iv input : Bytes) (out : Image) :
    Except Err Unit × Image :=
  if iv.length ≠ aesBlockSize ∨ input.length % aesBlockSize ≠ 0 then
    (.error (cryptoErr .invalidArg), out)
  else
    match lib.aesSetkey mode key with
    | none => (.error (cryptoErr .hwFailure), out)
    | some aes =>
      match lib.aesCryptCbc aes mode iv input with
      | none => (.error (cryptoErr .hwFailure), patch out 0 (List.replicate input.length 0))
      | some data => (.ok (), patch out 0 data)

/-- What a call leaves: its status, the output buffer, and `*output_len` where it writes it. -/
structure AesAnswer where
  status : Except Err Unit
  output : Image
  outputLen : Option ℕ

/-- The padded length and the padding byte, for `SIZE_MAX` as `sizeMax`. -/
def cbcPaddedLen (sizeMax : ℕ) (padding : CryptoPadding) (inputLen : ℕ) : Except Err (ℕ × UInt8) :=
  match padding with
  | .none =>
    if inputLen % aesBlockSize ≠ 0 then .error (cryptoErr .invalidArg) else .ok (inputLen, 0)
  | .pkcs7 =>
    let padVal : UInt8 := .ofNat (aesBlockSize - inputLen % aesBlockSize)
    if sizeMax - padVal.toNat < inputLen then .error (cryptoErr .invalidArg)
    else .ok (inputLen + padVal.toNat, padVal)
  | .zeros =>
    if sizeMax - aesBlockSize + 1 < inputLen then .error (cryptoErr .invalidArg)
    else
      -- the mask clears the bits below the block size
      let paddedLen := (inputLen + aesBlockSize - 1) / aesBlockSize * aesBlockSize
      .ok (if paddedLen = 0 then aesBlockSize else paddedLen, 0)
  | .other => .error (cryptoErr .invalidArg)

/-- `sw_crypto_aes_encrypt` for `ACTRUST_CRYPTO_AES_CBC` -/
def swCryptoAesEncrypt (sizeMax : ℕ) (key : CryptoKey) (padding : CryptoPadding) (iv input : Bytes)
    (output : Image) (outputCap : ℕ) : AesAnswer :=
  if key.type ≠ .aes then ⟨.error (cryptoErr .invalidArg), output, none⟩
  else
    match cbcPaddedLen sizeMax padding input.length with
    | .error e => ⟨.error e, output, none⟩
    | .ok (paddedLen, padVal) =>
      if outputCap < paddedLen then ⟨.error (cryptoErr .bufTooSmall), output, some paddedLen⟩
      else
        -- the padded input is built in the output buffer
        let copied := patch output 0 input
        let padded :=
          if input.length < paddedLen then
            patch copied input.length (List.replicate (paddedLen - input.length) padVal)
          else copied
        match aesCbcCrypt lib key.aes .encrypt iv (slice padded 0 paddedLen) padded with
        | (.ok _, out) => ⟨.ok (), out, some paddedLen⟩
        | (.error e, out) => ⟨.error e, out, none⟩

/-- The loop that takes the zeros off the end. -/
def zerosStripped (output : Image) : (len : ℕ) → ℕ
  | 0 => 0
  | len + 1 => if output len = 0 then zerosStripped output len else len + 1

/-- Strip the padding off the `inputLen` bytes in the output buffer; a padding that is not
accepted leaves the buffer wiped. -/
def stripPadding (padding : CryptoPadding) (output : Image) (inputLen : ℕ) : AesAnswer :=
  let refused : AesAnswer :=
    ⟨.error (cryptoErr .invalidArg), patch output 0 (List.replicate inputLen 0), none⟩
  match padding with
  | .none => ⟨.ok (), output, some inputLen⟩
  | .pkcs7 =>
    let padVal := output (inputLen - 1)
    if padVal = 0 ∨ aesBlockSize < padVal.toNat then refused
    else if slice output (inputLen - padVal.toNat) padVal.toNat ≠
        List.replicate padVal.toNat padVal then refused
    else ⟨.ok (), output, some (inputLen - padVal.toNat)⟩
  | .zeros => ⟨.ok (), output, some (zerosStripped output inputLen)⟩
  | .other => refused

/-- `sw_crypto_aes_decrypt` for `ACTRUST_CRYPTO_AES_CBC` -/
def swCryptoAesDecrypt (key : CryptoKey) (padding : CryptoPadding) (iv input : Bytes)
    (output : Image) (outputCap : ℕ) : AesAnswer :=
  if key.type ≠ .aes then ⟨.error (cryptoErr .invalidArg), output, none⟩
  else if outputCap < input.length then
    ⟨.error (cryptoErr .bufTooSmall), output, some input.length⟩
  else if input.length % aesBlockSize ≠ 0 ∨ input.length = 0 then
    ⟨.error (cryptoErr .invalidArg), output, none⟩
  else
    match aesCbcCrypt lib key.aes .decrypt iv input output with
    | (.error e, out) => ⟨.error e, out, none⟩
    | (.ok _, out) => stripPadding padding out input.length

end TrustSdk.Crypto
