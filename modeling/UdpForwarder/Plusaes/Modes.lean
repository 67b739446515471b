import UdpForwarder.Plusaes.State
import UdpForwarder.Lib.Buffer

/-! `plusaes::encrypt_ecb`, `decrypt_ecb`, `encrypt_cbc` and `decrypt_cbc`, on the buffers their
callers pass in. -/

namespace UdpForwarder.Plusaes

open Buffer

inductive Error where
  | ok
  | invalidDataSize
  | invalidKeySize
  | invalidBufferSize
  | invalidKey
  | invalidNonceSize
  deriving DecidableEq, Repr

/-- `a - b` on `unsigned long`. -/
def subULong (a b : Nat) : Nat := if b ≤ a then a - b else a + 2 ^ 64 - b

/-- `data[i] ^= v[i]` for the 16 bytes of a state. -/
def xorData (data v : Bytes) : Bytes := List.zipWith (· ^^^ ·) data v

def isValidKeySize (keySize : Nat) : Bool :=
  if keySize ≠ 16 ∧ keySize ≠ 24 ∧ keySize ≠ 32 then false else true

def getPaddedEncryptedSize (dataSize : Nat) : Nat :=
  dataSize + kStateSize - dataSize % kStateSize

def checkEncryptCond (dataSize keySize encryptedSize : Nat) (pads : Bool) : Error :=
  if !pads && dataSize % kStateSize ≠ 0 then .invalidDataSize
  else if !isValidKeySize keySize then .invalidKeySize
  else if pads then
    if encryptedSize < getPaddedEncryptedSize dataSize then .invalidBufferSize else .ok
  else
    if encryptedSize < dataSize then .invalidBufferSize else .ok

/-- `paddedSize` is `none` for a null pointer, else what the caller's variable holds. -/
def checkDecryptCond (dataSize keySize decryptedSize : Nat) (paddedSize : Option Nat) : Error :=
  if dataSize % 16 ≠ 0 then .invalidDataSize
  else if !isValidKeySize keySize then .invalidKeySize
  else match paddedSize with
    | none => if decryptedSize < dataSize then .invalidBufferSize else .ok
    | some _ =>
      -- the subtraction wraps for an empty ciphertext
      if decryptedSize < subULong dataSize kStateSize then .invalidBufferSize else .ok

/-- `check_padding`: its loop compares the last `padding` bytes of a state with `padding`. -/
def checkPadding (padding : Nat) (data : Bytes) : Bool :=
  if padding > kStateSize then false
  else (List.range padding).all fun i => (data.getD (kStateSize - 1 - i) 0).toNat = padding

def paddedState (padV : UInt8) (bytes : Bytes) : Bytes :=
  blit (List.replicate kStateSize padV) 0 bytes

def encryptEcb (data key encrypted : Bytes) (pads : Bool) : Error × Bytes :=
  let e := checkEncryptCond data.length key.length encrypted.length pads
  if e ≠ .ok then (e, encrypted)
  else
    let rkeys := expandKey key
    let bc := data.length / kStateSize
    let encrypted := (List.range' 0 bc).foldl (fun encrypted i =>
      blit encrypted (i * kStateSize)
        (encryptState rkeys (slice data (i * kStateSize) kStateSize))) encrypted
    if pads then
      let rem := data.length % kStateSize
      let padV := UInt8.ofNat (kStateSize - rem)
      let ib := paddedState padV (slice data (data.length - rem) rem)
      (.ok, blit encrypted (data.length - rem) (encryptState rkeys ib))
    else (.ok, encrypted)

structure Decrypted where
  error : Error
  decrypted : Bytes
  paddedSize : Option Nat
  deriving DecidableEq, Repr

/-- The end of both decryptions: `last` is the last decrypted state, block `bc` of the data. -/
def removePadding (bc : Nat) (last decrypted : Bytes) (paddedSize : Option Nat) : Decrypted :=
  match paddedSize with
  | some _ =>
    let padded := (last.getD (kStateSize - 1) 0).toNat
    let cs := subULong kStateSize padded
    if !checkPadding padded last then ⟨.invalidKey, decrypted, some padded⟩
    else if decrypted.length ≥ bc * kStateSize + cs then
      ⟨.ok, blit decrypted (bc * kStateSize) (last.take cs), some padded⟩
    else ⟨.invalidBufferSize, decrypted, some padded⟩
  | none => ⟨.ok, blit decrypted (bc * kStateSize) last, none⟩

def decryptEcb (data key decrypted : Bytes) (paddedSize : Option Nat) : Decrypted :=
  let e := checkDecryptCond data.length key.length decrypted.length paddedSize
  if e ≠ .ok then ⟨e, decrypted, paddedSize⟩
  else
    let rkeys := expandKey key
    let bc := data.length / kStateSize - 1
    let decrypted := (List.range' 0 bc).foldl (fun decrypted i =>
      blit decrypted (i * kStateSize)
        (decryptState rkeys (slice data (i * kStateSize) kStateSize))) decrypted
    let last := decryptState rkeys (slice data (bc * kStateSize) kStateSize)
    removePadding bc last decrypted paddedSize

/-- `if (iv) xor_data(s, *iv);` -/
def xorIv (s : Bytes) : Option Bytes → Bytes
  | some iv => xorData s iv
  | none => s

def encryptCbc (data key : Bytes) (iv : Option Bytes) (encrypted : Bytes) (pads : Bool) :
    Error × Bytes :=
  let e := checkEncryptCond data.length key.length encrypted.length pads
  if e ≠ .ok then (e, encrypted)
  else
    let rkeys := expandKey key
    let ge16 := decide (kStateSize ≤ data.length)
    let rem := data.length % kStateSize
    let padV := UInt8.ofNat (kStateSize - rem)
    -- encrypt 1st state
    let s := if ge16 then slice data 0 kStateSize else paddedState padV data
    let encrypted := blit encrypted 0 (encryptState rkeys (xorIv s iv))
    -- encrypt mid
    let bc := data.length / kStateSize
    let encrypted := (List.range' 1 (bc - 1)).foldl (fun encrypted i =>
      let offset := i * kStateSize
      let s := xorData (slice data offset kStateSize)
        (slice encrypted (offset - kStateSize) kStateSize)
      blit encrypted offset (encryptState rkeys s)) encrypted
    -- encrypt last
    if pads && ge16 then
      let ib := paddedState padV (slice data (data.length - rem) rem)
      let ib := xorData ib (slice encrypted ((bc - 1) * kStateSize) kStateSize)
      (.ok, blit encrypted (data.length - rem) (encryptState rkeys ib))
    else (.ok, encrypted)

def decryptCbc (data key : Bytes) (iv : Option Bytes) (decrypted : Bytes)
    (paddedSize : Option Nat) : Decrypted :=
  let e := checkDecryptCond data.length key.length decrypted.length paddedSize
  if e ≠ .ok then ⟨e, decrypted, paddedSize⟩
  else
    let rkeys := expandKey key
    -- decrypt 1st state
    let decrypted := blit decrypted 0 (xorIv (decryptState rkeys (slice data 0 kStateSize)) iv)
    -- decrypt mid
    let bc := data.length / kStateSize - 1
    let decrypted := (List.range' 1 (bc - 1)).foldl (fun decrypted i =>
      let offset := i * kStateSize
      blit decrypted offset (xorData (decryptState rkeys (slice data offset kStateSize))
        (slice data (offset - kStateSize) kStateSize))) decrypted
    -- decrypt last
    if data.length > kStateSize then
      let last := xorData (decryptState rkeys (slice data (bc * kStateSize) kStateSize))
        (slice data (bc * kStateSize - kStateSize) kStateSize)
      removePadding bc last decrypted paddedSize
    else
      -- the only block is moved out of the buffer, which is wiped
      let last := slice decrypted 0 data.length
      removePadding bc last (List.replicate decrypted.length 0) paddedSize

/-- `key_from_string`, on the `char[17]` that holds the key and its terminator. -/
def keyFromString (keyStr : Bytes) : Bytes := keyStr.take (keyStr.length - 1)

end UdpForwarder.Plusaes
