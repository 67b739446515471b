import UdpForwarder.Common
import Mathlib.Data.BitVec

/-! `plusaes::detail`: the AES state, its rounds and the key schedule. -/

namespace UdpForwarder.Plusaes

abbrev Word := BitVec 32

def kStateSize : Nat := 16

structure State where
  w0 : Word
  w1 : Word
  w2 : Word
  w3 : Word
  deriving DecidableEq, Repr

abbrev RoundKey := State

def State.get (state : State) (index : Nat) : Word :=
  match index with
  | 0 => state.w0
  | 1 => state.w1
  | 2 => state.w2
  | _ => state.w3

/-- A loop `for (int i = 0; i < kBlockSize; ++i)` that assigns `state[i]`. -/
def State.forEach (assign : Nat → Word) : State := ⟨assign 0, assign 1, assign 2, assign 3⟩

def addRoundKey (key : RoundKey) (state : State) : State :=
  .forEach fun i => state.get i ^^^ key.get i

def kSbox : List (BitVec 8) := [
  0x63, 0x7c, 0x77, 0x7b, 0xf2, 0x6b, 0x6f, 0xc5, 0x30, 0x01, 0x67, 0x2b, 0xfe, 0xd7, 0xab, 0x76,
  0xca, 0x82, 0xc9, 0x7d, 0xfa, 0x59, 0x47, 0xf0, 0xad, 0xd4, 0xa2, 0xaf, 0x9c, 0xa4, 0x72, 0xc0,
  0xb7, 0xfd, 0x93, 0x26, 0x36, 0x3f, 0xf7, 0xcc, 0x34, 0xa5, 0xe5, 0xf1, 0x71, 0xd8, 0x31, 0x15,
  0x04, 0xc7, 0x23, 0xc3, 0x18, 0x96, 0x05, 0x9a, 0x07, 0x12, 0x80, 0xe2, 0xeb, 0x27, 0xb2, 0x75,
  0x09, 0x83, 0x2c, 0x1a, 0x1b, 0x6e, 0x5a, 0xa0, 0x52, 0x3b, 0xd6, 0xb3, 0x29, 0xe3, 0x2f, 0x84,
  0x53, 0xd1, 0x00, 0xed, 0x20, 0xfc, 0xb1, 0x5b, 0x6a, 0xcb, 0xbe, 0x39, 0x4a, 0x4c, 0x58, 0xcf,
  0xd0, 0xef, 0xaa, 0xfb, 0x43, 0x4d, 0x33, 0x85, 0x45, 0xf9, 0x02, 0x7f, 0x50, 0x3c, 0x9f, 0xa8,
  0x51, 0xa3, 0x40, 0x8f, 0x92, 0x9d, 0x38, 0xf5, 0xbc, 0xb6, 0xda, 0x21, 0x10, 0xff, 0xf3, 0xd2,
  0xcd, 0x0c, 0x13, 0xec, 0x5f, 0x97, 0x44, 0x17, 0xc4, 0xa7, 0x7e, 0x3d, 0x64, 0x5d, 0x19, 0x73,
  0x60, 0x81, 0x4f, 0xdc, 0x22, 0x2a, 0x90, 0x88, 0x46, 0xee, 0xb8, 0x14, 0xde, 0x5e, 0x0b, 0xdb,
  0xe0, 0x32, 0x3a, 0x0a, 0x49, 0x06, 0x24, 0x5c, 0xc2, 0xd3, 0xac, 0x62, 0x91, 0x95, 0xe4, 0x79,
  0xe7, 0xc8, 0x37, 0x6d, 0x8d, 0xd5, 0x4e, 0xa9, 0x6c, 0x56, 0xf4, 0xea, 0x65, 0x7a, 0xae, 0x08,
  0xba, 0x78, 0x25, 0x2e, 0x1c, 0xa6, 0xb4, 0xc6, 0xe8, 0xdd, 0x74, 0x1f, 0x4b, 0xbd, 0x8b, 0x8a,
  0x70, 0x3e, 0xb5, 0x66, 0x48, 0x03, 0xf6, 0x0e, 0x61, 0x35, 0x57, 0xb9, 0x86, 0xc1, 0x1d, 0x9e,
  0xe1, 0xf8, 0x98, 0x11, 0x69, 0xd9, 0x8e, 0x94, 0x9b, 0x1e, 0x87, 0xe9, 0xce, 0x55, 0x28, 0xdf,
  0x8c, 0xa1, 0x89, 0x0d, 0xbf, 0xe6, 0x42, 0x68, 0x41, 0x99, 0x2d, 0x0f, 0xb0, 0x54, 0xbb, 0x16]

def kInvSbox : List (BitVec 8) := [
  0x52, 0x09, 0x6a, 0xd5, 0x30, 0x36, 0xa5, 0x38, 0xbf, 0x40, 0xa3, 0x9e, 0x81, 0xf3, 0xd7, 0xfb,
  0x7c, 0xe3, 0x39, 0x82, 0x9b, 0x2f, 0xff, 0x87, 0x34, 0x8e, 0x43, 0x44, 0xc4, 0xde, 0xe9, 0xcb,
  0x54, 0x7b, 0x94, 0x32, 0xa6, 0xc2, 0x23, 0x3d, 0xee, 0x4c, 0x95, 0x0b, 0x42, 0xfa, 0xc3, 0x4e,
  0x08, 0x2e, 0xa1, 0x66, 0x28, 0xd9, 0x24, 0xb2, 0x76, 0x5b, 0xa2, 0x49, 0x6d, 0x8b, 0xd1, 0x25,
  0x72, 0xf8, 0xf6, 0x64, 0x86, 0x68, 0x98, 0x16, 0xd4, 0xa4, 0x5c, 0xcc, 0x5d, 0x65, 0xb6, 0x92,
  0x6c, 0x70, 0x48, 0x50, 0xfd, 0xed, 0xb9, 0xda, 0x5e, 0x15, 0x46, 0x57, 0xa7, 0x8d, 0x9d, 0x84,
  0x90, 0xd8, 0xab, 0x00, 0x8c, 0xbc, 0xd3, 0x0a, 0xf7, 0xe4, 0x58, 0x05, 0xb8, 0xb3, 0x45, 0x06,
  0xd0, 0x2c, 0x1e, 0x8f, 0xca, 0x3f, 0x0f, 0x02, 0xc1, 0xaf, 0xbd, 0x03, 0x01, 0x13, 0x8a, 0x6b,
  0x3a, 0x91, 0x11, 0x41, 0x4f, 0x67, 0xdc, 0xea, 0x97, 0xf2, 0xcf, 0xce, 0xf0, 0xb4, 0xe6, 0x73,
  0x96, 0xac, 0x74, 0x22, 0xe7, 0xad, 0x35, 0x85, 0xe2, 0xf9, 0x37, 0xe8, 0x1c, 0x75, 0xdf, 0x6e,
  0x47, 0xf1, 0x1a, 0x71, 0x1d, 0x29, 0xc5, 0x89, 0x6f, 0xb7, 0x62, 0x0e, 0xaa, 0x18, 0xbe, 0x1b,
  0xfc, 0x56, 0x3e, 0x4b, 0xc6, 0xd2, 0x79, 0x20, 0x9a, 0xdb, 0xc0, 0xfe, 0x78, 0xcd, 0x5a, 0xf4,
  0x1f, 0xdd, 0xa8, 0x33, 0x88, 0x07, 0xc7, 0x31, 0xb1, 0x12, 0x10, 0x59, 0x27, 0x80, 0xec, 0x5f,
  0x60, 0x51, 0x7f, 0xa9, 0x19, 0xb5, 0x4a, 0x0d, 0x2d, 0xe5, 0x7a, 0x9f, 0x93, 0xc9, 0x9c, 0xef,
  0xa0, 0xe0, 0x3b, 0x4d, 0xae, 0x2a, 0xf5, 0xb0, 0xc8, 0xeb, 0xbb, 0x3c, 0x83, 0x53, 0x99, 0x61,
  0x17, 0x2b, 0x04, 0x7e, 0xba, 0x77, 0xd6, 0x26, 0xe1, 0x69, 0x14, 0x63, 0x55, 0x21, 0x0c, 0x7d]

/-- `(w >> 8 * index) & 0xFF` -/
def byteAt (w : Word) (index : Nat) : BitVec 8 := (w >>> (8 * index)).setWidth 8

/-- `b0 << 0 | b1 << 8 | b2 << 16 | b3 << 24` -/
def packWord (b0 b1 b2 b3 : BitVec 8) : Word :=
  b0.setWidth 32 ||| b1.setWidth 32 <<< 8 ||| b2.setWidth 32 <<< 16 ||| b3.setWidth 32 <<< 24

def substitute (box : List (BitVec 8)) (byte : BitVec 8) : BitVec 8 := box.getD byte.toNat 0

def subWord (w : Word) : Word :=
  packWord (substitute kSbox (byteAt w 0)) (substitute kSbox (byteAt w 1))
    (substitute kSbox (byteAt w 2)) (substitute kSbox (byteAt w 3))

def invSubWord (w : Word) : Word :=
  packWord (substitute kInvSbox (byteAt w 0)) (substitute kInvSbox (byteAt w 1))
    (substitute kInvSbox (byteAt w 2)) (substitute kInvSbox (byteAt w 3))

def subBytes (state : State) : State := .forEach fun i => subWord (state.get i)

def invSubBytes (state : State) : State := .forEach fun i => invSubWord (state.get i)

/-- `(x & m1) | (y & m2)` with `m2 = 0xFF << (r * 8)` and `m1 = ~m2` -/
def blend (r : Nat) (x y : Word) : Word :=
  let m2 : Word := 0xFF#32 <<< (r * 8)
  let m1 : Word := ~~~m2
  (x &&& m1) ||| (y &&& m2)

def shiftRows (ori : State) : State :=
  [1, 2, 3].foldl
    (fun state r => .forEach fun c => blend r (state.get c) (ori.get ((c + r) % 4))) ori

def invShiftRows (ori : State) : State :=
  [1, 2, 3].foldl
    (fun state r => .forEach fun c => blend r (state.get c) (ori.get ((c + 4 - r) % 4))) ori

def mul2 (b : BitVec 8) : BitVec 8 :=
  let m2 := b <<< 1
  if b &&& 0x80 ≠ 0 then m2 ^^^ 0x1B else m2

/-- The loop of `mul`: `v` and `t` before bit `i` of `m` is looked at. -/
def mulLoop (m : BitVec 8) : Nat → Nat → BitVec 8 → BitVec 8 → BitVec 8
  | 0, _, v, _ => v
  | left + 1, i, v, t =>
    mulLoop m left (i + 1) (if (m >>> i) &&& 0x01 ≠ 0 then v ^^^ t else v) (mul2 t)

def mul (b m : BitVec 8) : BitVec 8 := mulLoop m 8 0 0 b

def mixColumn (w : Word) : Word :=
  let v01 := byteAt w 0
  let v11 := byteAt w 1
  let v21 := byteAt w 2
  let v31 := byteAt w 3
  let v02 := mul2 v01
  let v12 := mul2 v11
  let v22 := mul2 v21
  let v32 := mul2 v31
  let v03 := v02 ^^^ v01
  let v13 := v12 ^^^ v11
  let v23 := v22 ^^^ v21
  let v33 := v32 ^^^ v31
  packWord (v02 ^^^ v13 ^^^ v21 ^^^ v31) (v01 ^^^ v12 ^^^ v23 ^^^ v31)
    (v01 ^^^ v11 ^^^ v22 ^^^ v33) (v03 ^^^ v11 ^^^ v21 ^^^ v32)

def mixColumns (state : State) : State := .forEach fun i => mixColumn (state.get i)

def invMixColumn (w : Word) : Word :=
  let v0 := byteAt w 0
  let v1 := byteAt w 1
  let v2 := byteAt w 2
  let v3 := byteAt w 3
  packWord (mul v0 0x0E ^^^ mul v1 0x0B ^^^ mul v2 0x0D ^^^ mul v3 0x09)
    (mul v0 0x09 ^^^ mul v1 0x0E ^^^ mul v2 0x0B ^^^ mul v3 0x0D)
    (mul v0 0x0D ^^^ mul v1 0x09 ^^^ mul v2 0x0E ^^^ mul v3 0x0B)
    (mul v0 0x0B ^^^ mul v1 0x0D ^^^ mul v2 0x09 ^^^ mul v3 0x0E)

def invMixColumns (state : State) : State := .forEach fun i => invMixColumn (state.get i)

def rotWord (v : Word) : Word := ((v >>> 8) &&& 0x00FFFFFF) ||| ((v &&& 0xFF) <<< 24)

/-- `memcpy` of four bytes into a `Word` on a little-endian machine. -/
def loadWord (data : Bytes) (offset : Nat) : Word :=
  packWord (data.getD offset 0).toBitVec (data.getD (offset + 1) 0).toBitVec
    (data.getD (offset + 2) 0).toBitVec (data.getD (offset + 3) 0).toBitVec

def storeWord (w : Word) : Bytes :=
  [⟨byteAt w 0⟩, ⟨byteAt w 1⟩, ⟨byteAt w 2⟩, ⟨byteAt w 3⟩]

def rcon : List Word :=
  [0x00, 0x01, 0x02, 0x04, 0x08, 0x10, 0x20, 0x40, 0x80, 0x1b, 0x36]

/-- `get_round_count`, defined for the three key sizes `expand_key` lets through. -/
def getRoundCount (keySize : Nat) : Nat :=
  match keySize with
  | 16 => 10
  | 24 => 12
  | _ => 14

/-- One round of the loop that extends the schedule `w` by `w[i]`. -/
def scheduleNext (nk : Nat) (w : Array Word) : Array Word :=
  let i := w.size
  let t := w.getD (i - 1) 0
  let t :=
    if i % nk = 0 then subWord (rotWord t) ^^^ rcon.getD (i / nk) 0
    else if nk > 6 ∧ i % nk = 4 then subWord t
    else t
  w.push (t ^^^ w.getD (i - nk) 0)

/-- `expand_key`. A key size it throws on never reaches it: every caller checks before. -/
def expandKey (key : Bytes) : List RoundKey :=
  let nk := key.length / 4
  let nr := getRoundCount key.length
  let w := ((List.range nk).map fun i => loadWord key (i * 4)).toArray
  let w := (scheduleNext nk)^[4 * (nr + 1) - nk] w
  (List.range (nr + 1)).map fun i =>
    .forEach fun j => w.getD (4 * i + j) 0

def copyBytesToState (data : Bytes) : State := .forEach fun i => loadWord data (4 * i)

def copyStateToBytes (state : State) : Bytes :=
  storeWord state.w0 ++ storeWord state.w1 ++ storeWord state.w2 ++ storeWord state.w3

/-- A round key by index; `expand_key` always fills `nr + 1` of them. -/
def roundKey (rkeys : List RoundKey) (index : Nat) : RoundKey := rkeys.getD index ⟨0, 0, 0, 0⟩

def encryptRound (rkeys : List RoundKey) (s : State) (i : Nat) : State :=
  addRoundKey (roundKey rkeys i) (mixColumns (shiftRows (subBytes s)))

def decryptRound (rkeys : List RoundKey) (s : State) (i : Nat) : State :=
  invSubBytes (invShiftRows (invMixColumns (addRoundKey (roundKey rkeys i) s)))

/-- The indices of the middle rounds, `1 .. rkeys.size() - 2`. -/
def middleRounds (rkeys : List RoundKey) : List Nat := List.range' 1 (rkeys.length - 2)

def encryptState (rkeys : List RoundKey) (data : Bytes) : Bytes :=
  let s := copyBytesToState data
  let s := addRoundKey (roundKey rkeys 0) s
  let s := (middleRounds rkeys).foldl (encryptRound rkeys) s
  let s := shiftRows (subBytes s)
  let s := addRoundKey (roundKey rkeys (rkeys.length - 1)) s
  copyStateToBytes s

def decryptState (rkeys : List RoundKey) (data : Bytes) : Bytes :=
  let s := copyBytesToState data
  let s := addRoundKey (roundKey rkeys (rkeys.length - 1)) s
  let s := invSubBytes (invShiftRows s)
  let s := (middleRounds rkeys).reverse.foldl (decryptRound rkeys) s
  let s := addRoundKey (roundKey rkeys 0) s
  copyStateToBytes s

end UdpForwarder.Plusaes
