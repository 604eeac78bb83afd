import Mathlib

/-!
# ChaCha20 and Poly1305

The functions of RFC 8439 on bytes: the block function, the stream cipher, the one-time
authenticator and the authenticated encryption built from them.
-/

namespace GenSubnet.Library.ChaCha20

def rotateLeft (w n : UInt32) : UInt32 := (w <<< n) ||| (w >>> (32 - n))

/-- Section 2.1 -/
def quarterRound (a b c d : UInt32) : UInt32 × UInt32 × UInt32 × UInt32 :=
  let a := a + b
  let d := rotateLeft (d ^^^ a) 16
  let c := c + d
  let b := rotateLeft (b ^^^ c) 12
  let a := a + b
  let d := rotateLeft (d ^^^ a) 8
  let c := c + d
  let b := rotateLeft (b ^^^ c) 7
  (a, b, c, d)

example : quarterRound 0x11111111 0x01020304 0x9b8d6f43 0x01234567 =
    (0xea2a92f4, 0xcb1cf8ce, 0x4581472e, 0x5881c4bb) := by decide +kernel

abbrev State := Vector UInt32 16

def State.get (s : State) (i : Nat) : UInt32 := if h : i < 16 then s[i] else 0

def State.put (s : State) (i : Nat) (w : UInt32) : State := if h : i < 16 then s.set i w else s

/-- Section 2.2: the quarter round on the words at four places. -/
def State.quarterRound (s : State) (x y z w : Nat) : State :=
  let (a, b, c, d) := ChaCha20.quarterRound (s.get x) (s.get y) (s.get z) (s.get w)
  (((s.put x a).put y b).put z c).put w d

def State.innerBlock (s : State) : State :=
  let s := s.quarterRound 0 4 8 12
  let s := s.quarterRound 1 5 9 13
  let s := s.quarterRound 2 6 10 14
  let s := s.quarterRound 3 7 11 15
  let s := s.quarterRound 0 5 10 15
  let s := s.quarterRound 1 6 11 12
  let s := s.quarterRound 2 7 8 13
  s.quarterRound 3 4 9 14

def word (b₀ b₁ b₂ b₃ : UInt8) : UInt32 :=
  b₀.toUInt32 ||| (b₁.toUInt32 <<< 8) ||| (b₂.toUInt32 <<< 16) ||| (b₃.toUInt32 <<< 24)

def wordAt (bytes : List UInt8) (i : Nat) : UInt32 :=
  word (bytes.getD (4 * i) 0) (bytes.getD (4 * i + 1) 0) (bytes.getD (4 * i + 2) 0)
    (bytes.getD (4 * i + 3) 0)

def constants : List UInt32 := [0x61707865, 0x3320646e, 0x79622d32, 0x6b206574]

/-- Section 2.3: constants, key, counter, nonce. -/
def initial (key : List UInt8) (counter : UInt32) (nonce : List UInt8) : State :=
  .ofFn fun i =>
    if i.val < 4 then constants.getD i.val 0
    else if i.val < 12 then wordAt key (i.val - 4)
    else if i.val = 12 then counter
    else wordAt nonce (i.val - 13)

def serialize (w : UInt32) : List UInt8 :=
  [w.toUInt8, (w >>> 8).toUInt8, (w >>> 16).toUInt8, (w >>> 24).toUInt8]

def State.serialize (s : State) : List UInt8 := s.toList.flatMap ChaCha20.serialize

def block (key : List UInt8) (counter : UInt32) (nonce : List UInt8) : List UInt8 :=
  let s := initial key counter nonce
  State.serialize (Vector.zipWith (· + ·) (State.innerBlock^[10] s) s)

/-- Section 2.4: the key stream from a counter on. -/
def streamAt (key : List UInt8) (counter : UInt32) (nonce : List UInt8) (i : Nat) : UInt8 :=
  (block key (counter + UInt32.ofNat (i / 64)) nonce).getD (i % 64) 0

def encrypt (key : List UInt8) (counter : UInt32) (nonce text : List UInt8) : List UInt8 :=
  text.mapIdx fun i byte => byte ^^^ streamAt key counter nonce i

/-! ## Poly1305 -/

/-- The number of a little-endian byte string. -/
def leNat : List UInt8 → Nat
  | [] => 0
  | byte :: rest => byte.toNat + 256 * leNat rest

def leBytes : Nat → Nat → List UInt8
  | 0, _ => []
  | n + 1, value => UInt8.ofNat (value % 256) :: leBytes n (value / 256)

def clamp (r : Nat) : Nat := r &&& 0x0ffffffc0ffffffc0ffffffc0fffffff

def prime1305 : Nat := 2 ^ 130 - 5

def accumulate (r : Nat) : Nat → Nat → List UInt8 → Nat
  | 0, acc, _ => acc
  | fuel + 1, acc, message =>
      if message = [] then acc
      else accumulate r fuel ((acc + leNat (message.take 16 ++ [1])) * r % prime1305)
        (message.drop 16)

/-- Section 2.5 -/
def poly1305 (key message : List UInt8) : List UInt8 :=
  let r := clamp (leNat (key.take 16))
  let s := leNat ((key.drop 16).take 16)
  leBytes 16 (accumulate r message.length 0 message + s)

/-! ## Authenticated encryption -/

def pad16 (bytes : List UInt8) : List UInt8 := List.replicate ((16 - bytes.length % 16) % 16) 0

/-- Section 2.8: what the tag covers. -/
def macData (aad ciphertext : List UInt8) : List UInt8 :=
  aad ++ pad16 aad ++ ciphertext ++ pad16 ciphertext ++ leBytes 8 aad.length ++
    leBytes 8 ciphertext.length

/-- Section 2.6 -/
def polyKey (key nonce : List UInt8) : List UInt8 := (block key 0 nonce).take 32

def tag (key nonce aad ciphertext : List UInt8) : List UInt8 :=
  poly1305 (polyKey key nonce) (macData aad ciphertext)

def sealText (key nonce aad text : List UInt8) : List UInt8 :=
  let ciphertext := encrypt key 1 nonce text
  ciphertext ++ tag key nonce aad ciphertext

def openText (key nonce aad ciphertext mac : List UInt8) : Option (List UInt8) :=
  if tag key nonce aad ciphertext = mac then some (encrypt key 1 nonce ciphertext) else none

end GenSubnet.Library.ChaCha20
