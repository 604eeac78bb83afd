import GenSubnet.Library.ChaCha20

/-!
# The credential circuit

`CredentialCircuit` of `circuit.go`: the values of its variables, and what its constraints demand of
them. The gadgets are taken as their documentation describes them; the words and bytes that they
hand on are those of the field elements that they have checked.
-/

namespace GenSubnet.Credential
open Library Library.ChaCha20

def chunkSize : Nat := 256

def maxToken : Nat := 4096

/-- The order of the scalar field of BN254. -/
def scalarField : Nat :=
  21888242871839275222246405745257275088548364400416034343698204186575808495617

instance : NeZero scalarField := ⟨by decide⟩

abbrev Variable := ZMod scalarField

/-- Variables of 32, 12 or 256 bytes are functions of the place. -/
structure CredentialCircuit where
  key : Fin 32 → Variable
  commitment : Variable
  nonce : Fin 12 → Variable
  counter : Variable
  /-- 0: MAC key, 1: token, 2: KeyUpdate -/
  kind : Variable
  length : Variable
  tokenLength : Variable
  ciphertext : Fin chunkSize → Variable
  macKey : Fin 32 → Variable

/-! ## Gadgets -/

/-- A comparator for numbers whose difference is bounded: on such numbers, and only there, it is
known to tell which one is less. -/
structure BoundedComparator (bound : Nat) where
  isLess : Variable → Variable → Variable → Prop
  isLess_iff : ∀ a b less, a.val ≤ b.val + bound → b.val ≤ a.val + bound →
    (isLess a b less ↔ less = if a.val < b.val then 1 else 0)

structure Gadgets where
  mimc : List Variable → Variable
  compare : BoundedComparator (maxToken + chunkSize)

def isZero (v : Variable) : Variable := if v = 0 then 1 else 0

/-- `AssertIsLessOrEqual` -/
def LessOrEqual (v : Variable) (bound : Nat) : Prop := v.val ≤ bound

/-- What `ByteValueOf` asserts, and the byte that it hands on. -/
def IsByte (v : Variable) : Prop := v.val < 256

def byteValueOf (v : Variable) : UInt8 := UInt8.ofNat v.val

/-- What `ValueOf` asserts of a word, and the word that it hands on. -/
def IsWord (v : Variable) : Prop := v.val < 2 ^ 32

def wordValueOf (v : Variable) : UInt32 := UInt32.ofNat v.val

def value (byte : UInt8) : Variable := (byte.toNat : Variable)

/-- `PackLSB` of four bytes that begin at a place. -/
def packAt {n : Nat} (bytes : Fin n → Variable) (i : Nat) (h : 4 * i + 3 < n) : UInt32 :=
  word (byteValueOf (bytes ⟨4 * i, by omega⟩)) (byteValueOf (bytes ⟨4 * i + 1, by omega⟩))
    (byteValueOf (bytes ⟨4 * i + 2, by omega⟩)) (byteValueOf (bytes ⟨4 * i + 3, h⟩))

/-! ## The block function -/

/-- The quarter round, one assignment after the other. -/
def qr (s : State) (a b c d : Nat) : State :=
  let s := s.put a (s.get a + s.get b)
  let s := s.put d (rotateLeft (s.get d ^^^ s.get a) 16)
  let s := s.put c (s.get c + s.get d)
  let s := s.put b (rotateLeft (s.get b ^^^ s.get c) 12)
  let s := s.put a (s.get a + s.get b)
  let s := s.put d (rotateLeft (s.get d ^^^ s.get a) 8)
  let s := s.put c (s.get c + s.get d)
  s.put b (rotateLeft (s.get b ^^^ s.get c) 7)

def rounds (s : State) : State :=
  let s := qr s 0 4 8 12
  let s := qr s 1 5 9 13
  let s := qr s 2 6 10 14
  let s := qr s 3 7 11 15
  let s := qr s 0 5 10 15
  let s := qr s 1 6 11 12
  let s := qr s 2 7 8 13
  qr s 3 4 9 14

def chachaBlock (key : Fin 8 → UInt32) (nonce : Fin 3 → UInt32) (counter : UInt32) : List UInt8 :=
  let initial : State := .ofFn fun i =>
    if i.val < 4 then
      [(0x61707865 : UInt32), 0x3320646e, 0x79622d32, 0x6b206574].getD i.val 0
    else if h : i.val - 4 < 8 then key ⟨i.val - 4, h⟩
    else if i.val = 12 then counter
    else nonce ⟨(i.val - 13) % 3, Nat.mod_lt _ (by decide)⟩
  let s := rounds^[10] initial
  (Vector.zipWith (· + ·) s initial).toList.flatMap serialize

/-! ## The constraints -/

def validByte (b : UInt8) : Bool :=
  ('a'.toNat ≤ b.toNat ∧ b.toNat ≤ 'z'.toNat) ∨ ('A'.toNat ≤ b.toNat ∧ b.toNat ≤ 'Z'.toNat) ∨
    ('0'.toNat ≤ b.toNat ∧ b.toNat ≤ '9'.toNat) ∨
    b.toNat ∈ ['-', '_', '.', '~', '+', '/', '='].map Char.toNat

/-- The entry of the lookup table at a byte. -/
def allowed (b : UInt8) : Variable := if validByte b then 1 else 0

def fixedUpdate : List UInt8 := [24, 0, 0, 1, 0, 22]

namespace CredentialCircuit

variable (c : CredentialCircuit)

def mac : Variable := isZero c.kind

def auth : Variable := isZero (c.kind - 1)

def update : Variable := isZero (c.kind - 2)

def keyWords (i : Fin 8) : UInt32 := packAt c.key i.val (by omega)

def nonceWords (i : Fin 3) : UInt32 := packAt c.nonce i.val (by omega)

/-- Sixteen bytes of the key as one element. -/
def packed (i : Fin 2) : Variable :=
  (List.finRange 16).foldl
    (fun packed j => packed * 256 + c.key ⟨i.val * 16 + j.val, by omega⟩) 0

/-- The plaintext byte at a place: `i` is `block*64 + j`. -/
def plaintext (i : Fin chunkSize) : UInt8 :=
  byteValueOf (c.ciphertext i) ^^^
    (chachaBlock c.keyWords c.nonceWords (wordValueOf (c.counter + (i.val / 64 : Nat)))).getD
      (i.val % 64) 0

/-- The place in the whole record. -/
def position (i : Fin chunkSize) : Variable :=
  if c.auth = 1 then (c.counter - 1) * 64 + (i.val : Variable) else 0

/-- The constraints on one byte of the chunk. -/
structure ByteConstraints (g : Gadgets) (i : Fin chunkSize) (active less : Variable) : Prop where
  byte : IsByte (c.ciphertext i)
  isLess : g.compare.isLess (i.val : Variable) c.length active
  padding : (1 - active) * c.ciphertext i = 0
  macKey : ∀ h : i.val < 32, c.mac * (value (c.plaintext i) - c.macKey ⟨i.val, h⟩) = 0
  update : i.val < 6 →
    c.update * (value (c.plaintext i) - value (fixedUpdate.getD i.val 0)) = 0
  beyond : g.compare.isLess c.tokenLength (c.position i) less
  inside : c.auth * active * less = 0
  last : c.auth * active * isZero (c.position i - c.tokenLength) *
    (value (c.plaintext i) - 23) = 0
  allowed : c.auth * active * (1 - isZero (c.position i - c.tokenLength)) *
    (allowed (c.plaintext i) - 1) = 0

/-- `Define`: the values satisfy the circuit. -/
structure Define (g : Gadgets) : Prop where
  key : ∀ i, IsByte (c.key i)
  commitment : g.mimc [4041301, c.packed 0, c.packed 1] = c.commitment
  nonce : ∀ i, IsByte (c.nonce i)
  kind : c.mac + c.auth + c.update = 1
  lengthBound : LessOrEqual c.length chunkSize
  lengthPositive : c.length ≠ 0
  tokenLengthBound : LessOrEqual c.tokenLength maxToken
  tokenLengthEnough : 64 ≤ c.tokenLength.val
  counterBound : LessOrEqual c.counter (maxToken / 64 + 1)
  macCounter : c.mac * c.counter = 0
  updateCounter : c.update * (c.counter - 1) = 0
  macLength : c.mac * (c.length - 32) = 0
  updateLength : c.update * (c.length - 6) = 0
  authCounter : c.auth * isZero c.counter = 0
  counterWords : ∀ block < chunkSize / 64, IsWord (c.counter + (block : Nat))
  bytes : ∀ i, ∃ active less, c.ByteConstraints g i active less
  macKeyBytes : ∀ i, IsByte (c.macKey i)
  macKeyPadding : ∀ i, (1 - c.mac) * c.macKey i = 0

end CredentialCircuit

end GenSubnet.Credential
