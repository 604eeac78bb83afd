import GenSubnet.Credential.Circuit
import GenSubnet.Library.Hex

/-!
# The assignments of a proof

`proof.go`: the records that the verifier has observed, the assignments that it derives from them
and the bundle, and the bundle that the prover makes. The proofs themselves are made and checked by
the proof system.
-/

namespace GenSubnet.Credential
open Library Library.ChaCha20

structure Bundle where
  commitment : List Char
  macKeys : Fin 2 → List Char
  proofs : List (List Char) := []

structure Input where
  key : List Char := []
  nonce : List Char
  /-- The observed TLS records, header and tag included. -/
  tokenRecord : List Char
  updateRecord : List Char
  bundle : Option Bundle := none

def require (ok : Prop) [Decidable ok] (message : String) : Except String Unit :=
  if ok then .ok () else .error message

def decode (s : List Char) (n : Nat) : Except String (List UInt8) :=
  match hexDecode s with
  | some bytes => if bytes.length = n then .ok bytes else .error "invalid hex length"
  | none => .error "invalid hex length"

/-- The number of a big-endian byte string. -/
def beNat (bytes : List UInt8) : Nat := bytes.foldl (fun value byte => value * 256 + byte.toNat) 0

def beBytes (n value : Nat) : List UInt8 := (leBytes n value).reverse

def commitmentOf (mimc : List Variable → Variable) (key : List UInt8) : Variable :=
  mimc [4041301, (beNat (key.take 16) : Variable), (beNat (key.drop 16) : Variable)]

def commitment (mimc : List Variable → Variable) (key : List UInt8) : List Char :=
  hexEncode (beBytes 32 (commitmentOf mimc key).val)

def stream (key nonce : List UInt8) (counter : UInt32) (n : Nat) : List UInt8 :=
  (List.range n).map (streamAt key counter nonce)

def nonceAt (nonce : List UInt8) (index : Nat) : List UInt8 :=
  nonce.mapIdx fun i byte => if 4 ≤ i then byte ^^^ (beBytes 8 index).getD (i - 4) 0 else byte

def record (s : List Char) : Except String (List UInt8) :=
  match hexDecode s with
  | none => .error "invalid private record size"
  | some bytes =>
      if bytes.length < 22 ∨ maxToken + 22 < bytes.length then .error "invalid private record size"
      else if bytes.take 3 ≠ [23, 3, 3] ∨ beNat ((bytes.drop 3).take 2) ≠ bytes.length - 5 then
        .error "invalid private record header"
      else .ok bytes

/-- The ciphertext of a record, between header and tag. -/
def ciphertextOf (record : List UInt8) : List UInt8 := (record.drop 5).take (record.length - 16 - 5)

def tagOf (record : List UInt8) : List UInt8 := record.drop (record.length - 16)

def authenticate (record key : List UInt8) : Bool :=
  let ciphertext := ciphertextOf record
  let data := record.take 5 ++ List.replicate 11 0 ++ ciphertext ++
    List.replicate ((16 - ciphertext.length % 16) % 16) 0 ++
    (leBytes 8 5 ++ leBytes 8 ciphertext.length)
  poly1305 key data == tagOf record

/-- What all assignments of one proof share. -/
structure Shared where
  key : List UInt8
  commitment : Variable
  tokenLength : Nat

def makeAssignment (s : Shared) (kind counter length : Nat) (nonce ct macKey : List UInt8) :
    CredentialCircuit where
  key i := value (s.key.getD i.val 0)
  commitment := s.commitment
  nonce i := value (nonce.getD i.val 0)
  counter := (counter : Variable)
  kind := (kind : Variable)
  length := (length : Variable)
  tokenLength := (s.tokenLength : Variable)
  ciphertext i := value (ct.getD i.val 0)
  macKey i := value (macKey.getD i.val 0)

/-- `offset := 0; offset < length; offset += ChunkSize` -/
def offsets (length : Nat) : List Nat :=
  (List.range ((length + (chunkSize - 1)) / chunkSize)).map fun chunk => chunk * chunkSize

def chunkAssignments (s : Shared) (kind : Nat) (nonce ct : List UInt8) : List CredentialCircuit :=
  (offsets ct.length).map fun offset =>
    makeAssignment s kind (1 + offset / 64) (min (offset + chunkSize) ct.length - offset) nonce
      ((ct.drop offset).take chunkSize) []

/-- The assignments for the record with an index. -/
def recordAssignments (s : Shared) (b : Bundle) (nonce : List UInt8) (index : Fin 2)
    (record : List UInt8) : Except String (List CredentialCircuit) := do
  let n := nonceAt nonce index.val
  let mac ← decode (b.macKeys index) 32
  require (authenticate record mac = true) "private record authentication failed"
  return makeAssignment s 0 0 32 n [] mac ::
    chunkAssignments s (if index.val = 1 then 2 else 1) n (ciphertextOf record)

/-- The key of the input, or zeros. -/
def inputKey (mimc : List Variable → Variable) (input : Input) (b : Bundle) :
    Except String (List UInt8) :=
  if input.key = [] then .ok (List.replicate 32 0)
  else do
    let key ← decode input.key 32
    require (commitment mimc key = b.commitment) "key commitment mismatch"
    return key

def assignments (mimc : List Variable → Variable) (input : Input) (b : Bundle) :
    Except String (List CredentialCircuit) := do
  let nonce ← decode input.nonce 12
  let token ← record input.tokenRecord
  let update ← record input.updateRecord
  let tokenLength := token.length - 22
  require (64 ≤ tokenLength ∧ tokenLength ≤ maxToken ∧ update.length = 27)
    "invalid credential/key-update length"
  let digest ← decode b.commitment 32
  require (beNat digest < scalarField) "noncanonical commitment"
  let key ← inputKey mimc input b
  let s : Shared := { key, commitment := (beNat digest : Variable), tokenLength }
  let first ← recordAssignments s b nonce 0 token
  let second ← recordAssignments s b nonce 1 update
  return first ++ second

/-- The bundle of the prover, before its proofs. -/
def bundleOf (mimc : List Variable → Variable) (key nonce : List UInt8) : Bundle where
  commitment := commitment mimc key
  macKeys index := hexEncode (stream key (nonceAt nonce index.val) 0 32)

/-- The bundle and assignments of `prove`. -/
def proveAssignments (mimc : List Variable → Variable) (input : Input) :
    Except String (Bundle × List CredentialCircuit) := do
  let key ← decode input.key 32
  let nonce ← decode input.nonce 12
  let b := bundleOf mimc key nonce
  let list ← assignments mimc input b
  return (b, list)

/-- The proof of one assignment, where the proof system makes one or none. -/
def proofOf (groth16 : CredentialCircuit → Option (List Char)) (assignment : CredentialCircuit) :
    Except String (List Char) :=
  match groth16 assignment with
  | some proof => .ok proof
  | none => .error "private credential constraints failed"

def prove (mimc : List Variable → Variable) (groth16 : CredentialCircuit → Option (List Char))
    (input : Input) : Except String Bundle := do
  let (b, list) ← proveAssignments mimc input
  let proofs ← list.mapM (proofOf groth16)
  return { b with proofs }

end GenSubnet.Credential
