import GenSubnet.Library.Dict
import GenSubnet.Library.Hex
import GenSubnet.Library.Transition
import Mathlib.Data.List.Sort

/-!
# Signed requests

`Authenticator` of `shared/subnet_common/witness/auth.py`: the nonce table with its expiry heap and
per-hotkey counts, and `verify` cut at its two critical sections so that any number of calls can be
interleaved.
-/

namespace GenSubnet.Auth
open Library

structure AuthRejected where
  code : String
  status : Nat := 401
deriving DecidableEq

/-- How a call of `verify` can end early: a rejection, or the `KeyError` of a missing count. -/
inductive Failure
  | rejected (reason : AuthRejected)
  | keyError
deriving DecidableEq

/-- What `bittensor_wallet` and `hashlib` compute. -/
structure Wallet (Key : Type) where
  /-- `get_ss58_format`; `none` when it raises. -/
  ss58Format : String → Option Nat
  /-- `Keypair(ss58_address=hotkey, ss58_format=42)`; `none` when it raises. -/
  keypair : String → Option Key
  verify : Key → String → List UInt8 → Bool
  /-- `sha256(body).hexdigest()`. -/
  sha256 : List UInt8 → String

structure Request where
  method : String
  path : String
  body : List UInt8
  headers : String → Option String

def Request.header (request : Request) (name : String) (default : String := "") : String :=
  (request.headers name).getD default

/-! ## Syntax -/

/-- The characters of `[1-9A-HJ-NP-Za-km-z]`. -/
def base58 (c : Char) : Bool :=
  ('1' ≤ c ∧ c ≤ '9') ∨ ('A' ≤ c ∧ c ≤ 'H') ∨ ('J' ≤ c ∧ c ≤ 'N') ∨ ('P' ≤ c ∧ c ≤ 'Z') ∨
    ('a' ≤ c ∧ c ≤ 'k') ∨ ('m' ≤ c ∧ c ≤ 'z')

def digit (c : Char) : Bool := '0' ≤ c ∧ c ≤ '9'

/-- `re.fullmatch(r"[1-9][0-9]{15,19}", nonce)`. -/
def nonceSyntax (nonce : String) : Bool :=
  match nonce.toList with
  | [] => false
  | c :: rest => ('1' ≤ c ∧ c ≤ '9') ∧ 15 ≤ rest.length ∧ rest.length ≤ 19 ∧ rest.all digit

/-- `int(nonce)`. -/
def nonceValue (nonce : String) : Nat :=
  nonce.toList.foldl (fun n c => 10 * n + (c.toNat - 48)) 0

/-- `re.fullmatch(r"0x[0-9a-f]{128}", signature)`. -/
def signatureSyntax (signature : String) : Bool :=
  match signature.toList with
  | '0' :: 'x' :: rest => rest.length = 128 ∧ rest.all fun c => digit c || ('a' ≤ c ∧ c ≤ 'f')
  | _ => false

/-- `bytes.fromhex(signature[2:])` of a signature that passed `signatureSyntax`. -/
def signatureBytes (signature : String) : List UInt8 :=
  (hexDecode (signature.toList.drop 2)).getD []

def keypairFromHotkey {Key : Type} (wallet : Wallet Key) (hotkey : String) :
    Except AuthRejected Key :=
  if hotkey.length = 48 ∧ hotkey.toList.all base58 then
    if wallet.ss58Format hotkey = some 42 then
      match wallet.keypair hotkey with
      | some key => .ok key
      | none => .error ⟨"invalid_hotkey", 401⟩
    else .error ⟨"invalid_hotkey", 401⟩
  else .error ⟨"invalid_hotkey", 401⟩

/-! ## The nonce table -/

/-- An entry of the expiry heap: expiry, hotkey, nonce. -/
abbrev Expiry := Nat × String × String

/-- Python's order of tuples. -/
def Expiry.before (a b : Expiry) : Prop :=
  a.1 < b.1 ∨ a.1 = b.1 ∧ (a.2.1 < b.2.1 ∨ a.2.1 = b.2.1 ∧ a.2.2 ≤ b.2.2)

instance : DecidableRel Expiry.before := fun a b => by
  unfold Expiry.before
  infer_instance

structure Tables (Key : Type) where
  nonces : Dict (String × String) Nat := Dict.empty
  /-- The heap, in the order in which `heappop` returns its entries. -/
  expiry : List Expiry := []
  counts : Dict String Int := Dict.empty
  keys : Dict String Key := Dict.empty

variable {Key : Type}

/-- `self._counts[owner] -= 1`, dropping a count that reaches zero. -/
def decrement (counts : Dict String Int) (owner : String) : Option (Dict String Int) :=
  (counts.get owner).map fun count =>
    if count - 1 = 0 then counts.erase owner else counts.set owner (count - 1)

/-- The purge at the head of `_check_nonce`; the `Bool` is `false` when it hit a missing count. -/
def purge (now : Nat) (tables : Tables Key) : List Expiry → Tables Key × Bool
  | [] => ({ tables with expiry := [] }, true)
  | entry :: rest =>
      if entry.1 ≤ now then
        let popped := { tables with expiry := rest, nonces := tables.nonces.erase entry.2 }
        match decrement tables.counts entry.2.1 with
        | none => (popped, false)
        | some counts => purge now { popped with counts } rest
      else ({ tables with expiry := entry :: rest }, true)

def checkNonce (tables : Tables Key) (hotkey nonce : String) (now : Nat) :
    Tables Key × Except Failure Unit :=
  let (purged, complete) := purge now tables tables.expiry
  if complete = false then (purged, .error .keyError)
  else if purged.nonces.contains (hotkey, nonce) then
    (purged, .error (.rejected ⟨"replayed_hotkey_auth", 401⟩))
  else if 100000 ≤ purged.nonces.size ∨ 256 ≤ (purged.counts.get hotkey).getD 0 then
    (purged, .error (.rejected ⟨"authentication_busy", 429⟩))
  else (purged, .ok ())

/-- The table update at the end of the second critical section. -/
def insertNonce (tables : Tables Key) (hotkey nonce : String) (key : Key) : Tables Key :=
  let expiry := nonceValue nonce + 30000000001
  let keys := (tables.keys.erase hotkey).set hotkey key
  { nonces := tables.nonces.set (hotkey, nonce) expiry
    expiry := tables.expiry.orderedInsert Expiry.before (expiry, hotkey, nonce)
    counts := tables.counts.set hotkey ((tables.counts.get hotkey).getD 0 + 1)
    keys := if 4096 < keys.size then keys.dropFirst else keys }

/-! ## Calls of `verify` -/

/-- The local variables of a call that has read the clock. -/
structure Pending where
  hotkey : String
  nonce : String
  signature : String
  now : Nat
  payload : String

inductive Call (Key : Type)
  /-- The clock is read; the first critical section lies ahead. -/
  | admitted (call : Pending)
  /-- The first critical section is passed, with the key found in it. -/
  | checked (call : Pending) (key : Option Key)
  /-- The call returned its hotkey; `after` purges of the table lie before its acceptance. -/
  | accepted (call : Pending) (after : Nat)
  | failed (failure : Failure)

/-- `verify` up to the clock reading and the staleness check. -/
def admission (wallet : Wallet Key) (request : Request) (now : Nat) : Call Key :=
  let hotkey := request.header "x-bittensor-hotkey"
  let nonce := request.header "x-bittensor-nonce"
  let signature := request.header "x-bittensor-signature"
  if request.headers "x-bittensor-version" ≠ some "1" ∨
      request.headers "x-bittensor-receiver" ≠ some "404-witness" ∨
      request.header "x-bittensor-crypto" "sr25519" ≠ "sr25519" ∨
      nonceSyntax nonce = false ∨ signatureSyntax signature = false then
    .failed (.rejected ⟨"invalid_hotkey_auth", 401⟩)
  else if (now : Int) - nonceValue nonce < -30000000000 ∨
      30000000000 < (now : Int) - nonceValue nonce then
    .failed (.rejected ⟨"stale_hotkey_auth", 401⟩)
  else
    .admitted
      { hotkey, nonce, signature, now
        payload := "\n".intercalate ["btauth/1", "sr25519", request.method, request.path,
          wallet.sha256 request.body, nonce, hotkey, "404-witness"] }

/-- `self._keys.get(hotkey)`, or the key pair of the hotkey, and the signature check. -/
def verifySignature (wallet : Wallet Key) (call : Pending) (known : Option Key) :
    Except AuthRejected Key :=
  match (known.map Except.ok).getD (keypairFromHotkey wallet call.hotkey) with
  | .error reason => .error reason
  | .ok key =>
      if wallet.verify key call.payload (signatureBytes call.signature) then .ok key
      else .error ⟨"invalid_signature", 401⟩

structure State (Key : Type) where
  /-- The last clock reading; readings are nondecreasing. -/
  clock : Nat := 0
  tables : Tables Key := {}
  calls : List (Call Key) := []
  /-- The readings with which critical sections have purged the table, in order. -/
  purges : List Nat := []

/-- `arrive` reads the clock. `inspect` and `conclude` take the numbered call to its first and
second critical section, after the answer of `self.authorize`. -/
inductive Event
  | arrive (request : Request) (now : Nat)
  | inspect (call : Nat) (authorize : Except AuthRejected Unit)
  | conclude (call : Nat) (authorize : Except AuthRejected Unit)

/-- One critical section: `_check_nonce`, and what follows it when it does not raise. -/
def State.section (s : State Key) (i : Nat) (call : Pending)
    (proceed : Tables Key → Tables Key × Call Key) : State Key :=
  match checkNonce s.tables call.hotkey call.nonce call.now with
  | (tables, .error failure) =>
      { s with
        tables
        calls := s.calls.set i (.failed failure)
        purges := s.purges ++ [call.now] }
  | (tables, .ok ()) =>
      { s with
        tables := (proceed tables).1
        calls := s.calls.set i (proceed tables).2
        purges := s.purges ++ [call.now] }

def step (wallet : Wallet Key) (s : State Key) : Event → Option (State Key)
  | .arrive request now =>
      if s.clock ≤ now then
        some { s with clock := now, calls := s.calls ++ [admission wallet request now] }
      else none
  | .inspect i authorize =>
      match s.calls[i]? with
      | some (.admitted call) =>
          match authorize with
          | .error reason => some { s with calls := s.calls.set i (.failed (.rejected reason)) }
          | .ok () => some (s.section i call fun tables =>
              (tables, .checked call (tables.keys.get call.hotkey)))
      | _ => none
  | .conclude i authorize =>
      match s.calls[i]? with
      | some (.checked call known) =>
          match verifySignature wallet call known with
          | .error reason => some { s with calls := s.calls.set i (.failed (.rejected reason)) }
          | .ok key =>
              match authorize with
              | .error reason => some { s with calls := s.calls.set i (.failed (.rejected reason)) }
              | .ok () => some (s.section i call fun tables =>
                  (insertNonce tables call.hotkey call.nonce key, .accepted call (s.purges.length + 1)))
      | _ => none

end GenSubnet.Auth
