import GenSubnet.Library.PythonJson

/-!
# The miner's channel

`WorkerChannel` of `channel.py` on one connection: TLS bytes and two claims from the miner, TLS bytes
to it.
-/

namespace GenSubnet.Witness
open Library

abbrev Bytes := List UInt8

def maxBytes : Nat := 16 * 1024 * 1024

def chunkBytes : Nat := 256 * 1024

inductive ClaimPhase | handshake | authorize
deriving DecidableEq

def ClaimPhase.text : ClaimPhase → String
  | .handshake => "handshake"
  | .authorize => "authorize"

inductive Message
  | binary (data : Bytes)
  | text (text : List Char)

inductive ChannelError
  | valueError (message : String)
  | loads (error : LoadError)
  | encode
  | timeout (message : String)

structure WorkerChannel where
  claims : Dict ClaimPhase Json := .empty
  receivedBytes : Nat := 0
  receivedMessages : Nat := 0
  sentBytes : Nat := 0

/-- The phase that a message of the miner names. -/
def messagePhase (members : List (List Nat × Json)) : Option ClaimPhase :=
  match lookupIn (codePoints "type") members with
  | some (.str name) =>
      if name = codePoints ClaimPhase.handshake.text then some .handshake
      else if name = codePoints ClaimPhase.authorize.text then some .authorize
      else none
  | _ => none

/-- A control message, which is noted and ends the wait for bytes. -/
def WorkerChannel.control (c : WorkerChannel) (depth : Nat) (text : List Char) :
    WorkerChannel × ChannelError :=
  if 2 * 1024 * 1024 < (text.map Char.utf8Size).sum then (c, .valueError "Proof exceeds limit")
  else
    match loads depth text with
    | .error error => (c, .loads error)
    | .ok (.object members) =>
        match messagePhase members with
        | none => (c, .valueError "Invalid miner message")
        | some phase =>
            match c.claims.contains phase, lookupIn (codePoints "claim") members with
            | false, some (.object claim) =>
                if (Json.object claim).encodable then
                  ({ c with claims := c.claims.set phase (.object claim) },
                    .timeout "Control message received")
                else (c, .encode)
            | _, _ => (c, .valueError "Invalid or repeated proof")
    | .ok _ => (c, .valueError "Invalid miner message")

/-- `recv`, when the socket has a message. -/
def WorkerChannel.recv (c : WorkerChannel) (depth : Nat) (message : Message) :
    WorkerChannel × Except ChannelError Bytes :=
  let c := { c with receivedMessages := c.receivedMessages + 1 }
  if 4096 < c.receivedMessages then (c, .error (.valueError "Too many transport messages"))
  else
    match message with
    | .binary data =>
        let c := { c with receivedBytes := c.receivedBytes + data.length }
        if data = [] ∨ chunkBytes < data.length ∨ maxBytes < c.receivedBytes then
          (c, .error (.valueError "Invalid client traffic size"))
        else (c, .ok data)
    | .text text =>
        let (c, error) := c.control depth text
        (c, .error error)

/-- The pieces in which bytes are given to the socket. -/
def pieces : Nat → Bytes → List Bytes
  | 0, _ => []
  | fuel + 1, data =>
      if data = [] then [] else data.take chunkBytes :: pieces fuel (data.drop chunkBytes)

/-- `send`, up to the first piece. -/
def WorkerChannel.send (c : WorkerChannel) (data : Bytes) :
    WorkerChannel × Except ChannelError (List Bytes) :=
  let c := { c with sentBytes := c.sentBytes + data.length }
  if maxBytes < c.sentBytes then (c, .error (.valueError "Provider traffic exceeds limit"))
  else (c, .ok (pieces data.length data))

theorem flatten_pieces (fuel : Nat) (data : Bytes) (enough : data.length ≤ fuel) :
    (pieces fuel data).flatten = data := by
  induction fuel generalizing data with
  | zero =>
      obtain rfl := List.length_eq_zero_iff.mp (Nat.le_zero.mp enough)
      rfl
  | succ fuel ih =>
      rw [pieces]
      split
      · rename_i empty
        rw [empty, List.flatten_nil]
      · rename_i nonempty
        have shorter : (data.drop chunkBytes).length ≤ fuel := by
          have pos : 0 < data.length := List.length_pos_iff.mpr nonempty
          rw [List.length_drop]
          unfold chunkBytes
          omega
        rw [List.flatten_cons, ih _ shorter, List.take_append_drop]

theorem WorkerChannel.send_ok {c c' : WorkerChannel} {data : Bytes} {rest : List Bytes}
    (sent : c.send data = (c', .ok rest)) : rest.flatten = data := by
  unfold WorkerChannel.send at sent
  simp only at sent
  split at sent
  · cases sent
  · obtain ⟨-, same⟩ := Prod.mk.inj sent
    obtain rfl := Except.ok.inj same
    exact flatten_pieces _ _ le_rfl

theorem WorkerChannel.recv_ok {c c' : WorkerChannel} {depth : Nat} {message : Message}
    {data : Bytes} (received : c.recv depth message = (c', .ok data)) : message = .binary data := by
  unfold WorkerChannel.recv at received
  simp only at received
  split at received
  · cases received
  · split at received
    · split at received
      · cases received
      · obtain ⟨-, same⟩ := Prod.mk.inj received
        obtain rfl := Except.ok.inj same
        rfl
    · cases received

theorem WorkerChannel.recv_binary (c c' : WorkerChannel) (depth : Nat) (data : Bytes)
    (text : String) : c.recv depth (.binary data) ≠ (c', .error (.timeout text)) := by
  intro received
  unfold WorkerChannel.recv at received
  simp only at received
  split at received
  · cases received
  · split at received <;> cases received

end GenSubnet.Witness
