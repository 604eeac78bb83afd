import GenSubnet.Tls.Verifier

/-!
# The client's exchange

`exchange` of `transport.py` up to the authorization of the request, with the hooks of `Capture` on
what the TLS library sends. The library's handshake, the keys of its epochs and its cipher are
parameters; an exchange starts from what the handshake has sent and disclosed.
-/

namespace GenSubnet.Tls
open Library Witness

structure WriteKey where
  key : List UInt8
  iv : List UInt8

/-- What the exchange uses of its TLS library. -/
structure TlsLibrary where
  /-- The most bytes of one record's content. -/
  recordSize : Nat
  /-- The keys of the application's records after a number of updates. -/
  keys : Nat → WriteKey
  /-- The record of a content with its type. -/
  seals : (key iv : List UInt8) → (number : Nat) → (text : List UInt8) → Record

structure PrivateRecord where
  key : List Char
  nonce : List Char
  number : Nat
  record : List Char
deriving DecidableEq

/-- The library's state for writing, the socket, and the capture. -/
structure Connection where
  epoch : Nat := 0
  seqnum : Nat := 0
  sent : List Record := []
  disclosures : List Disclosure := []
  privateRecords : List PrivateRecord := []
  hidden : Bool := false

def recordDisclosure (key : WriteKey) (seqnum : Nat) (encrypted sent : Bool) : Disclosure :=
  if encrypted then
    { key := some (hexEncode key.key), iv := some (hexEncode key.iv),
      number := some ((seqnum : Int) - sent.toNat) }
  else { plain := some true }

/-- The library seals a record, and `send` of the capture runs before it reaches the socket. -/
def Connection.sendRecord (tls : TlsLibrary) (c : Connection) (type : UInt8) (data : List UInt8) :
    Except String Connection := do
  let key := tls.keys c.epoch
  let record := tls.seals key.key key.iv c.seqnum (data ++ [type])
  let seqnum := c.seqnum + 1
  let info := recordDisclosure key seqnum true true
  checked (c.disclosures.length < maxRecords) "TLS record count exceeds limit"
  let privateRecords :=
    if c.hidden then
      c.privateRecords ++ [⟨hexEncode key.key, hexEncode key.iv, seqnum - 1, hexEncode record⟩]
    else c.privateRecords
  let sent := c.sent ++ [record]
  checked (sent.flatten.length ≤ maxBytes) "TLS upload limit/deadline exceeded"
  return { c with
    seqnum
    sent
    disclosures := c.disclosures ++ [if c.hidden then {} else info]
    privateRecords }

/-- The library's fragments of a message. -/
def fragments (size : Nat) : (fuel : Nat) → List UInt8 → List (List UInt8)
  | 0, data => [data]
  | fuel + 1, data =>
      if size < data.length then data.take size :: fragments size fuel (data.drop size) else [data]

def Connection.sendParts (tls : TlsLibrary) (type : UInt8) :
    List (List UInt8) → Connection → Except String Connection
  | [], c => .ok c
  | part :: rest, c => do
      let c ← c.sendRecord tls type part
      sendParts tls type rest c

def Connection.write (tls : TlsLibrary) (c : Connection) (data : List UInt8) :
    Except String Connection := c.sendParts tls 23 (fragments tls.recordSize data.length data)

/-- The update is sealed with the old key. -/
def Connection.sendKeyUpdate (tls : TlsLibrary) (c : Connection) : Except String Connection := do
  let c ← c.sendRecord tls 22 update
  return { c with epoch := c.epoch + 1, seqnum := 0 }

/-- Change the key where the next chunk is disclosed otherwise than the last. -/
def Connection.turn (tls : TlsLibrary) (c : Connection) (hidden : Bool) : Except String Connection :=
  if hidden = c.hidden then .ok c else c.sendKeyUpdate tls

def Connection.sendChunk (tls : TlsLibrary) (c : Connection) (chunk : Chunk) :
    Except String Connection := do
  let c ← c.turn tls chunk.isPrivate
  Connection.write tls { c with hidden := chunk.isPrivate } chunk.data

def Connection.sendChunks (tls : TlsLibrary) : List Chunk → Connection → Except String Connection
  | [], c => .ok c
  | chunk :: rest, c => do
      let c ← c.sendChunk tls chunk
      sendChunks tls rest c

/-- `split(b' ', 2)[1]` -/
def secondWord (data : List UInt8) : Option (List UInt8) :=
  (cutAt [32] data).map fun found => found.2.takeWhile (· != 32)

/-- The fixed request without a credential. -/
def headRequest (path : List UInt8) (host : String) : List UInt8 :=
  ascii "HEAD " ++ path ++ ascii (" HTTP/1.1\r\nHost: " ++ host ++ "\r\nConnection: keep-alive\r\n\r\n")

/-- The connection when the handshake is disclosed, and when the request is. -/
def exchange (tls : TlsLibrary) (host : String) (chunks : List Chunk) (c : Connection) :
    Except String (Connection × Connection) := do
  match (chunks.head?).bind fun chunk => secondWord chunk.data with
  | none => .error "list index out of range"
  | some path => do
      let probed ← c.write tls (headRequest path host)
      let held ← probed.sendChunks tls chunks
      return (probed, held)

/-- `prove` of the prover, around the native function. -/
def proveCredential (native : Credential.Input → Except String Credential.Bundle) :
    List PrivateRecord → Except String (List Char × Credential.Bundle)
  | [token, update] => do
      checked ((token.number, update.number) = (0, 1) ∧ token.key = update.key ∧
        token.nonce = update.nonce) "Private credential epoch mismatch"
      let bundle ← native
        { key := token.key, nonce := token.nonce, tokenRecord := token.record
          updateRecord := update.record }
      return (token.nonce, bundle)
  | _ => .error "Expected exactly the credential and its key update"

/-! ## The plan of an exchange -/

/-- A record that the exchange sends. -/
structure Sent where
  epoch : Nat
  number : Nat
  hidden : Bool
  type : UInt8
  data : List UInt8

def Sent.record (tls : TlsLibrary) (s : Sent) : Record :=
  tls.seals (tls.keys s.epoch).key (tls.keys s.epoch).iv s.number (s.data ++ [s.type])

def Sent.disclosure (tls : TlsLibrary) (s : Sent) : Disclosure :=
  if s.hidden then {}
  else { key := some (hexEncode (tls.keys s.epoch).key), iv := some (hexEncode (tls.keys s.epoch).iv)
         number := some (s.number : Int) }

def Sent.privateRecord (tls : TlsLibrary) (s : Sent) : PrivateRecord :=
  ⟨hexEncode (tls.keys s.epoch).key, hexEncode (tls.keys s.epoch).iv, s.number, hexEncode (s.record tls)⟩

def planParts (epoch : Nat) (hidden : Bool) (type : UInt8) : (number : Nat) → List (List UInt8) → List Sent
  | _, [] => []
  | number, part :: rest => ⟨epoch, number, hidden, type, part⟩ :: planParts epoch hidden type (number + 1) rest

def planChunks (size : Nat) : (epoch number : Nat) → (hidden : Bool) → List Chunk → List Sent
  | _, _, _, [] => []
  | epoch, number, hidden, chunk :: rest =>
      let parts := fragments size chunk.data.length chunk.data
      if chunk.isPrivate = hidden then
        planParts epoch hidden 23 number parts ++
          planChunks size epoch (number + parts.length) hidden rest
      else
        ⟨epoch, number, hidden, 22, update⟩ :: planParts (epoch + 1) chunk.isPrivate 23 0 parts ++
          planChunks size (epoch + 1) parts.length chunk.isPrivate rest

/-- A connection that has sent more. -/
structure Extends (tls : TlsLibrary) (c next : Connection) (script : List Sent) : Prop where
  sent : next.sent = c.sent ++ script.map (Sent.record tls)
  disclosures : next.disclosures = c.disclosures ++ script.map (Sent.disclosure tls)
  privateRecords : next.privateRecords =
    c.privateRecords ++ (script.filter (·.hidden)).map (Sent.privateRecord tls)

variable {tls : TlsLibrary}

theorem Extends.refl (c : Connection) : Extends tls c c [] := by
  constructor <;> simp

theorem Extends.trans {c d e : Connection} {script more : List Sent} (first : Extends tls c d script)
    (second : Extends tls d e more) : Extends tls c e (script ++ more) := by
  constructor
  · rw [second.sent, first.sent, List.map_append, List.append_assoc]
  · rw [second.disclosures, first.disclosures, List.map_append, List.append_assoc]
  · rw [second.privateRecords, first.privateRecords, List.filter_append, List.map_append,
      List.append_assoc]

/-- A connection within the limits of the capture and of the socket. -/
def Connection.Within (c : Connection) : Prop :=
  c.disclosures.length ≤ maxRecords ∧ c.sent.flatten.length ≤ maxBytes

/-- What one record does. -/
theorem sendRecord_eq_ok {c next : Connection} {type : UInt8} {data : List UInt8}
    (sends : c.sendRecord tls type data = .ok next) :
    Extends tls c next [⟨c.epoch, c.seqnum, c.hidden, type, data⟩] ∧ next.Within ∧
      next.epoch = c.epoch ∧ next.seqnum = c.seqnum + 1 ∧ next.hidden = c.hidden := by
  obtain ⟨_, few, sends⟩ := Credential.bind_eq_ok.mp sends
  obtain ⟨_, small, same⟩ := Credential.bind_eq_ok.mp sends
  obtain rfl := Except.ok.inj same
  have few : c.disclosures.length < maxRecords := of_decide_eq_true (checked_iff.mp few)
  refine ⟨⟨rfl, ?_, ?_⟩, ⟨?_, of_decide_eq_true (checked_iff.mp small)⟩, rfl, rfl, rfl⟩
  · cases hidden : c.hidden <;> simp [Sent.disclosure, recordDisclosure]
  · cases hidden : c.hidden <;> simp [Sent.privateRecord, Sent.record]
  · simp
    omega

theorem sendParts_eq_ok {type : UInt8} {parts : List (List UInt8)} {c next : Connection}
    (sends : c.sendParts tls type parts = .ok next) :
    Extends tls c next (planParts c.epoch c.hidden type c.seqnum parts) ∧ (c.Within → next.Within) ∧
      next.epoch = c.epoch ∧ next.seqnum = c.seqnum + parts.length ∧ next.hidden = c.hidden := by
  induction parts generalizing c with
  | nil =>
      obtain rfl := Except.ok.inj sends
      exact ⟨.refl c, id, rfl, rfl, rfl⟩
  | cons part rest ih =>
      obtain ⟨d, first, sends⟩ := Credential.bind_eq_ok.mp sends
      obtain ⟨grows, inside, epoch, seqnum, hidden⟩ := sendRecord_eq_ok first
      obtain ⟨grows', inside', epoch', seqnum', hidden'⟩ := ih sends
      rw [epoch, seqnum, hidden] at grows'
      refine ⟨grows.trans grows', fun _ => inside' inside, epoch'.trans epoch, ?_, hidden'.trans hidden⟩
      rw [seqnum', seqnum, List.length_cons]
      omega

theorem sendChunk_eq_ok {chunk : Chunk} {c next : Connection} (sends : c.sendChunk tls chunk = .ok next) :
    Extends tls c next (planChunks tls.recordSize c.epoch c.seqnum c.hidden [chunk]) ∧
      (c.Within → next.Within) ∧
      ∀ rest, planChunks tls.recordSize c.epoch c.seqnum c.hidden (chunk :: rest) =
        planChunks tls.recordSize c.epoch c.seqnum c.hidden [chunk] ++
          planChunks tls.recordSize next.epoch next.seqnum next.hidden rest := by
  obtain ⟨d, turns, writes⟩ := Credential.bind_eq_ok.mp sends
  unfold Connection.turn at turns
  by_cases same : chunk.isPrivate = c.hidden
  · rw [if_pos same] at turns
    obtain rfl := Except.ok.inj turns
    obtain ⟨grows, inside, epoch, seqnum, hidden⟩ := sendParts_eq_ok writes
    dsimp only at grows epoch seqnum hidden
    refine ⟨⟨?_, ?_, ?_⟩, inside, fun rest => ?_⟩
    · simpa [planChunks, same] using grows.sent
    · simpa [planChunks, same] using grows.disclosures
    · simpa [planChunks, same] using grows.privateRecords
    · simp [planChunks, same, epoch, seqnum, hidden]
  · rw [if_neg same] at turns
    obtain ⟨e, updates, turned⟩ := Credential.bind_eq_ok.mp turns
    obtain rfl := Except.ok.inj turned
    obtain ⟨grows, inside, epoch, seqnum, hidden⟩ := sendRecord_eq_ok updates
    obtain ⟨grows', inside', epoch', seqnum', hidden'⟩ := sendParts_eq_ok writes
    dsimp only at grows' epoch' seqnum' hidden'
    have both : Extends tls c next (planChunks tls.recordSize c.epoch c.seqnum c.hidden [chunk]) := by
      have whole := grows.trans ⟨grows'.sent, grows'.disclosures, grows'.privateRecords⟩
      simpa [planChunks, same, epoch] using whole
    refine ⟨both, fun _ => inside' inside, fun rest => ?_⟩
    simp [planChunks, same, epoch', seqnum', hidden', epoch]

theorem sendChunks_eq_ok {chunks : List Chunk} {c next : Connection}
    (sends : c.sendChunks tls chunks = .ok next) :
    Extends tls c next (planChunks tls.recordSize c.epoch c.seqnum c.hidden chunks) ∧
      (c.Within → next.Within) := by
  induction chunks generalizing c with
  | nil =>
      obtain rfl := Except.ok.inj sends
      exact ⟨.refl c, id⟩
  | cons chunk rest ih =>
      obtain ⟨d, first, sends⟩ := Credential.bind_eq_ok.mp sends
      obtain ⟨grows, inside, splits⟩ := sendChunk_eq_ok first
      obtain ⟨grows', inside'⟩ := ih sends
      rw [splits]
      exact ⟨grows.trans grows', inside' ∘ inside⟩

theorem exchange_eq_ok {host : String} {chunks : List Chunk} {c probed held : Connection}
    (ran : exchange tls host chunks c = .ok (probed, held)) :
    ∃ chunk rest path, chunks = chunk :: rest ∧ secondWord chunk.data = some path ∧
      c.write tls (headRequest path host) = .ok probed ∧ probed.sendChunks tls chunks = .ok held := by
  unfold exchange at ran
  split at ran
  · cases ran
  · rename_i path found
    obtain ⟨chunk, first, word⟩ := Option.bind_eq_some_iff.mp found
    obtain ⟨rest, rfl⟩ := List.head?_eq_some_iff.mp first
    obtain ⟨d, writes, ran⟩ := Credential.bind_eq_ok.mp ran
    obtain ⟨e, sends, same⟩ := Credential.bind_eq_ok.mp ran
    obtain ⟨rfl, rfl⟩ := Prod.mk.inj (Except.ok.inj same)
    exact ⟨chunk, rest, path, rfl, word, writes, sends⟩

/-! ## The limits -/

/-- There is room for the records of a script. -/
def Connection.Room (tls : TlsLibrary) (c : Connection) (script : List Sent) : Prop :=
  c.disclosures.length + script.length ≤ maxRecords ∧
    (c.sent ++ script.map (Sent.record tls)).flatten.length ≤ maxBytes

theorem Extends.room {c next : Connection} {script more : List Sent} (grows : Extends tls c next script)
    (room : c.Room tls (script ++ more)) : next.Room tls more := by
  obtain ⟨few, small⟩ := room
  constructor
  · rw [grows.disclosures, List.length_append, List.length_map]
    rw [List.length_append] at few
    omega
  · rwa [grows.sent, List.append_assoc, ← List.map_append]

theorem sendRecord_returns {c : Connection} {type : UInt8} {data : List UInt8} {more : List Sent}
    (room : c.Room tls (⟨c.epoch, c.seqnum, c.hidden, type, data⟩ :: more)) :
    ∃ next, c.sendRecord tls type data = .ok next := by
  obtain ⟨few, small⟩ := room
  have few : c.disclosures.length < maxRecords := by
    rw [List.length_cons] at few
    omega
  have small : (c.sent ++ [Sent.record tls ⟨c.epoch, c.seqnum, c.hidden, type, data⟩]).flatten.length ≤
      maxBytes := by
    simp only [List.map_cons, List.flatten_append, List.flatten_cons, List.length_append,
      List.flatten_nil, List.length_nil] at small ⊢
    omega
  exact ⟨_, Credential.bind_eq_ok.mpr ⟨(), checked_iff.mpr (decide_eq_true few),
    Credential.bind_eq_ok.mpr ⟨(), checked_iff.mpr (decide_eq_true small), rfl⟩⟩⟩

theorem sendParts_returns {type : UInt8} {parts : List (List UInt8)} {c : Connection} {more : List Sent}
    (room : c.Room tls (planParts c.epoch c.hidden type c.seqnum parts ++ more)) :
    ∃ next, c.sendParts tls type parts = .ok next := by
  induction parts generalizing c with
  | nil => exact ⟨c, rfl⟩
  | cons part rest ih =>
      obtain ⟨d, first⟩ := sendRecord_returns room
      obtain ⟨grows, -, epoch, seqnum, hidden⟩ := sendRecord_eq_ok first
      have left : d.Room tls (planParts d.epoch d.hidden type d.seqnum rest ++ more) := by
        rw [epoch, seqnum, hidden]
        exact grows.room room
      obtain ⟨next, sends⟩ := ih left
      exact ⟨next, Credential.bind_eq_ok.mpr ⟨d, first, sends⟩⟩

theorem sendChunk_returns {chunk : Chunk} {c : Connection} {more : List Sent}
    (room : c.Room tls (planChunks tls.recordSize c.epoch c.seqnum c.hidden [chunk] ++ more)) :
    ∃ next, c.sendChunk tls chunk = .ok next := by
  by_cases same : chunk.isPrivate = c.hidden
  · have left : Connection.Room tls { c with hidden := chunk.isPrivate }
        (planParts c.epoch chunk.isPrivate 23 c.seqnum
          (fragments tls.recordSize chunk.data.length chunk.data) ++ more) := by
      simpa [planChunks, same, Connection.Room] using room
    obtain ⟨next, sends⟩ := sendParts_returns left
    refine ⟨next, Credential.bind_eq_ok.mpr ⟨c, ?_, sends⟩⟩
    rw [Connection.turn, if_pos same]
  · have left : c.Room tls (⟨c.epoch, c.seqnum, c.hidden, 22, update⟩ ::
        (planParts (c.epoch + 1) chunk.isPrivate 23 0
          (fragments tls.recordSize chunk.data.length chunk.data) ++ more)) := by
      simpa [planChunks, same] using room
    obtain ⟨d, updates⟩ := sendRecord_returns left
    obtain ⟨grows, -, epoch, -, -⟩ := sendRecord_eq_ok updates
    have rest := grows.room left
    have left' : Connection.Room tls { d with epoch := d.epoch + 1, seqnum := 0, hidden := chunk.isPrivate }
        (planParts (d.epoch + 1) chunk.isPrivate 23 0
          (fragments tls.recordSize chunk.data.length chunk.data) ++ more) := by
      rw [epoch]
      exact rest
    obtain ⟨next, sends⟩ := sendParts_returns left'
    refine ⟨next, Credential.bind_eq_ok.mpr ⟨{ d with epoch := d.epoch + 1, seqnum := 0 }, ?_, sends⟩⟩
    rw [Connection.turn, if_neg same]
    exact Credential.bind_eq_ok.mpr ⟨d, updates, rfl⟩

theorem sendChunks_returns {chunks : List Chunk} {c : Connection}
    (room : c.Room tls (planChunks tls.recordSize c.epoch c.seqnum c.hidden chunks)) :
    ∃ next, c.sendChunks tls chunks = .ok next := by
  induction chunks generalizing c with
  | nil => exact ⟨c, rfl⟩
  | cons chunk rest ih =>
      have split : ∃ more, planChunks tls.recordSize c.epoch c.seqnum c.hidden (chunk :: rest) =
          planChunks tls.recordSize c.epoch c.seqnum c.hidden [chunk] ++ more := by
        by_cases same : chunk.isPrivate = c.hidden <;> simp [planChunks, same]
      obtain ⟨more, split⟩ := split
      rw [split] at room
      obtain ⟨d, first⟩ := sendChunk_returns room
      obtain ⟨grows, -, splits⟩ := sendChunk_eq_ok first
      have left := grows.room room
      rw [List.append_cancel_left (split.symm.trans (splits rest))] at left
      obtain ⟨next, sends⟩ := ih left
      exact ⟨next, Credential.bind_eq_ok.mpr ⟨d, first, sends⟩⟩

/-- The records of an exchange from its probe on. -/
def planExchange (size : Nat) (host : String) (path : List UInt8) (chunks : List Chunk) : List Sent :=
  let parts := fragments size (headRequest path host).length (headRequest path host)
  planParts 0 false 23 0 parts ++ planChunks size 0 parts.length false chunks

theorem exchange_extends {host : String} {chunks : List Chunk} {sent : List Record}
    {disclosures : List Disclosure} {probed held : Connection}
    (ran : exchange tls host chunks { sent, disclosures } = .ok (probed, held)) :
    ∃ path, chunks.head?.bind (fun chunk => secondWord chunk.data) = some path ∧
      Extends tls { sent, disclosures } probed (planParts 0 false 23 0
        (fragments tls.recordSize (headRequest path host).length (headRequest path host))) ∧
      Extends tls { sent, disclosures } held (planExchange tls.recordSize host path chunks) ∧
      (Connection.Within { sent, disclosures } → probed.Within ∧ held.Within) := by
  obtain ⟨chunk, rest, path, rfl, word, writes, sends⟩ := exchange_eq_ok ran
  obtain ⟨grows, inside, epoch, seqnum, hidden⟩ := sendParts_eq_ok writes
  obtain ⟨grows', inside'⟩ := sendChunks_eq_ok sends
  have whole := grows.trans grows'
  rw [epoch, seqnum, hidden] at whole
  dsimp only at whole
  rw [Nat.zero_add] at whole
  exact ⟨path, by simpa using word, grows, whole, fun within => ⟨inside within, inside' (inside within)⟩⟩

/-- An exchange that has room for its records returns. -/
theorem exchange_returns {host : String} {chunks : List Chunk} {path : List UInt8} {sent : List Record}
    {disclosures : List Disclosure}
    (word : chunks.head?.bind (fun chunk => secondWord chunk.data) = some path)
    (room : Connection.Room tls { sent, disclosures } (planExchange tls.recordSize host path chunks)) :
    ∃ probed held, exchange tls host chunks { sent, disclosures } = .ok (probed, held) := by
  obtain ⟨probed, writes⟩ := sendParts_returns room
  obtain ⟨grows, -, epoch, seqnum, hidden⟩ := sendParts_eq_ok writes
  have left := grows.room room
  have same : planChunks tls.recordSize probed.epoch probed.seqnum probed.hidden chunks =
      planChunks tls.recordSize 0 (fragments tls.recordSize (headRequest path host).length
        (headRequest path host)).length false chunks := by
    rw [epoch, seqnum, hidden]
    dsimp only
    rw [Nat.zero_add]
  rw [← same] at left
  obtain ⟨held, sends⟩ := sendChunks_returns left
  refine ⟨probed, held, ?_⟩
  unfold exchange
  rw [word]
  exact Credential.bind_eq_ok.mpr ⟨probed, writes, Credential.bind_eq_ok.mpr ⟨held, sends, rfl⟩⟩

/-! ## What the plan keeps apart -/

theorem fragments_flatten (size : Nat) : ∀ (fuel : Nat) (data : List UInt8),
    (fragments size fuel data).flatten = data
  | 0, data => by simp [fragments]
  | fuel + 1, data => by
      unfold fragments
      split
      · rw [List.flatten_cons, fragments_flatten size fuel, List.take_append_drop]
      · simp

/-- The epochs of a plan alternate between disclosed and hidden ones, and its records are numbered in
each. -/
structure Numbered (epoch number : Nat) (script : List Sent) : Prop where
  parity : ∀ s ∈ script, s.hidden = (s.epoch % 2 == 1)
  later : ∀ s ∈ script, epoch < s.epoch ∨ epoch = s.epoch ∧ number ≤ s.number
  increasing : script.Pairwise fun s t => s.epoch < t.epoch ∨ s.epoch = t.epoch ∧ s.number < t.number

theorem Numbered.cons {epoch number : Nat} {hidden : Bool} (type : UInt8) (data : List UInt8)
    {script : List Sent} (parity : hidden = (epoch % 2 == 1))
    (rest : Numbered epoch (number + 1) script) :
    Numbered epoch number (⟨epoch, number, hidden, type, data⟩ :: script) := by
  constructor
  · intro t member
    rcases List.mem_cons.mp member with rfl | member
    · exact parity
    · exact rest.parity t member
  · intro t member
    rcases List.mem_cons.mp member with rfl | member
    · exact Or.inr ⟨rfl, le_rfl⟩
    · rcases rest.later t member with before | ⟨same, before⟩
      · exact Or.inl before
      · exact Or.inr ⟨same, by omega⟩
  · refine List.pairwise_cons.mpr ⟨fun t member => ?_, rest.increasing⟩
    rcases rest.later t member with before | ⟨same, before⟩
    · exact Or.inl before
    · exact Or.inr ⟨same, before⟩

theorem Numbered.next {epoch number : Nat} {script : List Sent} (rest : Numbered (epoch + 1) 0 script) :
    Numbered epoch number script := by
  refine ⟨rest.parity, fun s member => ?_, rest.increasing⟩
  rcases rest.later s member with before | ⟨same, -⟩
  · exact Or.inl (by omega)
  · exact Or.inl (by omega)

theorem numbered_parts {epoch number : Nat} {hidden : Bool} (type : UInt8)
    (parity : hidden = (epoch % 2 == 1)) (parts : List (List UInt8)) {script : List Sent}
    (rest : Numbered epoch (number + parts.length) script) :
    Numbered epoch number (planParts epoch hidden type number parts ++ script) := by
  induction parts generalizing number with
  | nil => exact rest
  | cons part parts ih =>
      apply Numbered.cons type part parity
      apply ih
      rwa [Nat.add_assoc, Nat.add_comm 1 parts.length]

theorem parity_next {epoch : Nat} {hidden other : Bool} (parity : hidden = (epoch % 2 == 1))
    (differs : other ≠ hidden) : other = ((epoch + 1) % 2 == 1) := by
  have odd : ((epoch + 1) % 2 == 1) = !(epoch % 2 == 1) := by
    rcases Nat.mod_two_eq_zero_or_one epoch with even | odd
    · simp [even, Nat.add_mod]
    · simp [odd, Nat.add_mod]
  rw [odd, ← parity]
  cases other <;> cases hidden <;> simp_all

theorem numbered_chunks (size : Nat) (chunks : List Chunk) {epoch number : Nat} {hidden : Bool}
    (parity : hidden = (epoch % 2 == 1)) :
    Numbered epoch number (planChunks size epoch number hidden chunks) := by
  induction chunks generalizing epoch number hidden with
  | nil => exact ⟨by simp [planChunks], by simp [planChunks], .nil⟩
  | cons chunk rest ih =>
      unfold planChunks
      split
      · exact numbered_parts 23 parity _ (ih parity)
      · rename_i differs
        apply Numbered.cons 22 update parity
        apply Numbered.next
        apply numbered_parts 23 (parity_next parity differs)
        rw [Nat.zero_add]
        exact ih (parity_next parity differs)

/-- The content of a plan's application records, of those that are disclosed as given. -/
def Sent.content (keep : Bool → Bool) (s : Sent) : List UInt8 :=
  if s.type = 23 ∧ keep s.hidden = true then s.data else []

theorem content_parts (keep : Bool → Bool) (epoch number : Nat) (hidden : Bool)
    (parts : List (List UInt8)) :
    (planParts epoch hidden 23 number parts).flatMap (Sent.content keep) =
      if keep hidden then parts.flatten else [] := by
  induction parts generalizing number with
  | nil => simp [planParts]
  | cons part parts ih =>
      rw [planParts, List.flatMap_cons, ih]
      cases kept : keep hidden <;> simp [Sent.content, kept]

theorem content_chunks (keep : Bool → Bool) (size : Nat) (chunks : List Chunk) (epoch number : Nat)
    (hidden : Bool) :
    (planChunks size epoch number hidden chunks).flatMap (Sent.content keep) =
      (chunks.filter fun chunk => keep chunk.isPrivate).flatMap (·.data) := by
  induction chunks generalizing epoch number hidden with
  | nil => rfl
  | cons chunk rest ih =>
      unfold planChunks
      split
      · rename_i same
        rw [List.flatMap_append, ih, content_parts, fragments_flatten, List.filter_cons, same]
        cases kept : keep hidden <;> simp
      · rw [List.cons_append, List.flatMap_cons, List.flatMap_append, ih, content_parts,
          fragments_flatten, List.filter_cons]
        cases kept : keep chunk.isPrivate <;> simp [Sent.content]

theorem epoch_parts {epoch : Nat} {hidden : Bool} {type : UInt8} {number : Nat}
    {parts : List (List UInt8)} {s : Sent} (member : s ∈ planParts epoch hidden type number parts) :
    s.epoch = epoch ∧ s.data ∈ parts := by
  induction parts generalizing number with
  | nil => cases member
  | cons part parts ih =>
      rcases List.mem_cons.mp member with rfl | member
      · exact ⟨rfl, List.mem_cons_self⟩
      · exact ⟨(ih member).1, List.mem_cons_of_mem _ (ih member).2⟩

theorem epoch_chunks {size : Nat} {chunks : List Chunk} {epoch number : Nat} {hidden : Bool} {s : Sent}
    (member : s ∈ planChunks size epoch number hidden chunks) : s.epoch ≤ epoch + chunks.length := by
  induction chunks generalizing epoch number hidden with
  | nil => cases member
  | cons chunk rest ih =>
      rw [List.length_cons]
      unfold planChunks at member
      split at member
      · rcases List.mem_append.mp member with here | later
        · rw [(epoch_parts here).1]
          omega
        · have := ih later
          omega
      · rw [List.cons_append, List.mem_cons, List.mem_append] at member
        rcases member with rfl | here | later
        · exact Nat.le_add_right _ _
        · rw [(epoch_parts here).1]
          omega
        · have := ih later
          omega

/-- The keys of the first epochs are different, and none is a key of the handshake, which the client
discloses. -/
structure KeysApart (tls : TlsLibrary) (last : Nat) (disclosures : List Disclosure) : Prop where
  epochs : ∀ i ≤ last, ∀ j ≤ last, (tls.keys i).key = (tls.keys j).key → i = j
  handshake : ∀ info ∈ disclosures, ∀ i ≤ last, info.key ≠ some (hexEncode (tls.keys i).key)

theorem hexEncode_inj {one other : List UInt8} (same : hexEncode one = hexEncode other) : one = other := by
  have decoded := congrArg hexDecode same
  rw [hexDecode_hexEncode, hexDecode_hexEncode] at decoded
  exact Option.some.inj decoded

theorem Numbered.nodup {epoch number : Nat} {script : List Sent} (numbered : Numbered epoch number script) :
    (script.map fun s => (s.epoch, s.number)).Nodup := by
  refine List.pairwise_map.mpr (numbered.increasing.imp fun {s t} before same => ?_)
  obtain ⟨epochs, numbers⟩ := Prod.mk.inj same
  omega

/-- What an exchange sends is exactly the probe and the chunks; every record stands at a place of its
own in the disclosures, the private chunks' records are the ones that are not disclosed and no key that
is disclosed seals one of them. -/
theorem exchange_isolates {host : String} {chunks : List Chunk} {sent : List Record}
    {disclosures : List Disclosure} {probed held : Connection}
    (ran : exchange tls host chunks { sent, disclosures } = .ok (probed, held))
    (apart : KeysApart tls chunks.length disclosures) :
    ∃ (path : List UInt8) (script : List Sent), chunks.head?.bind (fun chunk => secondWord chunk.data) = some path ∧
      held.sent = sent ++ script.map (Sent.record tls) ∧
      held.disclosures = disclosures ++ script.map (Sent.disclosure tls) ∧
      held.privateRecords = (script.filter (·.hidden)).map (Sent.privateRecord tls) ∧
      (script.map fun s => (s.epoch, s.number)).Nodup ∧
      script.flatMap (Sent.content fun _ => true) =
        headRequest path host ++ chunks.flatMap (·.data) ∧
      script.flatMap (Sent.content id) = (chunks.filter (·.isPrivate)).flatMap (·.data) ∧
      ∀ info ∈ held.disclosures, ∀ record ∈ held.privateRecords, info.key ≠ some record.key := by
  obtain ⟨path, word, -, whole, -⟩ := exchange_extends ran
  have numbered : Numbered 0 0 (planExchange tls.recordSize host path chunks) := by
    apply numbered_parts 23 rfl
    rw [Nat.zero_add]
    exact numbered_chunks _ _ rfl
  have early : ∀ s ∈ planExchange tls.recordSize host path chunks, s.epoch ≤ chunks.length := by
    intro s member
    rcases List.mem_append.mp member with probe | member
    · rw [(epoch_parts probe).1]
      exact Nat.zero_le _
    · simpa using epoch_chunks member
  refine ⟨path, _, word, whole.sent, whole.disclosures, whole.privateRecords, ?_, ?_, ?_, ?_⟩
  · exact numbered.nodup
  · rw [planExchange, List.flatMap_append, content_parts, content_chunks, fragments_flatten]
    simp
  · rw [planExchange, List.flatMap_append, content_parts, content_chunks]
    simp
  · intro info member record isPrivate same
    rw [whole.privateRecords, List.nil_append, List.mem_map] at isPrivate
    obtain ⟨s, inScript, rfl⟩ := isPrivate
    obtain ⟨inScript, secret⟩ := List.mem_filter.mp inScript
    rw [whole.disclosures, List.mem_append, List.mem_map] at member
    rcases member with before | ⟨t, inScript', rfl⟩
    · exact apart.handshake info before s.epoch (early s inScript) same
    · unfold Sent.disclosure at same
      split at same
      · cases same
      · rename_i shown
        have epochs : t.epoch = s.epoch := apart.epochs _ (early t inScript') _ (early s inScript)
          (hexEncode_inj (Option.some.inj same))
        have parity := numbered.parity t inScript'
        rw [epochs, ← numbered.parity s inScript, secret] at parity
        exact shown parity

/-! ## The plan of a request -/

theorem fragments_short {size fuel : Nat} {data : List UInt8} (short : data.length ≤ size) :
    fragments size fuel data = [data] := by
  cases fuel with
  | zero => rfl
  | succ fuel => rw [fragments, if_neg (by omega)]

/-- The records from the probe on, for a request whose credential and what precedes it each fit one. -/
def requestScript (probe front token : List UInt8) (parts : List (List UInt8)) : List Sent :=
  [⟨0, 0, false, 23, probe⟩, ⟨0, 1, false, 23, front⟩, ⟨0, 2, false, 22, update⟩,
    ⟨1, 0, true, 23, token⟩, ⟨1, 1, true, 22, update⟩] ++ planParts 2 false 23 0 parts

theorem planChunks_request {size : Nat} {front token suffix : List UInt8}
    (short : front.length ≤ size ∧ token.length ≤ size) (probe : List UInt8) :
    ⟨0, 0, false, 23, probe⟩ :: planChunks size 0 1 false [⟨false, front⟩, ⟨true, token⟩, ⟨false, suffix⟩] =
      requestScript probe front token (fragments size suffix.length suffix) := by
  simp [planChunks, planParts, requestScript, fragments_short short.1, fragments_short short.2]

theorem length_planParts (epoch : Nat) (hidden : Bool) (type : UInt8) (number : Nat)
    (parts : List (List UInt8)) : (planParts epoch hidden type number parts).length = parts.length := by
  induction parts generalizing number with
  | nil => rfl
  | cons part parts ih => rw [planParts, List.length_cons, ih, List.length_cons]

theorem secondWord_requestPrefix (mode : Provider) (body : List UInt8) :
    secondWord (requestPrefix mode.target body) = some (ascii mode.target.path) := by
  have noBlank : (ascii mode.target.path).all (· != 32) = true := by cases mode <;> rfl
  have line : ∃ rest, requestPrefix mode.target body =
      [80, 79, 83, 84, 32] ++ (ascii mode.target.path ++ 32 :: rest) := by
    have post : ascii "POST " = [80, 79, 83, 84, 32] := rfl
    have version : ascii " HTTP/1.1\r\nHost: " = 32 :: (ascii " HTTP/1.1\r\nHost: ").tail := rfl
    rw [requestPrefix, ascii_append, ascii_append, ascii_append, ascii_append, post, version]
    simp only [List.append_assoc]
    exact ⟨_, rfl⟩
  obtain ⟨rest, line⟩ := line
  have cuts : cutAt [32] ([80, 79, 83, 84, 32] ++ (ascii mode.target.path ++ 32 :: rest)) =
      some ([80, 79, 83, 84], ascii mode.target.path ++ 32 :: rest) := rfl
  rw [secondWord, line, cuts, Option.map_some, List.takeWhile_append_of_pos (List.all_eq_true.mp noBlank)]
  simp

theorem headRequest_probe (target : Target) :
    headRequest (ascii target.path) target.host = probeRequest target := by
  simp [headRequest, probeRequest, ascii_append, String.append_assoc]

theorem length_ascii_le (text : String) : (ascii text).length ≤ text.utf8ByteSize := by
  have bytes : ∀ chars : List Char, chars.length ≤ String.utf8Len chars := by
    intro chars
    induction chars with
    | nil => simp
    | cons c chars ih =>
        have positive := c.utf8Size_pos
        simp only [List.length_cons, String.utf8Len_cons]
        omega
  have own := bytes text.toList
  rw [← String.utf8ByteSize_ofList, String.ofList_toList] at own
  rwa [ascii, List.length_map]

theorem length_probeRequest (mode : Provider) : (probeRequest mode.target).length ≤ 4096 := by
  apply (length_ascii_le _).trans
  cases mode <;> decide

theorem length_requestPrefix (mode : Provider) {body : List UInt8} (short : body.length ≤ maxBody) :
    (requestPrefix mode.target body).length ≤ 4096 := by
  have few := @decimal_length_le body.length 7 (by decide) (Nat.lt_of_le_of_lt short (by decide))
  unfold requestPrefix
  rw [List.length_append, List.length_append]
  have front := length_ascii_le ("POST " ++ mode.target.path ++ " HTTP/1.1\r\nHost: " ++ mode.target.host ++
    "\r\nConnection: close\r\nContent-Length: ")
  have back := length_ascii_le ("\r\nContent-Type: application/json\r\nAccept: text/event-stream\r\n" ++
    "Authorization: Bearer ")
  have fixed : ("POST " ++ mode.target.path ++ " HTTP/1.1\r\nHost: " ++ mode.target.host ++
      "\r\nConnection: close\r\nContent-Length: ").utf8ByteSize +
      ("\r\nContent-Type: application/json\r\nAccept: text/event-stream\r\n" ++
        "Authorization: Bearer ").utf8ByteSize ≤ 4000 := by
    cases mode <;> decide
  omega

/-! ## A sample -/

/-- The tag of a cipher for samples: it names the key and the number. -/
def sampleTag (key : List UInt8) (number : Nat) : List UInt8 :=
  key.headD 0 :: UInt8.ofNat number :: List.replicate 14 0

def sampleSeal (key _iv : List UInt8) (number : Nat) (text : List UInt8) : Record :=
  Credential.header text.length ++ text ++ sampleTag key number

def sampleTls : TlsLibrary where
  recordSize := 4096
  keys i := ⟨List.replicate 32 (UInt8.ofNat (i + 1)), List.replicate 12 0⟩
  seals := sampleSeal

def sampleRequest : OpenAIRequest where
  host := Provider.api.target.host
  path := Provider.api.target.path
  body := emptyObject
  chunks := [⟨false, requestPrefix Provider.api.target emptyObject⟩, ⟨true, ascii sampleCredential⟩,
    ⟨false, requestSuffix none none ++ emptyObject⟩]

def sampleFinishKey : WriteKey := ⟨List.replicate 32 200, List.replicate 12 0⟩

def sampleSent : List Record :=
  [[22, 3, 1, 0, 4, 1, 0, 0, 0],
    sampleSeal sampleFinishKey.key sampleFinishKey.iv 0 ([20, 0, 0, 32] ++ List.replicate 32 0 ++ [22])]

def sampleDisclosures : List Disclosure :=
  [recordDisclosure sampleFinishKey 0 false true, recordDisclosure sampleFinishKey 1 true true]

theorem length_sampleSeal (key iv : List UInt8) (number : Nat) (text : List UInt8) :
    (sampleSeal key iv number text).length = text.length + 21 := by
  simp [sampleSeal, sampleTag, Credential.length_header]
  omega

theorem length_sampleScript {script : List Sent} (short : ∀ s ∈ script, s.data.length ≤ 4096) :
    (script.map (Sent.record sampleTls)).flatten.length ≤ script.length * 4118 := by
  induction script with
  | nil => simp
  | cons s rest ih =>
      have own := short s List.mem_cons_self
      have others := ih fun t member => short t (List.mem_cons_of_mem _ member)
      have size : (s.record sampleTls).length = s.data.length + 22 :=
        (length_sampleSeal _ (sampleTls.keys s.epoch).iv _ _).trans (by simp)
      rw [List.map_cons, List.flatten_cons, List.length_append, List.length_cons, size]
      omega

theorem room_sample {script : List Sent} (few : script.length ≤ 6)
    (short : ∀ s ∈ script, s.data.length ≤ 4096) :
    Connection.Room sampleTls { sent := sampleSent, disclosures := sampleDisclosures } script := by
  have before : sampleSent.flatten.length = 67 := rfl
  have after := length_sampleScript short
  constructor
  · simp only [sampleDisclosures, List.length_cons, List.length_nil, maxRecords]
    omega
  · simp only [List.flatten_append, List.length_append, before, maxBytes]
    omega

theorem exchange_sample : ∃ probed held, exchange sampleTls sampleRequest.host sampleRequest.chunks
    { sent := sampleSent, disclosures := sampleDisclosures } = .ok (probed, held) := by
  have probeShort := length_probeRequest .api
  have frontShort : (requestPrefix Provider.api.target emptyObject).length ≤ 4096 :=
    length_requestPrefix .api (by decide)
  have tokenShort : (ascii sampleCredential).length ≤ 4096 := (length_ascii_le _).trans (by decide)
  have suffixShort : (requestSuffix none none ++ emptyObject).length ≤ 4096 := by
    have front : (requestSuffix none none).length ≤ _ := length_ascii_le _
    have last : emptyObject.length ≤ _ := length_ascii_le _
    rw [List.length_append]
    exact (Nat.add_le_add front last).trans (by decide)
  have plan : planExchange sampleTls.recordSize sampleRequest.host (ascii Provider.api.target.path)
      sampleRequest.chunks = requestScript (probeRequest Provider.api.target)
        (requestPrefix Provider.api.target emptyObject) (ascii sampleCredential)
        [requestSuffix none none ++ emptyObject] := by
    have chunks := @planChunks_request sampleTls.recordSize _ _ (requestSuffix none none ++ emptyObject)
      ⟨frontShort, tokenShort⟩ (probeRequest Provider.api.target)
    rw [show sampleTls.recordSize = 4096 from rfl, fragments_short suffixShort] at chunks
    rw [planExchange, show sampleRequest.host = Provider.api.target.host from rfl, headRequest_probe,
      show sampleTls.recordSize = 4096 from rfl, fragments_short probeShort, ← chunks]
    simp only [planParts, List.length_singleton, List.cons_append, List.nil_append, sampleRequest]
  have word : sampleRequest.chunks.head?.bind (fun chunk => secondWord chunk.data) =
      some (ascii Provider.api.target.path) := by
    simp only [sampleRequest, List.head?_cons, Option.bind_some]
    exact secondWord_requestPrefix .api emptyObject
  apply exchange_returns word
  rw [plan]
  have short : ∀ s ∈ requestScript (probeRequest Provider.api.target)
      (requestPrefix Provider.api.target emptyObject) (ascii sampleCredential)
      [requestSuffix none none ++ emptyObject], s.data.length ≤ 4096 := by
    intro s member
    simp only [requestScript, planParts, List.cons_append, List.nil_append, List.mem_cons,
      List.not_mem_nil, or_false] at member
    rcases member with rfl | rfl | rfl | rfl | rfl | rfl
    · simpa only using probeShort
    · simpa only using frontShort
    · decide
    · simpa only using tokenShort
    · decide
    · simpa only using suffixShort
  exact room_sample (by simp [requestScript, planParts]) short

theorem keysApart_sample : KeysApart sampleTls sampleRequest.chunks.length sampleDisclosures where
  epochs := by
    intro i low j low' same
    have three : sampleRequest.chunks.length = 3 := rfl
    rw [three] at low low'
    interval_cases i <;> interval_cases j <;> first | rfl | (revert same; decide)
  handshake := by
    intro info member i low
    have three : sampleRequest.chunks.length = 3 := rfl
    rw [three] at low
    revert info
    interval_cases i <;> decide

theorem exchange_isolates_sample : ∃ probed held, exchange sampleTls sampleRequest.host
    sampleRequest.chunks { sent := sampleSent, disclosures := sampleDisclosures } = .ok (probed, held) ∧
      ∀ info ∈ held.disclosures, ∀ record ∈ held.privateRecords, info.key ≠ some record.key := by
  obtain ⟨probed, held, ran⟩ := exchange_sample
  obtain ⟨_, _, -, -, -, -, -, -, -, isolated⟩ := exchange_isolates ran keysApart_sample
  exact ⟨probed, held, ran, isolated⟩

end GenSubnet.Tls
