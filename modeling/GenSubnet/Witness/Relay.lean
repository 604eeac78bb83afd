import GenSubnet.Witness.Channel
import GenSubnet.Library.Transition
import Mathlib.Algebra.Order.Field.Rat

/-!
# The relay

`relay` of `worker.py`, from one call of the provider's connection, the miner's channel, the
verifier, the store or the clock to the next. Each such call returns, or raises after a part of its
effect; the relay is one thread, so an interleaving is the order and content of the answers.
-/

namespace GenSubnet.Witness
open Library

/-! ## The gate -/

def be16 (data : Bytes) (offset : Nat) : Nat :=
  256 * (data.getD offset 0).toNat + (data.getD (offset + 1) 0).toNat

def be24 (data : Bytes) (offset : Nat) : Nat :=
  65536 * (data.getD offset 0).toNat + be16 data (offset + 1)

/-- `ClientHelloGate.receive` of `gate.mjs` on a new gate: how many bytes it releases, if any. -/
def clientHelloGate (pending : Bytes) : Except String (Option Nat) :=
  if pending.length < 5 then .ok none
  else
    let size := 5 + be16 pending 3
    if pending.getD 0 0 ≠ 22 ∨ size < 9 ∨ 16645 < size then .error "Expected ClientHello"
    else if pending.length < size then .ok none
    else if pending.getD 5 0 ≠ 1 ∨ be24 pending 6 ≠ size - 9 then .error "Expected one ClientHello"
    else .ok (some size)

theorem clientHelloGate_le {pending : Bytes} {released : Nat}
    (gate : clientHelloGate pending = .ok (some released)) : released ≤ pending.length := by
  unfold clientHelloGate at gate
  split at gate
  · cases gate
  · simp only at gate
    split at gate
    · cases gate
    · split at gate
      · cases gate
      · split at gate
        · cases gate
        · rename_i whole _
          obtain rfl := Option.some.inj (Except.ok.inj gate)
          omega

/-- `complete_records`, with the bytes from an offset on. -/
def completeRecordsFrom : Nat → Bytes → Bool
  | 0, data => data.isEmpty
  | fuel + 1, data =>
      if data = [] then true
      else if data.length < 5 then false
      else
        let size := 5 + be16 data 3
        if data.length < size then false else completeRecordsFrom fuel (data.drop size)

def completeRecords (data : Bytes) : Bool := completeRecordsFrom data.length data

/-! ## The state of a relay -/

def clientHelloTimeout : Rat := 60

def authorizationTimeout : Rat := 300

/-- The arguments of `relay`. -/
structure RelayCall where
  transcriptPath : String
  storagePath : String := ""
  roundNumber : String
  hotkey : String
  deadline : Option Rat
  started : Rat
  hasBeforeRelease : Bool
  hasSeal : Bool
  hasBeforeDelivery : Bool
  extraMetadata : List (List Nat × Json) := []
  recursionLimit : Nat := 1000

def RelayCall.helloDeadline (call : RelayCall) : Rat :=
  match call.deadline with
  | some deadline => min deadline (call.started + clientHelloTimeout)
  | none => call.started + clientHelloTimeout

def RelayCall.authorizationDeadline (call : RelayCall) : Rat :=
  match call.deadline with
  | some deadline => min deadline (call.started + authorizationTimeout)
  | none => call.started + authorizationTimeout

/-- `rsplit("/", 1)` -/
def splitLast (path : String) : String × String :=
  let tail := path.toList.reverse.takeWhile (· ≠ '/')
  (.ofList (path.toList.reverse.drop (tail.length + 1)).reverse, .ofList tail.reverse)

def minerPath (roundNumber hotkey : String) : String := s!"rounds/{roundNumber}/{hotkey}"

/-- What a file or an object holds: bytes, or what `json_bytes` writes. -/
inductive Blob
  | bytes (data : Bytes)
  | json (value : Json)

inductive VerifierMode | hello | handshake | authorize | finish
deriving DecidableEq

inductive RelayError
  | timeoutError (message : String)
  | valueError (message : String)
  | channel (error : ChannelError)
  /-- A call of the relay raised. -/
  | outside

inductive RelayStage
  | providerConnect
  /-- At the clock, before the next message of the miner. -/
  | helloDeadline
  | clientHelloWait
  | clientHelloPersist
  | helloVerify
  | providerHelloRelease
  /-- At the clock, at the head of the loop. -/
  | authorizationLoop
  | providerPoll
  | providerHandshakeRead
  | minerHandshakeDelivery (rest : List Bytes)
  | minerMessageWait
  | claimPersist (claim : Json)
  | handshakeVerify
  | handshakePersist
  | handshakeNotification
  | providerProbeRelease
  | authorizationVerify
  | authorizationPersist (names : List String)
  | authorizationStatus
  | authorizationCheck
  | dispatchPersist
  | dispatchReservation
  | reservationCheck
  | releaseNotification
  | providerRequestRelease
  | responseLoop
  | responsePoll
  | providerResponseCapture
  | finalTranscriptPersist
  | responseVerify
  | evidencePersist (names : List String)
  | sealing
  | manifestPersist
  | finalStatusPersist
  | callFinalize
  | delivery (rest : List Bytes)
  | finish
  | returned
  | raised (error : RelayError)

structure Relay where
  stage : RelayStage := .providerConnect
  deadline : Option Rat
  client : Bytes := []
  server : Bytes := []
  issued : Bool := false
  handshake : Bool := false
  handshakeBytes : Nat := 0
  released : Nat := 0
  metadata : Dict (List Nat) Json := .empty
  channel : WorkerChannel := {}
  /-- The files of the spool directory. -/
  files : Dict String Blob := .empty
  /-- All bytes that arrived from the miner, and from the provider. -/
  received : Bytes := []
  provided : Bytes := []
  /-- All bytes that left for the provider, and for the miner. -/
  sent : Bytes := []
  delivered : Bytes := []
  /-- The client bytes that a verification accepted. -/
  verified : List (VerifierMode × Bytes) := []
  /-- The writes to the store that returned. -/
  stored : List (String × Blob) := []
  /-- `before_release` and `before_delivery` returned. -/
  reserved : Bool := false
  finalized : Bool := false
  /-- How many bytes the provider had sent when the request was released. -/
  releasedAt : Option Nat := none

/-- What the relay waits for, and how it comes out. -/
inductive RelayEvent
  | returns
  | tick (now : Rat)
  | selected (readable : Bool)
  | chunk (data : Bytes)
  | message (message : Message)
  | timesOut
  | acceptsHello
  | acceptsHandshake (authorization : Bytes)
  | acceptsRequest (request authorization : Bytes)
  | finishes (response : Bytes) (metadata : Dict (List Nat) Json)
  | reserves (captureDeadline : Option Rat)
  | storesStatus (evidenceExpires : Int)
  /-- The call raised after a part of its effect, perhaps an `OSError` or `WebSocketException`. -/
  | raises (done : Nat) (transport : Bool)

def RelayCall.begin (call : RelayCall) : Option Relay :=
  if (splitLast call.transcriptPath).1 ≠ call.storagePath ++ minerPath call.roundNumber call.hotkey then
    none
  else some { deadline := call.deadline }

variable (call : RelayCall) (s : Relay)

/-- The `finally` clause writes the spool again. -/
def Relay.raise (error : RelayError) : Relay :=
  { s with
    files := (s.files.set "client.bin" (.bytes s.client)).set "server.bin" (.bytes s.server)
    stage := .raised error }

def RelayCall.key (name : String) : String := call.transcriptPath ++ "/" ++ name

def Relay.put (name : String) (blob : Blob) : Relay :=
  { s with stored := s.stored ++ [(call.key name, blob)] }

def runningStatus (authorized : Bool) : Json :=
  .object [(codePoints "status", .str (codePoints "running")),
    (codePoints "handshook", .bool true), (codePoints "authorized", .bool authorized)]

def issuedStatus (metadata : Dict (List Nat) Json) (providerStatus : Json) (evidenceExpires : Int) :
    Json :=
  let usage := (metadata.get (codePoints "usage")).getD .null
  let recorded := match usage with
    | .null => "unknown"
    | _ => "recorded"
  .object [(codePoints "status", .str (codePoints "issued")),
    (codePoints "authorized", .bool true),
    (codePoints "usage", usage),
    (codePoints "provider_status", providerStatus),
    (codePoints "usage_state", .str (codePoints recorded)),
    (codePoints "evidence_expires", .int evidenceExpires)]

/-! ## From one call to the next -/

/-- The ClientHello wait goes on until one whole record is there. -/
def Relay.awaitHello : Relay :=
  if s.client.length < 5 ∨ s.client.length < 5 + be16 s.client 3 then
    { s with stage := .helloDeadline }
  else { s with stage := .clientHelloPersist }

/-- A message arrives while the ClientHello is awaited. -/
def Relay.receiveHello (message : Message) : Relay :=
  let (channel, result) := s.channel.recv call.recursionLimit message
  let s := { s with channel, received := s.received ++ (match message with
    | .binary data => data
    | .text _ => []) }
  match result with
  | .error error => s.raise (.channel error)
  | .ok data =>
      let s := { s with client := s.client ++ data }
      if 5 ≤ s.client.length ∧ 16645 < 5 + be16 s.client 3 then
        s.raise (.valueError "Oversized ClientHello")
      else s.awaitHello

def claimName (handshake : Bool) : String :=
  if handshake then "claim.json" else "handshake-claim.json"

/-- `isinstance(size, int)`: a boolean is one. -/
def Json.asInt : Json → Option Int
  | .int n => some n
  | .bool b => some (if b then 1 else 0)
  | _ => none

def claimSize (claim : Json) : Option Int :=
  match claim with
  | .object members => (lookupIn (codePoints "client_bytes") members).bind Json.asInt
  | _ => none

/-- What the loop does about a claim, after the miner's message. -/
def Relay.readClaim : Relay :=
  match s.channel.claims.get (if s.handshake then .authorize else .handshake) with
  | none => { s with stage := .authorizationLoop }
  | some claim =>
      match claimSize claim with
      | none => s.raise (.valueError "Invalid authorized request size")
      | some size =>
          if ¬ (0 < size ∧ size ≤ maxBytes) ∨ size < s.client.length then
            s.raise (.valueError "Invalid authorized request size")
          else if s.client.length < size then { s with stage := .authorizationLoop }
          else if completeRecords s.server = false then { s with stage := .authorizationLoop }
          else if s.handshake ∧ s.server.length = s.handshakeBytes then
            { s with stage := .authorizationLoop }
          else { s with stage := .claimPersist claim }

/-- A message arrives in the loop; a timeout there is no error. -/
def Relay.receive (message : Message) : Relay :=
  let (channel, result) := s.channel.recv call.recursionLimit message
  let s := { s with channel, received := s.received ++ (match message with
    | .binary data => data
    | .text _ => []) }
  match result with
  | .error (.timeout _) => s.readClaim
  | .error error => s.raise (.channel error)
  | .ok data =>
      let s := { s with client := s.client ++ data }
      if maxBytes < s.client.length then s.raise (.valueError "Client traffic exceeds limit")
      else s.readClaim

/-- The loop delivers what the provider has sent. -/
def Relay.deliverHandshake (rest : List Bytes) : Relay :=
  match rest with
  | [] => { s with stage := .minerMessageWait }
  | _ => { s with stage := .minerHandshakeDelivery rest }

/-- The provider's bytes before the authorization. -/
def Relay.readHandshake (data : Bytes) : Relay :=
  if data = [] then s.raise (.valueError "Provider closed before authorization")
  else
    let s := { s with server := s.server ++ data, provided := s.provided ++ data }
    if 128 * 1024 < s.server.length then s.raise (.valueError "Server handshake exceeds limit")
    else
      match s.channel.send data with
      | (channel, .error error) => { s with channel }.raise (.channel error)
      | (channel, .ok rest) => { s with channel }.deliverHandshake rest

def Relay.persistClaim (claim : Json) : Relay :=
  let files := ((s.files.set "client.bin" (.bytes s.client)).set "server.bin" (.bytes s.server)).set
    (claimName s.handshake) (.json claim)
  { s with files, stage := if s.handshake then .authorizationVerify else .handshakeVerify }

def authorizationNames : List String :=
  ["client.bin", "server.bin", "claim.json", "authorization.json", "request.json"]

def Relay.persistAuthorization (names : List String) : Relay :=
  match names with
  | [] => { s with stage := .authorizationStatus }
  | _ => { s with stage := .authorizationPersist names }

/-- What is left to do before the release. -/
def Relay.prepareRelease : Relay :=
  match s.deadline with
  | none => s.raise (.valueError "Capture deadline is missing")
  | some _ => { s with stage := .releaseNotification }

/-- The provider's bytes after the release. -/
def Relay.readResponse (data : Bytes) : Relay :=
  if data = [] then { s with stage := .finalTranscriptPersist }
  else
    let s := { s with server := s.server ++ data, provided := s.provided ++ data }
    if maxBytes < s.server.length then s.raise (.valueError "Provider traffic exceeds 16 MiB")
    else { s with stage := .responseLoop }

def Relay.persistEvidence (names : List String) : Relay :=
  match names with
  | [] => { s with stage := if call.hasSeal then .sealing else .manifestPersist }
  | _ => { s with stage := .evidencePersist names }

def finalMetadata (metadata : Dict (List Nat) Json) : Dict (List Nat) Json :=
  (metadata.update [(codePoints "round", .str (codePoints call.roundNumber)),
    (codePoints "hotkey", .str (codePoints call.hotkey)),
    (codePoints "exchange_id", .str (codePoints (splitLast call.transcriptPath).2))]).update
      call.extraMetadata

def Relay.deliverRest (rest : List Bytes) : Relay :=
  match rest with
  | [] => { s with stage := .finish }
  | _ => { s with stage := .delivery rest }

/-- The delivery of everything since the release. -/
def Relay.deliver : Relay :=
  match s.channel.send (s.server.drop s.handshakeBytes) with
  | (channel, .error error) => { s with channel }.raise (.channel error)
  | (channel, .ok rest) => { s with channel }.deliverRest rest

/-- What a call that raises has done before. -/
def Relay.interrupted (done : Nat) : Relay :=
  match s.stage with
  | .providerHelloRelease =>
      { s with sent := s.sent ++ (s.client.take s.released).take done }
  | .providerProbeRelease | .providerRequestRelease =>
      { s with sent := s.sent ++ (s.client.drop s.released).take done }
  | .minerHandshakeDelivery (piece :: _) | .delivery (piece :: _) =>
      { s with delivered := s.delivered ++ piece.take done }
  | _ => s

/-- The calls whose transport errors are suppressed: the acknowledgement before the release, and the
delivery. -/
def Relay.suppressed : Option Relay :=
  match s.stage with
  | .releaseNotification =>
      some { s with handshakeBytes := s.server.length, stage := .providerRequestRelease }
  | .delivery _ | .finish => some { s with stage := .returned }
  | _ => none

/-- The answers of the clock. -/
def Relay.tick (now : Rat) : Option Relay :=
  match s.stage with
  | .helloDeadline => some <|
      if call.helloDeadline ≤ now then s.raise (.timeoutError "ClientHello deadline reached")
      else { s with stage := .clientHelloWait }
  | .authorizationLoop => some <|
      if now < call.authorizationDeadline then { s with stage := .providerPoll }
      else s.raise (.timeoutError "Request authorization deadline reached")
  | .authorizationCheck => some <|
      if call.authorizationDeadline ≤ now then
        s.raise (.timeoutError "Request authorization deadline reached")
      else if call.hasBeforeRelease then { s with stage := .dispatchPersist }
      else s.prepareRelease
  | .reservationCheck => some <|
      if call.authorizationDeadline ≤ now then
        s.raise (.timeoutError "Request authorization deadline reached")
      else s.prepareRelease
  | .responseLoop => some <|
      match s.deadline with
      | none => s.raise .outside
      | some deadline =>
          if now < deadline then { s with stage := .responsePoll }
          else s.raise (.timeoutError "Provider exchange deadline reached")
  | _ => none

/-- A call returned. -/
def Relay.returns : Option Relay :=
  match s.stage with
  | .providerConnect => some s.awaitHello
  | .clientHelloPersist =>
      some { s with files := s.files.set "client.bin" (.bytes s.client), stage := .helloVerify }
  | .providerHelloRelease =>
      some { s with sent := s.sent ++ s.client.take s.released, stage := .authorizationLoop }
  | .minerHandshakeDelivery (piece :: rest) =>
      some ({ s with delivered := s.delivered ++ piece }.deliverHandshake rest)
  | .claimPersist claim => some (s.persistClaim claim)
  | .handshakePersist =>
      (s.files.get "handshake.json").map fun blob =>
        { s.put call "handshake.json" blob with
          handshakeBytes := s.server.length
          handshake := true
          stage := .handshakeNotification }
  | .handshakeNotification => some { s with stage := .providerProbeRelease }
  | .providerProbeRelease =>
      some { s with
        sent := s.sent ++ s.client.drop s.released
        released := s.client.length
        stage := .authorizationLoop }
  | .authorizationPersist (name :: names) =>
      (s.files.get name).map fun blob => (s.put call name blob).persistAuthorization names
  | .authorizationStatus =>
      some { s.put call "status.json" (.json (runningStatus true)) with stage := .authorizationCheck }
  | .dispatchPersist =>
      some { s.put call "authorization-server.bin" (.bytes s.server) with
        files := s.files.set "authorization-server.bin" (.bytes s.server)
        stage := .dispatchReservation }
  | .releaseNotification =>
      some { s with handshakeBytes := s.server.length, stage := .providerRequestRelease }
  | .providerRequestRelease =>
      some { s with
        sent := s.sent ++ s.client.drop s.released
        releasedAt := some s.provided.length
        stage := .responseLoop }
  | .finalTranscriptPersist =>
      some { s.put call "server.bin" (.bytes s.server) with
        files := s.files.set "server.bin" (.bytes s.server)
        stage := .responseVerify }
  | .evidencePersist (name :: names) =>
      (s.files.get name).map fun blob => (s.put call name blob).persistEvidence call names
  | .sealing => some { s with stage := .manifestPersist }
  | .manifestPersist =>
      if (Json.object s.metadata.items).encodable then
        some { s.put call "manifest.json" (.json (.object s.metadata.items)) with
          stage := .finalStatusPersist }
      else none
  | .callFinalize => some { s with finalized := true }.deliver
  | .delivery (piece :: rest) => some ({ s with delivered := s.delivered ++ piece }.deliverRest rest)
  | .finish => some { s with stage := .returned }
  | _ => none

/-- The verifier, which reads the spool, returned. -/
def Relay.acceptsHello : Option Relay :=
  match s.stage, s.files.get "client.bin" with
  | .helloVerify, some (.bytes client) =>
      match clientHelloGate client with
      | .ok (some released) => some { s with
          released
          verified := s.verified ++ [(.hello, client.take released)]
          stage := .providerHelloRelease }
      | _ => none
  | _, _ => none

def Relay.acceptsHandshake (authorization : Bytes) : Option Relay :=
  match s.stage, s.files.get "client.bin" with
  | .handshakeVerify, some (.bytes client) =>
      some { s with
        files := s.files.set "handshake.json" (.bytes authorization)
        verified := s.verified ++ [(.handshake, client)]
        stage := .handshakePersist }
  | _, _ => none

def Relay.acceptsRequest (request authorization : Bytes) : Option Relay :=
  match s.stage, s.files.get "client.bin" with
  | .authorizationVerify, some (.bytes client) =>
      some ({ s with
        files := (s.files.set "request.json" (.bytes request)).set "authorization.json"
          (.bytes authorization)
        verified := s.verified ++ [(VerifierMode.authorize, client)] }.persistAuthorization authorizationNames)
  | _, _ => none

def Relay.step : RelayEvent → Option Relay
  | .returns => s.returns call
  | .tick now => s.tick call now
  | .selected readable =>
      match s.stage with
      | .providerPoll =>
          some { s with stage := if readable then .providerHandshakeRead else .minerMessageWait }
      | .responsePoll =>
          some { s with stage := if readable then .providerResponseCapture else .responseLoop }
      | _ => none
  | .chunk data =>
      match s.stage with
      | .providerHandshakeRead => some (s.readHandshake data)
      | .providerResponseCapture => some (s.readResponse data)
      | _ => none
  | .message message =>
      match s.stage with
      | .clientHelloWait => some (s.receiveHello call message)
      | .minerMessageWait => some (s.receive call message)
      | _ => none
  | .timesOut =>
      match s.stage with
      | .clientHelloWait => some (s.raise (.channel (.timeout "timed out")))
      | .minerMessageWait => some s.readClaim
      | _ => none
  | .acceptsHello => s.acceptsHello
  | .acceptsHandshake authorization => s.acceptsHandshake authorization
  | .acceptsRequest request authorization => s.acceptsRequest request authorization
  | .finishes response metadata =>
      match s.stage with
      | .responseVerify =>
          some { s with
            files := s.files.set "response.sse" (.bytes response)
            metadata := finalMetadata call metadata
            stage := .evidencePersist ["request.json", "response.sse"] }
      | _ => none
  | .reserves captureDeadline =>
      match s.stage with
      | .dispatchReservation =>
          some { s with
            deadline := captureDeadline.or s.deadline
            reserved := true
            stage := .reservationCheck }
      | _ => none
  | .storesStatus evidenceExpires =>
      match s.stage, s.metadata.get (codePoints "provider_status") with
      | .finalStatusPersist, some providerStatus =>
          let s := s.put call "status.json"
            (.json (issuedStatus s.metadata providerStatus evidenceExpires))
          let s := { s with issued := true }
          some (if call.hasBeforeDelivery then { s with stage := .callFinalize } else s.deliver)
      | _, _ => none
  | .raises done transport =>
      match s.stage with
      | .returned | .raised _ => none
      | _ =>
          if transport then
            match (s.interrupted done).suppressed with
            | some s => some s
            | none => some ((s.interrupted done).raise .outside)
          else some ((s.interrupted done).raise .outside)

end GenSubnet.Witness
