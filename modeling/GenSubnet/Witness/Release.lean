import GenSubnet.Witness.Relay

/-!
# Release and delivery

What the relay has sent is a prefix of what the miner sent: of what the hello and handshake
verifications accepted, and beyond that only of the client bytes whose authorization is durable.
What it has delivered is a prefix of what the provider sent, and nothing that came after the release
before the evidence is durable.
-/

namespace GenSubnet.Witness
open Library

variable (call : RelayCall) (s : Relay)

/-- The bytes begin something that the hello or the handshake verification accepted. -/
def Relay.Accepted (bytes : Bytes) : Prop :=
  bytes = [] ∨ ∃ mode accepted, (mode, accepted) ∈ s.verified ∧
    (mode = .hello ∨ mode = .handshake) ∧ bytes <+: accepted

def Relay.Stored (name : String) (blob : Blob) : Prop := (call.key name, blob) ∈ s.stored

/-- These client bytes passed the authorization, all of its objects and the status are stored, and
the reservation was made. -/
structure Relay.Authorized (client : Bytes) : Prop where
  verified : (.authorize, client) ∈ s.verified
  client : s.Stored call "client.bin" (.bytes client)
  objects : ∀ name ∈ authorizationNames, ∃ blob, s.Stored call name blob
  status : s.Stored call "status.json" (.json (runningStatus true))
  reserved : call.hasBeforeRelease = true → s.reserved = true

/-- The manifest and the issued status are stored, and the call is finalized. -/
structure Relay.Durable : Prop where
  manifest : s.Stored call "manifest.json" (.json (.object s.metadata.items))
  status : ∃ providerStatus evidenceExpires, s.Stored call "status.json"
    (.json (issuedStatus s.metadata providerStatus evidenceExpires))
  finalized : call.hasBeforeDelivery = true → s.finalized = true

structure Relay.Safe : Prop where
  /-- What was sent to the provider begins what the miner sent. -/
  sent : s.sent <+: s.received
  /-- It was accepted by the hello and handshake verifications, or its authorization is durable. -/
  accepted : s.Accepted s.sent ∨ ∃ client, s.Authorized call client ∧ s.sent <+: client
  /-- After the release it is the client bytes that were verified. -/
  released : s.releasedAt.isSome = true → s.Authorized call s.sent
  /-- What was delivered to the miner begins what the provider sent. -/
  delivered : s.delivered <+: s.provided
  /-- What came after the release is delivered only once the evidence is durable. -/
  late : ∀ n, s.releasedAt = some n → n < s.delivered.length → s.Durable call

/-! ## What holds at a stage -/

def Relay.Spooled : Prop := s.files.get "client.bin" = some (.bytes s.client)

/-- Nothing has passed in either direction. -/
structure Relay.Quiet : Prop where
  client : s.client = s.received
  server : s.server = s.provided
  sent : s.sent = []
  delivered : s.delivered = s.server
  waiting : s.releasedAt = none

/-- The first bytes are sent, the others are held; the rest of the provider's is on its way. -/
structure Relay.Holding (rest : Bytes) : Prop where
  client : s.client = s.received
  server : s.server = s.provided
  sent : s.sent = s.client.take s.released
  released : s.released ≤ s.client.length
  accepted : s.Accepted s.sent
  delivered : s.delivered ++ rest = s.server
  waiting : s.releasedAt = none

/-- The authorization is verified, and all its objects but those of the names are stored. -/
structure Relay.Authorizing (names : List String) : Prop where
  verified : (.authorize, s.client) ∈ s.verified
  spooled : s.Spooled
  client : "client.bin" ∈ names ∨ s.Stored call "client.bin" (.bytes s.client)
  objects : ∀ name ∈ authorizationNames, name ∈ names ∨ ∃ blob, s.Stored call name blob

/-- The request is released, and what came since is kept. -/
structure Relay.Capturing : Prop where
  client : s.client = s.received
  server : s.server = s.provided
  sent : s.sent = s.client
  authorized : s.Authorized call s.client
  delivered : s.delivered = s.server.take s.handshakeBytes
  handshakeBytes : s.handshakeBytes ≤ s.server.length
  releasedAt : s.releasedAt = some s.handshakeBytes

/-- The evidence is durable, and the rest is on its way. -/
structure Relay.Delivering (rest : Bytes) : Prop where
  client : s.client = s.received
  server : s.server = s.provided
  sent : s.sent = s.client
  authorized : s.Authorized call s.client
  delivered : s.delivered ++ rest = s.server
  durable : s.Durable call

def Relay.FactsAt (stage : RelayStage) : Prop :=
  match stage with
  | .providerConnect | .helloDeadline | .clientHelloWait | .clientHelloPersist => s.Quiet
  | .helloVerify => s.Quiet ∧ s.Spooled
  | .providerHelloRelease =>
      s.Quiet ∧ s.released ≤ s.client.length ∧ s.Accepted (s.client.take s.released)
  | .authorizationLoop | .providerPoll | .providerHandshakeRead | .minerMessageWait
  | .claimPersist _ => s.Holding []
  | .minerHandshakeDelivery rest => s.Holding rest.flatten
  | .handshakeVerify | .authorizationVerify => s.Holding [] ∧ s.Spooled
  | .handshakePersist | .handshakeNotification | .providerProbeRelease =>
      s.Holding [] ∧ s.Accepted s.client
  | .authorizationPersist names => s.Holding [] ∧ s.Authorizing call names
  | .authorizationStatus => s.Holding [] ∧ s.Authorizing call []
  | .authorizationCheck | .dispatchPersist | .dispatchReservation =>
      s.Holding [] ∧ s.Authorizing call [] ∧
        s.Stored call "status.json" (.json (runningStatus true))
  | .reservationCheck =>
      s.Holding [] ∧ s.Authorizing call [] ∧
        s.Stored call "status.json" (.json (runningStatus true)) ∧ s.reserved = true
  | .releaseNotification => s.Holding [] ∧ s.Authorized call s.client
  | .providerRequestRelease =>
      s.Holding [] ∧ s.Authorized call s.client ∧ s.handshakeBytes = s.server.length
  | .responseLoop | .responsePoll | .providerResponseCapture | .finalTranscriptPersist
  | .responseVerify | .evidencePersist _ | .sealing | .manifestPersist => s.Capturing call
  | .finalStatusPersist => s.Capturing call ∧
      s.Stored call "manifest.json" (.json (.object s.metadata.items))
  | .callFinalize => s.Capturing call ∧
      s.Stored call "manifest.json" (.json (.object s.metadata.items)) ∧
      ∃ providerStatus evidenceExpires, s.Stored call "status.json"
        (.json (issuedStatus s.metadata providerStatus evidenceExpires))
  | .delivery rest => s.Delivering call rest.flatten
  | .finish => s.Delivering call []
  | .returned | .raised _ => True

def Relay.Facts : Prop := s.FactsAt call s.stage

variable {call s}

theorem prefix_of_eq {as bs : Bytes} (same : as = bs) : as <+: bs := same ▸ List.prefix_rfl

theorem Relay.Quiet.safe (quiet : s.Quiet) : s.Safe call where
  sent := by rw [quiet.sent]; exact List.nil_prefix
  accepted := Or.inl (Or.inl quiet.sent)
  released := by rw [quiet.waiting]; intro h; cases h
  delivered := prefix_of_eq (by rw [quiet.delivered, quiet.server])
  late := by rw [quiet.waiting]; intro n h; cases h

theorem Relay.Holding.safe {rest : Bytes} (holding : s.Holding rest) : s.Safe call where
  sent := by rw [holding.sent, ← holding.client]; exact List.take_prefix _ _
  accepted := Or.inl holding.accepted
  released := by rw [holding.waiting]; intro h; cases h
  delivered := by rw [← holding.server, ← holding.delivered]; exact List.prefix_append _ _
  late := by rw [holding.waiting]; intro n h; cases h

theorem Relay.Capturing.safe (capturing : s.Capturing call) : s.Safe call where
  sent := prefix_of_eq (by rw [capturing.sent, capturing.client])
  accepted := Or.inr ⟨s.client, capturing.authorized, prefix_of_eq (by rw [capturing.sent])⟩
  released := by rw [capturing.sent]; exact fun _ => capturing.authorized
  delivered := by rw [capturing.delivered, ← capturing.server]; exact List.take_prefix _ _
  late := by
    intro n at_n longer
    obtain rfl := Option.some.inj (capturing.releasedAt.symm.trans at_n)
    rw [capturing.delivered, List.length_take] at longer
    omega

theorem Relay.Delivering.safe {rest : Bytes} (delivering : s.Delivering call rest) :
    s.Safe call where
  sent := prefix_of_eq (by rw [delivering.sent, delivering.client])
  accepted := Or.inr ⟨s.client, delivering.authorized, prefix_of_eq (by rw [delivering.sent])⟩
  released := by rw [delivering.sent]; exact fun _ => delivering.authorized
  delivered := by rw [← delivering.server, ← delivering.delivered]; exact List.prefix_append _ _
  late := fun _ _ _ => delivering.durable

/-- The safety of a relay and what holds at its stage. -/
structure Relay.Disciplined (call : RelayCall) (s : Relay) : Prop where
  safe : s.Safe call
  facts : s.Facts call

theorem Relay.Disciplined.factsAt (disciplined : s.Disciplined call) {stage : RelayStage}
    (is : s.stage = stage) : s.FactsAt call stage :=
  is ▸ disciplined.facts

theorem Relay.Quiet.disciplined (quiet : s.Quiet) (facts : s.Facts call) : s.Disciplined call :=
  ⟨quiet.safe, facts⟩

theorem Relay.Holding.disciplined {rest : Bytes} (holding : s.Holding rest)
    (facts : s.Facts call) : s.Disciplined call :=
  ⟨holding.safe, facts⟩

theorem Relay.Capturing.disciplined (capturing : s.Capturing call) (facts : s.Facts call) :
    s.Disciplined call :=
  ⟨capturing.safe, facts⟩

theorem Relay.Delivering.disciplined {rest : Bytes} (delivering : s.Delivering call rest)
    (facts : s.Facts call) : s.Disciplined call :=
  ⟨delivering.safe, facts⟩

/-! ## What is noted stays noted -/

structure Relay.Notes (s s' : Relay) : Prop where
  verified : s.verified ⊆ s'.verified
  stored : s.stored ⊆ s'.stored
  reserved : s.reserved = true → s'.reserved = true

variable {s' : Relay}

theorem Relay.Accepted.mono {bytes : Bytes} (accepted : s.Accepted bytes)
    (verified : s.verified ⊆ s'.verified) : s'.Accepted bytes := by
  rcases accepted with empty | ⟨mode, whole, member, modes, begins⟩
  · exact Or.inl empty
  · exact Or.inr ⟨mode, whole, verified member, modes, begins⟩

theorem Relay.Authorized.mono {client : Bytes} (authorized : s.Authorized call client)
    (notes : s.Notes s') : s'.Authorized call client where
  verified := notes.verified authorized.verified
  client := notes.stored authorized.client
  objects := by
    intro name member
    obtain ⟨blob, stored⟩ := authorized.objects name member
    exact ⟨blob, notes.stored stored⟩
  status := notes.stored authorized.status
  reserved := fun has => notes.reserved (authorized.reserved has)

theorem Relay.Durable.mono (durable : s.Durable call) (stored : s.stored ⊆ s'.stored)
    (metadata : s'.metadata = s.metadata) (finalized : s.finalized = true → s'.finalized = true) :
    s'.Durable call where
  manifest := by rw [metadata]; exact stored durable.manifest
  status := by
    obtain ⟨providerStatus, evidenceExpires, member⟩ := durable.status
    exact ⟨providerStatus, evidenceExpires, by rw [metadata]; exact stored member⟩
  finalized := fun has => finalized (durable.finalized has)

theorem Relay.Safe.raise (safe : s.Safe call) (error : RelayError) :
    (s.raise error).Disciplined call := by
  have notes : s.Notes (s.raise error) := ⟨fun _ h => h, fun _ h => h, id⟩
  refine ⟨⟨safe.sent, ?_, fun h => (safe.released h).mono notes, safe.delivered,
    fun n at_n longer => (safe.late n at_n longer).mono (fun _ h => h) rfl id⟩, trivial⟩
  rcases safe.accepted with accepted | ⟨client, authorized, begins⟩
  · exact Or.inl (accepted.mono notes.verified)
  · exact Or.inr ⟨client, authorized.mono notes, begins⟩

theorem Relay.Safe.moved (safe : s.Safe call) (stage : RelayStage) :
    Relay.Safe call { s with stage } := by
  have notes : s.Notes { s with stage } := ⟨fun _ h => h, fun _ h => h, id⟩
  refine ⟨safe.sent, ?_, fun h => (safe.released h).mono notes, safe.delivered,
    fun n at_n longer => (safe.late n at_n longer).mono (fun _ h => h) rfl id⟩
  rcases safe.accepted with accepted | ⟨client, authorized, begins⟩
  · exact Or.inl (accepted.mono notes.verified)
  · exact Or.inr ⟨client, authorized.mono notes, begins⟩

theorem Relay.Safe.lost (safe : s.Safe call) (channel : WorkerChannel) (more : Bytes) :
    Relay.Safe call { s with channel, received := s.received ++ more } := by
  have notes : s.Notes { s with channel, received := s.received ++ more } :=
    ⟨fun _ h => h, fun _ h => h, id⟩
  refine ⟨safe.sent.trans (List.prefix_append _ _), ?_, fun h => (safe.released h).mono notes,
    safe.delivered, fun n at_n longer => (safe.late n at_n longer).mono (fun _ h => h) rfl id⟩
  rcases safe.accepted with accepted | ⟨client, authorized, begins⟩
  · exact Or.inl (accepted.mono notes.verified)
  · exact Or.inr ⟨client, authorized.mono notes, begins⟩

/-! ## From one call to the next -/

theorem Relay.Quiet.awaitHello (quiet : s.Quiet) : s.awaitHello.Disciplined call := by
  have same : s.awaitHello.Quiet := by
    unfold Relay.awaitHello
    split <;> exact ⟨quiet.client, quiet.server, quiet.sent, quiet.delivered, quiet.waiting⟩
  refine same.disciplined ?_
  unfold Relay.awaitHello at same ⊢
  split at same <;> rename_i waits
  · rw [if_pos waits]
    exact same
  · rw [if_neg waits]
    exact same

theorem Relay.Quiet.receiveHello (quiet : s.Quiet) (message : Message) :
    (s.receiveHello call message).Disciplined call := by
  unfold Relay.receiveHello
  rcases received : s.channel.recv call.recursionLimit message with ⟨channel, result⟩
  simp only
  cases result with
  | error error => exact (quiet.safe.lost channel _).raise _
  | ok data =>
      obtain rfl := WorkerChannel.recv_ok received
      have longer : Relay.Quiet { s with
          channel, received := s.received ++ data, client := s.client ++ data } :=
        ⟨by rw [quiet.client], quiet.server, quiet.sent, quiet.delivered, quiet.waiting⟩
      simp only
      split
      · exact longer.safe.raise _
      · exact longer.awaitHello

theorem Relay.Holding.readClaim (holding : s.Holding []) : s.readClaim.Disciplined call := by
  have moved : ∀ stage, Relay.Holding { s with stage } [] := fun stage =>
    ⟨holding.client, holding.server, holding.sent, holding.released, holding.accepted,
      holding.delivered, holding.waiting⟩
  unfold Relay.readClaim
  split
  · exact (moved _).disciplined (moved _)
  · split
    · exact holding.safe.raise _
    · split
      · exact holding.safe.raise _
      · split
        · exact (moved _).disciplined (moved _)
        · split
          · exact (moved _).disciplined (moved _)
          · split
            · exact (moved _).disciplined (moved _)
            · exact (moved _).disciplined (moved _)

theorem Relay.Holding.extend {rest : Bytes} (holding : s.Holding rest) (channel : WorkerChannel)
    (data : Bytes) : Relay.Holding { s with
      channel, received := s.received ++ data, client := s.client ++ data } rest where
  client := by simp only [holding.client]
  server := holding.server
  sent := by
    show s.sent = (s.client ++ data).take s.released
    rw [List.take_append_of_le_length holding.released, holding.sent]
  released := by
    have le := holding.released
    simp only [List.length_append]
    omega
  accepted := holding.accepted
  delivered := holding.delivered
  waiting := holding.waiting

theorem Relay.Holding.receive (holding : s.Holding []) (message : Message) :
    (s.receive call message).Disciplined call := by
  unfold Relay.receive
  rcases received : s.channel.recv call.recursionLimit message with ⟨channel, result⟩
  simp only
  cases result with
  | error error =>
      cases message with
      | text text =>
          have same : Relay.Holding { s with channel, received := s.received ++ [] } [] :=
            ⟨by rw [List.append_nil, holding.client], holding.server, holding.sent,
              holding.released, holding.accepted, holding.delivered, holding.waiting⟩
          cases error with
          | timeout text => exact same.readClaim
          | valueError text | loads error | encode => exact same.safe.raise _
      | binary data =>
          cases error with
          | timeout text => exact absurd received (WorkerChannel.recv_binary _ _ _ _ _)
          | valueError text | loads error | encode =>
              exact (holding.safe.lost channel data).raise _
  | ok data =>
      obtain rfl := WorkerChannel.recv_ok received
      have longer := holding.extend channel data
      simp only
      split
      · exact longer.safe.raise _
      · exact longer.readClaim

theorem Relay.Holding.deliverHandshake {rest : List Bytes} (holding : s.Holding rest.flatten) :
    (s.deliverHandshake rest).Disciplined call := by
  have moved : ∀ stage, Relay.Holding { s with stage } rest.flatten := fun stage =>
    ⟨holding.client, holding.server, holding.sent, holding.released, holding.accepted,
      holding.delivered, holding.waiting⟩
  cases rest with
  | nil => exact (moved _).disciplined (moved _)
  | cons piece rest => exact (moved _).disciplined (moved _)

theorem Relay.Holding.provide (holding : s.Holding []) (data : Bytes) :
    Relay.Holding { s with server := s.server ++ data, provided := s.provided ++ data } data where
  client := holding.client
  server := by simp only [holding.server]
  sent := holding.sent
  released := holding.released
  accepted := holding.accepted
  delivered := by
    have all := holding.delivered
    rw [List.append_nil] at all
    simp only [all]
  waiting := holding.waiting

theorem Relay.Holding.readHandshake (holding : s.Holding []) (data : Bytes) :
    (s.readHandshake data).Disciplined call := by
  unfold Relay.readHandshake
  split
  · exact holding.safe.raise _
  · have more := holding.provide data
    simp only
    split
    · exact more.safe.raise _
    · rcases sending : s.channel.send data with ⟨channel, result⟩
      have same : Relay.Holding { s with
          server := s.server ++ data, provided := s.provided ++ data, channel } data :=
        ⟨more.client, more.server, more.sent, more.released, more.accepted, more.delivered,
          more.waiting⟩
      cases result with
      | error error => exact same.safe.raise _
      | ok rest =>
          have whole := WorkerChannel.send_ok sending
          exact Relay.Holding.deliverHandshake (by rw [whole]; exact same)

theorem Relay.Holding.persistClaim (holding : s.Holding []) (claim : Json) :
    (s.persistClaim claim).Disciplined call := by
  have same : (s.persistClaim claim).Holding [] :=
    ⟨holding.client, holding.server, holding.sent, holding.released, holding.accepted,
      holding.delivered, holding.waiting⟩
  have spooled : (s.persistClaim claim).Spooled := by
    have named : "client.bin" ≠ claimName s.handshake := by
      cases s.handshake <;> decide
    unfold Relay.Spooled Relay.persistClaim
    simp only
    rw [Dict.get_set_of_ne _ _ named, Dict.get_set_of_ne _ _ (by decide), Dict.get_set_self]
  refine same.disciplined ?_
  cases handshake : s.handshake with
  | false =>
      have stage : (s.persistClaim claim).stage = .handshakeVerify := by
        simp [Relay.persistClaim, handshake]
      unfold Relay.Facts
      rw [stage]
      exact ⟨same, spooled⟩
  | true =>
      have stage : (s.persistClaim claim).stage = .authorizationVerify := by
        simp [Relay.persistClaim, handshake]
      unfold Relay.Facts
      rw [stage]
      exact ⟨same, spooled⟩

theorem Relay.Holding.persistAuthorization {names : List String} (holding : s.Holding [])
    (authorizing : s.Authorizing call names) : (s.persistAuthorization names).Disciplined call := by
  have moved : ∀ stage, Relay.Holding { s with stage } [] := fun stage =>
    ⟨holding.client, holding.server, holding.sent, holding.released, holding.accepted,
      holding.delivered, holding.waiting⟩
  have kept : ∀ stage, Relay.Authorizing call { s with stage } names := fun stage =>
    ⟨authorizing.verified, authorizing.spooled, authorizing.client, authorizing.objects⟩
  cases names with
  | nil => exact (moved _).disciplined ⟨moved _, kept _⟩
  | cons name names => exact (moved _).disciplined ⟨moved _, kept _⟩

theorem Relay.Holding.prepareRelease (holding : s.Holding [])
    (authorizing : s.Authorizing call [])
    (status : s.Stored call "status.json" (.json (runningStatus true)))
    (reserved : call.hasBeforeRelease = true → s.reserved = true) :
    s.prepareRelease.Disciplined call := by
  unfold Relay.prepareRelease
  split
  · exact holding.safe.raise _
  · have moved : Relay.Holding { s with stage := .releaseNotification } [] :=
      ⟨holding.client, holding.server, holding.sent, holding.released, holding.accepted,
        holding.delivered, holding.waiting⟩
    refine moved.disciplined ⟨moved, authorizing.verified, ?_, ?_, status, reserved⟩
    · exact authorizing.client.resolve_left (List.not_mem_nil)
    · exact fun name member => (authorizing.objects name member).resolve_left (List.not_mem_nil)

theorem Relay.Capturing.moved (capturing : s.Capturing call) (stage : RelayStage) :
    Relay.Capturing call { s with stage } :=
  ⟨capturing.client, capturing.server, capturing.sent,
    capturing.authorized.mono ⟨fun _ h => h, fun _ h => h, id⟩, capturing.delivered,
    capturing.handshakeBytes, capturing.releasedAt⟩

theorem Relay.Capturing.readResponse (capturing : s.Capturing call) (data : Bytes) :
    (s.readResponse data).Disciplined call := by
  unfold Relay.readResponse
  split
  · exact (capturing.moved _).disciplined (capturing.moved _)
  · have more : Relay.Capturing call { s with
        server := s.server ++ data, provided := s.provided ++ data } := by
      have le := capturing.handshakeBytes
      refine ⟨capturing.client, by simp only [capturing.server], capturing.sent,
        capturing.authorized.mono ⟨fun _ h => h, fun _ h => h, id⟩, ?_, ?_, capturing.releasedAt⟩
      · show s.delivered = (s.server ++ data).take s.handshakeBytes
        rw [List.take_append_of_le_length le, capturing.delivered]
      · simp only [List.length_append]
        omega
    simp only
    split
    · exact more.safe.raise _
    · exact (more.moved _).disciplined (more.moved _)

theorem Relay.Capturing.persistEvidence (capturing : s.Capturing call) (names : List String) :
    (s.persistEvidence call names).Disciplined call := by
  cases names with
  | nil =>
      unfold Relay.persistEvidence
      cases call.hasSeal <;> exact (capturing.moved _).disciplined (capturing.moved _)
  | cons name names => exact (capturing.moved _).disciplined (capturing.moved _)

theorem Relay.Delivering.deliverRest {rest : List Bytes}
    (delivering : s.Delivering call rest.flatten) : (s.deliverRest rest).Disciplined call := by
  have moved : ∀ stage, Relay.Delivering call { s with stage } rest.flatten := fun stage =>
    ⟨delivering.client, delivering.server, delivering.sent,
      delivering.authorized.mono ⟨fun _ h => h, fun _ h => h, id⟩, delivering.delivered,
      delivering.durable.mono (fun _ h => h) rfl id⟩
  cases rest with
  | nil => exact (moved _).disciplined (moved _)
  | cons piece rest => exact (moved _).disciplined (moved _)

theorem Relay.Capturing.deliver (capturing : s.Capturing call) (durable : s.Durable call) :
    s.deliver.Disciplined call := by
  unfold Relay.deliver
  rcases sending : s.channel.send (s.server.drop s.handshakeBytes) with ⟨channel, result⟩
  have delivering : Relay.Delivering call { s with channel } (s.server.drop s.handshakeBytes) := by
    refine ⟨capturing.client, capturing.server, capturing.sent,
      capturing.authorized.mono ⟨fun _ h => h, fun _ h => h, id⟩, ?_,
      durable.mono (fun _ h => h) rfl id⟩
    show s.delivered ++ s.server.drop s.handshakeBytes = s.server
    rw [capturing.delivered, List.take_append_drop]
  cases result with
  | error error => exact delivering.safe.raise _
  | ok rest =>
      rw [← WorkerChannel.send_ok sending] at delivering
      exact delivering.deliverRest

/-! ## Steps -/

theorem Relay.Quiet.moved (quiet : s.Quiet) (stage : RelayStage) :
    Relay.Quiet { s with stage } :=
  ⟨quiet.client, quiet.server, quiet.sent, quiet.delivered, quiet.waiting⟩

theorem Relay.Holding.moved {rest : Bytes} (holding : s.Holding rest) (stage : RelayStage) :
    Relay.Holding { s with stage } rest :=
  ⟨holding.client, holding.server, holding.sent, holding.released, holding.accepted,
    holding.delivered, holding.waiting⟩

theorem Relay.Disciplined.tick (disciplined : s.Disciplined call) {now : Rat}
    (stepped : s.tick call now = some s') : s'.Disciplined call := by
  unfold Relay.tick at stepped
  split at stepped
  · rename_i stage
    have quiet : s.Quiet := disciplined.factsAt stage
    obtain rfl := Option.some.inj stepped
    split
    · exact quiet.safe.raise _
    · exact (quiet.moved _).disciplined (quiet.moved _)
  · rename_i stage
    have holding : s.Holding [] := disciplined.factsAt stage
    obtain rfl := Option.some.inj stepped
    split
    · exact (holding.moved _).disciplined (holding.moved _)
    · exact holding.safe.raise _
  · rename_i stage
    obtain ⟨holding, authorizing, status⟩ := disciplined.factsAt stage
    obtain rfl := Option.some.inj stepped
    split
    · exact holding.safe.raise _
    · split
      · exact (holding.moved _).disciplined ⟨holding.moved _, ⟨authorizing.verified,
          authorizing.spooled, authorizing.client, authorizing.objects⟩, status⟩
      · rename_i absent
        exact holding.prepareRelease authorizing status fun has => absurd has absent
  · rename_i stage
    obtain ⟨holding, authorizing, status, reserved⟩ := disciplined.factsAt stage
    obtain rfl := Option.some.inj stepped
    split
    · exact holding.safe.raise _
    · exact holding.prepareRelease authorizing status fun _ => reserved
  · rename_i stage
    have capturing : s.Capturing call := disciplined.factsAt stage
    obtain rfl := Option.some.inj stepped
    split
    · exact capturing.safe.raise _
    · split
      · exact (capturing.moved _).disciplined (capturing.moved _)
      · exact capturing.safe.raise _
  · cases stepped

theorem Relay.Disciplined.acceptsHello (disciplined : s.Disciplined call)
    (stepped : s.acceptsHello = some s') : s'.Disciplined call := by
  unfold Relay.acceptsHello at stepped
  split at stepped
  · rename_i client stage spool
    obtain ⟨quiet, spooled⟩ := disciplined.factsAt stage
    obtain rfl : client = s.client := by
      unfold Relay.Spooled at spooled
      rw [spool] at spooled
      exact Blob.bytes.inj (Option.some.inj spooled)
    split at stepped
    · rename_i released gate
      obtain rfl := Option.some.inj stepped
      have same : Relay.Quiet { s with
          released
          verified := s.verified ++ [(.hello, s.client.take released)]
          stage := .providerHelloRelease } :=
        ⟨quiet.client, quiet.server, quiet.sent, quiet.delivered, quiet.waiting⟩
      exact same.disciplined ⟨same, clientHelloGate_le gate, Or.inr ⟨.hello, _,
        List.mem_append_right _ (List.mem_singleton_self _), Or.inl rfl, List.prefix_rfl⟩⟩
    · cases stepped
  · cases stepped

theorem Relay.Disciplined.acceptsHandshake (disciplined : s.Disciplined call)
    {authorization : Bytes} (stepped : s.acceptsHandshake authorization = some s') :
    s'.Disciplined call := by
  unfold Relay.acceptsHandshake at stepped
  split at stepped
  · rename_i client stage spool
    obtain ⟨holding, spooled⟩ := disciplined.factsAt stage
    obtain rfl : client = s.client := by
      unfold Relay.Spooled at spooled
      rw [spool] at spooled
      exact Blob.bytes.inj (Option.some.inj spooled)
    obtain rfl := Option.some.inj stepped
    have same : Relay.Holding { s with
        files := s.files.set "handshake.json" (.bytes authorization)
        verified := s.verified ++ [(.handshake, s.client)]
        stage := .handshakePersist } [] :=
      ⟨holding.client, holding.server, holding.sent, holding.released,
        holding.accepted.mono (List.subset_append_left _ _), holding.delivered, holding.waiting⟩
    exact same.disciplined ⟨same, Or.inr ⟨.handshake, _,
      List.mem_append_right _ (List.mem_singleton_self _), Or.inr rfl, List.prefix_rfl⟩⟩
  · cases stepped

theorem Relay.Disciplined.acceptsRequest (disciplined : s.Disciplined call)
    {request authorization : Bytes} (stepped : s.acceptsRequest request authorization = some s') :
    s'.Disciplined call := by
  unfold Relay.acceptsRequest at stepped
  split at stepped
  · rename_i client stage spool
    obtain ⟨holding, spooled⟩ := disciplined.factsAt stage
    obtain rfl : client = s.client := by
      unfold Relay.Spooled at spooled
      rw [spool] at spooled
      exact Blob.bytes.inj (Option.some.inj spooled)
    obtain rfl := Option.some.inj stepped
    refine Relay.Holding.persistAuthorization ⟨holding.client, holding.server, holding.sent,
      holding.released, holding.accepted.mono (List.subset_append_left _ _), holding.delivered,
      holding.waiting⟩ ⟨?_, ?_, ?_, ?_⟩
    · exact List.mem_append_right _ (List.mem_singleton_self _)
    · unfold Relay.Spooled
      simp only
      rw [Dict.get_set_of_ne _ _ (by decide), Dict.get_set_of_ne _ _ (by decide)]
      exact spooled
    · exact Or.inl (by decide)
    · exact fun name member => Or.inl member
  · cases stepped

theorem Relay.notes_put (s : Relay) (name : String) (blob : Blob) :
    s.Notes (s.put call name blob) :=
  ⟨fun _ h => h, List.subset_append_left _ _, id⟩

theorem Relay.stored_put (s : Relay) (name : String) (blob : Blob) :
    (s.put call name blob).Stored call name blob :=
  List.mem_append_right _ (List.mem_singleton_self _)

theorem Relay.Holding.put {rest : Bytes} (holding : s.Holding rest) (name : String) (blob : Blob) :
    (s.put call name blob).Holding rest :=
  ⟨holding.client, holding.server, holding.sent, holding.released, holding.accepted,
    holding.delivered, holding.waiting⟩

theorem Relay.Capturing.put (capturing : s.Capturing call) (name : String) (blob : Blob) :
    (s.put call name blob).Capturing call :=
  ⟨capturing.client, capturing.server, capturing.sent,
    capturing.authorized.mono (s.notes_put name blob), capturing.delivered,
    capturing.handshakeBytes, capturing.releasedAt⟩

theorem Relay.Authorizing.put {name : String} {names : List String} {blob : Blob}
    (authorizing : s.Authorizing call (name :: names)) (file : s.files.get name = some blob) :
    (s.put call name blob).Authorizing call names where
  verified := authorizing.verified
  spooled := authorizing.spooled
  client := by
    rcases authorizing.client with member | stored
    · rcases List.mem_cons.mp member with rfl | member
      · have spooled : s.files.get "client.bin" = some (.bytes s.client) := authorizing.spooled
        obtain rfl := Option.some.inj (spooled.symm.trans file)
        exact Or.inr (s.stored_put _ _)
      · exact Or.inl member
    · exact Or.inr ((s.notes_put name blob).stored stored)
  objects := by
    intro other member
    rcases authorizing.objects other member with member | ⟨content, stored⟩
    · rcases List.mem_cons.mp member with rfl | member
      · exact Or.inr ⟨blob, s.stored_put _ _⟩
      · exact Or.inl member
    · exact Or.inr ⟨content, (s.notes_put name blob).stored stored⟩

theorem Relay.Quiet.sendHello (quiet : s.Quiet) (released : s.released ≤ s.client.length)
    (accepted : s.Accepted (s.client.take s.released)) :
    Relay.Holding { s with
      sent := s.sent ++ s.client.take s.released, stage := .authorizationLoop } [] where
  client := quiet.client
  server := quiet.server
  sent := by simp only [quiet.sent, List.nil_append]
  released := released
  accepted := by
    simp only [quiet.sent, List.nil_append]
    exact accepted
  delivered := by
    simp only [List.append_nil]
    exact quiet.delivered
  waiting := quiet.waiting

theorem Relay.Holding.sendRest (holding : s.Holding []) :
    s.sent ++ s.client.drop s.released = s.client := by
  rw [holding.sent, List.take_append_drop]

theorem Relay.Holding.deliverPiece {piece rest : Bytes} (holding : s.Holding (piece ++ rest)) :
    Relay.Holding { s with delivered := s.delivered ++ piece } rest :=
  ⟨holding.client, holding.server, holding.sent, holding.released, holding.accepted,
    by rw [← holding.delivered, List.append_assoc], holding.waiting⟩

theorem Relay.Delivering.deliverPiece {piece rest : Bytes}
    (delivering : s.Delivering call (piece ++ rest)) :
    Relay.Delivering call { s with delivered := s.delivered ++ piece } rest :=
  ⟨delivering.client, delivering.server, delivering.sent,
    delivering.authorized.mono ⟨fun _ h => h, fun _ h => h, id⟩,
    by rw [← delivering.delivered, List.append_assoc],
    delivering.durable.mono (fun _ h => h) rfl id⟩

theorem Relay.Holding.release (holding : s.Holding []) (authorized : s.Authorized call s.client)
    (handshakeBytes : s.handshakeBytes = s.server.length) :
    Relay.Capturing call { s with
      sent := s.sent ++ s.client.drop s.released
      releasedAt := some s.provided.length
      stage := .responseLoop } where
  client := holding.client
  server := holding.server
  sent := holding.sendRest
  authorized := authorized.mono ⟨fun _ h => h, fun _ h => h, id⟩
  delivered := by
    have all := holding.delivered
    rw [List.append_nil] at all
    show s.delivered = s.server.take s.handshakeBytes
    rw [handshakeBytes, List.take_length, all]
  handshakeBytes := handshakeBytes.le
  releasedAt := by
    show some s.provided.length = some s.handshakeBytes
    rw [handshakeBytes, holding.server]

theorem Relay.Disciplined.returns (disciplined : s.Disciplined call)
    (stepped : s.returns call = some s') : s'.Disciplined call := by
  unfold Relay.returns at stepped
  split at stepped
  -- up to the release of the hello
  · rename_i stage
    have quiet : s.Quiet := disciplined.factsAt stage
    obtain rfl := Option.some.inj stepped
    exact quiet.awaitHello
  · rename_i stage
    have quiet : s.Quiet := disciplined.factsAt stage
    obtain rfl := Option.some.inj stepped
    have same : Relay.Quiet { s with
        files := s.files.set "client.bin" (.bytes s.client), stage := .helloVerify } :=
      ⟨quiet.client, quiet.server, quiet.sent, quiet.delivered, quiet.waiting⟩
    exact same.disciplined ⟨same, Dict.get_set_self _ _ _⟩
  · rename_i stage
    obtain ⟨quiet, released, accepted⟩ := disciplined.factsAt stage
    obtain rfl := Option.some.inj stepped
    have holding := quiet.sendHello released accepted
    exact holding.disciplined holding
  -- the loop
  · rename_i piece rest stage
    have holding : s.Holding (piece ++ rest.flatten) := disciplined.factsAt stage
    obtain rfl := Option.some.inj stepped
    exact holding.deliverPiece.deliverHandshake
  · rename_i claim stage
    have holding : s.Holding [] := disciplined.factsAt stage
    obtain rfl := Option.some.inj stepped
    exact holding.persistClaim claim
  · rename_i stage
    obtain ⟨holding, accepted⟩ := disciplined.factsAt stage
    obtain ⟨blob, -, rfl⟩ := Option.map_eq_some_iff.mp stepped
    have same := @Relay.Holding.put call s _ holding "handshake.json" blob
    have noted : Relay.Holding { s.put call "handshake.json" blob with
        handshakeBytes := s.server.length, handshake := true, stage := .handshakeNotification } [] :=
      ⟨same.client, same.server, same.sent, same.released, same.accepted, same.delivered,
        same.waiting⟩
    exact noted.disciplined ⟨noted, accepted⟩
  · rename_i stage
    obtain ⟨holding, accepted⟩ := disciplined.factsAt stage
    obtain rfl := Option.some.inj stepped
    exact (holding.moved _).disciplined ⟨holding.moved _, accepted⟩
  · rename_i stage
    obtain ⟨holding, accepted⟩ := disciplined.factsAt stage
    obtain rfl := Option.some.inj stepped
    have all := holding.sendRest
    have same : Relay.Holding { s with
        sent := s.sent ++ s.client.drop s.released
        released := s.client.length
        stage := .authorizationLoop } [] :=
      ⟨holding.client, holding.server, by simp only [all, List.take_length], le_rfl,
        by simp only [all]; exact accepted, holding.delivered, holding.waiting⟩
    exact same.disciplined same
  · rename_i name names stage
    obtain ⟨holding, authorizing⟩ := disciplined.factsAt stage
    obtain ⟨blob, file, rfl⟩ := Option.map_eq_some_iff.mp stepped
    exact (holding.put name blob).persistAuthorization (authorizing.put file)
  · rename_i stage
    obtain ⟨holding, authorizing⟩ := disciplined.factsAt stage
    obtain rfl := Option.some.inj stepped
    have same := (@Relay.Holding.put call s _ holding "status.json" (.json (runningStatus true))).moved
      .authorizationCheck
    have notes := @Relay.notes_put call s "status.json" (.json (runningStatus true))
    refine same.disciplined ⟨same, ⟨authorizing.verified, authorizing.spooled, ?_, ?_⟩,
      s.stored_put _ _⟩
    · exact authorizing.client.imp_right fun stored => notes.stored stored
    · exact fun name member => (authorizing.objects name member).imp_right
        fun ⟨blob, stored⟩ => ⟨blob, notes.stored stored⟩
  · rename_i stage
    obtain ⟨holding, authorizing, status⟩ := disciplined.factsAt stage
    obtain rfl := Option.some.inj stepped
    have put := @Relay.Holding.put call s _ holding "authorization-server.bin" (.bytes s.server)
    have notes := @Relay.notes_put call s "authorization-server.bin" (.bytes s.server)
    have same : Relay.Holding { s.put call "authorization-server.bin" (.bytes s.server) with
        files := s.files.set "authorization-server.bin" (.bytes s.server)
        stage := .dispatchReservation } [] :=
      ⟨put.client, put.server, put.sent, put.released, put.accepted, put.delivered, put.waiting⟩
    refine same.disciplined ⟨same, ⟨authorizing.verified, ?_, ?_, ?_⟩, notes.stored status⟩
    · unfold Relay.Spooled
      simp only
      rw [Dict.get_set_of_ne _ _ (by decide)]
      exact authorizing.spooled
    · exact authorizing.client.imp_right fun stored => notes.stored stored
    · exact fun name member => (authorizing.objects name member).imp_right
        fun ⟨blob, stored⟩ => ⟨blob, notes.stored stored⟩
  · rename_i stage
    obtain ⟨holding, authorized⟩ := disciplined.factsAt stage
    obtain rfl := Option.some.inj stepped
    have same : Relay.Holding { s with
        handshakeBytes := s.server.length, stage := .providerRequestRelease } [] :=
      ⟨holding.client, holding.server, holding.sent, holding.released, holding.accepted,
        holding.delivered, holding.waiting⟩
    exact same.disciplined
      ⟨same, authorized.mono ⟨fun _ h => h, fun _ h => h, id⟩, rfl⟩
  · rename_i stage
    obtain ⟨holding, authorized, handshakeBytes⟩ := disciplined.factsAt stage
    obtain rfl := Option.some.inj stepped
    have capturing := holding.release authorized handshakeBytes
    exact capturing.disciplined capturing
  -- the evidence
  · rename_i stage
    have capturing : s.Capturing call := disciplined.factsAt stage
    obtain rfl := Option.some.inj stepped
    have put := capturing.put "server.bin" (.bytes s.server)
    have same : Relay.Capturing call { s.put call "server.bin" (.bytes s.server) with
        files := s.files.set "server.bin" (.bytes s.server), stage := .responseVerify } :=
      ⟨put.client, put.server, put.sent, put.authorized.mono ⟨fun _ h => h, fun _ h => h, id⟩,
        put.delivered, put.handshakeBytes, put.releasedAt⟩
    exact same.disciplined same
  · rename_i name names stage
    have capturing : s.Capturing call := disciplined.factsAt stage
    obtain ⟨blob, -, rfl⟩ := Option.map_eq_some_iff.mp stepped
    exact (capturing.put name blob).persistEvidence names
  · rename_i stage
    have capturing : s.Capturing call := disciplined.factsAt stage
    obtain rfl := Option.some.inj stepped
    exact (capturing.moved _).disciplined (capturing.moved _)
  · rename_i stage
    have capturing : s.Capturing call := disciplined.factsAt stage
    split at stepped
    · obtain rfl := Option.some.inj stepped
      have put := (capturing.put "manifest.json" (.json (.object s.metadata.items))).moved
        .finalStatusPersist
      exact put.disciplined ⟨put, s.stored_put _ _⟩
    · cases stepped
  -- the delivery
  · rename_i stage
    obtain ⟨capturing, manifest, status⟩ := disciplined.factsAt stage
    obtain rfl := Option.some.inj stepped
    have same : Relay.Capturing call { s with finalized := true } :=
      ⟨capturing.client, capturing.server, capturing.sent,
        capturing.authorized.mono ⟨fun _ h => h, fun _ h => h, id⟩, capturing.delivered,
        capturing.handshakeBytes, capturing.releasedAt⟩
    exact same.deliver ⟨manifest, status, fun _ => rfl⟩
  · rename_i piece rest stage
    have delivering : s.Delivering call (piece ++ rest.flatten) := disciplined.factsAt stage
    obtain rfl := Option.some.inj stepped
    exact delivering.deliverPiece.deliverRest
  · rename_i stage
    have delivering : s.Delivering call [] := disciplined.factsAt stage
    obtain rfl := Option.some.inj stepped
    exact ⟨delivering.safe.moved _, trivial⟩
  · cases stepped

theorem Relay.Holding.sendPart (holding : s.Holding []) (done : Nat)
    (allowed : s.Accepted s.client ∨ s.Authorized call s.client) :
    Relay.Safe call { s with sent := s.sent ++ (s.client.drop s.released).take done } := by
  have begins : s.sent ++ (s.client.drop s.released).take done <+: s.client := by
    conv_rhs => rw [← holding.sendRest]
    exact (List.prefix_append_right_inj _).mpr (List.take_prefix _ _)
  refine ⟨?_, ?_, ?_, (@Relay.Holding.safe call _ _ holding).delivered, ?_⟩
  · rw [← holding.client]
    exact begins
  · rcases allowed with empty | authorized
    · refine Or.inl ?_
      rcases empty with empty | ⟨mode, accepted, member, modes, whole⟩
      · exact Or.inl (List.prefix_nil.mp (begins.trans (prefix_of_eq (by rw [empty]))))
      · exact Or.inr ⟨mode, accepted, member, modes, begins.trans whole⟩
    · exact Or.inr ⟨s.client, authorized.mono ⟨fun _ h => h, fun _ h => h, id⟩, begins⟩
  · rw [holding.waiting]
    intro h
    cases h
  · rw [holding.waiting]
    intro n h
    cases h

theorem Relay.Disciplined.interrupted (disciplined : s.Disciplined call) (done : Nat) :
    (s.interrupted done).Safe call := by
  unfold Relay.interrupted
  split
  · rename_i stage
    obtain ⟨quiet, released, accepted⟩ := disciplined.factsAt stage
    have begins : (s.client.take s.released).take done <+: s.client :=
      (List.take_prefix _ _).trans (List.take_prefix _ _)
    rw [quiet.sent, List.nil_append]
    refine ⟨?_, ?_, ?_, (@Relay.Quiet.safe call _ quiet).delivered, ?_⟩
    · rw [← quiet.client]
      exact begins
    · rcases accepted with empty | ⟨mode, whole, member, modes, inside⟩
      · rw [empty]
        exact Or.inl (Or.inl (List.take_nil))
      · exact Or.inl (Or.inr ⟨mode, whole, member, modes, (List.take_prefix _ _).trans inside⟩)
    · rw [quiet.waiting]
      intro h
      cases h
    · rw [quiet.waiting]
      intro n h
      cases h
  · rename_i stage
    obtain ⟨holding, accepted⟩ := disciplined.factsAt stage
    exact holding.sendPart done (Or.inl accepted)
  · rename_i stage
    obtain ⟨holding, authorized, -⟩ := disciplined.factsAt stage
    exact holding.sendPart done (Or.inr authorized)
  · rename_i piece rest stage
    have holding : s.Holding (piece ++ rest.flatten) := disciplined.factsAt stage
    rw [← List.take_append_drop done piece, List.append_assoc] at holding
    exact holding.deliverPiece.safe
  · rename_i piece rest stage
    have delivering : s.Delivering call (piece ++ rest.flatten) := disciplined.factsAt stage
    rw [← List.take_append_drop done piece, List.append_assoc] at delivering
    exact delivering.deliverPiece.safe
  · exact disciplined.safe

theorem Relay.interrupted_stage (s : Relay) (done : Nat) : (s.interrupted done).stage = s.stage := by
  unfold Relay.interrupted
  split <;> rfl

theorem Relay.Disciplined.raises (disciplined : s.Disciplined call) {done : Nat} {transport : Bool}
    (stepped : s.step call (.raises done transport) = some s') : s'.Disciplined call := by
  have safe := disciplined.interrupted done
  simp only [Relay.step] at stepped
  split at stepped
  · cases stepped
  · cases stepped
  · split at stepped
    · split at stepped
      · rename_i next goes
        obtain rfl := Option.some.inj stepped
        unfold Relay.suppressed at goes
        split at goes
        · rename_i stage
          obtain rfl := Option.some.inj goes
          have at_stage : s.stage = .releaseNotification := by
            rw [← s.interrupted_stage done, stage]
          have same : s.interrupted done = s := by
            unfold Relay.interrupted
            rw [at_stage]
          rw [same]
          exact disciplined.returns (by unfold Relay.returns; rw [at_stage])
        · obtain rfl := Option.some.inj goes
          exact ⟨safe.moved _, trivial⟩
        · obtain rfl := Option.some.inj goes
          exact ⟨safe.moved _, trivial⟩
        · cases goes
      · obtain rfl := Option.some.inj stepped
        exact safe.raise _
    · obtain rfl := Option.some.inj stepped
      exact safe.raise _

theorem Relay.Disciplined.step (disciplined : s.Disciplined call) {event : RelayEvent}
    (stepped : s.step call event = some s') : s'.Disciplined call := by
  cases event with
  | returns => exact disciplined.returns stepped
  | tick now => exact disciplined.tick stepped
  | raises done transport => exact disciplined.raises stepped
  | acceptsHello => exact disciplined.acceptsHello stepped
  | acceptsHandshake authorization => exact disciplined.acceptsHandshake stepped
  | acceptsRequest request authorization => exact disciplined.acceptsRequest stepped
  | selected readable =>
      simp only [Relay.step] at stepped
      split at stepped
      · rename_i stage
        have holding : s.Holding [] := disciplined.factsAt stage
        obtain rfl := Option.some.inj stepped
        cases readable <;> exact (holding.moved _).disciplined (holding.moved _)
      · rename_i stage
        have capturing : s.Capturing call := disciplined.factsAt stage
        obtain rfl := Option.some.inj stepped
        cases readable <;> exact (capturing.moved _).disciplined (capturing.moved _)
      · cases stepped
  | chunk data =>
      simp only [Relay.step] at stepped
      split at stepped
      · rename_i stage
        have holding : s.Holding [] := disciplined.factsAt stage
        obtain rfl := Option.some.inj stepped
        exact holding.readHandshake data
      · rename_i stage
        have capturing : s.Capturing call := disciplined.factsAt stage
        obtain rfl := Option.some.inj stepped
        exact capturing.readResponse data
      · cases stepped
  | message message =>
      simp only [Relay.step] at stepped
      split at stepped
      · rename_i stage
        have quiet : s.Quiet := disciplined.factsAt stage
        obtain rfl := Option.some.inj stepped
        exact quiet.receiveHello message
      · rename_i stage
        have holding : s.Holding [] := disciplined.factsAt stage
        obtain rfl := Option.some.inj stepped
        exact holding.receive message
      · cases stepped
  | timesOut =>
      simp only [Relay.step] at stepped
      split at stepped
      · rename_i stage
        have quiet : s.Quiet := disciplined.factsAt stage
        obtain rfl := Option.some.inj stepped
        exact quiet.safe.raise _
      · rename_i stage
        have holding : s.Holding [] := disciplined.factsAt stage
        obtain rfl := Option.some.inj stepped
        exact holding.readClaim
      · cases stepped
  | finishes response metadata =>
      simp only [Relay.step] at stepped
      split at stepped
      · rename_i stage
        have capturing : s.Capturing call := disciplined.factsAt stage
        obtain rfl := Option.some.inj stepped
        have same : Relay.Capturing call { s with
            files := s.files.set "response.sse" (.bytes response)
            metadata := finalMetadata call metadata
            stage := .evidencePersist ["request.json", "response.sse"] } :=
          ⟨capturing.client, capturing.server, capturing.sent,
            capturing.authorized.mono ⟨fun _ h => h, fun _ h => h, id⟩, capturing.delivered,
            capturing.handshakeBytes, capturing.releasedAt⟩
        exact same.disciplined same
      · cases stepped
  | reserves captureDeadline =>
      simp only [Relay.step] at stepped
      split at stepped
      · rename_i stage
        obtain ⟨holding, authorizing, status⟩ := disciplined.factsAt stage
        obtain rfl := Option.some.inj stepped
        have same : Relay.Holding { s with
            deadline := captureDeadline.or s.deadline
            reserved := true
            stage := .reservationCheck } [] :=
          ⟨holding.client, holding.server, holding.sent, holding.released, holding.accepted,
            holding.delivered, holding.waiting⟩
        exact same.disciplined ⟨same, ⟨authorizing.verified, authorizing.spooled,
          authorizing.client, authorizing.objects⟩, status, rfl⟩
      · cases stepped
  | storesStatus evidenceExpires =>
      simp only [Relay.step] at stepped
      split at stepped
      · rename_i providerStatus stage _
        obtain ⟨capturing, manifest⟩ := disciplined.factsAt stage
        obtain rfl := Option.some.inj stepped
        have put := capturing.put "status.json"
          (.json (issuedStatus s.metadata providerStatus evidenceExpires))
        have stored := (@Relay.notes_put call s "status.json"
          (.json (issuedStatus s.metadata providerStatus evidenceExpires))).stored manifest
        have status := @Relay.stored_put call s "status.json"
          (.json (issuedStatus s.metadata providerStatus evidenceExpires))
        have same : Relay.Capturing call { s.put call "status.json"
            (.json (issuedStatus s.metadata providerStatus evidenceExpires)) with
            issued := true } :=
          ⟨put.client, put.server, put.sent, put.authorized.mono ⟨fun _ h => h, fun _ h => h, id⟩,
            put.delivered, put.handshakeBytes, put.releasedAt⟩
        split
        · exact (same.moved _).disciplined
            ⟨same.moved _, stored, providerStatus, evidenceExpires, status⟩
        · rename_i absent
          exact same.deliver ⟨stored, ⟨providerStatus, evidenceExpires, status⟩,
            fun has => absurd has absent⟩
      · cases stepped

/-- However the miner, the provider, the verifier, the store and the clock answer, the relay keeps
the discipline of release and delivery. -/
theorem relay_disciplined {s₀ : Relay} (began : call.begin = some s₀) {events : List RelayEvent}
    (ran : run (Relay.step call) s₀ events = some s) : s.Safe call := by
  have disciplined : s₀.Disciplined call := by
    unfold RelayCall.begin at began
    split at began
    · cases began
    · obtain rfl := Option.some.inj began
      have quiet : Relay.Quiet { deadline := call.deadline } := ⟨rfl, rfl, rfl, rfl, rfl⟩
      exact quiet.disciplined quiet
  exact (run_invariant ran (fun _ _ _ disciplined stepped => disciplined.step stepped)
    disciplined : s.Disciplined call).safe

/-! ## A relay that delivers -/

def sampleCall : RelayCall where
  transcriptPath := "rounds/1/hk/exchange"
  roundNumber := "1"
  hotkey := "hk"
  deadline := none
  started := 0
  hasBeforeRelease := true
  hasSeal := false
  hasBeforeDelivery := true

def sampleHello : Bytes := [22, 3, 1, 0, 4, 1, 0, 0, 0]

def sampleClaim (phase size : String) : Message :=
  .text ("\x7b\"type\":\"" ++ phase ++ "\",\"claim\":\x7b\"client_bytes\":" ++ size ++ "\x7d\x7d").toList

/-- A whole exchange: hello, handshake and probe, request, response, evidence, delivery. -/
def deliveringEvents : List RelayEvent :=
  [.returns, .tick 1, .message (.binary sampleHello), .returns, .acceptsHello, .returns,
    .tick 2, .selected true, .chunk [22, 3, 3, 0, 1, 9], .returns,
    .message (.binary [20, 3, 3, 0, 1, 1]),
    .tick 3, .selected false, .message (sampleClaim "handshake" "15"), .returns,
    .acceptsHandshake [123, 125], .returns, .returns, .returns,
    .tick 4, .selected true, .chunk [23, 3, 3, 0, 1, 7], .returns,
    .message (sampleClaim "authorize" "21"),
    .tick 5, .selected false, .message (.binary [23, 3, 3, 0, 1, 8]), .returns,
    .acceptsRequest [123, 125] [91, 93], .returns, .returns, .returns, .returns, .returns, .returns,
    .tick 6, .returns, .reserves (some 100), .tick 7, .returns, .returns,
    .tick 8, .selected true, .chunk [1, 2, 3], .tick 9, .selected true, .chunk [], .returns,
    .finishes [65] (.ofList [(codePoints "provider_status", .int 200)]), .returns, .returns,
    .returns, .storesStatus 5, .returns, .returns, .returns]

theorem relay_disciplined_sample : ∃ s₀ s, sampleCall.begin = some s₀ ∧
    run (Relay.step sampleCall) s₀ deliveringEvents = some s ∧ s.Safe sampleCall ∧
    s.sent.length = 21 ∧ s.releasedAt = some 12 ∧ s.delivered.length = 15 := by
  have ends : (sampleCall.begin.bind fun s₀ =>
      run (Relay.step sampleCall) s₀ deliveringEvents).map (fun s =>
        (s.sent.length, s.releasedAt, s.delivered.length)) = some (21, some 12, 15) := by
    decide +kernel
  obtain ⟨s, ran, ends⟩ := Option.map_eq_some_iff.mp ends
  obtain ⟨s₀, began, ran⟩ := Option.bind_eq_some_iff.mp ran
  obtain ⟨sent, ends⟩ := Prod.mk.inj ends
  obtain ⟨releasedAt, delivered⟩ := Prod.mk.inj ends
  exact ⟨s₀, s, began, ran, relay_disciplined began ran, sent, releasedAt, delivered⟩

end GenSubnet.Witness
