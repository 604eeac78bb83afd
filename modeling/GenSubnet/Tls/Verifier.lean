import GenSubnet.Tls.Records
import GenSubnet.Witness.ResponseFraming

/-!
# The verifier of an exchange

`verify.mjs` from the captured bytes to the authorized request. The TLS library, the proof's verifier,
the cipher and JSON are parameters.
-/

namespace GenSubnet.Tls
open Library Witness

structure ServerHello where
  serverTlsVersion : String
  cipherSuite : String
  supportsPsk : Bool

/-- What the verifier calls. -/
structure Externals where
  opens : Cipher
  /-- The server name of the message, if it has one. -/
  parseClientHello : List UInt8 → Except String (Option String)
  parseServerHello : List UInt8 → Except String ServerHello
  parseCertificates : List UInt8 → Except String (List (List UInt8))
  verifyServerCertificates : List (List UInt8) → String → Except String Nat
  /-- The signature over the transcript with the key of a certificate. -/
  verifyCertificateSignature : (body certificate : List UInt8) → (transcript : List (List UInt8)) →
    Except String Unit
  runProof : (nonce : List Char) → Credential.Bundle → (tokenRecord updateRecord : List Char) →
    Except String Unit
  parsesJson : ParsesJson

structure Claim where
  client : List Disclosure
  server : List Disclosure
  responseKey : Disclosure
  probe : Bool
  credential : Option (List Char × Credential.Bundle)

structure Observed where
  client : List UInt8
  server : List UInt8

def suite : String := "TLS_CHACHA20_POLY1305_SHA256"

def update : List UInt8 := [24, 0, 0, 1, 0]

def recordAt (stream : List Record) (i : Nat) : Record := stream.getD i []

def disclosed (disclosures : List Disclosure) (i : Nat) : Disclosure :=
  disclosures.getD i .undefined

/-! ## The handshake -/

/-- What has been read of the server's handshake messages. -/
structure Flight where
  transcript : List (List UInt8)
  handshake : List UInt8 := []
  step : Nat := 0
  serverFinished : Bool := false
  certificates : List (List UInt8) := []
  certificateTime : Option Nat := none

def Flight.message (ext : Externals) (host : String) (s : Flight) (message : Handshake) :
    Except String Flight := do
  checked ([8, 11, 15, 20][s.step]? = some message.type) "Unsupported handshake ordering"
  let s := { s with step := s.step + 1 }
  let s ←
    if message.type = 11 then do
      let certificates ← ext.parseCertificates message.body
      checked (certificates ≠ []) "Missing server certificate"
      let time ← ext.verifyServerCertificates certificates host
      pure { s with certificates, certificateTime := some time }
    else if message.type = 15 then do
      ext.verifyCertificateSignature message.body (s.certificates.headD []) s.transcript
      pure s
    else if message.type = 20 then do
      checked (message.body.length = 32) "Invalid server Finished"
      pure { s with serverFinished := true }
    else pure s
  return { s with transcript := s.transcript ++ [message.raw] }

/-- The loop over the complete messages of `handshake`. -/
def Flight.messages (ext : Externals) (host : String) : Nat → Flight → Except String Flight
  | 0, s => .ok s
  | fuel + 1, s =>
      let length := Credential.beNat ((s.handshake.drop 1).take 3)
      if s.handshake.length < 4 ∨ s.handshake.length < 4 + length then .ok s
      else do
        let message := ⟨s.handshake.headD 0, (s.handshake.drop 4).take length, s.handshake.take (4 + length)⟩
        let next ← s.message ext host message
        let next := { next with handshake := s.handshake.drop (4 + length) }
        checked (!next.serverFinished || next.handshake.isEmpty) "Extra handshake data after Finished"
        next.messages ext host fuel

/-- The loop over the server's records, with the index of the first that it leaves. -/
def readFlight (ext : Externals) (host : String) (ds : List Disclosure) (first : Disclosure) :
    (si number : Nat) → List Record → Flight → Except String (Flight × Nat)
  | si, _, [], s => .ok (s, si)
  | si, number, record :: rest, s =>
      if s.serverFinished then .ok (s, si)
      else do
        sameEpoch (disclosed ds si) first number
        let decoded ← visible ext.opens record (disclosed ds si)
        checked (decoded.type = 22) "Application data before Finished"
        let handshake := s.handshake ++ decoded.data
        checked (handshake.length ≤ 128 * 1024) "Handshake too large"
        let s ← Flight.messages ext host handshake.length { s with handshake }
        readFlight ext host ds first (si + 1) (number + 1) rest s

/-- Skip a change of the cipher, after the first record. -/
def skipChange (record : Record) (info : Disclosure) : Except String Nat :=
  if record.head? = some 20 then do
    let data ← plainRecord record info 20
    checked (data = [1]) "Invalid CCS"
    return 2
  else return 1

/-- The first messages of both sides, and the transcript that they start. -/
def readHellos (ext : Externals) (host : String) (client server : Record) (dc ds : Disclosure) :
    Except String (List (List UInt8)) := do
  let helloBytes ← plainRecord client dc 22
  let hellos ← handshakes helloBytes
  checked (hellos.map (·.type) = [1]) "Expected a single ClientHello"
  let serverName ← ext.parseClientHello helloBytes
  checked (serverName = some host) "Wrong TLS hostname"
  let shBytes ← plainRecord server ds 22
  let shMessages ← handshakes shBytes
  checked (shMessages.map (·.type) = [2]) "Expected a single ServerHello"
  let sh ← ext.parseServerHello (shMessages.flatMap (·.body))
  checked (sh.serverTlsVersion = "TLS1_3" ∧ sh.cipherSuite = suite ∧ sh.supportsPsk = false)
    "Unsupported TLS negotiation"
  return [helloBytes, shMessages.flatMap (·.raw)]

def readFinish (ext : Externals) (record : Record) (info : Disclosure) : Except String Unit := do
  let finish ← visible ext.opens record info
  checked (info.number = some 0 ∧ finish.type = 22) "Missing client Finished"
  let clientFinish ← handshakes finish.data
  checked (clientFinish.map (fun message => (message.type, message.body.length)) = [(20, 32)])
    "Invalid client Finished"

structure Authenticated where
  ci : Nat
  si : Nat
  certificateTime : Option Nat
deriving DecidableEq

/-- The part of `verifyHandshake` that walks the records. -/
def authenticate (ext : Externals) (host : String) (client server : List Record)
    (dc ds : List Disclosure) : Except String Authenticated := do
  let transcript ← readHellos ext host (recordAt client 0) (recordAt server 0) (disclosed dc 0)
    (disclosed ds 0)
  let ci ← skipChange (recordAt client 1) (disclosed dc 1)
  let si ← skipChange (recordAt server 1) (disclosed ds 1)
  readFinish ext (recordAt client ci) (disclosed dc ci)
  let (flight, si) ← readFlight ext host ds (disclosed ds si) si 0 (server.drop si) { transcript }
  checked (flight.serverFinished ∧ flight.step = 4) "Unfinished server authentication"
  return ⟨ci + 1, si, flight.certificateTime⟩

structure Verified where
  client : List Record
  server : List Record
  ci : Nat
  si : Nat
  certificateTime : Option Nat

def verifyHandshake (ext : Externals) (host : String) (observed : Observed) (claim : Claim)
    (allowUnreportedServerRecords : Bool) : Except String Verified := do
  let client ← records observed.client
  let server ← records observed.server
  checked (claim.client.length = client.length ∧ (claim.server.length = server.length ∨
    allowUnreportedServerRecords ∧ claim.server.length < server.length)) "Incomplete disclosures"
  checked (2 ≤ client.length ∧ 3 ≤ server.length) "Incomplete TLS handshake"
  let found ← authenticate ext host client server claim.client claim.server
  return ⟨client, server, found.ci, found.si, found.certificateTime⟩

def initialResponseKey (claim : Claim) : Except String Disclosure := do
  let key := claim.responseKey
  checked (lowerHex 64 (key.key.getD []) && lowerHex 24 (key.iv.getD []) && key.number == some 0)
    "Invalid initial response key"
  return { key := key.key, iv := key.iv, number := some 0 }

def probeRequest (target : Target) : List UInt8 :=
  ascii ("HEAD " ++ target.path ++ " HTTP/1.1\r\nHost: " ++ target.host ++
    "\r\nConnection: keep-alive\r\n\r\n")

structure HandshakeAuthorization where
  serverStart : Nat
  responseKey : Disclosure

def authorizeHandshake (ext : Externals) (target : Target) (observed : Observed) (claim : Claim) :
    Except String HandshakeAuthorization := do
  let verified ← verifyHandshake ext target.host observed claim false
  checked (claim.probe ∧ verified.ci + 1 = verified.client.length ∧ verified.si = verified.server.length)
    "Expected TLS handshake and fixed HEAD probe"
  let probe ← visible ext.opens (recordAt verified.client verified.ci) (disclosed claim.client verified.ci)
  checked ((disclosed claim.client verified.ci).number = some 0 ∧ probe.type = 23 ∧
    probe.data = probeRequest target) "Invalid HEAD probe"
  let responseKey ← initialResponseKey claim
  return ⟨verified.si, responseKey⟩

/-! ## The request -/

/-- The loop over the records after the private ones. -/
def readSuffix (ext : Externals) (dc : List Disclosure) (bodyKey : Disclosure) :
    (ci number : Nat) → List Record → Except String (List (List UInt8))
  | _, _, [] => .ok []
  | ci, number, record :: rest => do
      sameEpoch (disclosed dc ci) bodyKey number
      let decoded ← visible ext.opens record (disclosed dc ci)
      checked (decoded.type = 23) "Unexpected client control record"
      let parts ← readSuffix ext dc bodyKey (ci + 1) (number + 1) rest
      return decoded.data :: parts

/-- The fixed request in front of the generation, where the claim has one. -/
def readProbe (ext : Externals) (target : Target) (claim : Claim) (client : List Record) (ci : Nat) :
    Except String Nat :=
  if claim.probe then do
    let probe ← visible ext.opens (recordAt client ci) (disclosed claim.client ci)
    checked ((disclosed claim.client ci).number = some 0 ∧ probe.type = 23 ∧
      probe.data = probeRequest target) "Invalid HEAD probe"
    return ci + 1
  else return ci

/-- The proof of a claim that has one. -/
def Claim.proof (claim : Claim) : Except String (List Char × Credential.Bundle) :=
  match claim.credential with
  | none => .error "Missing credential proof"
  | some (nonce, bundle) =>
      if nonce = [] then .error "Missing credential proof" else .ok (nonce, bundle)

/-- The records of the request from an index on: the bytes with the credential covered, and the length
of the credential. -/
def readRequest (ext : Externals) (claim : Claim) (client : List Record) (ci : Nat) :
    Except String (List UInt8 × Nat) := do
  let dc := claim.client
  let first := disclosed dc ci
  sameEpoch first first (if claim.probe then 1 else 0)
  (if claim.probe then sameEpoch first (disclosed dc (ci - 1)) 1 else .ok ())
  let front ← visible ext.opens (recordAt client ci) first
  checked (front.type = 23) "Missing request prefix"
  sameEpoch (disclosed dc (ci + 1)) first (if claim.probe then 2 else 1)
  let ku ← visible ext.opens (recordAt client (ci + 1)) (disclosed dc (ci + 1))
  checked (ku.type = 22 ∧ ku.data = update) "Missing credential key isolation"
  checked ((disclosed dc (ci + 2)).fields = 0 ∧ (disclosed dc (ci + 3)).fields = 0)
    "Expected exactly two private records"
  checked ((recordAt client (ci + 2)).head? = some 23 ∧ (recordAt client (ci + 3)).head? = some 23)
    "Private TLS record type"
  let (nonce, bundle) ← claim.proof
  ext.runProof nonce bundle (hexEncode (recordAt client (ci + 2))) (hexEncode (recordAt client (ci + 3)))
  let suffixParts ← readSuffix ext dc (disclosed dc (ci + 4)) (ci + 4) 0 (client.drop (ci + 4))
  checked (22 ≤ (recordAt client (ci + 2)).length) "The value of \"size\" is out of range"
  let tokenLength := (recordAt client (ci + 2)).length - 22
  return (front.data ++ List.replicate tokenLength 42 ++ suffixParts.flatten, tokenLength)

structure VerifiedRequest where
  requestBody : List UInt8
  sessionId : Option (List UInt8)
  serverStart : Nat
  server : List Record
  certificateTime : Option Nat

def verifyRequest (ext : Externals) (target : Target) (authentication : Authentication)
    (observed : Observed) (claim : Claim) (allowUnreportedServerRecords : Bool) :
    Except String VerifiedRequest := do
  let verified ← verifyHandshake ext target.host observed claim allowUnreportedServerRecords
  let ci ← readProbe ext target claim verified.client verified.ci
  let (request, tokenLength) ← readRequest ext claim verified.client ci
  let requestBody ← parseRequest ext.parsesJson request target tokenLength authentication
  return ⟨requestBody, requestSession request, verified.si, verified.server, verified.certificateTime⟩

/-! ## The response to the probe -/

def isDigitByte (b : UInt8) : Bool := 48 ≤ b && b ≤ 57

/-- `\w` -/
def wordByte (b : UInt8) : Bool :=
  isDigitByte b || (65 ≤ b && b ≤ 90) || (97 ≤ b && b ≤ 122) || b == 95

/-- `/\bclose\b/i`, after a byte that is a word's or not. -/
def hasClose : (inWord : Bool) → List UInt8 → Bool
  | _, [] => false
  | inWord, b :: rest =>
      let here := ((b :: rest).take 5).map toLowerCase
      (!inWord && here == ascii "close" && !((b :: rest).drop 5).head?.any wordByte) ||
        hasClose (wordByte b) rest

/-- `/\r\nconnection:[^\r\n]*\bclose\b/i` -/
def closesConnection (head : List UInt8) : Bool :=
  (splitLines head).tail.any fun line =>
    (line.take 11).map toLowerCase == ascii "connection:" &&
      hasClose false ((line.drop 11).takeWhile fun b => b != 13 && b != 10)

/-- `/^HTTP\/1\.1 [2-5][0-9][0-9](?: |\r\n)/` -/
def hasStatus (head : List UInt8) : Bool :=
  match after "HTTP/1.1 " head with
  | some (a :: b :: c :: rest) =>
      (50 ≤ a && a ≤ 53) && isDigitByte b && isDigitByte c &&
        (rest.head? == some 32 || crlf.isPrefixOf rest)
  | _ => false

def probeLength (bytes : List UInt8) : Except String Nat :=
  match cutAt (crlf ++ crlf) bytes with
  | none => .error "Invalid HEAD response"
  | some (head, _) => do
      checked (0 < head.length ∧ head.length ≤ 32768) "Invalid HEAD response"
      checked (hasStatus head) "Invalid HEAD response status"
      checked (!closesConnection head) "Provider closed HEAD probe"
      return head.length + 4

structure Application where
  data : List UInt8 := []
  headLength : Nat := 0
  closed : Bool := false

def Application.record (probe : Bool) (s : Application) (decoded : Decoded) :
    Except String Application :=
  if decoded.type = 23 then do
    let data := s.data ++ decoded.data
    let headLength ←
      if probe ∧ s.headLength = 0 then
        if (cutAt (crlf ++ crlf) data).isSome then probeLength data
        else do
          checked (data.length ≤ 32768) "HEAD response too large"
          pure 0
      else pure s.headLength
    return { s with data, headLength }
  else if decoded.type = 22 then do
    checked (s.data.isEmpty ∨ probe ∧ s.data.length = s.headLength) "Handshake during generation"
    let messages ← handshakes decoded.data
    checked (messages.all fun message => message.type == 4) "Unsupported post-handshake message"
    return s
  else do
    checked (decoded.type = 21 ∧ decoded.data = [1, 0]) "TLS error alert"
    return { s with closed := true }

/-- `serverApplication` with the key of the responses, from its first record on. -/
def serverApplication (ext : Externals) (responseKey : Disclosure) (probe : Bool) :
    (number : Nat) → List Record → Application → Except String (List UInt8)
  | _, [], s => .ok s.data
  | number, record :: rest, s => do
      checked (!s.closed) "Data after TLS close"
      let decoded ← visible ext.opens record { responseKey with number := some (number : Int) }
      let s ← s.record probe decoded
      serverApplication ext responseKey probe (number + 1) rest s

structure Authorization where
  requestBody : List UInt8
  sessionId : Option (List UInt8)
  serverStart : Nat
  responseKey : Disclosure
  certificateTime : Option Nat

def authorizeRequest (ext : Externals) (target : Target) (authentication : Authentication)
    (observed : Observed) (claim : Claim) : Except String Authorization := do
  checked claim.probe "Fixed HEAD probe required"
  let verified ← verifyRequest ext target authentication observed claim true
  let responseKey ← initialResponseKey claim
  let response ← serverApplication ext responseKey true 0 (verified.server.drop verified.serverStart) {}
  let length ← probeLength response
  checked (length = response.length) "Additional response before generation"
  return ⟨verified.requestBody, verified.sessionId, verified.serverStart, responseKey,
    verified.certificateTime⟩

end GenSubnet.Tls
