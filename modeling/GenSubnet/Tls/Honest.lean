import GenSubnet.Tls.Coverage

/-!
# An honest exchange

Once the verifier has authorized the handshake of a client, what it makes of the held request is what
`parseRequest` makes of the request that the client prepared, with its credential covered.
-/

namespace GenSubnet.Tls
open Library Witness

/-! ## Longer streams -/

theorem disclosed_append {ds : List Disclosure} (later : List Disclosure) {i : Nat} (below : i < ds.length) :
    disclosed (ds ++ later) i = disclosed ds i := by
  simp [disclosed, List.getElem?_append_left below]

theorem recordAt_append {wire : List Record} (later : List Record) {i : Nat} (below : i < wire.length) :
    recordAt (wire ++ later) i = recordAt wire i := by
  simp [recordAt, List.getElem?_append_left below]

theorem lt_of_visible {opens : Cipher} {record : Record} {ds : List Disclosure} {i : Nat}
    {decoded : Decoded} (seen : visible opens record (disclosed ds i) = .ok decoded) : i < ds.length := by
  obtain ⟨key, -, -, keyed, -⟩ := visible_eq_ok.mp seen
  by_contra beyond
  simp [disclosed, beyond, Disclosure.undefined] at keyed

theorem readFlight_append {ext : Externals} {host : String} {ds later : List Disclosure}
    {first : Disclosure} {si number last : Nat} {wire more : List Record} {s flight : Flight}
    (reads : readFlight ext host ds first si number wire s = .ok (flight, last))
    (finished : flight.serverFinished = true) :
    readFlight ext host (ds ++ later) first si number (wire ++ more) s = .ok (flight, last) := by
  induction wire generalizing si number s with
  | nil =>
      obtain ⟨rfl, rfl⟩ := Prod.mk.inj (Except.ok.inj reads)
      cases more with
      | nil => rfl
      | cons record more =>
          rw [List.nil_append, readFlight, if_pos finished]
  | cons record rest ih =>
      rw [List.cons_append]
      unfold readFlight at reads ⊢
      split at reads
      · rename_i done
        rw [if_pos done]
        exact reads
      · rename_i going
        rw [if_neg going]
        obtain ⟨u, epoch, reads⟩ := Credential.bind_eq_ok.mp reads
        obtain ⟨decoded, seen, reads⟩ := Credential.bind_eq_ok.mp reads
        obtain ⟨v, kind, reads⟩ := Credential.bind_eq_ok.mp reads
        obtain ⟨w, small, reads⟩ := Credential.bind_eq_ok.mp reads
        obtain ⟨next, messages, reads⟩ := Credential.bind_eq_ok.mp reads
        rw [disclosed_append later (lt_of_visible seen)]
        refine Credential.bind_eq_ok.mpr ⟨u, epoch, Credential.bind_eq_ok.mpr ⟨decoded, seen,
          Credential.bind_eq_ok.mpr ⟨v, kind, Credential.bind_eq_ok.mpr ⟨w, small,
            Credential.bind_eq_ok.mpr ⟨next, messages, ih reads⟩⟩⟩⟩⟩

theorem authenticate_append {ext : Externals} {host : String} {client server moreClient moreServer : List Record}
    {dc ds moreDc moreDs : List Disclosure} {found : Authenticated}
    (sizes : 2 ≤ client.length ∧ 3 ≤ server.length)
    (aligned : dc.length = client.length ∧ ds.length = server.length)
    (accepts : authenticate ext host client server dc ds = .ok found) :
    authenticate ext host (client ++ moreClient) (server ++ moreServer) (dc ++ moreDc) (ds ++ moreDs) =
      .ok found := by
  obtain ⟨transcript, hellos, accepts⟩ := Credential.bind_eq_ok.mp accepts
  obtain ⟨ci, skips, accepts⟩ := Credential.bind_eq_ok.mp accepts
  obtain ⟨si, skips', accepts⟩ := Credential.bind_eq_ok.mp accepts
  obtain ⟨u, finishes, accepts⟩ := Credential.bind_eq_ok.mp accepts
  obtain ⟨⟨flight, last⟩, reads, accepts⟩ := Credential.bind_eq_ok.mp accepts
  obtain ⟨v, done, same⟩ := Credential.bind_eq_ok.mp accepts
  have inClient : ci < dc.length := by
    obtain ⟨_, seen, -⟩ := Credential.bind_eq_ok.mp finishes
    exact lt_of_visible seen
  have inServer : si < ds.length := by
    rcases skipChange_eq_ok skips' with rfl | ⟨rfl, -⟩ <;> omega
  have finished : flight.serverFinished = true := (of_decide_eq_true (checked_iff.mp done)).1
  unfold authenticate
  rw [recordAt_append _ (by omega), recordAt_append _ (by omega), disclosed_append _ (by omega),
    disclosed_append _ (by omega), recordAt_append _ (by omega), recordAt_append _ (by omega),
    disclosed_append _ (by omega), disclosed_append _ (by omega)]
  refine Credential.bind_eq_ok.mpr ⟨transcript, hellos, Credential.bind_eq_ok.mpr ⟨ci, skips,
    Credential.bind_eq_ok.mpr ⟨si, skips', ?_⟩⟩⟩
  rw [recordAt_append _ (by omega), disclosed_append _ inClient, disclosed_append _ inServer,
    List.drop_append_of_le_length (by omega)]
  exact Credential.bind_eq_ok.mpr ⟨u, finishes, Credential.bind_eq_ok.mpr ⟨(flight, last),
    readFlight_append reads finished, Credential.bind_eq_ok.mpr ⟨v, done, same⟩⟩⟩

/-- What the verifier has found in a handshake that it authorizes. -/
theorem authorizeHandshake_eq_ok {ext : Externals} {target : Target} {observed : Observed} {claim : Claim}
    {authorization : HandshakeAuthorization}
    (authorized : authorizeHandshake ext target observed claim = .ok authorization) :
    ∃ client server found, records observed.client = .ok client ∧ records observed.server = .ok server ∧
      authenticate ext target.host client server claim.client claim.server = .ok found ∧
      (2 ≤ client.length ∧ 3 ≤ server.length) ∧
      (claim.client.length = client.length ∧ claim.server.length = server.length) ∧
      found.ci + 1 = client.length ∧ authorization.serverStart = found.si := by
  obtain ⟨shaken, handshake, authorized⟩ := Credential.bind_eq_ok.mp authorized
  obtain ⟨_, ends, authorized⟩ := Credential.bind_eq_ok.mp authorized
  obtain ⟨seen, -, authorized⟩ := Credential.bind_eq_ok.mp authorized
  obtain ⟨_, -, authorized⟩ := Credential.bind_eq_ok.mp authorized
  obtain ⟨key, -, same⟩ := Credential.bind_eq_ok.mp authorized
  obtain rfl := Except.ok.inj same
  obtain ⟨client, split, handshake⟩ := Credential.bind_eq_ok.mp handshake
  obtain ⟨server, splitServer, handshake⟩ := Credential.bind_eq_ok.mp handshake
  obtain ⟨_, complete, handshake⟩ := Credential.bind_eq_ok.mp handshake
  obtain ⟨_, sizes, handshake⟩ := Credential.bind_eq_ok.mp handshake
  obtain ⟨found, authenticated, same⟩ := Credential.bind_eq_ok.mp handshake
  obtain rfl := Except.ok.inj same
  obtain ⟨aligned, alignedServer⟩ := of_decide_eq_true (checked_iff.mp complete)
  obtain ⟨-, ends, -⟩ := of_decide_eq_true (checked_iff.mp ends)
  exact ⟨client, server, found, split, splitServer, authenticated, of_decide_eq_true (checked_iff.mp sizes),
    ⟨aligned, by simpa using alignedServer⟩, ends, rfl⟩

/-- The handshake stays verified when both sides have sent more. -/
theorem verifyHandshake_append {ext : Externals} {host : String} {observed : Observed}
    {client server moreClient moreServer : List Record} {dc ds moreDc moreDs : List Disclosure}
    {found : Authenticated} (split : records observed.client = .ok (client ++ moreClient))
    (splitServer : records observed.server = .ok (server ++ moreServer))
    (sizes : 2 ≤ client.length ∧ 3 ≤ server.length)
    (aligned : dc.length = client.length ∧ ds.length = server.length)
    (accepts : authenticate ext host client server dc ds = .ok found)
    (complete : moreDc.length = moreClient.length)
    (reported : (ds ++ moreDs).length ≤ (server ++ moreServer).length) {responseKey : Disclosure}
    {probe : Bool} {credential : Option (List Char × Credential.Bundle)} :
    verifyHandshake ext host observed ⟨dc ++ moreDc, ds ++ moreDs, responseKey, probe, credential⟩ true =
      .ok ⟨client ++ moreClient, server ++ moreServer, found.ci, found.si, found.certificateTime⟩ := by
  have walks := @authenticate_append ext host _ _ moreClient moreServer _ _ moreDc moreDs found sizes aligned accepts
  refine Credential.bind_eq_ok.mpr ⟨_, split, Credential.bind_eq_ok.mpr ⟨_, splitServer,
    Credential.bind_eq_ok.mpr ⟨(), ?_, Credential.bind_eq_ok.mpr ⟨(), ?_,
      Credential.bind_eq_ok.mpr ⟨found, walks, rfl⟩⟩⟩⟩⟩
  · rw [checked_iff, decide_eq_true_eq]
    refine ⟨by rw [List.length_append, List.length_append, aligned.1, complete], ?_⟩
    rcases Nat.eq_or_lt_of_le reported with same | fewer
    · exact Or.inl same
    · exact Or.inr ⟨rfl, fewer⟩
  · rw [checked_iff, decide_eq_true_eq, List.length_append, List.length_append]
    omega

theorem disclosed_after (ds later : List Disclosure) (i : Nat) :
    disclosed (ds ++ later) (ds.length + i) = disclosed later i := by
  simp [disclosed, List.getElem?_append_right]

theorem recordAt_after (wire later : List Record) (i : Nat) :
    recordAt (wire ++ later) (wire.length + i) = recordAt later i := by
  simp [recordAt, List.getElem?_append_right]

/-! ## Records of a client -/

theorem lowerHex_hexEncode {bytes : List UInt8} {n : Nat} (length : bytes.length = n) :
    lowerHex (2 * n) (hexEncode bytes) = true := by
  have digit : ∀ n < 16, (('0' ≤ hexDigit n && hexDigit n ≤ '9') ||
      ('a' ≤ hexDigit n && hexDigit n ≤ 'f')) = true := by decide
  have all : ((hexEncode bytes).all fun c => ('0' ≤ c && c ≤ '9') || ('a' ≤ c && c ≤ 'f')) = true := by
    clear length
    induction bytes with
    | nil => rfl
    | cons b bytes ih =>
        rw [hexEncode, List.all_cons, List.all_cons, ih, digit _ (by have := b.toNat_lt; omega),
          digit _ (by omega)]
        rfl
  rw [lowerHex, all, hexEncode_length, length]
  simp

theorem fromHex_hexEncode (bytes : List UInt8) : fromHex (hexEncode bytes) = bytes := by
  rw [fromHex, hexDecode_hexEncode, Option.getD_some]

/-- The client's cipher is the verifier's, on its records and keys, and a record of its content holds a
credential. -/
structure Compatible (tls : TlsLibrary) (opens : Cipher) : Prop where
  opens_seals : ∀ i number text,
    opens (tls.keys i).key (tls.keys i).iv number
      (tls.seals (tls.keys i).key (tls.keys i).iv number text) = some text
  length_seals : ∀ i number text,
    (tls.seals (tls.keys i).key (tls.keys i).iv number text).length = text.length + 21
  framed : ∀ i number text, text.length ≤ 16385 →
    Framed (tls.seals (tls.keys i).key (tls.keys i).iv number text)
  head : ∀ i number text,
    (tls.seals (tls.keys i).key (tls.keys i).iv number text).head? = some 23
  key_length : ∀ i, (tls.keys i).key.length = 32
  iv_length : ∀ i, (tls.keys i).iv.length = 12
  recordSize : 4096 ≤ tls.recordSize ∧ tls.recordSize ≤ 16384

theorem openRecord_sealRecord (key nonce text : List UInt8) (index : Nat) :
    Credential.openRecord key nonce index (Credential.sealRecord key nonce index text) = some text := by
  rw [Credential.openRecord, Credential.take_sealRecord, Credential.ciphertextOf_sealRecord,
    Credential.tagOf_sealRecord, ChaCha20.openText, if_pos rfl, Credential.encrypt_encrypt]

/-- ChaCha20-Poly1305 with TLS 1.3's nonces. -/
theorem compatible_chacha20 {size : Nat} {keys : Nat → WriteKey}
    (recordSize : 4096 ≤ size ∧ size ≤ 16384)
    (lengths : ∀ i, (keys i).key.length = 32 ∧ (keys i).iv.length = 12) :
    Compatible ⟨size, keys, Credential.sealRecord⟩ Credential.openRecord where
  opens_seals _ _ _ := openRecord_sealRecord _ _ _ _
  length_seals _ _ _ := Credential.length_sealRecord _ _ _ _
  framed i number text short := by
    have field : recordLength (Credential.sealRecord (keys i).key (keys i).iv number text) =
        text.length + 16 := by
      rw [recordLength, Credential.sealRecord, Credential.header, List.append_assoc,
        List.drop_append_of_le_length (by decide), List.drop_of_length_le (by decide), List.nil_append,
        List.take_append_of_le_length (by rw [Credential.length_beBytes]),
        List.take_of_length_le (by rw [Credential.length_beBytes]), Credential.beNat_beBytes (by omega)]
    constructor
    · rw [field]
      omega
    · rw [field, Credential.length_sealRecord]
      omega
  head _ _ _ := rfl
  key_length i := (lengths i).1
  iv_length i := (lengths i).2
  recordSize := recordSize

section
variable {tls : TlsLibrary} {ext : Externals}

theorem visible_sent (compatible : Compatible tls ext.opens) {s : Sent} (shown : s.hidden = false)
    (typed : s.type ≠ 0) (numbered : (s.number : Int) ≤ maxSafeInteger) :
    visible ext.opens (s.record tls) (s.disclosure tls) = .ok ⟨s.type, s.data⟩ := by
  rw [visible_eq_ok, Sent.disclosure, shown]
  refine ⟨_, _, s.number, rfl, rfl, rfl, lowerHex_hexEncode (compatible.key_length _),
    lowerHex_hexEncode (compatible.iv_length _), numbered, ?_⟩
  rw [fromHex_hexEncode, fromHex_hexEncode, Sent.record, compatible.opens_seals, Option.bind_some,
    innerContent_append _ typed]

theorem sameEpoch_sent {s t : Sent} (shown : s.hidden = false ∧ t.hidden = false)
    (epochs : s.epoch = t.epoch) {number : Nat} (is : s.number = number) :
    sameEpoch (s.disclosure tls) (t.disclosure tls) number = .ok () := by
  rw [sameEpoch, checked_iff, decide_eq_true_eq, Sent.disclosure, Sent.disclosure, shown.1, shown.2,
    epochs, is]
  exact ⟨rfl, rfl, rfl⟩

theorem readSuffix_planParts (compatible : Compatible tls ext.opens) {epoch : Nat} {bodyKey : Sent}
    (key : bodyKey.hidden = false ∧ bodyKey.epoch = epoch) {parts : List (List UInt8)}
    {dc : List Disclosure} {number : Nat} (few : ((number + parts.length : Nat) : Int) ≤ maxSafeInteger) :
    readSuffix ext (dc ++ (planParts epoch false 23 number parts).map (Sent.disclosure tls))
      (bodyKey.disclosure tls) dc.length number
      ((planParts epoch false 23 number parts).map (Sent.record tls)) = .ok parts := by
  induction parts generalizing dc number with
  | nil => rfl
  | cons part parts ih =>
      rw [List.length_cons] at few
      have rest := @ih (dc ++ [Sent.disclosure tls ⟨epoch, number, false, 23, part⟩]) (number + 1) (by
        rwa [Nat.add_assoc, Nat.add_comm 1 parts.length])
      rw [List.append_assoc, List.length_append, List.length_singleton, List.singleton_append] at rest
      have here : disclosed (dc ++ (planParts epoch false 23 number (part :: parts)).map
          (Sent.disclosure tls)) dc.length = Sent.disclosure tls ⟨epoch, number, false, 23, part⟩ :=
        disclosed_after dc _ 0
      have kind : (23 : UInt8) ≠ 0 := by decide
      have fits : ((number : Nat) : Int) ≤ maxSafeInteger := by omega
      rw [planParts, List.map_cons, List.map_cons, readSuffix] at *
      rw [here]
      exact Credential.bind_eq_ok.mpr ⟨(),
        @sameEpoch_sent tls ⟨epoch, number, false, 23, part⟩ bodyKey ⟨rfl, key.1⟩ key.2.symm number rfl,
        Credential.bind_eq_ok.mpr ⟨_,
          @visible_sent tls ext compatible ⟨epoch, number, false, 23, part⟩ rfl kind fits,
          Credential.bind_eq_ok.mpr ⟨(), rfl, Credential.bind_eq_ok.mpr ⟨parts, rest, rfl⟩⟩⟩⟩

end

section
variable {tls : TlsLibrary} {ext : Externals}

theorem readProbe_script (compatible : Compatible tls ext.opens) {target : Target} {claim : Claim}
    {dc : List Disclosure} {wire : List Record} {front token : List UInt8} {parts : List (List UInt8)}
    (aligned : dc.length = wire.length) (probed : claim.probe = true)
    (disclosures : claim.client =
      dc ++ (requestScript (probeRequest target) front token parts).map (Sent.disclosure tls)) :
    readProbe ext target claim
      (wire ++ (requestScript (probeRequest target) front token parts).map (Sent.record tls)) dc.length =
        .ok (dc.length + 1) := by
  have entry : disclosed claim.client dc.length =
      Sent.disclosure tls ⟨0, 0, false, 23, probeRequest target⟩ := by
    rw [disclosures]
    exact disclosed_after dc _ 0
  have record : recordAt (wire ++ (requestScript (probeRequest target) front token parts).map
      (Sent.record tls)) dc.length = Sent.record tls ⟨0, 0, false, 23, probeRequest target⟩ := by
    rw [aligned]
    exact recordAt_after wire _ 0
  have kind : (23 : UInt8) ≠ 0 := by decide
  have zero : ((0 : Nat) : Int) ≤ maxSafeInteger := by decide
  unfold readProbe
  rw [if_pos probed, record, entry]
  exact Credential.bind_eq_ok.mpr ⟨_,
    @visible_sent tls ext compatible ⟨0, 0, false, 23, probeRequest target⟩ rfl kind zero,
    Credential.bind_eq_ok.mpr ⟨(), checked_iff.mpr (decide_eq_true ⟨rfl, rfl, rfl⟩), rfl⟩⟩

theorem readRequest_script (compatible : Compatible tls ext.opens) {claim : Claim}
    {dc : List Disclosure} {wire : List Record} {probe front token : List UInt8}
    {parts : List (List UInt8)} {nonce : List Char} {bundle : Credential.Bundle}
    (aligned : dc.length = wire.length) (probed : claim.probe = true)
    (disclosures : claim.client = dc ++ (requestScript probe front token parts).map (Sent.disclosure tls))
    (credential : claim.credential = some (nonce, bundle)) (given : nonce ≠ [])
    (proved : ext.runProof nonce bundle (hexEncode (Sent.record tls ⟨1, 0, true, 23, token⟩))
      (hexEncode (Sent.record tls ⟨1, 1, true, 22, update⟩)) = .ok ())
    (few : parts.length ≤ maxRecords) :
    readRequest ext claim (wire ++ (requestScript probe front token parts).map (Sent.record tls))
      (dc.length + 1) =
        .ok (front ++ List.replicate token.length 42 ++ parts.flatten, token.length) := by
  have entry : ∀ i, disclosed claim.client (dc.length + i) =
      disclosed ((requestScript probe front token parts).map (Sent.disclosure tls)) i := by
    intro i
    rw [disclosures, disclosed_after]
  have record : ∀ i, recordAt (wire ++ (requestScript probe front token parts).map (Sent.record tls))
      (dc.length + i) = recordAt ((requestScript probe front token parts).map (Sent.record tls)) i := by
    intro i
    rw [aligned, recordAt_after]
  have rest : (wire ++ (requestScript probe front token parts).map (Sent.record tls)).drop
      (dc.length + 5) = (planParts 2 false 23 0 parts).map (Sent.record tls) := by
    rw [aligned, List.drop_length_add_append]
    rfl
  have suffixes : readSuffix ext claim.client (disclosed claim.client (dc.length + 5)) (dc.length + 5) 0
      ((planParts 2 false 23 0 parts).map (Sent.record tls)) = .ok parts := by
    cases parts with
    | nil => rfl
    | cons part parts =>
        have reads := @readSuffix_planParts tls ext compatible 2 ⟨2, 0, false, 23, part⟩ ⟨rfl, rfl⟩
          (part :: parts) (dc ++ (requestScript probe front token []).map (Sent.disclosure tls)) 0 (by
            unfold maxRecords at few
            unfold maxSafeInteger
            omega)
        rw [List.append_assoc, ← List.map_append, List.length_append] at reads
        rw [entry 5, disclosures]
        exact reads
  have size : (Sent.record tls ⟨1, 0, true, 23, token⟩).length = token.length + 22 := by
    rw [Sent.record, compatible.length_seals, List.length_append]
    rfl
  have kinds : (23 : UInt8) ≠ 0 ∧ (22 : UInt8) ≠ 0 := by decide
  have numbers : ((1 : Nat) : Int) ≤ maxSafeInteger ∧ ((2 : Nat) : Int) ≤ maxSafeInteger := by decide
  have opensFront := @visible_sent tls ext compatible ⟨0, 1, false, 23, front⟩ rfl kinds.1 numbers.1
  have opensUpdate := @visible_sent tls ext compatible ⟨0, 2, false, 22, update⟩ rfl kinds.2 numbers.2
  have epochs : ∀ s t : Sent, s.hidden = false → t.hidden = false → s.epoch = t.epoch →
      sameEpoch (s.disclosure tls) (t.disclosure tls) s.number = .ok () :=
    fun s t shown shown' same => sameEpoch_sent ⟨shown, shown'⟩ same rfl
  unfold readRequest
  rw [probed]
  simp only [Nat.add_assoc, Nat.reduceAdd, Nat.add_sub_cancel, if_true]
  rw [rest, entry 1, entry 2, entry 3, entry 4, record 1, record 2, record 3, record 4,
    show disclosed claim.client dc.length = _ from entry 0]
  refine Credential.bind_eq_ok.mpr ⟨(), epochs ⟨0, 1, false, 23, front⟩ ⟨0, 1, false, 23, front⟩ rfl rfl rfl,
    Credential.bind_eq_ok.mpr ⟨(), ?_, Credential.bind_eq_ok.mpr ⟨_, opensFront,
    Credential.bind_eq_ok.mpr ⟨(), rfl, Credential.bind_eq_ok.mpr ⟨(),
      epochs ⟨0, 2, false, 22, update⟩ ⟨0, 1, false, 23, front⟩ rfl rfl rfl,
    Credential.bind_eq_ok.mpr ⟨_, opensUpdate, Credential.bind_eq_ok.mpr ⟨(), rfl,
    Credential.bind_eq_ok.mpr ⟨(), rfl,
    Credential.bind_eq_ok.mpr ⟨(), ?_, Credential.bind_eq_ok.mpr ⟨(nonce, bundle), ?_,
    Credential.bind_eq_ok.mpr ⟨(), proved, Credential.bind_eq_ok.mpr ⟨parts, suffixes,
    Credential.bind_eq_ok.mpr ⟨(), ?_, ?_⟩⟩⟩⟩⟩⟩⟩⟩⟩⟩⟩⟩⟩
  · exact epochs ⟨0, 1, false, 23, front⟩ ⟨0, 0, false, 23, probe⟩ rfl rfl rfl
  · rw [checked_iff, decide_eq_true_eq]
    exact ⟨compatible.head _ _ _, compatible.head _ _ _⟩
  · rw [Claim.proof, credential]
    simp only [if_neg given]
  · rw [checked_iff, decide_eq_true_eq]
    exact size.symm ▸ Nat.le_add_left 22 _
  · show Except.ok _ = Except.ok _
    have same : (Sent.record tls ⟨1, 0, true, 23, token⟩).length - 22 = token.length := by
      rw [size, Nat.add_sub_cancel]
    exact congrArg Except.ok (by
      show (front ++ List.replicate ((Sent.record tls ⟨1, 0, true, 23, token⟩).length - 22) 42 ++ parts.flatten,
        (Sent.record tls ⟨1, 0, true, 23, token⟩).length - 22) = _
      rw [same])

end

/-! ## Framing -/

theorem framed_prefix {some all : List Record} (framed : ∀ r ∈ some, Framed r)
    (framed' : ∀ r ∈ all, Framed r) (starts : some.flatten <+: all.flatten) : some <+: all := by
  induction some generalizing all with
  | nil => exact List.nil_prefix
  | cons record rest ih =>
      have own := framed record List.mem_cons_self
      have long : 5 ≤ record.length := by
        rw [own.whole]
        omega
      cases all with
      | nil =>
          have empty := List.prefix_nil.mp starts
          rw [List.flatten_cons, List.append_eq_nil_iff] at empty
          rw [empty.1] at long
          cases long
      | cons other others =>
          have own' := framed' other List.mem_cons_self
          have long' : 5 ≤ other.length := by
            rw [own'.whole]
            omega
          obtain ⟨tail, same⟩ := starts
          rw [List.flatten_cons, List.flatten_cons, List.append_assoc] at same
          have fields := congrArg recordLength same
          rw [recordLength_append _ long, recordLength_append _ long'] at fields
          have lengths : record.length = other.length := by rw [own.whole, own'.whole, fields]
          obtain ⟨rfl, tails⟩ := List.append_inj same lengths
          obtain ⟨more, rfl⟩ := ih (fun r member => framed r (List.mem_cons_of_mem _ member))
            (fun r member => framed' r (List.mem_cons_of_mem _ member)) ⟨tail, tails⟩
          exact ⟨more, rfl⟩

theorem framed_inj {some other : List Record} (framed : ∀ r ∈ some, Framed r)
    (framed' : ∀ r ∈ other, Framed r) (same : some.flatten = other.flatten) : some = other := by
  obtain ⟨tail, whole⟩ := framed_prefix framed framed' (by rw [same])
  have flat : tail.flatten = [] := by
    have bytes := congrArg List.flatten whole
    rw [List.flatten_append, same] at bytes
    simpa using bytes
  have rest : ∀ r ∈ tail, Framed r := fun r member =>
    framed' r (whole ▸ List.mem_append_right _ member)
  rw [← whole, framed_empty rest flat, List.append_nil]

theorem records_append {wire more : List UInt8} {some all : List Record} (reads : records wire = .ok some)
    (reads' : records (wire ++ more) = .ok all) : ∃ later, all = some ++ later := by
  obtain ⟨-, -, flat, framed⟩ := records_eq_ok.mp reads
  obtain ⟨-, -, flat', framed'⟩ := records_eq_ok.mp reads'
  obtain ⟨later, same⟩ := framed_prefix framed framed' (by rw [flat, flat']; exact List.prefix_append _ _)
  exact ⟨later, same.symm⟩

theorem fragments_le {size : Nat} (positive : 0 < size) {fuel : Nat} {data : List UInt8}
    (enough : data.length ≤ fuel) : ∀ part ∈ fragments size fuel data, part.length ≤ size := by
  induction fuel generalizing data with
  | zero =>
      intro part member
      rw [fragments, List.mem_singleton] at member
      rw [member]
      omega
  | succ fuel ih =>
      intro part member
      unfold fragments at member
      split at member
      · rcases List.mem_cons.mp member with rfl | member
        · rw [List.length_take]
          omega
        · exact ih (by rw [List.length_drop]; omega) part member
      · rw [List.mem_singleton] at member
        rw [member]
        omega

/-! ## The prepared request -/

theorem credentialChar_lt {c : Char} (is : credentialChar c = true) : c.toNat < 128 := by
  simp only [credentialChar, Char.isAlphanum, Char.isAlpha, Char.isUpper, Char.isLower, Char.isDigit,
    Bool.or_eq_true, Bool.and_eq_true, decide_eq_true_eq, ge_iff_le] at is
  rcases is with ((⟨-, high⟩ | ⟨-, high⟩) | ⟨-, high⟩) | special
  · exact Nat.lt_of_le_of_lt (UInt32.le_iff_toNat_le.mp high) (by decide)
  · exact Nat.lt_of_le_of_lt (UInt32.le_iff_toNat_le.mp high) (by decide)
  · exact Nat.lt_of_le_of_lt (UInt32.le_iff_toNat_le.mp high) (by decide)
  · simp only [List.mem_cons, List.not_mem_nil, or_false] at special
    rcases special with rfl | rfl | rfl | rfl | rfl | rfl | rfl <;> decide

theorem validByte_of_char {c : Char} (is : credentialChar c = true) :
    Credential.validByte (UInt8.ofNat c.toNat) = true := by
  have all : ∀ n < 128, credentialChar (Char.ofNat n) = true → Credential.validByte (UInt8.ofNat n) = true := by
    decide
  have own := all c.toNat (credentialChar_lt is)
  rw [Char.ofNat_toNat] at own
  exact own is

theorem fullmatch_of_load {mode : Provider} {apiKey : Option String}
    {subscription : Except String (String × Option String)} {credential : String}
    {account : Option String} (loaded : loadCredentials mode apiKey subscription = .ok (credential, account)) :
    fullmatch credentialChar 64 4096 credential = true := by
  unfold loadCredentials at loaded
  dsimp only at loaded
  split at loaded
  · split at loaded
    · cases loaded
    · split at loaded
      · cases loaded
      · rename_i fits
        split at loaded
        · cases loaded
        · obtain ⟨rfl, -⟩ := Prod.mk.inj (Except.ok.inj loaded)
          exact Bool.not_eq_false _ ▸ fits
  · split at loaded
    · cases loaded
    · split at loaded
      · cases loaded
      · rename_i fits
        split at loaded
        · cases loaded
        · obtain ⟨rfl, -⟩ := Prod.mk.inj (Except.ok.inj loaded)
          exact Bool.not_eq_false _ ▸ fits

theorem isToken_of_load {mode : Provider} {apiKey : Option String}
    {subscription : Except String (String × Option String)} {credential : String}
    {account : Option String} (loaded : loadCredentials mode apiKey subscription = .ok (credential, account)) :
    Credential.IsToken (ascii credential) := by
  obtain ⟨low, high, chars⟩ := fullmatch_iff.mp (fullmatch_of_load loaded)
  refine ⟨low, high, fun byte member => ?_⟩
  obtain ⟨c, inText, rfl⟩ := List.mem_map.mp member
  exact (Credential.validByte_iff _).mp (validByte_of_char (List.all_eq_true.mp chars c inText))

/-- The verifier reads the body and the session from the covered request of a login that it knows. -/
theorem prepared_parses {parsesJson : ParsesJson} {mode : Provider} {apiKey : Option String}
    {subscription : Except String (String × Option String)} {credential : String}
    {account sessionId : Option String} {body : List UInt8} {request : OpenAIRequest}
    (json : parsesJson body = true) (short : body.length ≤ maxBody)
    (loaded : loadCredentials mode apiKey subscription = .ok (credential, account))
    (known : mode = .api ∨ account.isSome = true)
    (prepared : prepareRequest mode apiKey subscription body sessionId = .ok request) :
    parseRequest parsesJson request.covered mode.target request.tokenLength mode.authentication = .ok body ∧
      requestSession request.covered = sessionId.map ascii := by
  unfold prepareRequest at prepared
  split at prepared
  · cases prepared
  · rename_i valid
    rw [loaded] at prepared
    obtain rfl := Except.ok.inj prepared
    obtain ⟨accepted, tokenShort⟩ := accepted_of_load loaded valid
    have named : account ≠ some "" := by
      rintro rfl
      exact absurd (accepted.account "" rfl).2 (by decide)
    have few : body.length < 10 ^ 7 := Nat.lt_of_le_of_lt short (by decide)
    let lines := requestLines mode.target body.length (ascii credential).length account sessionId
    have printable : ∀ line ∈ lines, line.all isPrintable = true ∧ line ≠ [] :=
      mem_requestLines accepted few tokenShort
    have full : lines ≠ [] := List.cons_ne_nil _ _
    have noReturn : ∀ line ∈ lines, 13 ∉ line := fun line member =>
      (not_mem_of_printable (printable line member).1).1
    have covered : requestPrefix mode.target body ++ List.replicate (ascii credential).length 42 ++
        (requestSuffix account sessionId ++ body) = joinLines lines ++ (crlf ++ crlf ++ body) := by
      rw [← covered_eq mode body credential named]
    have cuts := cutAt_joinLines noReturn (fun line member => (printable line member).2) full body
    have low : (joinLines lines).all (· < 128) = true := by
      apply joinLines_all (by decide)
      intro line member
      have own := (printable line member).1
      simp only [List.all_eq_true, isPrintable, Bool.and_eq_true, decide_eq_true_eq,
        UInt8.le_iff_toNat_le, UInt8.lt_iff_toNat_lt] at own ⊢
      exact fun b inLine => Nat.lt_of_le_of_lt (own b inLine).2 (by decide)
    have form : OpenAIRequest.covered ⟨mode.target.host, mode.target.path, body,
        [⟨false, requestPrefix mode.target body⟩, ⟨true, ascii credential⟩,
          ⟨false, requestSuffix account sessionId ++ body⟩]⟩ =
        joinLines lines ++ (crlf ++ crlf ++ body) := by
      rw [← covered]
      simp [OpenAIRequest.covered]
    have length : OpenAIRequest.tokenLength ⟨mode.target.host, mode.target.path, body,
        [⟨false, requestPrefix mode.target body⟩, ⟨true, ascii credential⟩,
          ⟨false, requestSuffix account sessionId ++ body⟩]⟩ = (ascii credential).length := by
      simp [OpenAIRequest.tokenLength]
    rw [form, length]
    constructor
    · rw [parseRequest_iff cuts, splitLines_joinLines full noReturn]
      exact ⟨length_requestLines accepted few tokenShort, low,
        (checkHeaders_requestLines accepted short).mpr known, json, rfl⟩
    · rw [requestSession, cuts]
      simp only [textLines_joinLines full fun line member => (printable line member).1]
      exact session_of_lines accepted

/-! ## The held request -/

/-- The prover finds a proof for a credential and the KeyUpdate after it, and the verifier accepts it. -/
def ProofComplete (tls : TlsLibrary) (ext : Externals)
    (native : Credential.Input → Except String Credential.Bundle) : Prop :=
  ∀ i token, Credential.IsToken token → ∃ bundle,
    native
        { key := hexEncode (tls.keys i).key
          nonce := hexEncode (tls.keys i).iv
          tokenRecord := hexEncode (Sent.record tls ⟨i, 0, true, 23, token⟩)
          updateRecord := hexEncode (Sent.record tls ⟨i, 1, true, 22, update⟩) } = .ok bundle ∧
      ext.runProof (hexEncode (tls.keys i).iv) bundle
        (hexEncode (Sent.record tls ⟨i, 0, true, 23, token⟩))
        (hexEncode (Sent.record tls ⟨i, 1, true, 22, update⟩)) = .ok ()

section
variable {tls : TlsLibrary} {ext : Externals}
  {native : Credential.Input → Except String Credential.Bundle}

theorem prepared_chunks {mode : Provider} {apiKey : Option String}
    {subscription : Except String (String × Option String)} {body : List UInt8}
    {sessionId : Option String} {request : OpenAIRequest}
    (prepared : prepareRequest mode apiKey subscription body sessionId = .ok request) :
    ∃ token suffix, Credential.IsToken token ∧ request.host = mode.target.host ∧
      request.chunks = [⟨false, requestPrefix mode.target body⟩, ⟨true, token⟩, ⟨false, suffix⟩] ∧
      request.covered = requestPrefix mode.target body ++ List.replicate token.length 42 ++ suffix ∧
      request.tokenLength = token.length := by
  unfold prepareRequest at prepared
  split at prepared
  · cases prepared
  · split at prepared
    · cases prepared
    · rename_i credential account loaded
      obtain rfl := Except.ok.inj prepared
      exact ⟨ascii credential, _, isToken_of_load loaded, rfl, rfl, by simp [OpenAIRequest.covered],
        by simp [OpenAIRequest.tokenLength]⟩

theorem framed_script (compatible : Compatible tls ext.opens) {probe front token suffix : List UInt8}
    (short : probe.length ≤ 4096 ∧ front.length ≤ 4096 ∧ token.length ≤ 4096) :
    ∀ record ∈ (requestScript probe front token
      (fragments tls.recordSize suffix.length suffix)).map (Sent.record tls), Framed record := by
  obtain ⟨low, high⟩ := compatible.recordSize
  have each : ∀ s ∈ requestScript probe front token (fragments tls.recordSize suffix.length suffix),
      s.data.length ≤ 16384 := by
    intro s member
    simp only [requestScript, List.cons_append, List.nil_append, List.mem_cons] at member
    rcases member with rfl | rfl | rfl | rfl | rfl | member
    · exact short.1.trans (by decide)
    · exact short.2.1.trans (by decide)
    · decide
    · exact short.2.2.trans (by decide)
    · decide
    · exact (fragments_le (by omega) le_rfl _ (epoch_parts member).2).trans high
  intro record member
  obtain ⟨s, inScript, rfl⟩ := List.mem_map.mp member
  apply compatible.framed
  have own := each s inScript
  rw [List.length_append, List.length_singleton]
  omega

theorem proveCredential_script (complete : ProofComplete tls ext native) {token : List UInt8}
    (isToken : Credential.IsToken token) (probe front : List UInt8) (parts : List (List UInt8)) :
    ∃ bundle, proveCredential native (((requestScript probe front token parts).filter (·.hidden)).map
        (Sent.privateRecord tls)) = .ok (hexEncode (tls.keys 1).iv, bundle) ∧
      ext.runProof (hexEncode (tls.keys 1).iv) bundle
        (hexEncode (Sent.record tls ⟨1, 0, true, 23, token⟩))
        (hexEncode (Sent.record tls ⟨1, 1, true, 22, update⟩)) = .ok () := by
  obtain ⟨bundle, proves, verifies⟩ := complete 1 token isToken
  have visibleParts : (planParts 2 false 23 0 parts).filter (·.hidden) = [] := by
    rw [List.filter_eq_nil_iff]
    intro s member
    have all : ∀ (parts : List (List UInt8)) number, ∀ s ∈ planParts 2 false 23 number parts,
        s.hidden = false := by
      intro parts
      induction parts with
      | nil => simp [planParts]
      | cons part parts ih =>
          intro number s member
          rcases List.mem_cons.mp member with rfl | member
          · rfl
          · exact ih _ s member
    simp [all parts 0 s member]
  refine ⟨bundle, ?_, verifies⟩
  rw [requestScript, List.filter_append, visibleParts]
  unfold proveCredential
  simp [Sent.privateRecord, proves, checked, bind, Except.bind, pure, Except.pure]

end

/-- What the client has sent when it discloses the handshake, and when it discloses the request. -/
theorem exchange_request {tls : TlsLibrary} {host : String} {front token suffix path : List UInt8}
    {sent : List Record} {disclosures : List Disclosure} {probed held : Connection}
    (ran : exchange tls host [⟨false, front⟩, ⟨true, token⟩, ⟨false, suffix⟩] { sent, disclosures } =
      .ok (probed, held))
    (word : secondWord front = some path) (short : (headRequest path host).length ≤ tls.recordSize)
    (shorts : front.length ≤ tls.recordSize ∧ token.length ≤ tls.recordSize) :
    Extends tls { sent, disclosures } probed [⟨0, 0, false, 23, headRequest path host⟩] ∧
      Extends tls { sent, disclosures } held (requestScript (headRequest path host) front token
        (fragments tls.recordSize suffix.length suffix)) ∧
      (Connection.Within { sent, disclosures } → probed.Within ∧ held.Within) := by
  obtain ⟨_, _, found, same, word', writes, sends⟩ := exchange_eq_ok ran
  obtain ⟨rfl, rfl⟩ := List.cons.inj same
  obtain rfl := Option.some.inj (word.symm.trans word')
  obtain ⟨grows, inside, epoch, seqnum, shown⟩ := sendParts_eq_ok writes
  obtain ⟨grows', inside'⟩ := sendChunks_eq_ok sends
  have first : planParts 0 false 23 0
      (fragments tls.recordSize (headRequest path host).length (headRequest path host)) =
        [⟨0, 0, false, 23, headRequest path host⟩] := by
    rw [fragments_short short]
    rfl
  have second : probed.seqnum = 1 := by
    rw [seqnum, fragments_short short]
    rfl
  have whole := grows.trans grows'
  rw [epoch, second, shown] at whole
  rw [← planChunks_request shorts (headRequest path host)]
  dsimp only at whole grows
  rw [first] at whole grows
  exact ⟨grows, whole, fun within => ⟨inside within, inside' (inside within)⟩⟩

/-- Once the verifier has authorized the handshake of an honest client, the client's proof is made and
the verifier reads from the held request what `parseRequest` makes of the request that was prepared. -/
theorem honest_request {tls : TlsLibrary} {ext : Externals}
    {native : Credential.Input → Except String Credential.Bundle} (compatible : Compatible tls ext.opens)
    (complete : ProofComplete tls ext native) {mode : Provider} {apiKey : Option String}
    {subscription : Except String (String × Option String)} {body : List UInt8}
    {sessionId : Option String} {request : OpenAIRequest}
    (prepared : prepareRequest mode apiKey subscription body sessionId = .ok request)
    (short : body.length ≤ maxBody) {sent : List Record} {disclosures : List Disclosure}
    (handshaken : ∀ record ∈ sent, Framed record) {probed held : Connection}
    (within : Connection.Within { sent, disclosures })
    (ran : exchange tls request.host request.chunks { sent, disclosures } = .ok (probed, held))
    {server later : List UInt8} {ds moreDs : List Disclosure} {responseKey : Disclosure}
    {authorization : HandshakeAuthorization}
    (authorized : authorizeHandshake ext mode.target ⟨probed.sent.flatten, server⟩
      ⟨probed.disclosures, ds, responseKey, true, none⟩ = .ok authorization)
    {all : List Record} (captured : records (server ++ later) = .ok all)
    (reported : (ds ++ moreDs).length ≤ all.length) :
    ∃ nonce bundle time, proveCredential native held.privateRecords = .ok (nonce, bundle) ∧
      verifyRequest ext mode.target mode.authentication ⟨held.sent.flatten, server ++ later⟩
          ⟨held.disclosures, ds ++ moreDs, responseKey, true, some (nonce, bundle)⟩ true =
        (parseRequest ext.parsesJson request.covered mode.target request.tokenLength
          mode.authentication).map fun requestBody =>
            ⟨requestBody, requestSession request.covered, authorization.serverStart, all, time⟩ := by
  obtain ⟨token, suffix, isToken, host, chunks, covered, tokenLength⟩ := prepared_chunks prepared
  obtain ⟨low, high⟩ := compatible.recordSize
  have frontShort := length_requestPrefix mode short
  have probeShort := length_probeRequest mode
  have tokenShort : token.length ≤ 4096 := isToken.bounded
  rw [host, chunks] at ran
  have word := secondWord_requestPrefix mode body
  have probe := headRequest_probe mode.target
  obtain ⟨grows, whole, inside⟩ := exchange_request ran word (by rw [probe]; exact probeShort.trans low)
    ⟨frontShort.trans low, tokenShort.trans low⟩
  rw [probe] at grows whole
  let script := requestScript (probeRequest mode.target) (requestPrefix mode.target body) token
    (fragments tls.recordSize suffix.length suffix)
  have heldSent : held.sent = sent ++ script.map (Sent.record tls) := whole.sent
  have heldDisclosures : held.disclosures = disclosures ++ script.map (Sent.disclosure tls) :=
    whole.disclosures
  have heldPrivate : held.privateRecords = (script.filter (·.hidden)).map (Sent.privateRecord tls) :=
    whole.privateRecords
  have probedSent : probed.sent = sent ++ [Sent.record tls ⟨0, 0, false, 23, probeRequest mode.target⟩] :=
    grows.sent
  have probedDisclosures : probed.disclosures =
      disclosures ++ [Sent.disclosure tls ⟨0, 0, false, 23, probeRequest mode.target⟩] :=
    grows.disclosures
  have framed : ∀ record ∈ held.sent, Framed record := by
    intro record member
    rw [heldSent, List.mem_append] at member
    rcases member with before | member
    · exact handshaken record before
    · exact framed_script compatible ⟨probeShort, frontShort, tokenShort⟩ record member
  have longer : held.sent = probed.sent ++ script.tail.map (Sent.record tls) := by
    rw [heldSent, probedSent]
    simp [script, requestScript]
  have longer' : held.disclosures = probed.disclosures ++ script.tail.map (Sent.disclosure tls) := by
    rw [heldDisclosures, probedDisclosures]
    simp [script, requestScript]
  -- The handshake that the verifier has authorized is what the client has sent.
  obtain ⟨client, server₁, found, split, splitServer, authenticated, sizes, aligned, ends, starts⟩ :=
    authorizeHandshake_eq_ok authorized
  obtain ⟨-, -, flat, framed₁⟩ := records_eq_ok.mp split
  obtain rfl := framed_inj framed₁ (fun record member => framed record (longer ▸ List.mem_append_left _ member)) flat
  obtain ⟨more, rfl⟩ := records_append splitServer captured
  have lengths : disclosures.length = sent.length := by
    have own := aligned.1
    rw [probedSent, probedDisclosures, List.length_append, List.length_append] at own
    exact Nat.add_right_cancel own
  have start : found.ci = disclosures.length := by
    rw [probedSent, List.length_append, ← lengths] at ends
    exact Nat.add_right_cancel ends
  obtain ⟨-, few, small⟩ := inside within
  have splitHeld : records held.sent.flatten = .ok (probed.sent ++ script.tail.map (Sent.record tls)) := by
    rw [← longer, records_eq_ok]
    refine ⟨small, ?_, rfl, framed⟩
    rwa [heldSent, List.length_append, List.length_map, ← lengths, ← List.length_map (Sent.disclosure tls),
      ← List.length_append, ← heldDisclosures]
  have fewParts : (fragments tls.recordSize suffix.length suffix).length ≤ maxRecords := by
    rw [heldDisclosures, List.length_append, List.length_map] at few
    simp only [script, requestScript, List.length_append, length_planParts] at few
    omega
  obtain ⟨bundle, proves, verifies⟩ := proveCredential_script complete isToken (probeRequest mode.target)
    (requestPrefix mode.target body) (fragments tls.recordSize suffix.length suffix)
  have given : hexEncode (tls.keys 1).iv ≠ [] := by
    intro empty
    have size := hexEncode_length (tls.keys 1).iv
    rw [empty, compatible.iv_length] at size
    cases size
  let claim : Claim :=
    ⟨held.disclosures, ds ++ moreDs, responseKey, true, some (hexEncode (tls.keys 1).iv, bundle)⟩
  have shaken := @verifyHandshake_append ext mode.target.host ⟨held.sent.flatten, server ++ later⟩ _ _ _ _ _ _
    (script.tail.map (Sent.disclosure tls)) moreDs _ splitHeld captured sizes aligned authenticated
    (by rw [List.length_map, List.length_map]) reported responseKey true
    (some (hexEncode (tls.keys 1).iv, bundle))
  have probes := @readProbe_script tls ext compatible mode.target claim disclosures sent _ _ _ lengths rfl
    heldDisclosures
  have reads := @readRequest_script tls ext compatible claim disclosures sent (probeRequest mode.target)
    (requestPrefix mode.target body) token (fragments tls.recordSize suffix.length suffix) _ bundle lengths rfl
    heldDisclosures rfl given verifies fewParts
  refine ⟨_, bundle, found.certificateTime, by rw [heldPrivate]; exact proves, ?_⟩
  rw [← longer, ← longer', start] at shaken
  rw [← heldSent] at probes reads
  rw [fragments_flatten, ← covered, ← tokenLength] at reads
  unfold verifyRequest
  rw [shaken]
  simp only [bind, Except.bind]
  rw [probes]
  simp only
  rw [reads, starts]
  dsimp only
  cases parseRequest ext.parsesJson request.covered mode.target request.tokenLength
    mode.authentication <;> rfl

/-- Once the verifier has authorized the handshake of an honest client, it reads from the held request
the body and the session that the client was given, where it knows the login. -/
theorem honest_request_verified {tls : TlsLibrary} {ext : Externals}
    {native : Credential.Input → Except String Credential.Bundle} (compatible : Compatible tls ext.opens)
    (complete : ProofComplete tls ext native) {mode : Provider} {apiKey : Option String}
    {subscription : Except String (String × Option String)} {credential : String}
    {account sessionId : Option String} {body : List UInt8} {request : OpenAIRequest}
    (loaded : loadCredentials mode apiKey subscription = .ok (credential, account))
    (known : mode = .api ∨ account.isSome = true)
    (prepared : prepareRequest mode apiKey subscription body sessionId = .ok request)
    (json : ext.parsesJson body = true) (short : body.length ≤ maxBody)
    {sent : List Record} {disclosures : List Disclosure}
    (handshaken : ∀ record ∈ sent, Framed record) {probed held : Connection}
    (within : Connection.Within { sent, disclosures })
    (ran : exchange tls request.host request.chunks { sent, disclosures } = .ok (probed, held))
    {server later : List UInt8} {ds moreDs : List Disclosure} {responseKey : Disclosure}
    {authorization : HandshakeAuthorization}
    (authorized : authorizeHandshake ext mode.target ⟨probed.sent.flatten, server⟩
      ⟨probed.disclosures, ds, responseKey, true, none⟩ = .ok authorization)
    {all : List Record} (captured : records (server ++ later) = .ok all)
    (reported : (ds ++ moreDs).length ≤ all.length) :
    ∃ nonce bundle time, proveCredential native held.privateRecords = .ok (nonce, bundle) ∧
      verifyRequest ext mode.target mode.authentication ⟨held.sent.flatten, server ++ later⟩
          ⟨held.disclosures, ds ++ moreDs, responseKey, true, some (nonce, bundle)⟩ true =
        .ok ⟨body, sessionId.map ascii, authorization.serverStart, all, time⟩ := by
  obtain ⟨nonce, bundle, time, proves, verifies⟩ := honest_request compatible complete prepared short
    handshaken within ran authorized captured reported
  obtain ⟨parses, session⟩ := prepared_parses json short loaded known prepared
  rw [parses, session] at verifies
  exact ⟨nonce, bundle, time, proves, verifies⟩

/-! ## A sample -/

theorem drop_sampleSeal (key iv : List UInt8) (number : Nat) (text : List UInt8) :
    (sampleSeal key iv number text).drop ((sampleSeal key iv number text).length - 16) =
      sampleTag key number := by
  have front : (Credential.header text.length ++ text).length = text.length + 5 := by
    rw [List.length_append, Credential.length_header, Nat.add_comm]
  rw [length_sampleSeal, show text.length + 21 - 16 = text.length + 5 by omega, sampleSeal,
    List.drop_append_of_le_length (by omega), List.drop_of_length_le (by omega), List.nil_append]

theorem sampleOpens_sampleSeal (key iv other otherIv : List UInt8) (same : other.headD 0 = key.headD 0)
    (number : Nat) (text : List UInt8) :
    sampleOpens other otherIv number (sampleSeal key iv number text) = some text := by
  have body : ((sampleSeal key iv number text).drop 5).take text.length = text := by
    rw [sampleSeal, List.append_assoc, ← Credential.length_header text.length, List.drop_left,
      List.take_left]
  have tag : sampleTag other number = sampleTag key number := by rw [sampleTag, sampleTag, same]
  rw [sampleOpens, drop_sampleSeal, tag, if_pos rfl, length_sampleSeal,
    show text.length + 21 - 21 = text.length by omega, body]

theorem compatible_sample : Compatible sampleTls sampleOpens where
  opens_seals i number text := sampleOpens_sampleSeal _ (sampleTls.keys i).iv _ _ rfl number text
  length_seals i number text := length_sampleSeal _ (sampleTls.keys i).iv number text
  framed i number text short := by
    have field : recordLength (sampleSeal (sampleTls.keys i).key (sampleTls.keys i).iv number text) =
        text.length + 16 := by
      rw [recordLength, sampleSeal, Credential.header, List.append_assoc, List.append_assoc,
        List.drop_append_of_le_length (by decide), List.drop_of_length_le (by decide), List.nil_append,
        List.take_append_of_le_length (by rw [Credential.length_beBytes]),
        List.take_of_length_le (by rw [Credential.length_beBytes]), Credential.beNat_beBytes (by omega)]
    have size := length_sampleSeal (sampleTls.keys i).key (sampleTls.keys i).iv number text
    exact ⟨by rw [show sampleTls.seals = sampleSeal from rfl, field]; omega,
      by rw [show sampleTls.seals = sampleSeal from rfl, field, size]; omega⟩
  head _ _ _ := rfl
  key_length i := List.length_replicate
  iv_length i := List.length_replicate
  recordSize := by decide

def sampleNative (_ : Credential.Input) : Except String Credential.Bundle :=
  .ok ⟨[], fun _ => [], []⟩

theorem proofComplete_sample : ProofComplete sampleTls sampleExternals sampleNative := by
  intro i token isToken
  have bytes : token.all Credential.validByte = true :=
    List.all_eq_true.mpr fun byte member => (Credential.validByte_iff byte).mpr (isToken.alphabet byte member)
  have low : 64 ≤ token.length := isToken.enough
  have high : token.length ≤ 4096 := isToken.bounded
  refine ⟨_, rfl, ?_⟩
  have proof : sampleProof (Sent.record sampleTls ⟨i, 0, true, 23, token⟩)
      (Sent.record sampleTls ⟨i, 1, true, 22, update⟩) = true := by
    have opens := fun number text => sampleOpens_sampleSeal (sampleTls.keys i).key (sampleTls.keys i).iv
      [(sampleTag (sampleTls.keys i).key 0).headD 0] [] rfl number text
    unfold sampleProof
    rw [show Sent.record sampleTls ⟨i, 0, true, 23, token⟩ =
      sampleSeal (sampleTls.keys i).key (sampleTls.keys i).iv 0 (token ++ [23]) from rfl,
      show Sent.record sampleTls ⟨i, 1, true, 22, update⟩ =
      sampleSeal (sampleTls.keys i).key (sampleTls.keys i).iv 1 (update ++ [22]) from rfl, drop_sampleSeal]
    dsimp only
    rw [opens 0, opens 1]
    simp [bytes, low, high]
  show checked (sampleProof (fromHex (hexEncode _)) (fromHex (hexEncode _))) "Invalid proof" = .ok ()
  rw [fromHex_hexEncode, fromHex_hexEncode, proof]
  rfl

theorem framed_server : ∀ record ∈ sampleServer ++ [sampleResponse], Framed record := by
  have fields : ∀ record ∈ sampleServer ++ [sampleResponse],
      recordLength record ≤ 16640 ∧ record.length = 5 + recordLength record := by decide
  exact fun record member => ⟨(fields record member).1, (fields record member).2⟩

theorem framed_client : ∀ record ∈ sampleSent, Framed record := by
  have fields : ∀ record ∈ sampleSent,
      recordLength record ≤ 16640 ∧ record.length = 5 + recordLength record := by decide
  exact fun record member => ⟨(fields record member).1, (fields record member).2⟩

theorem within_sample : Connection.Within { sent := sampleSent, disclosures := sampleDisclosures } :=
  ⟨by decide, by decide⟩

set_option maxRecDepth 1024 in
theorem records_server : records (sampleServer ++ [sampleResponse]).flatten =
    .ok (sampleServer ++ [sampleResponse]) :=
  records_eq_ok.mpr ⟨by decide, by decide, rfl, framed_server⟩

theorem authenticate_sample : authenticate sampleExternals Provider.api.target.host sampleSent sampleServer
    sampleDisclosures sampleServerDisclosures = .ok ⟨2, 3, some 0⟩ := by
  decide

theorem authorizeHandshake_sample {probed : Connection}
    (grows : Extends sampleTls { sent := sampleSent, disclosures := sampleDisclosures } probed
      [⟨0, 0, false, 23, probeRequest Provider.api.target⟩]) (inside : probed.Within) :
    ∃ responseKey, authorizeHandshake sampleExternals Provider.api.target
      ⟨probed.sent.flatten, sampleServer.flatten⟩
      ⟨probed.disclosures, sampleServerDisclosures, recordDisclosure sampleResponseKey 0 true false,
        true, none⟩ = .ok ⟨3, responseKey⟩ := by
  obtain ⟨few, small⟩ := inside
  let probe : Sent := ⟨0, 0, false, 23, probeRequest Provider.api.target⟩
  have sent : probed.sent = sampleSent ++ [probe.record sampleTls] := grows.sent
  have disclosures : probed.disclosures = sampleDisclosures ++ [probe.disclosure sampleTls] :=
    grows.disclosures
  have framed : ∀ record ∈ probed.sent, Framed record := by
    intro record member
    rw [sent, List.mem_append, List.mem_singleton] at member
    rcases member with before | rfl
    · exact framed_client record before
    · apply compatible_sample.framed
      have short := length_probeRequest .api
      simp only [probe, List.length_append, List.length_singleton]
      omega
  have lengths : probed.disclosures.length = probed.sent.length := by
    rw [sent, disclosures]
    rfl
  have three : probed.sent.length = 3 := by
    rw [sent]
    rfl
  have split : records probed.sent.flatten = .ok probed.sent :=
    records_eq_ok.mpr ⟨small, lengths ▸ few, rfl, framed⟩
  have splitServer : records sampleServer.flatten = .ok sampleServer :=
    records_eq_ok.mpr ⟨by decide, by decide, rfl,
      fun record member => framed_server record (List.mem_append_left _ member)⟩
  have walks := @authenticate_append sampleExternals Provider.api.target.host sampleSent sampleServer
    [probe.record sampleTls] [] sampleDisclosures sampleServerDisclosures [probe.disclosure sampleTls] [] _
    ⟨by decide, by decide⟩ ⟨rfl, rfl⟩ authenticate_sample
  rw [← sent, ← disclosures, List.append_nil, List.append_nil] at walks
  have entry : disclosed probed.disclosures 2 = probe.disclosure sampleTls := by
    rw [disclosures]
    exact disclosed_after sampleDisclosures _ 0
  have record : recordAt probed.sent 2 = probe.record sampleTls := by
    rw [sent]
    exact recordAt_after sampleSent _ 0
  have seen : visible sampleExternals.opens (probe.record sampleTls) (probe.disclosure sampleTls) =
      .ok ⟨23, probeRequest Provider.api.target⟩ :=
    @visible_sent sampleTls sampleExternals compatible_sample probe rfl (by decide) (by decide)
  have verified : verifyHandshake sampleExternals Provider.api.target.host
      ⟨probed.sent.flatten, sampleServer.flatten⟩
      ⟨probed.disclosures, sampleServerDisclosures, recordDisclosure sampleResponseKey 0 true false,
        true, none⟩ false = .ok ⟨probed.sent, sampleServer, 2, 3, some 0⟩ :=
    Credential.bind_eq_ok.mpr ⟨_, split, Credential.bind_eq_ok.mpr ⟨_, splitServer,
      Credential.bind_eq_ok.mpr ⟨(), checked_iff.mpr (decide_eq_true ⟨lengths, Or.inl rfl⟩),
        Credential.bind_eq_ok.mpr ⟨(), checked_iff.mpr (decide_eq_true ⟨by omega, by decide⟩),
          Credential.bind_eq_ok.mpr ⟨_, walks, rfl⟩⟩⟩⟩⟩
  refine ⟨_, Credential.bind_eq_ok.mpr ⟨_, verified, Credential.bind_eq_ok.mpr ⟨(),
    checked_iff.mpr (decide_eq_true ⟨rfl, three.symm, rfl⟩), Credential.bind_eq_ok.mpr
      ⟨⟨23, probeRequest Provider.api.target⟩, ?_, Credential.bind_eq_ok.mpr ⟨(), ?_, rfl⟩⟩⟩⟩⟩
  · rw [record, entry]
    exact seen
  · rw [checked_iff, decide_eq_true_eq, entry]
    exact ⟨rfl, rfl, rfl⟩

theorem exchange_authorized_sample : ∃ probed held responseKey,
    exchange sampleTls sampleRequest.host sampleRequest.chunks
        { sent := sampleSent, disclosures := sampleDisclosures } = .ok (probed, held) ∧
      authorizeHandshake sampleExternals Provider.api.target
        ⟨probed.sent.flatten, sampleServer.flatten⟩
        ⟨probed.disclosures, sampleServerDisclosures, recordDisclosure sampleResponseKey 0 true false,
          true, none⟩ = .ok ⟨3, responseKey⟩ := by
  obtain ⟨probed, held, ran⟩ := exchange_sample
  have probe := headRequest_probe Provider.api.target
  have probeShort : (headRequest (ascii Provider.api.target.path) Provider.api.target.host).length ≤ 4096 := by
    rw [probe]
    exact length_probeRequest .api
  have shorts : (requestPrefix Provider.api.target emptyObject).length ≤ 4096 ∧
      (ascii sampleCredential).length ≤ 4096 :=
    ⟨length_requestPrefix .api (by decide), (length_ascii_le _).trans (by decide)⟩
  obtain ⟨grows, -, inside⟩ := exchange_request ran (secondWord_requestPrefix .api emptyObject) probeShort shorts
  rw [show sampleRequest.host = Provider.api.target.host from rfl, probe] at grows
  obtain ⟨responseKey, authorized⟩ := authorizeHandshake_sample grows (inside within_sample).1
  exact ⟨probed, held, responseKey, ran, authorized⟩

theorem records_captured : records (sampleServer.flatten ++ sampleResponse) =
    .ok (sampleServer ++ [sampleResponse]) := by
  have all := records_server
  rwa [List.flatten_append, List.flatten_singleton] at all

theorem loaded_sample : loadCredentials .api (some sampleCredential) (.error "") =
    .ok (sampleCredential, none) := by
  decide

theorem prepared_sample : prepareRequest .api (some sampleCredential) (.error "") emptyObject none =
    .ok sampleRequest := by
  rw [prepareRequest, loaded_sample]
  rfl

theorem honest_request_sample : ∃ probed held nonce bundle time,
    exchange sampleTls sampleRequest.host sampleRequest.chunks
        { sent := sampleSent, disclosures := sampleDisclosures } = .ok (probed, held) ∧
      proveCredential sampleNative held.privateRecords = .ok (nonce, bundle) ∧
      verifyRequest sampleExternals Provider.api.target .api
        ⟨held.sent.flatten, sampleServer.flatten ++ sampleResponse⟩
        ⟨held.disclosures, sampleServerDisclosures ++ [], recordDisclosure sampleResponseKey 0 true false,
          true, some (nonce, bundle)⟩ true =
            .ok ⟨emptyObject, none, 3, sampleServer ++ [sampleResponse], time⟩ := by
  obtain ⟨probed, held, responseKey, ran, authorized⟩ := exchange_authorized_sample
  obtain ⟨nonce, bundle, time, proves, verifies⟩ := @honest_request_verified sampleTls sampleExternals
    sampleNative compatible_sample proofComplete_sample .api (some sampleCredential) (.error "")
    sampleCredential none none emptyObject sampleRequest loaded_sample (Or.inl rfl) prepared_sample
    (beq_self_eq_true _) (by decide) sampleSent sampleDisclosures framed_client probed held within_sample ran
    sampleServer.flatten sampleResponse sampleServerDisclosures []
    (recordDisclosure sampleResponseKey 0 true false) _ authorized _ records_captured (by decide)
  exact ⟨probed, held, nonce, bundle, time, ran, proves, verifies⟩

theorem authorized_sample : ∃ observed claim authorization,
    authorizeRequest sampleExternals Provider.api.target .api observed claim = .ok authorization := by
  obtain ⟨probed, held, responseKey, ran, authorized⟩ := exchange_authorized_sample
  obtain ⟨nonce, bundle, time, -, verifies⟩ := honest_request compatible_sample proofComplete_sample
    prepared_sample (by decide) framed_client within_sample ran authorized records_captured
    (show (sampleServerDisclosures ++ []).length ≤ _ by decide)
  have json : sampleExternals.parsesJson emptyObject = true := beq_self_eq_true _
  obtain ⟨parses, -⟩ := prepared_parses json (by decide) loaded_sample (Or.inl rfl) prepared_sample
  rw [show Provider.authentication .api = Authentication.api from rfl] at parses verifies
  rw [parses] at verifies
  let key := recordDisclosure sampleResponseKey 0 true false
  have answers : serverApplication sampleExternals { key := key.key, iv := key.iv, number := some 0 } true 0
      [sampleResponse] {} = .ok (ascii "HTTP/1.1 200 OK\r\n\r\n") := by decide
  have length : probeLength (ascii "HTTP/1.1 200 OK\r\n\r\n") = .ok 19 := by decide
  exact ⟨_, _, _, Credential.bind_eq_ok.mpr ⟨(), rfl, Credential.bind_eq_ok.mpr ⟨_, verifies,
    Credential.bind_eq_ok.mpr ⟨{ key := key.key, iv := key.iv, number := some 0 }, rfl,
      Credential.bind_eq_ok.mpr ⟨_, answers, Credential.bind_eq_ok.mpr ⟨19, length,
        Credential.bind_eq_ok.mpr ⟨(), rfl, rfl⟩⟩⟩⟩⟩⟩⟩

end GenSubnet.Tls
