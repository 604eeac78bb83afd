import GenSubnet.Tls.Exchange

/-!
# What an accepted claim covers

The client's records of an exchange that the verifier authorizes, and what a provider reads from them:
TLS opens each record with the key of the epoch and the next sequence number, and stops at the first
that does not open.
-/

namespace GenSubnet.Tls
open Library Witness

/-! ## The provider -/

/-- A KeyUpdate, with or without a request for one. -/
def isUpdate (decoded : Decoded) : Bool :=
  decoded.type == 22 && (decoded.data == update || decoded.data == [24, 0, 0, 1, 1])

/-- The application data that a provider reads, and whether it has accepted every record. -/
def received (opens : Cipher) (keys : Nat → List UInt8 × List UInt8) :
    (epoch number : Nat) → List Record → List UInt8 × Bool
  | _, _, [] => ([], true)
  | epoch, number, record :: rest =>
      match (opens (keys epoch).1 (keys epoch).2 number record).bind innerContent with
      | none => ([], false)
      | some decoded =>
          if decoded.type = 23 then
            let (data, whole) := received opens keys epoch (number + 1) rest
            (decoded.data ++ data, whole)
          else if isUpdate decoded then received opens keys (epoch + 1) 0 rest
          else ([], false)

/-- No record opens to two texts under the keys. -/
def Committing (opens : Cipher) (keys : Set (List UInt8 × List UInt8)) (wire : List Record) : Prop :=
  ∀ record ∈ wire, ∀ one ∈ keys, ∀ other ∈ keys, ∀ number number' text text',
    opens one.1 one.2 number record = some text →
      opens other.1 other.2 number' record = some text' → text = text'

/-- One of the keys opens the record. -/
def Opened (opens : Cipher) (keys : Set (List UInt8 × List UInt8)) (record : Record)
    (decoded : Decoded) : Prop :=
  ∃ pair ∈ keys, ∃ number, (opens pair.1 pair.2 number record).bind innerContent = some decoded

def applicationData (decodeds : List Decoded) : List UInt8 :=
  decodeds.flatMap fun decoded => if decoded.type = 23 then decoded.data else []

variable {opens : Cipher} {keys : Set (List UInt8 × List UInt8)}

theorem Opened.unique {wire : List Record} {record : Record} {decoded other : Decoded}
    (commits : Committing opens keys wire) (member : record ∈ wire)
    (one : Opened opens keys record decoded) (two : Opened opens keys record other) :
    decoded = other := by
  obtain ⟨pair, inKeys, number, opened⟩ := one
  obtain ⟨pair', inKeys', number', opened'⟩ := two
  obtain ⟨text, opened, content⟩ := Option.bind_eq_some_iff.mp opened
  obtain ⟨text', opened', content'⟩ := Option.bind_eq_some_iff.mp opened'
  obtain rfl := commits record member pair inKeys pair' inKeys' number number' text text' opened opened'
  exact innerContent_inj content content'

/-- A provider reads the data that was opened, as far as it reads. -/
theorem received_covered {wire all : List Record} {decodeds : List Decoded}
    (commits : Committing opens keys all) (within : ∀ record ∈ wire, record ∈ all)
    (opened : List.Forall₂ (Opened opens keys) wire decodeds)
    (kinds : ∀ decoded ∈ decodeds, decoded.type = 23 ∨ decoded = ⟨22, update⟩)
    {provider : Nat → List UInt8 × List UInt8} (own : ∀ epoch, provider epoch ∈ keys) (epoch number : Nat) :
    (received opens provider epoch number wire).1 <+: applicationData decodeds ∧
      ((received opens provider epoch number wire).2 = true →
        (received opens provider epoch number wire).1 = applicationData decodeds) := by
  induction opened generalizing epoch number with
  | nil => simp [received, applicationData]
  | @cons record decoded wire decodeds here rest ih =>
      have ih := ih (fun r member => within r (List.mem_cons_of_mem _ member))
        fun d member => kinds d (List.mem_cons_of_mem _ member)
      unfold received
      split
      · simp
      · rename_i found opens_to
        have same : found = decoded := Opened.unique commits (within record List.mem_cons_self)
          ⟨provider epoch, own epoch, number, opens_to⟩ here
        subst same
        rcases kinds found List.mem_cons_self with data | is
        · rw [if_pos data]
          have data_eq : applicationData (found :: decodeds) = found.data ++ applicationData decodeds := by
            simp [applicationData, data]
          rw [data_eq]
          exact ⟨(List.prefix_append_right_inj _).mpr (ih epoch (number + 1)).1,
            fun whole => congrArg _ ((ih epoch (number + 1)).2 whole)⟩
        · subst is
          rw [if_neg (by decide), if_pos (by decide)]
          have data_eq : applicationData (⟨22, update⟩ :: decodeds) = applicationData decodeds := by
            simp [applicationData]
          rw [data_eq]
          exact ih (epoch + 1) 0

/-! ## The records that the verifier reads -/

/-- Every key that a claim discloses is among the keys. -/
def Discloses (keys : Set (List UInt8 × List UInt8)) (disclosures : List Disclosure) : Prop :=
  ∀ info ∈ disclosures, ∀ key ∈ info.key, ∀ iv ∈ info.iv, (fromHex key, fromHex iv) ∈ keys

theorem visible_fields {record : Record} {info : Disclosure} {decoded : Decoded}
    (seen : visible opens record info = .ok decoded) : info.fields ≠ 0 := by
  obtain ⟨key, -, -, keyed, -⟩ := visible_eq_ok.mp seen
  simp [Disclosure.fields, keyed]

theorem visible_opened {disclosures : List Disclosure} (disclose : Discloses keys disclosures)
    {record : Record} {i : Nat} {decoded : Decoded}
    (seen : visible opens record (disclosed disclosures i) = .ok decoded) :
    Opened opens keys record decoded := by
  obtain ⟨key, iv, number, keyed, ived, -, -, -, -, opened⟩ := visible_eq_ok.mp seen
  refine ⟨(fromHex key, fromHex iv), ?_, number, opened⟩
  unfold disclosed at keyed ived
  rw [List.getD_eq_getElem?_getD] at keyed ived
  cases found : disclosures[i]? with
  | none => simp [found, Disclosure.undefined] at keyed
  | some info =>
      rw [found] at keyed ived
      exact disclose info (List.mem_of_getElem? found) key keyed iv ived

theorem plainRecord_eq_ok {record : Record} {info : Disclosure} {type : UInt8} {data : List UInt8}
    (reads : plainRecord record info type = .ok data) : info.fields = 1 := by
  obtain ⟨_, holds, -⟩ := Credential.bind_eq_ok.mp reads
  exact (of_decide_eq_true (checked_iff.mp holds)).2.2

theorem skipChange_eq_ok {record : Record} {info : Disclosure} {i : Nat}
    (skips : skipChange record info = .ok i) : i = 1 ∨ i = 2 ∧ info.fields = 1 := by
  unfold skipChange at skips
  split at skips
  · obtain ⟨_, reads, skips⟩ := Credential.bind_eq_ok.mp skips
    obtain ⟨_, -, same⟩ := Credential.bind_eq_ok.mp skips
    right
    exact ⟨(Except.ok.inj same).symm, plainRecord_eq_ok reads⟩
  · left
    exact (Except.ok.inj skips).symm

/-- The client's part of a handshake: a hello, perhaps a change of the cipher, and Finished. -/
theorem authenticate_client {ext : Externals} {host : String} {client server : List Record}
    {dc ds : List Disclosure} {found : Authenticated}
    (accepts : authenticate ext host client server dc ds = .ok found) :
    (found.ci = 2 ∨ found.ci = 3) ∧ ∀ i < found.ci, (disclosed dc i).fields ≠ 0 := by
  obtain ⟨transcript, hellos, accepts⟩ := Credential.bind_eq_ok.mp accepts
  obtain ⟨ci, skips, accepts⟩ := Credential.bind_eq_ok.mp accepts
  obtain ⟨si, -, accepts⟩ := Credential.bind_eq_ok.mp accepts
  obtain ⟨_, finishes, accepts⟩ := Credential.bind_eq_ok.mp accepts
  obtain ⟨⟨flight, last⟩, -, accepts⟩ := Credential.bind_eq_ok.mp accepts
  obtain ⟨_, -, same⟩ := Credential.bind_eq_ok.mp accepts
  obtain rfl := Except.ok.inj same
  obtain ⟨_, hello, -⟩ := Credential.bind_eq_ok.mp hellos
  obtain ⟨_, finish, -⟩ := Credential.bind_eq_ok.mp finishes
  have first := plainRecord_eq_ok hello
  have closing := visible_fields finish
  rcases skipChange_eq_ok skips with rfl | ⟨rfl, change⟩
  · refine ⟨Or.inl rfl, fun i below => ?_⟩
    interval_cases i
    · rw [first]
      exact one_ne_zero
    · exact closing
  · refine ⟨Or.inr rfl, fun i below => ?_⟩
    interval_cases i
    · rw [first]
      exact one_ne_zero
    · rw [change]
      exact one_ne_zero
    · exact closing

theorem readSuffix_eq_ok {ext : Externals} {dc : List Disclosure} {bodyKey : Disclosure}
    {ci number : Nat} {wire : List Record} {parts : List (List UInt8)}
    (disclose : Discloses keys dc) (reads : readSuffix ext dc bodyKey ci number wire = .ok parts) :
    List.Forall₂ (Opened ext.opens keys) wire (parts.map (Decoded.mk 23)) ∧
      ∀ i < wire.length, (disclosed dc (ci + i)).fields ≠ 0 := by
  induction wire generalizing ci number parts with
  | nil =>
      obtain rfl := Except.ok.inj reads
      exact ⟨.nil, by simp⟩
  | cons record rest ih =>
      obtain ⟨_, -, reads⟩ := Credential.bind_eq_ok.mp reads
      obtain ⟨decoded, seen, reads⟩ := Credential.bind_eq_ok.mp reads
      obtain ⟨_, kind, reads⟩ := Credential.bind_eq_ok.mp reads
      obtain ⟨others, tail, same⟩ := Credential.bind_eq_ok.mp reads
      obtain rfl := Except.ok.inj same
      obtain ⟨opened, fields⟩ := ih tail
      obtain ⟨type, data⟩ := decoded
      obtain rfl : type = 23 := of_decide_eq_true (checked_iff.mp kind)
      constructor
      · exact .cons (visible_opened disclose seen) opened
      · intro i below
        cases i with
        | zero => exact visible_fields seen
        | succ i =>
            have here := fields i (by simpa using below)
            rwa [Nat.add_assoc, Nat.add_comm 1 i] at here

/-- The proof's verifier accepts only records that one of the keys opens to a credential and to the
KeyUpdate after it. -/
def ProofSound (ext : Externals) (keys : Set (List UInt8 × List UInt8)) : Prop :=
  ∀ nonce bundle tokenRecord updateRecord,
    ext.runProof nonce bundle (hexEncode tokenRecord) (hexEncode updateRecord) = .ok () →
      ∃ pair ∈ keys, ∃ token, Credential.IsToken token ∧ token.length = tokenRecord.length - 22 ∧
        ext.opens pair.1 pair.2 0 tokenRecord = some (token ++ [23]) ∧
        ext.opens pair.1 pair.2 1 updateRecord = some (update ++ [22])

/-- What the verifier finds in the records of a request. -/
structure RequestRecords (ext : Externals) (keys : Set (List UInt8 × List UInt8)) (claim : Claim)
    (client : List Record) (ci : Nat) (request front token suffix : List UInt8) : Prop where
  covered : request = front ++ List.replicate token.length 42 ++ suffix
  isToken : Credential.IsToken token
  opened : ∃ parts : List (List UInt8), parts.flatten = suffix ∧
    List.Forall₂ (Opened ext.opens keys)
      ([recordAt client ci, recordAt client (ci + 1), recordAt client (ci + 2),
        recordAt client (ci + 3)] ++ client.drop (ci + 4))
      ([⟨23, front⟩, ⟨22, update⟩, ⟨23, token⟩, ⟨22, update⟩] ++ parts.map (Decoded.mk 23))
  hidden : ∀ i < (client.drop (ci + 4)).length + 4,
    (disclosed claim.client (ci + i)).fields = 0 ↔ i = 2 ∨ i = 3

theorem readRequest_eq_ok {ext : Externals} {claim : Claim} {client : List Record} {ci n : Nat}
    {request : List UInt8} (disclose : Discloses keys claim.client) (sound : ProofSound ext keys)
    (reads : readRequest ext claim client ci = .ok (request, n)) :
    ∃ front token suffix, n = token.length ∧
      RequestRecords ext keys claim client ci request front token suffix := by
  obtain ⟨_, -, reads⟩ := Credential.bind_eq_ok.mp reads
  obtain ⟨_, -, reads⟩ := Credential.bind_eq_ok.mp reads
  obtain ⟨⟨frontType, front⟩, seen, reads⟩ := Credential.bind_eq_ok.mp reads
  obtain ⟨_, frontKind, reads⟩ := Credential.bind_eq_ok.mp reads
  obtain ⟨_, -, reads⟩ := Credential.bind_eq_ok.mp reads
  obtain ⟨⟨kuType, kuData⟩, seenUpdate, reads⟩ := Credential.bind_eq_ok.mp reads
  obtain ⟨_, isUpdate, reads⟩ := Credential.bind_eq_ok.mp reads
  obtain ⟨_, privates, reads⟩ := Credential.bind_eq_ok.mp reads
  obtain ⟨_, -, reads⟩ := Credential.bind_eq_ok.mp reads
  obtain ⟨⟨nonce, bundle⟩, -, reads⟩ := Credential.bind_eq_ok.mp reads
  obtain ⟨_, proved, reads⟩ := Credential.bind_eq_ok.mp reads
  obtain ⟨parts, suffixes, reads⟩ := Credential.bind_eq_ok.mp reads
  obtain ⟨_, -, same⟩ := Credential.bind_eq_ok.mp reads
  obtain ⟨rfl, rfl⟩ := Prod.mk.inj (Except.ok.inj same)
  obtain rfl : frontType = 23 := of_decide_eq_true (checked_iff.mp frontKind)
  obtain ⟨rfl, rfl⟩ : kuType = 22 ∧ kuData = update := of_decide_eq_true (checked_iff.mp isUpdate)
  obtain ⟨hidden, hidden'⟩ := of_decide_eq_true (checked_iff.mp privates)
  obtain ⟨pair, inKeys, token, isToken, length, opensToken, opensUpdate⟩ := sound _ _ _ _ proved
  obtain ⟨opened, fields⟩ := readSuffix_eq_ok disclose suffixes
  refine ⟨front, token, parts.flatten, length.symm, by rw [length], isToken, ⟨parts, rfl, ?_⟩, ?_⟩
  · refine .cons (visible_opened disclose seen) (.cons (visible_opened disclose seenUpdate)
      (.cons ⟨pair, inKeys, 0, ?_⟩ (.cons ⟨pair, inKeys, 1, ?_⟩ opened)))
    · rw [opensToken, Option.bind_some, innerContent_append _ (by decide)]
    · rw [opensUpdate, Option.bind_some, innerContent_append _ (by decide)]
  · intro i below
    match i with
    | 0 => simpa using visible_fields seen
    | 1 => simpa using visible_fields seenUpdate
    | 2 => simpa using hidden
    | 3 => simpa using hidden'
    | i + 4 =>
        have here := fields i (by omega)
        rw [Nat.add_assoc, Nat.add_comm 4 i] at here
        simpa using here

/-! ## The credential's place -/

/-- The bytes of a request, of which some are shown as `*`. -/
def Covers : List UInt8 → List UInt8 → Prop :=
  List.Forall₂ fun shown actual => shown = actual ∨ shown = 42 ∧ Credential.validByte actual = true

theorem covers_refl (bytes : List UInt8) : Covers bytes bytes :=
  List.forall₂_same.mpr fun _ _ => Or.inl rfl

theorem covers_token {token : List UInt8} (isToken : Credential.IsToken token) :
    Covers (List.replicate token.length 42) token := by
  have alphabet := isToken.alphabet
  clear isToken
  induction token with
  | nil => exact .nil
  | cons b token ih =>
      refine .cons (Or.inr ⟨rfl, ?_⟩) (ih fun c member => alphabet c (List.mem_cons_of_mem _ member))
      rw [Credential.validByte_iff]
      exact alphabet b List.mem_cons_self

theorem covers_token_append {token : List UInt8} (isToken : Credential.IsToken token)
    (front suffix : List UInt8) :
    Covers (front ++ List.replicate token.length 42 ++ suffix) (front ++ token ++ suffix) :=
  List.rel_append (List.rel_append (covers_refl front) (covers_token isToken)) (covers_refl suffix)

/-- The bytes that end a line. -/
def lineEnd (b : UInt8) : Bool := b == 13 || b == 10

theorem lineEnd_iff {shown actual b : UInt8} (ends : lineEnd b = true)
    (covers : shown = actual ∨ shown = 42 ∧ Credential.validByte actual = true) :
    shown = b ↔ actual = b := by
  rcases covers with rfl | ⟨rfl, valid⟩
  · rfl
  · have apart : ∀ c, lineEnd c = true → c ≠ 42 ∧ Credential.validByte c = false := by
      intro c ends
      simp only [lineEnd, Bool.or_eq_true, beq_iff_eq] at ends
      rcases ends with rfl | rfl <;> decide
    obtain ⟨star, invalid⟩ := apart b ends
    refine ⟨fun same => absurd same.symm star, ?_⟩
    rintro rfl
    rw [valid] at invalid
    cases invalid

theorem covers_isPrefixOf {sep shown actual : List UInt8} (ends : sep.all lineEnd = true)
    (covers : Covers shown actual) : sep.isPrefixOf shown = sep.isPrefixOf actual := by
  induction sep generalizing shown actual with
  | nil => rfl
  | cons b sep ih =>
      rw [List.all_cons, Bool.and_eq_true] at ends
      cases covers with
      | nil => rfl
      | @cons s a shown actual here rest =>
          have same := lineEnd_iff ends.1 here
          rw [List.isPrefixOf_cons_cons, List.isPrefixOf_cons_cons, ih ends.2 rest]
          congr 1
          rw [Bool.eq_iff_iff, beq_iff_eq, beq_iff_eq, eq_comm, same, eq_comm]

theorem covers_drop {shown actual : List UInt8} (covers : Covers shown actual) (n : Nat) :
    Covers (shown.drop n) (actual.drop n) := List.forall₂_drop n covers

/-- The end of the head stands at the same place. -/
theorem covers_cutAt {sep shown actual head body : List UInt8} (ends : sep.all lineEnd = true)
    (covers : Covers shown actual) (cuts : cutAt sep shown = some (head, body)) :
    ∃ head' body', cutAt sep actual = some (head', body') ∧ Covers head head' ∧ Covers body body' := by
  induction covers generalizing head with
  | nil => cases cuts
  | @cons s a shown actual here rest ih =>
      have same := covers_isPrefixOf ends (List.Forall₂.cons here rest)
      unfold cutAt at cuts ⊢
      rw [← same]
      by_cases found : sep.isPrefixOf (s :: shown) = true
      · rw [if_pos found] at cuts ⊢
        obtain ⟨rfl, rfl⟩ := Prod.mk.inj (Option.some.inj cuts)
        exact ⟨[], _, rfl, .nil, covers_drop (List.Forall₂.cons here rest) _⟩
      · rw [if_neg found] at cuts ⊢
        obtain ⟨⟨inner, after⟩, cut, same⟩ := Option.map_eq_some_iff.mp cuts
        obtain ⟨rfl, rfl⟩ := Prod.mk.inj same
        obtain ⟨head', body', cuts', heads, bodies⟩ := ih cut
        exact ⟨a :: head', body', by rw [cuts']; rfl, .cons here heads, bodies⟩

theorem covers_consLine {s a : UInt8} {lines lines' : List (List UInt8)}
    (here : s = a ∨ s = 42 ∧ Credential.validByte a = true) (covers : List.Forall₂ Covers lines lines') :
    List.Forall₂ Covers (consLine s lines) (consLine a lines') := by
  cases covers with
  | nil => exact .cons (.cons here .nil) .nil
  | cons line rest => exact .cons (.cons here line) rest

theorem covers_splitLines {shown actual : List UInt8} (covers : Covers shown actual) :
    List.Forall₂ Covers (splitLines shown) (splitLines actual) := by
  induction shown using splitLines.induct generalizing actual with
  | case1 =>
      cases covers
      exact .cons .nil .nil
  | case2 s =>
      cases covers with
      | cons here rest =>
          cases rest
          exact .cons (.cons here .nil) .nil
  | case3 s t shown is ih =>
      cases covers with
      | cons here rest =>
          cases rest with
          | cons next rest =>
              unfold splitLines
              rw [if_pos is, if_pos ⟨(lineEnd_iff rfl here).mp is.1, (lineEnd_iff rfl next).mp is.2⟩]
              exact .cons .nil (ih rest)
  | case4 s t shown isNot ih =>
      cases covers with
      | cons here rest =>
          cases rest with
          | cons next rest =>
              unfold splitLines
              rw [if_neg isNot, if_neg (by rwa [lineEnd_iff rfl here, lineEnd_iff rfl next] at isNot)]
              exact covers_consLine here (ih (.cons next rest))

theorem parseRequest_covered {parsesJson : ParsesJson} {shown actual found : List UInt8}
    {target : Target} {tokenLength : Nat} {authentication : Authentication}
    (covers : Covers shown actual)
    (parses : parseRequest parsesJson shown target tokenLength authentication = .ok found) :
    ∃ head body lines, cutAt (crlf ++ crlf) actual = some (head, body) ∧ Covers found body ∧
      checkHeaders lines found target tokenLength authentication = .ok () ∧
      List.Forall₂ Covers lines (splitLines head) := by
  cases cuts : cutAt (crlf ++ crlf) shown with
  | none => simp [parseRequest, cuts] at parses
  | some cut =>
      obtain ⟨head, body⟩ := cut
      obtain ⟨-, -, checks, -, rfl⟩ := (parseRequest_iff cuts).mp parses
      obtain ⟨head', body', cuts', heads, bodies⟩ := covers_cutAt (by decide) covers cuts
      exact ⟨head', body', splitLines head, cuts', bodies, checks, covers_splitLines heads⟩

/-! ## Authorized requests -/

theorem readProbe_eq_ok {ext : Externals} {target : Target} {claim : Claim} {client : List Record}
    {ci next : Nat} (probe : claim.probe = true) (disclose : Discloses keys claim.client)
    (reads : readProbe ext target claim client ci = .ok next) :
    next = ci + 1 ∧ (disclosed claim.client ci).fields ≠ 0 ∧
      Opened ext.opens keys (recordAt client ci) ⟨23, probeRequest target⟩ := by
  unfold readProbe at reads
  rw [if_pos probe] at reads
  obtain ⟨⟨type, data⟩, seen, reads⟩ := Credential.bind_eq_ok.mp reads
  obtain ⟨_, holds, same⟩ := Credential.bind_eq_ok.mp reads
  obtain ⟨-, rfl, rfl⟩ : _ ∧ type = 23 ∧ data = probeRequest target :=
    of_decide_eq_true (checked_iff.mp holds)
  exact ⟨(Except.ok.inj same).symm, visible_fields seen, visible_opened disclose seen⟩

theorem drop_recordAt {client : List Record} {i : Nat} (below : i < client.length) :
    client.drop i = recordAt client i :: client.drop (i + 1) := by
  rw [List.drop_eq_getElem_cons below]
  simp [recordAt, below]

theorem lt_of_no_fields {disclosures : List Disclosure} {i : Nat}
    (none : (disclosed disclosures i).fields = 0) : i < disclosures.length := by
  by_contra beyond
  simp [disclosed, beyond, Disclosure.fields, Disclosure.undefined] at none

def sampleOpens : Cipher := fun key _ number record =>
  if record.drop (record.length - 16) = sampleTag key number then
    some ((record.drop 5).take (record.length - 21))
  else none

/-- Both records open with the key that the first one's tag names, to a credential and a KeyUpdate. -/
def sampleProof (tokenRecord updateRecord : Record) : Bool :=
  let key := [(tokenRecord.drop (tokenRecord.length - 16)).headD 0]
  match sampleOpens key [] 0 tokenRecord with
  | none => false
  | some text =>
      text.getLast? == some 23 && 64 ≤ text.dropLast.length && text.dropLast.length ≤ 4096 &&
        text.dropLast.all Credential.validByte &&
        sampleOpens key [] 1 updateRecord == some (update ++ [22])

def sampleExternals : Externals where
  opens := sampleOpens
  parseClientHello _ := .ok (some Provider.api.target.host)
  parseServerHello _ := .ok ⟨"TLS1_3", suite, false⟩
  parseCertificates body := .ok [body]
  verifyServerCertificates _ _ := .ok 0
  verifyCertificateSignature _ _ _ := .ok ()
  runProof _ _ tokenRecord updateRecord :=
    checked (sampleProof (fromHex tokenRecord) (fromHex updateRecord)) "Invalid proof"
  parsesJson := (· == emptyObject)

def sampleServerKey : WriteKey := ⟨List.replicate 32 201, List.replicate 12 0⟩

def sampleResponseKey : WriteKey := ⟨List.replicate 32 202, List.replicate 12 0⟩

/-- The server's hello and flight. -/
def sampleServer : List Record :=
  [[22, 3, 3, 0, 4, 2, 0, 0, 0],
    sampleSeal sampleServerKey.key sampleServerKey.iv 0
      [8, 0, 0, 0, 11, 0, 0, 1, 1, 15, 0, 0, 0, 22],
    sampleSeal sampleServerKey.key sampleServerKey.iv 1
      ([20, 0, 0, 32] ++ List.replicate 32 0 ++ [22])]

/-- The server's response to the probe. -/
def sampleResponse : Record :=
  sampleSeal sampleResponseKey.key sampleResponseKey.iv 0 (ascii "HTTP/1.1 200 OK\r\n\r\n" ++ [23])

def sampleServerDisclosures : List Disclosure :=
  [recordDisclosure sampleServerKey 0 false true, recordDisclosure sampleServerKey 1 true true,
    recordDisclosure sampleServerKey 2 true true]

theorem proofSound_sample : ProofSound sampleExternals Set.univ := by
  intro nonce bundle tokenRecord updateRecord accepted
  have proof : sampleProof tokenRecord updateRecord = true := by
    have checks := checked_iff.mp accepted
    simpa [fromHex, hexDecode_hexEncode] using checks
  unfold sampleProof at proof
  simp only at proof
  split at proof
  · cases proof
  · rename_i text opened
    simp only [Bool.and_eq_true, decide_eq_true_eq, beq_iff_eq] at proof
    obtain ⟨⟨⟨⟨last, low⟩, high⟩, bytes⟩, updates⟩ := proof
    have whole : text.dropLast ++ [23] = text := List.dropLast_append_getLast? 23 last
    refine ⟨([(tokenRecord.drop (tokenRecord.length - 16)).headD 0], []), Set.mem_univ _, text.dropLast,
      ⟨low, high, fun byte member => (Credential.validByte_iff byte).mp (List.all_eq_true.mp bytes byte member)⟩,
      ?_, by rw [whole]; exact opened, updates⟩
    unfold sampleOpens at opened
    split at opened
    · obtain rfl := Option.some.inj opened
      simp only [List.length_dropLast, List.length_take, List.length_drop]
      omega
    · cases opened

theorem committing_sample (wire : List Record) : Committing sampleOpens Set.univ wire := by
  intro record _ one _ other _ number number' text text' opened opened'
  unfold sampleOpens at opened opened'
  split at opened
  · split at opened'
    · exact Option.some.inj (opened.symm.trans opened')
    · cases opened'
  · cases opened

end GenSubnet.Tls
