import GenSubnet.Credential.Soundness
import GenSubnet.Witness.Channel
import GenSubnet.Witness.RequestFraming

/-!
# TLS records

`records`, `decryptRecord` and the readers of one record of the verifier. The cipher is a parameter:
what it makes of a record under a key, an initialization vector and a sequence number.
-/

namespace GenSubnet.Tls
open Library Witness

abbrev Record := List UInt8

abbrev Cipher := (key iv : List UInt8) → (number : Nat) → Record → Option (List UInt8)

def maxRecords : Nat := 65536

/-- The bytes that the length field of a record counts. -/
def recordLength (wire : List UInt8) : Nat := Credential.beNat ((wire.drop 3).take 2)

def recordsFrom : Nat → Nat → List UInt8 → Except String (List Record)
  | 0, _, _ => .ok []
  | fuel + 1, count, wire =>
      if wire = [] then .ok []
      else if wire.length < 5 then .error "Truncated TLS header"
      else if 16640 < recordLength wire ∨ wire.length < 5 + recordLength wire then
        .error "Invalid TLS record"
      else if maxRecords < count + 1 then .error "Record limit exceeded"
      else do
        let rest ← recordsFrom fuel (count + 1) (wire.drop (5 + recordLength wire))
        return wire.take (5 + recordLength wire) :: rest

def records (wire : List UInt8) : Except String (List Record) := do
  checked (wire.length ≤ maxBytes) "Transcript limit exceeded"
  recordsFrom wire.length 0 wire

/-- A record whose length field counts what follows its header. -/
structure Framed (record : Record) : Prop where
  bounded : recordLength record ≤ 16640
  whole : record.length = 5 + recordLength record

/-! ## What a claim discloses -/

/-- An entry of the disclosures. Fields that the verifier never reads, and those of an entry that is
no object, are counted in `others`. -/
structure Disclosure where
  plain : Option Bool := none
  key : Option (List Char) := none
  iv : Option (List Char) := none
  number : Option Int := none
  others : Nat := 0
deriving DecidableEq

/-- `Object.keys(info).length` -/
def Disclosure.fields (info : Disclosure) : Nat :=
  info.plain.isSome.toNat + info.key.isSome.toNat + info.iv.isSome.toNat +
    info.number.isSome.toNat + info.others

/-- What stands past the end of the disclosures. -/
def Disclosure.undefined : Disclosure := { others := 1 }

def lowerHex (n : Nat) (text : List Char) : Bool :=
  text.length == n && text.all fun c => ('0' ≤ c && c ≤ '9') || ('a' ≤ c && c ≤ 'f')

/-- `Buffer.from(text, 'hex')` of a text that has been checked. -/
def fromHex (text : List Char) : List UInt8 := (hexDecode text).getD []

structure Decoded where
  type : UInt8
  data : List UInt8
deriving DecidableEq

/-- The content of a record, before its padding. -/
def innerContent (plaintext : List UInt8) : Option Decoded :=
  match plaintext.reverse.dropWhile (· == 0) with
  | [] => none
  | type :: rest => some ⟨type, rest.reverse⟩

def maxSafeInteger : Int := 2 ^ 53 - 1

/-- `decryptRecord`, for the keys of ChaCha20-Poly1305. -/
def decryptRecord (opens : Cipher) (record : Record) (info : Disclosure) : Except String Decoded := do
  let key := info.key.getD []
  let iv := info.iv.getD []
  let number := info.number.getD (-1)
  checked (lowerHex 64 key && lowerHex 24 iv) "Invalid record key or IV"
  checked (0 ≤ number ∧ number ≤ maxSafeInteger) "Invalid sequence"
  match opens (fromHex key) (fromHex iv) number.toNat record with
  | none => .error "Unsupported state or unable to authenticate data"
  | some plaintext =>
      match innerContent plaintext with
      | none => .error "Missing TLS inner type"
      | some decoded => .ok decoded

def visible (opens : Cipher) (record : Record) (info : Disclosure) : Except String Decoded := do
  checked (lowerHex 64 (info.key.getD [])) "Expected a disclosed ChaCha20 record key"
  decryptRecord opens record info

def sameEpoch (info first : Disclosure) (number : Nat) : Except String Unit :=
  checked (info.key = first.key ∧ info.iv = first.iv ∧ info.number = some (number : Int))
    "Unexpected TLS key or sequence"

/-- `plain` of the verifier. -/
def plainRecord (record : Record) (info : Disclosure) (type : UInt8) :
    Except String (List UInt8) := do
  checked (record.head? = some type ∧ info.plain = some true ∧ info.fields = 1)
    "Unexpected plaintext TLS record"
  return record.drop 5

structure Handshake where
  type : UInt8
  body : List UInt8
  raw : List UInt8
deriving DecidableEq

def handshakesFrom : Nat → List UInt8 → Except String (List Handshake)
  | 0, _ => .ok []
  | fuel + 1, bytes =>
      if bytes = [] then .ok []
      else if bytes.length < 4 then .error "Truncated handshake"
      else
        let length := Credential.beNat ((bytes.drop 1).take 3)
        if bytes.length < 4 + length then .error "Truncated handshake message"
        else do
          let rest ← handshakesFrom fuel (bytes.drop (4 + length))
          return ⟨bytes.headD 0, (bytes.drop 4).take length, bytes.take (4 + length)⟩ :: rest

def handshakes (bytes : List UInt8) : Except String (List Handshake) :=
  handshakesFrom bytes.length bytes

/-! ## Lemmas -/

theorem recordLength_append {record : Record} (rest : List UInt8) (long : 5 ≤ record.length) :
    recordLength (record ++ rest) = recordLength record := by
  unfold recordLength
  rw [List.drop_append_of_le_length (by omega), List.take_append_of_le_length]
  rw [List.length_drop]
  omega

theorem recordLength_take {wire : List UInt8} {n : Nat} (long : 5 ≤ n) (within : n ≤ wire.length) :
    recordLength (wire.take n) = recordLength wire := by
  have split := @recordLength_append (wire.take n) (wire.drop n) (by simp; omega)
  rwa [List.take_append_drop, eq_comm] at split

theorem framed_empty {found : List Record} (framed : ∀ record ∈ found, Framed record)
    (empty : found.flatten = []) : found = [] := by
  cases found with
  | nil => rfl
  | cons record rest =>
      have whole := (framed record List.mem_cons_self).whole
      rw [List.flatten_eq_nil_iff.mp empty record List.mem_cons_self, List.length_nil] at whole
      omega

theorem recordsFrom_eq_ok {fuel count : Nat} {wire : List UInt8} {found : List Record}
    (enough : wire.length ≤ fuel) :
    recordsFrom fuel count wire = .ok found ↔
      found.flatten = wire ∧ (∀ record ∈ found, Framed record) ∧
        (found ≠ [] → count + found.length ≤ maxRecords) := by
  induction fuel generalizing count wire found with
  | zero =>
      obtain rfl := List.length_eq_zero_iff.mp (Nat.le_zero.mp enough)
      constructor
      · intro same
        obtain rfl := Except.ok.inj same
        simp
      · rintro ⟨empty, framed, -⟩
        rw [framed_empty framed empty]
        rfl
  | succ fuel ih =>
      unfold recordsFrom
      by_cases done : wire = []
      · rw [if_pos done]
        subst done
        constructor
        · intro same
          obtain rfl := Except.ok.inj same
          simp
        · rintro ⟨empty, framed, -⟩
          rw [framed_empty framed empty]
      rw [if_neg done]
      constructor
      · intro reads
        split at reads
        · cases reads
        split at reads
        · cases reads
        split at reads
        · cases reads
        rename_i long fits room
        rw [not_or, Nat.not_lt, Nat.not_lt] at fits
        obtain ⟨rest, inner, same⟩ := Credential.bind_eq_ok.mp reads
        obtain rfl := Except.ok.inj same
        obtain ⟨flat, framed, few⟩ := (ih (by rw [List.length_drop]; omega)).mp inner
        have length := recordLength_take (Nat.le_add_right 5 _) fits.2
        refine ⟨by rw [List.flatten_cons, flat, List.take_append_drop], ?_, fun _ => ?_⟩
        · intro record member
          rcases List.mem_cons.mp member with rfl | member
          · exact ⟨by rw [length]; exact fits.1, by rw [length, List.length_take, Nat.min_eq_left fits.2]⟩
          · exact framed record member
        · rw [List.length_cons]
          by_cases last : rest = []
          · rw [last, List.length_nil]
            omega
          · have := few last
            omega
      · rintro ⟨flat, framed, few⟩
        cases found with
        | nil => exact absurd flat.symm done
        | cons record rest =>
            have own := framed record List.mem_cons_self
            have room := few (List.cons_ne_nil _ _)
            rw [List.length_cons] at room
            have long : 5 ≤ record.length := by
              rw [own.whole]
              omega
            rw [List.flatten_cons] at flat
            have length : recordLength wire = recordLength record := by
              rw [← flat, recordLength_append _ long]
            have size : wire.length = record.length + rest.flatten.length := by
              rw [← flat, List.length_append]
            have whole := own.whole
            have bounded := own.bounded
            have first : wire.take record.length = record := by rw [← flat, List.take_left]
            have others : wire.drop record.length = rest.flatten := by rw [← flat, List.drop_left]
            rw [if_neg (by omega), if_neg (by omega), if_neg (by omega), length, ← whole, first, others]
            have reads : recordsFrom fuel (count + 1) rest.flatten = .ok rest := by
              apply (ih (by omega)).mpr
              exact ⟨rfl, fun r member => framed r (List.mem_cons_of_mem _ member), fun _ => by omega⟩
            rw [reads]
            rfl

/-- The records of a byte stream, exactly. -/
theorem records_eq_ok {wire : List UInt8} {found : List Record} :
    records wire = .ok found ↔ wire.length ≤ maxBytes ∧ found.length ≤ maxRecords ∧
      found.flatten = wire ∧ ∀ record ∈ found, Framed record := by
  unfold records
  rw [Credential.bind_eq_ok]
  constructor
  · rintro ⟨_, limit, reads⟩
    obtain ⟨flat, framed, few⟩ := (recordsFrom_eq_ok le_rfl).mp reads
    refine ⟨of_decide_eq_true (checked_iff.mp limit), ?_, flat, framed⟩
    by_cases empty : found = []
    · simp [empty]
    · have := few empty
      omega
  · rintro ⟨limit, few, flat, framed⟩
    refine ⟨(), checked_iff.mpr (decide_eq_true limit), (recordsFrom_eq_ok le_rfl).mpr ⟨flat, framed, ?_⟩⟩
    intro
    omega

theorem innerContent_append (data : List UInt8) {type : UInt8} (typed : type ≠ 0) :
    innerContent (data ++ [type]) = some ⟨type, data⟩ := by
  simp [innerContent, typed]

theorem innerContent_inj {plaintext : List UInt8} {decoded other : Decoded}
    (one : innerContent plaintext = some decoded) (two : innerContent plaintext = some other) :
    decoded = other := Option.some.inj (one.symm.trans two)

/-- A record opens under an entry of the disclosures. -/
theorem visible_eq_ok {opens : Cipher} {record : Record} {info : Disclosure} {decoded : Decoded} :
    visible opens record info = .ok decoded ↔
      ∃ key iv, ∃ number : Nat, info.key = some key ∧ info.iv = some iv ∧
        info.number = some (number : Int) ∧ lowerHex 64 key = true ∧ lowerHex 24 iv = true ∧
        (number : Int) ≤ maxSafeInteger ∧
        (opens (fromHex key) (fromHex iv) number record).bind innerContent = some decoded := by
  constructor
  · intro seen
    obtain ⟨_, keyed, seen⟩ := Credential.bind_eq_ok.mp seen
    obtain ⟨_, texts, seen⟩ := Credential.bind_eq_ok.mp seen
    obtain ⟨_, counted, seen⟩ := Credential.bind_eq_ok.mp seen
    rw [checked_iff] at keyed texts counted
    rw [Bool.and_eq_true] at texts
    have range := of_decide_eq_true counted
    cases keyIs : info.key with
    | none => simp [keyIs, lowerHex] at keyed
    | some key =>
        cases ivIs : info.iv with
        | none => simp [ivIs, lowerHex] at texts
        | some iv =>
            cases numberIs : info.number with
            | none => simp [numberIs] at range
            | some number =>
                rw [keyIs] at keyed
                rw [ivIs] at texts
                rw [numberIs] at range
                simp only [keyIs, ivIs, numberIs, Option.getD_some] at keyed texts range seen
                obtain ⟨n, rfl⟩ := Int.eq_ofNat_of_zero_le range.1
                refine ⟨key, iv, n, rfl, rfl, rfl, keyed, texts.2, range.2, ?_⟩
                rw [Int.toNat_natCast] at seen
                split at seen
                · cases seen
                · split at seen
                  · cases seen
                  · rename_i _ opened _ _ content
                    rw [opened, Option.bind_some, content, Except.ok.inj seen]
  · rintro ⟨key, iv, number, keyIs, ivIs, numberIs, keyed, texts, limit, opened⟩
    obtain ⟨plaintext, opened, content⟩ := Option.bind_eq_some_iff.mp opened
    simp [visible, decryptRecord, keyIs, ivIs, numberIs, keyed, texts, checked, limit, opened, content,
      bind, Except.bind]

end GenSubnet.Tls
