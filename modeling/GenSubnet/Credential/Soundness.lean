import GenSubnet.Credential.Constraints

/-!
# Soundness and completeness of credential proofs

Assignments that some keys satisfy are satisfied by one key, under which the observed records open
to a token and to a KeyUpdate; and the assignments for honestly sealed records are satisfied by the
key that sealed them.
-/

namespace GenSubnet.Credential
open Library Library.ChaCha20

/-! ## Records -/

/-- Open a record with a sequence number, by RFC 8439 and the record layer. -/
def openRecord (key nonce : List UInt8) (index : Nat) (record : List UInt8) : Option (List UInt8) :=
  openText key (nonceAt nonce index) (record.take 5) (ciphertextOf record) (tagOf record)

def header (textLength : Nat) : List UInt8 := [23, 3, 3] ++ beBytes 2 (textLength + 16)

def sealRecord (key nonce : List UInt8) (index : Nat) (text : List UInt8) : List UInt8 :=
  header text.length ++ sealText key (nonceAt nonce index) (header text.length) text

def tokenAlphabet : List Char :=
  "ABCDEFGHIJKLMNOPQRSTUVWXYZabcdefghijklmnopqrstuvwxyz0123456789-_.~+/=".toList

/-- A token that a credential proof is about. -/
structure IsToken (token : List UInt8) : Prop where
  enough : 64 ≤ token.length
  bounded : token.length ≤ 4096
  alphabet : ∀ byte ∈ token, Char.ofNat byte.toNat ∈ tokenAlphabet

theorem validByte_iff (b : UInt8) :
    validByte b = true ↔ Char.ofNat b.toNat ∈ tokenAlphabet := by
  have all : ∀ n < 256, validByte (UInt8.ofNat n) = true ↔ Char.ofNat n ∈ tokenAlphabet := by
    decide +kernel
  have this := all b.toNat b.toNat_lt
  rwa [UInt8.ofNat_toNat] at this

def CredentialCircuit.withKey (c : CredentialCircuit) (key : List UInt8) : CredentialCircuit :=
  { c with key := fun i => value (key.getD i.val 0) }

/-! ## Results -/

theorem bind_eq_ok {α β : Type} {x : Except String α} {f : α → Except String β} {b : β} :
    (x >>= f) = .ok b ↔ ∃ a, x = .ok a ∧ f a = .ok b := by
  cases x with
  | error message => simp [bind, Except.bind]
  | ok a => simp [bind, Except.bind]

theorem require_eq_ok {ok : Prop} [Decidable ok] {message : String} {u : Unit} :
    require ok message = .ok u ↔ ok := by
  unfold require
  split <;> rename_i h <;> simp [h]

theorem decode_eq_ok {text : List Char} {n : Nat} {bytes : List UInt8} :
    decode text n = .ok bytes ↔ hexDecode text = some bytes ∧ bytes.length = n := by
  unfold decode
  cases hexDecode text with
  | none => simp
  | some found =>
      simp only [Option.some.injEq]
      constructor
      · intro h
        split at h
        · rename_i size
          obtain rfl := Except.ok.inj h
          exact ⟨rfl, size⟩
        · cases h
      · rintro ⟨rfl, size⟩
        rw [if_pos size]

theorem record_eq_ok {text : List Char} {bytes : List UInt8} (found : record text = .ok bytes) :
    hexDecode text = some bytes ∧ 22 ≤ bytes.length ∧ bytes.length ≤ maxToken + 22 := by
  unfold record at found
  split at found
  · cases found
  · rename_i decoded is
    split at found
    · cases found
    · rename_i size
      split at found
      · cases found
      · obtain rfl := Except.ok.inj found
        exact ⟨is, by omega, by omega⟩

theorem length_ciphertextOf {bytes : List UInt8} (enough : 22 ≤ bytes.length) :
    (ciphertextOf bytes).length = bytes.length - 21 := by
  unfold ciphertextOf
  rw [List.length_take, List.length_drop]
  omega

theorem authenticate_iff {bytes mac : List UInt8} (enough : 22 ≤ bytes.length) :
    authenticate bytes mac = true ↔
      poly1305 mac (macData (bytes.take 5) (ciphertextOf bytes)) = tagOf bytes := by
  have aad : (bytes.take 5).length = 5 := by
    rw [List.length_take]
    omega
  unfold authenticate macData pad16
  simp only [aad, beq_iff_eq, List.append_assoc]

/-! ## The key stream -/

theorem length_encrypt (key : List UInt8) (counter : UInt32) (nonce text : List UInt8) :
    (encrypt key counter nonce text).length = text.length := List.length_mapIdx

theorem getD_encrypt (key : List UInt8) (counter : UInt32) (nonce : List UInt8)
    {text : List UInt8} {i : Nat} (inside : i < text.length) :
    (encrypt key counter nonce text).getD i 0 =
      text.getD i 0 ^^^ streamAt key counter nonce i := by
  unfold encrypt
  rw [List.getD_eq_getElem?_getD, List.getD_eq_getElem?_getD, List.getElem?_mapIdx,
    List.getElem?_eq_getElem inside]
  rfl

theorem streamAt_chunk (key nonce : List UInt8) (chunk : Nat) (i : Nat) :
    streamAt key (UInt32.ofNat (1 + chunk * chunkSize / 64)) nonce i =
      streamAt key 1 nonce (chunk * chunkSize + i) := by
  have blocks : chunk * chunkSize / 64 = chunk * 4 := by
    unfold chunkSize
    omega
  have within : (chunk * chunkSize + i) / 64 = chunk * 4 + i / 64 := by
    unfold chunkSize
    omega
  have same : (chunk * chunkSize + i) % 64 = i % 64 := by
    unfold chunkSize
    omega
  unfold streamAt
  rw [blocks, within, same, UInt32.ofNat_add, UInt32.ofNat_add, UInt32.add_assoc]
  rfl

theorem textAt_chunk (s : Shared) (nonce ct : List UInt8) {chunk i : Nat} (inside : i < chunkSize)
    (within : chunk * chunkSize + i < ct.length) :
    textAt s (1 + chunk * chunkSize / 64) nonce ((ct.drop (chunk * chunkSize)).take chunkSize) i =
      (encrypt s.key 1 nonce ct).getD (chunk * chunkSize + i) 0 := by
  unfold textAt
  rw [getD_encrypt _ _ _ within, streamAt_chunk]
  congr 1
  rw [List.getD_eq_getElem?_getD, List.getD_eq_getElem?_getD, List.getElem?_take, if_pos inside,
    List.getElem?_drop]

theorem polyKey_eq (key nonce : List UInt8) : polyKey key nonce = stream key nonce 0 32 := by
  unfold polyKey stream
  refine List.ext_getElem (by simp [length_block]) fun i hi hi' => ?_
  have small : i < 32 := by simpa [length_block] using hi
  have blocks : i / 64 = 0 := by omega
  have within : i % 64 = i := by omega
  have inside : i < (block key 0 nonce).length := by
    rw [length_block]
    omega
  simp only [List.getElem_take, List.getElem_map, List.getElem_range, streamAt, blocks, within]
  rw [List.getD_eq_getElem?_getD]
  show _ = ((block key (0 + 0) nonce)[i]?).getD 0
  rw [UInt32.add_zero, List.getElem?_eq_getElem inside]
  rfl

/-! ## The assignments of a record -/

theorem mem_offsets {length offset : Nat} :
    offset ∈ offsets length ↔ ∃ chunk, offset = chunk * chunkSize ∧ chunk * chunkSize < length := by
  unfold offsets
  rw [List.mem_map]
  constructor
  · rintro ⟨chunk, member, rfl⟩
    rw [List.mem_range] at member
    refine ⟨chunk, rfl, ?_⟩
    unfold chunkSize at member ⊢
    omega
  · rintro ⟨chunk, rfl, inside⟩
    refine ⟨chunk, List.mem_range.mpr ?_, rfl⟩
    unfold chunkSize at inside ⊢
    omega

/-- The kind of the chunks of a record. -/
def kindOf (index : Fin 2) : Nat := if index.val = 1 then 2 else 1

theorem chunk_derived {s : Shared} {index : Fin 2} {ct : List UInt8} {chunk : Nat}
    (keyLength : s.key.length = 32) (enough : 64 ≤ s.tokenLength)
    (bounded : s.tokenLength ≤ maxToken) (inside : chunk * chunkSize < ct.length)
    (size : ct.length = if index.val = 1 then 6 else s.tokenLength + 1) :
    Derived s (kindOf index) (1 + chunk * chunkSize / 64)
      (min (chunk * chunkSize + chunkSize) ct.length - chunk * chunkSize) [] := by
  unfold maxToken at bounded
  unfold chunkSize at inside ⊢
  obtain rfl | rfl : index = 0 ∨ index = 1 := by omega
  · have size : ct.length = s.tokenLength + 1 := size
    refine ⟨⟨by decide, ?_, fun _ => by omega, ?_, bounded⟩, keyLength, enough, by omega, ?_, ?_,
      fun _ => rfl⟩
    · unfold maxToken
      omega
    · unfold chunkSize
      omega
    · intro h
      cases h
    · intro h
      cases h
  · have size : ct.length = 6 := size
    obtain rfl : chunk = 0 := by omega
    refine ⟨⟨by decide, by decide, fun _ => by omega, ?_, bounded⟩, keyLength, enough, by omega,
      ?_, ?_, fun _ => rfl⟩
    · unfold chunkSize
      omega
    · intro h
      cases h
    · intro _
      rw [size]
      decide

theorem mac_derived {s : Shared} {mac : List UInt8} (keyLength : s.key.length = 32)
    (enough : 64 ≤ s.tokenLength) (bounded : s.tokenLength ≤ maxToken) : Derived s 0 0 32 mac :=
  ⟨⟨by decide, by decide, (nomatch ·), by decide, bounded⟩, keyLength, enough, by decide,
    fun _ => ⟨rfl, rfl⟩, (nomatch ·), fun h => absurd rfl h⟩

/-- A plaintext as the chunks of its record demand it. -/
def Demanded (index : Fin 2) (tokenLength : Nat) (text : List UInt8) : Prop :=
  if index.val = 1 then text = fixedUpdate
  else text.length = tokenLength + 1 ∧ text.getD tokenLength 0 = 23 ∧
    ∀ i < tokenLength, validByte (text.getD i 0) = true

/-- The demand on one byte of the plaintext. -/
def DemandedAt (index : Fin 2) (tokenLength : Nat) (text : List UInt8) (i : Nat) : Prop :=
  if index.val = 1 then text.getD i 0 = fixedUpdate.getD i 0
  else (i = tokenLength → text.getD i 0 = 23) ∧
    (i ≠ tokenLength → validByte (text.getD i 0) = true)

theorem demanded_iff {index : Fin 2} {tokenLength : Nat} {text : List UInt8}
    (size : text.length = if index.val = 1 then 6 else tokenLength + 1) :
    Demanded index tokenLength text ↔ ∀ i < text.length, DemandedAt index tokenLength text i := by
  obtain rfl | rfl : index = 0 ∨ index = 1 := by omega
  · have size : text.length = tokenLength + 1 := size
    constructor
    · rintro ⟨-, last, valid⟩ i inside
      refine ⟨fun atEnd => atEnd ▸ last, fun notEnd => valid i (by omega)⟩
    · intro all
      refine ⟨size, (all tokenLength (by omega)).1 rfl, fun i inside => ?_⟩
      exact (all i (by omega)).2 (by omega)
  · have size : text.length = 6 := size
    constructor
    · intro same i inside
      have same : text = fixedUpdate := same
      show text.getD i 0 = fixedUpdate.getD i 0
      rw [same]
    · intro all
      refine List.ext_getElem size fun i hi hi' => ?_
      have same : text.getD i 0 = fixedUpdate.getD i 0 := all i hi
      rwa [List.getD_eq_getElem?_getD, List.getD_eq_getElem?_getD, List.getElem?_eq_getElem hi,
        List.getElem?_eq_getElem hi'] at same

theorem byteMeets_chunk_iff {s : Shared} {index : Fin 2} {n ct : List UInt8} {chunk i : Nat}
    (size : ct.length = if index.val = 1 then 6 else s.tokenLength + 1) (small : i < chunkSize)
    (inside : chunk * chunkSize < ct.length) :
    ByteMeets s (kindOf index) (1 + chunk * chunkSize / 64)
      (min (chunk * chunkSize + chunkSize) ct.length - chunk * chunkSize) n
      ((ct.drop (chunk * chunkSize)).take chunkSize) [] i ↔
      (chunk * chunkSize + i < ct.length →
        DemandedAt index s.tokenLength (encrypt s.key 1 n ct) (chunk * chunkSize + i)) := by
  have within : i < min (chunk * chunkSize + chunkSize) ct.length - chunk * chunkSize ↔
      chunk * chunkSize + i < ct.length := by
    omega
  have place : (1 + chunk * chunkSize / 64 - 1) * 64 + i = chunk * chunkSize + i := by
    unfold chunkSize
    omega
  have padding : min (chunk * chunkSize + chunkSize) ct.length - chunk * chunkSize ≤ i →
      ((ct.drop (chunk * chunkSize)).take chunkSize).getD i 0 = 0 := by
    intro beyond
    rw [List.getD_eq_getElem?_getD, List.getElem?_eq_none]
    · rfl
    · rw [List.length_take, List.length_drop]
      omega
  obtain rfl | rfl : index = 0 ∨ index = 1 := by omega
  · have size : ct.length = s.tokenLength + 1 := size
    constructor
    · intro meets there
      have text := textAt_chunk s n ct small there
      have last := meets.last rfl (within.mpr there)
      have valid := meets.allowed rfl (within.mpr there)
      rw [place, text] at last valid
      exact ⟨last, valid⟩
    · intro demand
      refine ⟨padding, (nomatch ·), (nomatch ·), fun _ there => ?_, fun _ there atEnd => ?_,
        fun _ there notEnd => ?_⟩
      · rw [place]
        omega
      · have there := within.mp there
        rw [place] at atEnd
        rw [textAt_chunk s n ct small there]
        exact (demand there).1 atEnd
      · have there := within.mp there
        rw [place] at notEnd
        rw [textAt_chunk s n ct small there]
        exact (demand there).2 notEnd
  · have size : ct.length = 6 := size
    have first : chunk = 0 := by
      unfold chunkSize at inside
      omega
    subst first
    constructor
    · intro meets there
      have byte := meets.update rfl (by omega)
      rw [textAt_chunk s n ct small there, Nat.zero_mul, Nat.zero_add] at byte
      rw [Nat.zero_mul, Nat.zero_add]
      exact byte
    · intro demand
      refine ⟨padding, (nomatch ·), fun _ there => ?_, (nomatch ·), (nomatch ·), (nomatch ·)⟩
      have there : 0 * chunkSize + i < ct.length := by omega
      have byte := demand there
      rw [textAt_chunk s n ct small there]
      rw [Nat.zero_mul, Nat.zero_add] at byte ⊢
      exact byte

section
variable {s : Shared} {n : List UInt8} (g : Gadgets) (keyLength : s.key.length = 32)
  (enough : 64 ≤ s.tokenLength) (bounded : s.tokenLength ≤ maxToken)
include keyLength enough bounded

theorem mac_satisfied_iff {mac : List UInt8} (macLength : mac.length = 32) :
    (makeAssignment s 0 0 32 n [] mac).Define g ↔
      commitmentOf g.mimc s.key = s.commitment ∧ polyKey s.key n = mac := by
  rw [define_iff (mac_derived keyLength enough bounded), polyKey_eq]
  refine and_congr_right fun _ => ?_
  have text : ∀ i, textAt s 0 n [] i = streamAt s.key 0 n i := by
    intro i
    unfold textAt
    rw [List.getD_nil, UInt8.zero_xor]
    rfl
  constructor
  · intro bytes
    refine List.ext_getElem (by simp [stream, macLength]) fun i hi hi' => ?_
    have small : i < 32 := by rwa [macLength] at hi'
    have byte := (bytes i (by unfold chunkSize; omega)).keyByte rfl small
    rw [text, List.getD_eq_getElem?_getD, List.getElem?_eq_getElem hi'] at byte
    simp only [stream, List.getElem_map, List.getElem_range]
    exact byte
  · rintro rfl i inside
    refine ⟨fun _ => rfl, fun _ small => ?_, (nomatch ·), (nomatch ·), (nomatch ·), (nomatch ·)⟩
    rw [text, List.getD_eq_getElem?_getD, List.getElem?_eq_getElem (by simp [stream, small])]
    simp [stream]

theorem chunks_satisfied_iff {index : Fin 2} {ct : List UInt8}
    (size : ct.length = if index.val = 1 then 6 else s.tokenLength + 1) :
    (∀ a ∈ chunkAssignments s (kindOf index) n ct, a.Define g) ↔
      commitmentOf g.mimc s.key = s.commitment ∧
        Demanded index s.tokenLength (encrypt s.key 1 n ct) := by
  have nonempty : 0 < ct.length := by
    rw [size]
    split <;> omega
  have listed : (∀ a ∈ chunkAssignments s (kindOf index) n ct, a.Define g) ↔
      ∀ chunk, chunk * chunkSize < ct.length →
        commitmentOf g.mimc s.key = s.commitment ∧ ∀ i < chunkSize,
          ByteMeets s (kindOf index) (1 + chunk * chunkSize / 64)
            (min (chunk * chunkSize + chunkSize) ct.length - chunk * chunkSize) n
            ((ct.drop (chunk * chunkSize)).take chunkSize) [] i := by
    unfold chunkAssignments
    simp only [List.forall_mem_map, mem_offsets]
    constructor
    · intro all chunk inside
      exact (define_iff (chunk_derived keyLength enough bounded inside size) _ _ g).mp
        (all _ ⟨chunk, rfl, inside⟩)
    · rintro all _ ⟨chunk, rfl, inside⟩
      exact (define_iff (chunk_derived keyLength enough bounded inside size) _ _ g).mpr
        (all chunk inside)
  rw [listed, demanded_iff (by rw [length_encrypt, size]), length_encrypt]
  constructor
  · intro all
    refine ⟨(all 0 (by omega)).1, fun i inside => ?_⟩
    have chunked : i / chunkSize * chunkSize + i % chunkSize = i := Nat.div_add_mod' i chunkSize
    have small : i % chunkSize < chunkSize := Nat.mod_lt _ (by decide)
    have inside' : i / chunkSize * chunkSize < ct.length := by omega
    have meets := (all _ inside').2 _ small
    rw [byteMeets_chunk_iff size small inside', chunked] at meets
    exact meets inside
  · rintro ⟨commits, demand⟩ chunk inside
    exact ⟨commits, fun i small => (byteMeets_chunk_iff size small inside).mpr (demand _)⟩

end

/-! ## The assignments of a proof -/

theorem recordAssignments_eq_ok {s : Shared} {b : Bundle} {nonce bytes : List UInt8}
    {index : Fin 2} {list : List CredentialCircuit} :
    recordAssignments s b nonce index bytes = .ok list ↔
      ∃ mac, decode (b.macKeys index) 32 = .ok mac ∧ authenticate bytes mac = true ∧
        list = makeAssignment s 0 0 32 (nonceAt nonce index.val) [] mac ::
          chunkAssignments s (kindOf index) (nonceAt nonce index.val) (ciphertextOf bytes) := by
  unfold recordAssignments
  simp only [bind_eq_ok, require_eq_ok, pure, Except.pure, Except.ok.injEq]
  constructor
  · rintro ⟨mac, decoded, -, authentic, rfl⟩
    exact ⟨mac, decoded, authentic, rfl⟩
  · rintro ⟨mac, decoded, authentic, rfl⟩
    exact ⟨mac, decoded, (), authentic, rfl⟩

theorem assignments_eq_ok {mimc : List Variable → Variable} {input : Input} {b : Bundle}
    {list : List CredentialCircuit} :
    assignments mimc input b = .ok list ↔
      ∃ nonce token update digest key first second,
        decode input.nonce 12 = .ok nonce ∧ record input.tokenRecord = .ok token ∧
        record input.updateRecord = .ok update ∧
        (64 ≤ token.length - 22 ∧ token.length - 22 ≤ maxToken ∧ update.length = 27) ∧
        decode b.commitment 32 = .ok digest ∧ beNat digest < scalarField ∧
        inputKey mimc input b = .ok key ∧
        recordAssignments ⟨key, (beNat digest : Variable), token.length - 22⟩ b nonce 0 token =
          .ok first ∧
        recordAssignments ⟨key, (beNat digest : Variable), token.length - 22⟩ b nonce 1 update =
          .ok second ∧ list = first ++ second := by
  unfold assignments
  simp only [bind_eq_ok, require_eq_ok, pure, Except.pure, Except.ok.injEq]
  constructor
  · rintro ⟨nonce, h₁, token, h₂, update, h₃, -, sizes, digest, h₄, -, canonical, key, h₅, first,
      h₆, second, h₇, rfl⟩
    exact ⟨nonce, token, update, digest, key, first, second, h₁, h₂, h₃, sizes, h₄, canonical, h₅,
      h₆, h₇, rfl⟩
  · rintro ⟨nonce, token, update, digest, key, first, second, h₁, h₂, h₃, sizes, h₄, canonical, h₅,
      h₆, h₇, rfl⟩
    exact ⟨nonce, h₁, token, h₂, update, h₃, (), sizes, digest, h₄, (), canonical, key, h₅, first,
      h₆, second, h₇, rfl⟩

theorem mem_record_made {s : Shared} {kind : Nat} {n ct mac : List UInt8} {a : CredentialCircuit}
    (member : a ∈ makeAssignment s 0 0 32 n [] mac :: chunkAssignments s kind n ct) :
    ∃ kind counter length ct mac, a = makeAssignment s kind counter length n ct mac := by
  rcases List.mem_cons.mp member with rfl | member
  · exact ⟨_, _, _, _, _, rfl⟩
  · obtain ⟨offset, -, rfl⟩ := List.mem_map.mp member
    exact ⟨_, _, _, _, _, rfl⟩

theorem define_commits {s : Shared} {kind counter length : Nat} {n ct mac key : List UInt8}
    {g : Gadgets} (keyLength : key.length = 32)
    (defined : ((makeAssignment s kind counter length n ct mac).withKey key).Define g) :
    commitmentOf g.mimc key = s.commitment := by
  have commits := defined.commitment
  have first := packed_zero { s with key } kind counter length n ct mac keyLength
  have second := packed_one { s with key } kind counter length n ct mac keyLength
  change g.mimc [4041301, (makeAssignment { s with key } kind counter length n ct mac).packed 0,
    (makeAssignment { s with key } kind counter length n ct mac).packed 1] = s.commitment at commits
  rw [first, second] at commits
  exact commits

theorem record_opens {s : Shared} {b : Bundle} {nonce bytes : List UInt8} {index : Fin 2}
    {list : List CredentialCircuit} {g : Gadgets} {key : List UInt8} (keyLength : key.length = 32)
    (enough : 64 ≤ s.tokenLength) (bounded : s.tokenLength ≤ maxToken) (long : 22 ≤ bytes.length)
    (size : (ciphertextOf bytes).length = if index.val = 1 then 6 else s.tokenLength + 1)
    (made : recordAssignments s b nonce index bytes = .ok list)
    (satisfied : ∀ a ∈ list, (a.withKey key).Define g) :
    ∃ text, openRecord key nonce index.val bytes = some text ∧
      Demanded index s.tokenLength text := by
  obtain ⟨mac, decoded, authentic, rfl⟩ := recordAssignments_eq_ok.mp made
  have macLength := (decode_eq_ok.mp decoded).2
  have chunks : ∀ a ∈ chunkAssignments { s with key } (kindOf index) (nonceAt nonce index.val)
      (ciphertextOf bytes), a.Define g := by
    intro a member
    obtain ⟨offset, inside, rfl⟩ := List.mem_map.mp member
    exact satisfied _ (List.mem_cons_of_mem _ (List.mem_map.mpr ⟨offset, inside, rfl⟩))
  have first : (makeAssignment { s with key } 0 0 32 (nonceAt nonce index.val) [] mac).Define g :=
    satisfied _ List.mem_cons_self
  obtain ⟨-, macKey⟩ :=
    (mac_satisfied_iff (s := { s with key }) g keyLength enough bounded macLength).mp first
  obtain ⟨-, demanded⟩ :=
    (chunks_satisfied_iff (s := { s with key }) g keyLength enough bounded size).mp chunks
  have tagged := (authenticate_iff long).mp authentic
  refine ⟨_, ?_, demanded⟩
  unfold openRecord openText tag
  rw [if_pos (by rw [show polyKey key (nonceAt nonce index.val) = mac from macKey]; exact tagged)]

theorem Demanded.token {tokenLength : Nat} {text : List UInt8} (enough : 64 ≤ tokenLength)
    (bounded : tokenLength ≤ maxToken) (demanded : Demanded 0 tokenLength text) :
    ∃ token, IsToken token ∧ token.length = tokenLength ∧ text = token ++ [23] := by
  have demanded : text.length = tokenLength + 1 ∧ text.getD tokenLength 0 = 23 ∧
    ∀ i < tokenLength, validByte (text.getD i 0) = true := demanded
  obtain ⟨size, last, valid⟩ := demanded
  have length : (text.take tokenLength).length = tokenLength := by
    rw [List.length_take]
    omega
  refine ⟨text.take tokenLength, ⟨length.symm ▸ enough, length.symm ▸ bounded, ?_⟩, length, ?_⟩
  · intro byte member
    obtain ⟨i, inside, rfl⟩ := List.mem_iff_getElem.mp member
    have small : i < tokenLength := by rwa [length] at inside
    have allowed := valid i small
    rw [validByte_iff, List.getD_eq_getElem?_getD,
      List.getElem?_eq_getElem (show i < text.length by omega)] at allowed
    rw [List.getElem_take]
    exact allowed
  · rw [List.getD_eq_getElem?_getD,
      List.getElem?_eq_getElem (show tokenLength < text.length by omega)] at last
    have rest : text.drop tokenLength = [23] := by
      rw [List.drop_eq_getElem_cons (show tokenLength < text.length by omega),
        List.drop_of_length_le (by omega)]
      exact congrArg (fun byte => [byte]) last
    rw [← rest, List.take_append_drop]

/-- Assignments that some committed keys satisfy are satisfied by one key, which opens both records
to what they should hold. -/
theorem proof_sound {g : Gadgets} {keys : Set (List UInt8)}
    (injective : Set.InjOn (commitmentOf g.mimc) keys) (lengths : ∀ key ∈ keys, key.length = 32)
    {input : Input} {b : Bundle} {list : List CredentialCircuit}
    (made : assignments g.mimc input b = .ok list)
    (satisfied : ∀ a ∈ list, ∃ key ∈ keys, (a.withKey key).Define g) :
    ∃ key ∈ keys, ∃ nonce tokenRecord updateRecord token,
      hexDecode input.nonce = some nonce ∧ hexDecode input.tokenRecord = some tokenRecord ∧
      hexDecode input.updateRecord = some updateRecord ∧
      IsToken token ∧ token.length = tokenRecord.length - 22 ∧
      openRecord key nonce 0 tokenRecord = some (token ++ [23]) ∧
      openRecord key nonce 1 updateRecord = some [24, 0, 0, 1, 0, 22] := by
  obtain ⟨nonce, tokenRecord, updateRecord, digest, shared, first, second, h₁, h₂, h₃, ⟨enough,
    bounded, updateSize⟩, h₄, canonical, h₅, h₆, h₇, rfl⟩ := assignments_eq_ok.mp made
  obtain ⟨decodedToken, longToken, -⟩ := record_eq_ok h₂
  obtain ⟨decodedUpdate, longUpdate, -⟩ := record_eq_ok h₃
  obtain ⟨mac₀, -, -, made₀⟩ := recordAssignments_eq_ok.mp h₆
  obtain ⟨mac₁, -, -, made₁⟩ := recordAssignments_eq_ok.mp h₇
  -- All the keys have the commitment of the bundle, so they are one key.
  have commits : ∀ a ∈ first ++ second, ∀ key ∈ keys, (a.withKey key).Define g →
      commitmentOf g.mimc key = (beNat digest : Variable) := by
    intro a member key inKeys defined
    rcases List.mem_append.mp member with member | member
    · rw [made₀] at member
      obtain ⟨_, _, _, _, _, rfl⟩ := mem_record_made member
      exact define_commits (lengths key inKeys) defined
    · rw [made₁] at member
      obtain ⟨_, _, _, _, _, rfl⟩ := mem_record_made member
      exact define_commits (lengths key inKeys) defined
  have head : makeAssignment ⟨shared, (beNat digest : Variable), tokenRecord.length - 22⟩ 0 0 32
      (nonceAt nonce (0 : Fin 2).val) [] mac₀ ∈ first ++ second := by
    rw [made₀]
    exact List.mem_append_left _ List.mem_cons_self
  obtain ⟨key, inKeys, defined⟩ := satisfied _ head
  have same : ∀ a ∈ first ++ second, (a.withKey key).Define g := by
    intro a member
    obtain ⟨other, otherIn, otherDefined⟩ := satisfied a member
    have equal : other = key := injective otherIn inKeys
      ((commits a member other otherIn otherDefined).trans
        (commits _ head key inKeys defined).symm)
    exact equal ▸ otherDefined
  have keyLength := lengths key inKeys
  obtain ⟨tokenText, opensToken, demandedToken⟩ := record_opens keyLength enough bounded longToken
    (by rw [length_ciphertextOf longToken]; show _ = tokenRecord.length - 22 + 1; omega) h₆
    fun a member => same a (List.mem_append_left _ member)
  obtain ⟨updateText, opensUpdate, demandedUpdate⟩ := record_opens keyLength enough bounded
    longUpdate (by rw [length_ciphertextOf longUpdate]; show _ = 6; omega) h₇
    fun a member => same a (List.mem_append_right _ member)
  obtain ⟨token, isToken, size, rfl⟩ := Demanded.token enough bounded demandedToken
  exact ⟨key, inKeys, nonce, tokenRecord, updateRecord, token, (decode_eq_ok.mp h₁).1,
    decodedToken, decodedUpdate, isToken, size, opensToken,
    opensUpdate.trans (congrArg some demandedUpdate)⟩

/-! ## Honest records -/

theorem length_leBytes (n value : Nat) : (leBytes n value).length = n := by
  induction n generalizing value with
  | zero => rfl
  | succ n ih => rw [leBytes, List.length_cons, ih]

theorem leNat_leBytes (n value : Nat) : leNat (leBytes n value) = value % 256 ^ n := by
  induction n generalizing value with
  | zero => rw [leBytes, leNat, pow_zero, Nat.mod_one]
  | succ n ih =>
      have low : (UInt8.ofNat (value % 256)).toNat = value % 256 := by
        rw [UInt8.toNat_ofNat']
        omega
      rw [leBytes, leNat, ih, low, pow_succ, mul_comm (256 ^ n), Nat.mod_mul]

theorem beNat_reverse (bytes : List UInt8) : beNat bytes.reverse = leNat bytes := by
  unfold beNat
  rw [List.foldl_reverse]
  induction bytes with
  | nil => rfl
  | cons byte bytes ih =>
      rw [List.foldr_cons, ih, leNat]
      omega

theorem beNat_beBytes {n value : Nat} (small : value < 256 ^ n) : beNat (beBytes n value) = value := by
  unfold beBytes
  rw [beNat_reverse, leNat_leBytes, Nat.mod_eq_of_lt small]

theorem length_beBytes (n value : Nat) : (beBytes n value).length = n := by
  unfold beBytes
  rw [List.length_reverse, length_leBytes]

theorem encrypt_encrypt (key : List UInt8) (counter : UInt32) (nonce text : List UInt8) :
    encrypt key counter nonce (encrypt key counter nonce text) = text := by
  refine List.ext_getElem (by rw [length_encrypt, length_encrypt]) fun i hi hi' => ?_
  simp only [encrypt, List.getElem_mapIdx]
  rw [UInt8.xor_assoc, UInt8.xor_self, UInt8.xor_zero]

theorem length_poly1305 (key message : List UInt8) : (poly1305 key message).length = 16 :=
  length_leBytes 16 _

section
variable (key nonce text : List UInt8) (index : Nat)

theorem length_header (n : Nat) : (header n).length = 5 := by
  unfold header
  rw [List.length_append, length_beBytes]
  rfl

theorem length_sealRecord : (sealRecord key nonce index text).length = text.length + 21 := by
  unfold sealRecord sealText tag
  simp only [List.length_append, length_header, length_encrypt, length_poly1305]
  omega

theorem take_sealRecord : (sealRecord key nonce index text).take 5 = header text.length := by
  unfold sealRecord
  rw [List.take_append_of_le_length (by rw [length_header]), List.take_of_length_le]
  rw [length_header]

theorem ciphertextOf_sealRecord : ciphertextOf (sealRecord key nonce index text) =
    encrypt key 1 (nonceAt nonce index) text := by
  unfold ciphertextOf
  rw [length_sealRecord]
  unfold sealRecord sealText
  rw [List.drop_append_of_le_length (by rw [length_header]),
    List.drop_of_length_le (by rw [length_header]), List.nil_append,
    List.take_append_of_le_length (by rw [length_encrypt]; omega), List.take_of_length_le]
  rw [length_encrypt]
  omega

theorem tagOf_sealRecord : tagOf (sealRecord key nonce index text) =
    tag key (nonceAt nonce index) (header text.length)
      (encrypt key 1 (nonceAt nonce index) text) := by
  unfold tagOf
  rw [length_sealRecord]
  unfold sealRecord sealText
  simp only
  rw [← List.append_assoc, List.drop_append_of_le_length
    (by rw [List.length_append, length_header, length_encrypt]; omega), List.drop_of_length_le,
    List.nil_append]
  rw [List.length_append, length_header, length_encrypt]
  omega

theorem record_sealRecord (enough : 1 ≤ text.length) (bounded : text.length ≤ maxToken + 1) :
    record (hexEncode (sealRecord key nonce index text)) = .ok (sealRecord key nonce index text) := by
  have size := length_sealRecord key nonce text index
  have front : sealRecord key nonce index text =
      [23, 3, 3] ++ (beBytes 2 (text.length + 16) ++
        sealText key (nonceAt nonce index) (header text.length) text) := rfl
  have start : (sealRecord key nonce index text).take 3 = [23, 3, 3] := by
    rw [front]
    rfl
  have field : ((sealRecord key nonce index text).drop 3).take 2 = beBytes 2 (text.length + 16) := by
    rw [front, List.drop_append_of_le_length (by decide), List.drop_of_length_le (by decide),
      List.nil_append, List.take_append_of_le_length (by rw [length_beBytes]),
      List.take_of_length_le (by rw [length_beBytes])]
  unfold maxToken at bounded
  unfold record
  rw [hexDecode_hexEncode]
  simp only
  rw [if_neg, if_neg]
  · rintro (bad | bad)
    · exact bad start
    · rw [field, beNat_beBytes (by omega), size] at bad
      omega
  · unfold maxToken
    omega

end

theorem authenticate_sealRecord (key nonce text : List UInt8) (index : Nat)
    (enough : 1 ≤ text.length) :
    authenticate (sealRecord key nonce index text) (polyKey key (nonceAt nonce index)) = true := by
  rw [authenticate_iff (by rw [length_sealRecord]; omega), take_sealRecord,
    ciphertextOf_sealRecord, tagOf_sealRecord]
  rfl

theorem decode_hexEncode {bytes : List UInt8} {n : Nat} (size : bytes.length = n) :
    decode (hexEncode bytes) n = .ok bytes :=
  decode_eq_ok.mpr ⟨hexDecode_hexEncode bytes, size⟩

/-- The input of a prover that sealed a token and a KeyUpdate with its key. -/
def honestInput (key nonce token : List UInt8) : Input where
  key := hexEncode key
  nonce := hexEncode nonce
  tokenRecord := hexEncode (sealRecord key nonce 0 (token ++ [23]))
  updateRecord := hexEncode (sealRecord key nonce 1 [24, 0, 0, 1, 0, 22])

theorem demanded_token {token : List UInt8} (isToken : IsToken token) :
    Demanded 0 token.length (token ++ [23]) := by
  refine ⟨by rw [List.length_append]; rfl, ?_, fun i inside => ?_⟩
  · rw [List.getD_eq_getElem?_getD, List.getElem?_append_right le_rfl, Nat.sub_self]
    rfl
  · rw [List.getD_eq_getElem?_getD, List.getElem?_append_left inside,
      List.getElem?_eq_getElem inside, validByte_iff]
    exact isToken.alphabet _ (List.getElem_mem inside)

theorem record_complete {s : Shared} {b : Bundle} {nonce text : List UInt8} {index : Fin 2}
    (g : Gadgets) (keyLength : s.key.length = 32) (enough : 64 ≤ s.tokenLength)
    (bounded : s.tokenLength ≤ maxToken) (commits : commitmentOf g.mimc s.key = s.commitment)
    (macKey : b.macKeys index = hexEncode (stream s.key (nonceAt nonce index.val) 0 32))
    (size : text.length = if index.val = 1 then 6 else s.tokenLength + 1)
    (demanded : Demanded index s.tokenLength text) :
    ∃ list, recordAssignments s b nonce index (sealRecord s.key nonce index.val text) = .ok list ∧
      ∀ a ∈ list, a.withKey s.key = a ∧ a.Define g := by
  have macLength : (stream s.key (nonceAt nonce index.val) 0 32).length = 32 := by simp [stream]
  have nonempty : 1 ≤ text.length := by
    rw [size]
    split <;> omega
  refine ⟨_, recordAssignments_eq_ok.mpr ⟨stream s.key (nonceAt nonce index.val) 0 32, ?_, ?_, rfl⟩,
    fun a member => ?_⟩
  · rw [macKey]
    exact decode_hexEncode macLength
  · rw [← polyKey_eq]
    exact authenticate_sealRecord _ _ _ _ nonempty
  · obtain ⟨_, _, _, _, _, made⟩ := mem_record_made member
    refine ⟨by rw [made]; rfl, ?_⟩
    rcases List.mem_cons.mp member with rfl | member
    · exact (mac_satisfied_iff g keyLength enough bounded macLength).mpr
        ⟨commits, polyKey_eq _ _⟩
    · rw [ciphertextOf_sealRecord] at member
      refine (chunks_satisfied_iff g keyLength enough bounded ?_).mpr ⟨commits, ?_⟩ a member
      · rw [length_encrypt, size]
      · rw [encrypt_encrypt]
        exact demanded

theorem proveAssignments_eq_ok {mimc : List Variable → Variable} {input : Input} {b : Bundle}
    {list : List CredentialCircuit} :
    proveAssignments mimc input = .ok (b, list) ↔
      ∃ key nonce, decode input.key 32 = .ok key ∧ decode input.nonce 12 = .ok nonce ∧
        b = bundleOf mimc key nonce ∧ assignments mimc input b = .ok list := by
  unfold proveAssignments
  constructor
  · intro made
    obtain ⟨key, decodedKey, made⟩ := bind_eq_ok.mp made
    obtain ⟨nonce, decodedNonce, made⟩ := bind_eq_ok.mp made
    simp only at made
    obtain ⟨found, derived, same⟩ := bind_eq_ok.mp made
    obtain ⟨rfl, rfl⟩ := Prod.mk.inj (Except.ok.inj same)
    exact ⟨key, nonce, decodedKey, decodedNonce, rfl, derived⟩
  · rintro ⟨key, nonce, decodedKey, decodedNonce, rfl, derived⟩
    rw [decodedKey, decodedNonce]
    simp only [bind, Except.bind, derived, pure, Except.pure]

theorem proof_complete (g : Gadgets) {key nonce token : List UInt8} (keyLength : key.length = 32)
    (nonceLength : nonce.length = 12) (isToken : IsToken token) :
    ∃ b list, proveAssignments g.mimc (honestInput key nonce token) = .ok (b, list) ∧
      ∀ a ∈ list, a.withKey key = a ∧ a.Define g := by
  have enough := isToken.enough
  have bounded : token.length ≤ maxToken := isToken.bounded
  have tokenSize : (token ++ [23]).length = token.length + 1 := List.length_append
  have small : (commitmentOf g.mimc key).val < 256 ^ 32 :=
    (ZMod.val_lt _).trans (by decide +kernel)
  have canonical := beNat_beBytes small
  let s : Shared := ⟨key, commitmentOf g.mimc key, token.length⟩
  obtain ⟨first, madeFirst, satisfiedFirst⟩ := @record_complete s
    (bundleOf g.mimc key nonce) nonce (token ++ [23]) 0 g keyLength enough bounded rfl rfl tokenSize (demanded_token isToken)
  obtain ⟨second, madeSecond, satisfiedSecond⟩ := @record_complete s
    (bundleOf g.mimc key nonce) nonce [24, 0, 0, 1, 0, 22] 1 g keyLength enough bounded rfl rfl rfl rfl
  have inputKey_ok : inputKey g.mimc (honestInput key nonce token) (bundleOf g.mimc key nonce) =
      .ok key := by
    have present : (honestInput key nonce token).key ≠ [] := by
      intro empty
      have size := hexEncode_length key
      rw [show hexEncode key = [] from empty, keyLength] at size
      cases size
    unfold inputKey
    rw [if_neg present, show (honestInput key nonce token).key = hexEncode key from rfl,
      decode_hexEncode keyLength]
    simp [bind, Except.bind, require, bundleOf, pure, Except.pure]
  have made : assignments g.mimc (honestInput key nonce token) (bundleOf g.mimc key nonce) =
      .ok (first ++ second) := by
    refine assignments_eq_ok.mpr ⟨nonce, sealRecord key nonce 0 (token ++ [23]),
      sealRecord key nonce 1 [24, 0, 0, 1, 0, 22], beBytes 32 (commitmentOf g.mimc key).val, key,
      first, second, decode_hexEncode nonceLength, record_sealRecord _ _ _ _ ?_ ?_,
      record_sealRecord _ _ _ _ (by decide) (by decide), ⟨?_, ?_, ?_⟩,
      decode_hexEncode (length_beBytes _ _), ?_, inputKey_ok, ?_, ?_, rfl⟩
    · omega
    · omega
    · rw [length_sealRecord]
      omega
    · rw [length_sealRecord]
      omega
    · rw [length_sealRecord]
      rfl
    · rw [canonical]
      exact ZMod.val_lt _
    · rw [canonical, ZMod.natCast_zmod_val, length_sealRecord, tokenSize]
      exact madeFirst
    · rw [canonical, ZMod.natCast_zmod_val, length_sealRecord, tokenSize]
      exact madeSecond
  refine ⟨bundleOf g.mimc key nonce, first ++ second, proveAssignments_eq_ok.mpr
    ⟨key, nonce, decode_hexEncode keyLength, decode_hexEncode nonceLength, rfl, made⟩,
    fun a member => ?_⟩
  · rcases List.mem_append.mp member with member | member
    · exact satisfiedFirst a member
    · exact satisfiedSecond a member

theorem prove_returns {g : Gadgets} {groth16 : CredentialCircuit → Option (List Char)}
    (proves : ∀ a, a.Define g → (groth16 a).isSome = true) {input : Input} {b : Bundle}
    {list : List CredentialCircuit} (made : proveAssignments g.mimc input = .ok (b, list))
    (satisfied : ∀ a ∈ list, a.Define g) :
    ∃ proofs, prove g.mimc groth16 input = .ok { b with proofs } := by
  have mapped : ∃ proofs, list.mapM (proofOf groth16) = .ok proofs := by
    clear made
    induction list with
    | nil => exact ⟨[], rfl⟩
    | cons a list ih =>
        obtain ⟨proof, is⟩ := Option.isSome_iff_exists.mp (proves a (satisfied a List.mem_cons_self))
        obtain ⟨proofs, rest⟩ := ih fun a member => satisfied a (List.mem_cons_of_mem _ member)
        refine ⟨proof :: proofs, ?_⟩
        rw [List.mapM_cons, show proofOf groth16 a = .ok proof by rw [proofOf, is], rest]
        rfl
  obtain ⟨proofs, mapped⟩ := mapped
  refine ⟨proofs, ?_⟩
  unfold prove
  rw [made]
  simp only [bind, Except.bind, mapped, pure, Except.pure]

/-- Credential proofs are sound, for keys among which commitments do not collide, and complete. -/
theorem credential_proofs (g : Gadgets) :
    (∀ keys : Set (List UInt8), Set.InjOn (commitmentOf g.mimc) keys →
      (∀ key ∈ keys, key.length = 32) → ∀ input b list, assignments g.mimc input b = .ok list →
      (∀ a ∈ list, ∃ key ∈ keys, (a.withKey key).Define g) →
      ∃ key ∈ keys, ∃ nonce tokenRecord updateRecord token,
        hexDecode input.nonce = some nonce ∧ hexDecode input.tokenRecord = some tokenRecord ∧
        hexDecode input.updateRecord = some updateRecord ∧
        IsToken token ∧ token.length = tokenRecord.length - 22 ∧
        openRecord key nonce 0 tokenRecord = some (token ++ [23]) ∧
        openRecord key nonce 1 updateRecord = some [24, 0, 0, 1, 0, 22]) ∧
    ∀ key nonce token : List UInt8, key.length = 32 → nonce.length = 12 → IsToken token →
      ∃ b list, proveAssignments g.mimc (honestInput key nonce token) = .ok (b, list) ∧
        (∀ a ∈ list, a.withKey key = a ∧ a.Define g) ∧
        ∀ groth16 : CredentialCircuit → Option (List Char),
          (∀ a, a.Define g → (groth16 a).isSome = true) →
          ∃ proofs, prove g.mimc groth16 (honestInput key nonce token) = .ok { b with proofs } := by
  refine ⟨fun keys injective lengths input b list made satisfied =>
    proof_sound injective lengths made satisfied, fun key nonce token keyLength nonceLength isToken => ?_⟩
  obtain ⟨b, list, made, satisfied⟩ := proof_complete g keyLength nonceLength isToken
  exact ⟨b, list, made, satisfied, fun groth16 proves =>
    prove_returns proves made fun a member => (satisfied a member).2⟩

/-! ## A proof of the shortest token -/

/-- A comparator that always tells, and the value of the hash at the commitment of the zero key. -/
def sampleGadgets : Gadgets where
  mimc data := if data = [((4041301 : Nat) : Variable), 0, 0] then
    ((4491209789990532488399674552205376247423501840037872014140046711574039377542 : Nat) :
      Variable) else 0
  compare :=
    { isLess := fun a b less => less = if a.val < b.val then 1 else 0
      isLess_iff := fun _ _ _ _ _ => Iff.rfl }

def zeroKey : List UInt8 := List.replicate 32 0

def zeroNonce : List UInt8 := List.replicate 12 0

theorem credential_proofs_shortest :
    ∃ b list, proveAssignments sampleGadgets.mimc
        (honestInput zeroKey zeroNonce (List.replicate 64 97)) = .ok (b, list) ∧
      (∀ a ∈ list, a.Define sampleGadgets) ∧
      ∃ token, IsToken token ∧ token.length = 64 ∧
        openRecord zeroKey zeroNonce 0 (sealRecord zeroKey zeroNonce 0
          (List.replicate 64 97 ++ [23])) = some (token ++ [23]) := by
  have isToken : IsToken (List.replicate 64 97) := by
    refine ⟨by decide, by decide, fun byte member => ?_⟩
    rw [List.eq_of_mem_replicate member]
    decide
  obtain ⟨b, list, made, satisfied, -⟩ := (credential_proofs sampleGadgets).2 zeroKey zeroNonce
    (List.replicate 64 97) (by decide) (by decide) isToken
  have derived : assignments sampleGadgets.mimc
      (honestInput zeroKey zeroNonce (List.replicate 64 97)) b = .ok list := by
    obtain ⟨_, _, _, _, _, derived⟩ := proveAssignments_eq_ok.mp made
    exact derived
  obtain ⟨key, isKey, nonce, tokenRecord, updateRecord, token, decodedNonce, decodedToken, -,
    opened, size, opens, -⟩ := (credential_proofs sampleGadgets).1 {zeroKey}
      (Set.injOn_singleton _ _) (by simp [zeroKey]) _ _ _ derived
      fun a member => ⟨zeroKey, rfl, by rw [(satisfied a member).1]; exact (satisfied a member).2⟩
  obtain rfl : key = zeroKey := isKey
  obtain rfl := Option.some.inj ((hexDecode_hexEncode _).symm.trans decodedNonce)
  obtain rfl := Option.some.inj ((hexDecode_hexEncode _).symm.trans decodedToken)
  refine ⟨b, list, made, fun a member => (satisfied a member).2, token, opened, ?_, opens⟩
  rw [size, length_sealRecord]
  decide

end GenSubnet.Credential
