import GenSubnet.Credential.Assignments

/-!
# What the constraints say of an assignment

The block function of the circuit is that of RFC 8439, and an assignment that was made from numbers
and bytes satisfies the circuit exactly when these numbers and bytes meet conditions that no longer
speak of the field.
-/

namespace GenSubnet.Credential
open Library Library.ChaCha20

/-! ## Numbers and bytes in the field -/

theorem val_cast {n : Nat} (small : n < scalarField) : ((n : Nat) : Variable).val = n :=
  ZMod.val_natCast_of_lt small

theorem cast_inj {m n : Nat} (hm : m < scalarField) (hn : n < scalarField) :
    ((m : Nat) : Variable) = (n : Nat) ↔ m = n := by
  constructor
  · intro same
    have vals := congrArg ZMod.val same
    rwa [val_cast hm, val_cast hn] at vals
  · exact congrArg _

theorem byte_small (b : UInt8) : b.toNat < scalarField := by
  have := b.toNat_lt
  unfold scalarField
  omega

theorem val_value (b : UInt8) : (value b).val = b.toNat := val_cast (byte_small b)

theorem isByte_value (b : UInt8) : IsByte (value b) := by
  unfold IsByte
  rw [val_value]
  exact b.toNat_lt

theorem byteValueOf_value (b : UInt8) : byteValueOf (value b) = b := by
  unfold byteValueOf
  rw [val_value, UInt8.ofNat_toNat]

theorem value_sub_eq_zero {a b : UInt8} : value a - value b = 0 ↔ a = b := by
  rw [sub_eq_zero]
  constructor
  · intro same
    rw [← byteValueOf_value a, same, byteValueOf_value]
  · exact congrArg _

theorem value_zero : value 0 = 0 := by
  unfold value
  simp

theorem one_ne_zero' : (1 : Variable) ≠ 0 := by decide +kernel

/-! ## The block function -/

/-- Four words at four places of a state. -/
def place (s : State) (a b c d : Nat) (x y z w : UInt32) : State :=
  (((s.put a x).put b y).put c z).put d w

theorem getElem_put (s : State) (i : Nat) (w : UInt32) {j : Nat} (inside : j < 16) :
    (s.put i w)[j] = if i = j then w else s[j] := by
  unfold State.put
  split
  · exact Vector.getElem_set _ _
  · rw [if_neg (by omega)]

theorem get_eq (s : State) {i : Nat} (inside : i < 16) : s.get i = s[i] := dif_pos inside

theorem place_self (s : State) (a b c d : Nat) :
    place s a b c d (s.get a) (s.get b) (s.get c) (s.get d) = s := by
  unfold place
  ext i inside
  simp only [getElem_put]
  grind [get_eq]

section
variable (s : State) {a b c d : Nat} (ia : a < 16) (ib : b < 16) (ic : c < 16) (id : d < 16)
  (ab : a ≠ b) (ac : a ≠ c) (ad : a ≠ d) (bc : b ≠ c) (bd : b ≠ d) (cd : c ≠ d)
  (x y z w v : UInt32)
include ab ac ad bc bd cd

theorem place_put : (place s a b c d x y z w).put a v = place s a b c d v y z w ∧
    (place s a b c d x y z w).put b v = place s a b c d x v z w ∧
    (place s a b c d x y z w).put c v = place s a b c d x y v w ∧
    (place s a b c d x y z w).put d v = place s a b c d x y z v := by
  unfold place
  refine ⟨?_, ?_, ?_, ?_⟩ <;> ext i inside <;> simp only [getElem_put] <;> grind

include ia ib ic id

theorem place_get : (place s a b c d x y z w).get a = x ∧ (place s a b c d x y z w).get b = y ∧
    (place s a b c d x y z w).get c = z ∧ (place s a b c d x y z w).get d = w := by
  unfold place
  simp only [get_eq, ia, ib, ic, id, getElem_put, ab.symm, ac.symm, ad.symm, bc.symm, bd.symm,
    cd.symm, if_true, if_false, and_self]

theorem qr_eq : qr s a b c d = s.quarterRound a b c d := by
  conv_lhs => rw [← place_self s a b c d]
  have get := fun x y z w => place_get s ia ib ic id ab ac ad bc bd cd x y z w
  have put := fun x y z w v => place_put s ab ac ad bc bd cd x y z w v
  simp only [qr, fun x y z w => (get x y z w).1, fun x y z w => (get x y z w).2.1,
    fun x y z w => (get x y z w).2.2.1, fun x y z w => (get x y z w).2.2.2,
    fun x y z w v => (put x y z w v).1, fun x y z w v => (put x y z w v).2.1,
    fun x y z w v => (put x y z w v).2.2.1, fun x y z w v => (put x y z w v).2.2.2]
  rfl

end

theorem rounds_eq (s : State) : rounds s = s.innerBlock := by
  unfold rounds State.innerBlock
  rw [qr_eq, qr_eq, qr_eq, qr_eq, qr_eq, qr_eq, qr_eq, qr_eq] <;> decide

theorem chachaBlock_eq {keyWords : Fin 8 → UInt32} {nonceWords : Fin 3 → UInt32}
    {key nonce : List UInt8} (counter : UInt32) (ofKey : ∀ i, keyWords i = wordAt key i.val)
    (ofNonce : ∀ i, nonceWords i = wordAt nonce i.val) :
    chachaBlock keyWords nonceWords counter = block key counter nonce := by
  have same : (Vector.ofFn fun i : Fin 16 =>
      if i.val < 4 then
        [(0x61707865 : UInt32), 0x3320646e, 0x79622d32, 0x6b206574].getD i.val 0
      else if h : i.val - 4 < 8 then keyWords ⟨i.val - 4, h⟩
      else if i.val = 12 then counter
      else nonceWords ⟨(i.val - 13) % 3, Nat.mod_lt _ (by decide)⟩) = initial key counter nonce := by
    unfold initial
    congr 1
    funext i
    split
    · rfl
    · rename_i notConstant
      split
      · rename_i inKey
        rw [ofKey, if_pos (show i.val < 12 by omega)]
      · rename_i notKey
        rw [if_neg (show ¬ i.val < 12 by omega)]
        split
        · rfl
        · rename_i notCounter
          have inside := i.isLt
          have same : (i.val - 13) % 3 = i.val - 13 := by omega
          rw [ofNonce]
          simp only [same]
  unfold chachaBlock block State.serialize
  simp only [same, funext rounds_eq]

theorem length_serialize (words : List UInt32) : (words.flatMap serialize).length = 4 * words.length := by
  induction words with
  | nil => rfl
  | cons w words ih =>
      rw [List.flatMap_cons, List.length_append, ih, List.length_cons]
      simp only [serialize, List.length_cons, List.length_nil]
      omega

theorem length_block (key : List UInt8) (counter : UInt32) (nonce : List UInt8) :
    (block key counter nonce).length = 64 := by
  unfold block State.serialize
  rw [length_serialize, Vector.length_toList]

/-! ## Assignments from numbers and bytes -/

variable (s : Shared) (kind counter length : Nat) (nonce ct macKey : List UInt8)

theorem packAt_value {n : Nat} (bytes : List UInt8) (i : Nat) (h : 4 * i + 3 < n) :
    packAt (fun j : Fin n => value (bytes.getD j.val 0)) i h = wordAt bytes i := by
  unfold packAt wordAt
  simp only [byteValueOf_value]

theorem counterWord (i : Nat) (small : counter + i < scalarField) :
    wordValueOf ((counter : Variable) + (i : Nat)) = UInt32.ofNat counter + UInt32.ofNat i := by
  unfold wordValueOf
  rw [← Nat.cast_add, val_cast small, UInt32.ofNat_add]

theorem plaintext_eq (i : Fin chunkSize) (small : counter ≤ maxToken) :
    (makeAssignment s kind counter length nonce ct macKey).plaintext i =
      ct.getD i.val 0 ^^^ streamAt s.key (UInt32.ofNat counter) nonce i.val := by
  have inside := i.isLt
  unfold CredentialCircuit.plaintext streamAt
  unfold maxToken at small
  unfold chunkSize at inside
  have same := @chachaBlock_eq (makeAssignment s kind counter length nonce ct macKey).keyWords
    (makeAssignment s kind counter length nonce ct macKey).nonceWords s.key nonce
    (wordValueOf ((counter : Variable) + ((i.val / 64 : Nat) : Variable)))
    (fun i => packAt_value s.key i.val _) (fun i => packAt_value nonce i.val _)
  have word := counterWord counter (i.val / 64) (by unfold scalarField; omega)
  rw [word] at same
  rw [← same]
  show byteValueOf (value (ct.getD i.val 0)) ^^^ _ = _
  rw [byteValueOf_value]
  simp only [← word]
  rfl

theorem foldl_packed (bytes : List UInt8) (start : Nat) :
    bytes.foldl (fun packed byte => packed * 256 + value byte) (start : Variable) =
      ((bytes.foldl (fun total byte => total * 256 + byte.toNat) start : Nat) : Variable) := by
  induction bytes generalizing start with
  | nil => rfl
  | cons byte bytes ih =>
      rw [List.foldl_cons, List.foldl_cons, ← ih]
      congr 1
      unfold value
      push_cast
      rfl

theorem foldl_packed_finRange (bytes : List UInt8) (enough : bytes.length = 16) :
    (List.finRange 16).foldl (fun packed j => packed * 256 + value (bytes.getD j.val 0)) 0 =
      ((beNat bytes : Nat) : Variable) := by
  have listed : (List.finRange 16).map (fun j => bytes.getD j.val 0) = bytes := by
    refine List.ext_getElem (by simp [enough]) fun n hn hn' => ?_
    simp [List.getElem?_eq_getElem hn']
  calc (List.finRange 16).foldl (fun packed j => packed * 256 + value (bytes.getD j.val 0)) 0
      = ((List.finRange 16).map fun j => bytes.getD j.val 0).foldl
          (fun packed byte => packed * 256 + value byte) 0 := by rw [List.foldl_map]
    _ = bytes.foldl (fun packed byte => packed * 256 + value byte) ((0 : Nat) : Variable) := by
        rw [listed, Nat.cast_zero]
    _ = ((beNat bytes : Nat) : Variable) := foldl_packed bytes 0

theorem packed_zero (whole : s.key.length = 32) :
    (makeAssignment s kind counter length nonce ct macKey).packed 0 =
      ((beNat (s.key.take 16) : Nat) : Variable) := by
  rw [← foldl_packed_finRange (s.key.take 16) (by simp [whole])]
  show (List.finRange 16).foldl
    (fun packed j => packed * 256 + value (s.key.getD (0 * 16 + j.val) 0)) 0 = _
  refine congrArg (fun f => List.foldl f 0 (List.finRange 16))
    (funext fun packed => funext fun j => ?_)
  have inside := j.isLt
  simp only [Nat.zero_mul, Nat.zero_add, List.getD_eq_getElem?_getD, List.getElem?_take, inside,
    if_true]

theorem packed_one (whole : s.key.length = 32) :
    (makeAssignment s kind counter length nonce ct macKey).packed 1 =
      ((beNat (s.key.drop 16) : Nat) : Variable) := by
  rw [← foldl_packed_finRange (s.key.drop 16) (by simp [whole])]
  show (List.finRange 16).foldl
    (fun packed j => packed * 256 + value (s.key.getD (1 * 16 + j.val) 0)) 0 = _
  refine congrArg (fun f => List.foldl f 0 (List.finRange 16))
    (funext fun packed => funext fun j => ?_)
  simp only [Nat.one_mul, List.getD_eq_getElem?_getD, List.getElem?_drop]

/-! ## Switches -/

theorem ite_mul_eq_zero (p : Prop) [Decidable p] (x : Variable) :
    (if p then 1 else 0) * x = 0 ↔ (p → x = 0) := by
  split
  · rename_i holds
    simp [holds]
  · rename_i fails
    simp [fails]

theorem one_sub_ite (p : Prop) [Decidable p] :
    (1 : Variable) - (if p then 1 else 0) = if ¬ p then 1 else 0 := by
  split <;> rename_i h <;> simp [h]

theorem isZero_cast_sub {m n : Nat} (hm : m < scalarField) (hn : n < scalarField) :
    isZero ((m : Variable) - (n : Variable)) = if m = n then 1 else 0 := by
  unfold isZero
  simp only [sub_eq_zero, cast_inj hm hn]

theorem ite_eq_one (p : Prop) [Decidable p] : ((if p then 1 else 0 : Variable) = 1) ↔ p := by
  split <;> rename_i h
  · simp [h]
  · simp only [h, iff_false]
    exact one_ne_zero'.symm

section
variable {kind}

theorem mac_eq (small : kind ≤ 2) :
    (makeAssignment s kind counter length nonce ct macKey).mac = if kind = 0 then 1 else 0 := by
  have zero := isZero_cast_sub (m := kind) (n := 0) (by unfold scalarField; omega) (by decide)
  rwa [Nat.cast_zero, sub_zero] at zero

theorem auth_eq (small : kind ≤ 2) :
    (makeAssignment s kind counter length nonce ct macKey).auth = if kind = 1 then 1 else 0 := by
  have one := isZero_cast_sub (m := kind) (n := 1) (by unfold scalarField; omega) (by decide)
  rwa [Nat.cast_one] at one

theorem update_eq (small : kind ≤ 2) :
    (makeAssignment s kind counter length nonce ct macKey).update = if kind = 2 then 1 else 0 := by
  have two := isZero_cast_sub (m := kind) (n := 2) (by unfold scalarField; omega) (by decide)
  rwa [Nat.cast_ofNat] at two

end

/-! ## One byte -/

/-- The numbers of an assignment are in the ranges of the circuit. -/
structure Bounded (s : Shared) (kind counter length : Nat) : Prop where
  kinds : kind ≤ 2
  counterBound : counter ≤ maxToken / 64 + 1
  counterPositive : kind = 1 → 1 ≤ counter
  lengthBound : length ≤ chunkSize
  tokenLengthBound : s.tokenLength ≤ maxToken

/-- The plaintext of a chunk at a place. -/
def textAt (s : Shared) (counter : Nat) (nonce ct : List UInt8) (i : Nat) : UInt8 :=
  ct.getD i 0 ^^^ streamAt s.key (UInt32.ofNat counter) nonce i

/-- What the constraints on a byte demand. -/
structure ByteMeets (s : Shared) (kind counter length : Nat) (nonce ct macKey : List UInt8)
    (i : Nat) : Prop where
  padding : length ≤ i → ct.getD i 0 = 0
  keyByte : kind = 0 → i < 32 → textAt s counter nonce ct i = macKey.getD i 0
  update : kind = 2 → i < 6 → textAt s counter nonce ct i = fixedUpdate.getD i 0
  inside : kind = 1 → i < length → (counter - 1) * 64 + i ≤ s.tokenLength
  last : kind = 1 → i < length → (counter - 1) * 64 + i = s.tokenLength →
    textAt s counter nonce ct i = 23
  allowed : kind = 1 → i < length → (counter - 1) * 64 + i ≠ s.tokenLength →
    validByte (textAt s counter nonce ct i) = true

section
variable {s kind counter length} (bounded : Bounded s kind counter length) (i : Fin chunkSize)
include bounded

theorem position_eq : (makeAssignment s kind counter length nonce ct macKey).position i =
    ((if kind = 1 then (counter - 1) * 64 + i.val else 0 : Nat) : Variable) := by
  unfold CredentialCircuit.position
  rw [auth_eq s counter length nonce ct macKey bounded.kinds]
  simp only [ite_eq_one]
  split
  · rename_i token
    have positive := bounded.counterPositive token
    show ((counter : Variable) - 1) * 64 + (i.val : Variable) = _
    rw [Nat.cast_add, Nat.cast_mul, Nat.cast_sub positive]
    simp
  · simp

theorem isLess_active (g : Gadgets) (active : Variable) :
    g.compare.isLess (i.val : Variable) (length : Variable) active ↔
      active = if i.val < length then 1 else 0 := by
  have inside := i.isLt
  have le := bounded.lengthBound
  unfold chunkSize at inside le
  have small : i.val < scalarField := by unfold scalarField; omega
  have small' : length < scalarField := by unfold scalarField; omega
  rw [g.compare.isLess_iff _ _ _ (by rw [val_cast small, val_cast small']; unfold maxToken; omega)
    (by rw [val_cast small, val_cast small']; unfold maxToken; omega), val_cast small,
    val_cast small']

theorem isLess_beyond (g : Gadgets) (less : Variable) :
    g.compare.isLess (s.tokenLength : Variable)
      ((if kind = 1 then (counter - 1) * 64 + i.val else 0 : Nat) : Variable) less ↔
      less = if kind = 1 ∧ s.tokenLength < (counter - 1) * 64 + i.val then 1 else 0 := by
  have inside := i.isLt
  have le := bounded.tokenLengthBound
  have le' := bounded.counterBound
  unfold chunkSize at inside
  unfold maxToken at le le'
  have small : s.tokenLength < scalarField := by unfold scalarField; omega
  have small' : (if kind = 1 then (counter - 1) * 64 + i.val else 0) < scalarField := by
    unfold scalarField
    split <;> omega
  have near : (if kind = 1 then (counter - 1) * 64 + i.val else 0) ≤ 4351 := by
    split <;> omega
  rw [g.compare.isLess_iff _ _ _
    (by rw [val_cast small, val_cast small']; unfold maxToken chunkSize; omega)
    (by rw [val_cast small, val_cast small']; unfold maxToken chunkSize; omega), val_cast small,
    val_cast small']
  by_cases token : kind = 1 <;> simp [token]

theorem byteConstraints_iff (g : Gadgets) :
    (∃ active less, (makeAssignment s kind counter length nonce ct macKey).ByteConstraints g i
      active less) ↔ ByteMeets s kind counter length nonce ct macKey i.val := by
  have small : counter ≤ maxToken := by
    have le := bounded.counterBound
    unfold maxToken at le ⊢
    omega
  have text : (makeAssignment s kind counter length nonce ct macKey).plaintext i =
      textAt s counter nonce ct i.val := plaintext_eq s kind counter length nonce ct macKey i small
  have mac := mac_eq s counter length nonce ct macKey bounded.kinds
  have auth := auth_eq s counter length nonce ct macKey bounded.kinds
  have update := update_eq s counter length nonce ct macKey bounded.kinds
  have position := position_eq nonce ct macKey bounded i
  have last : isZero ((makeAssignment s kind counter length nonce ct macKey).position i -
      (makeAssignment s kind counter length nonce ct macKey).tokenLength) =
      if (if kind = 1 then (counter - 1) * 64 + i.val else 0) = s.tokenLength then 1 else 0 := by
    have inside := i.isLt
    have le := bounded.tokenLengthBound
    have le' := bounded.counterBound
    unfold chunkSize at inside
    unfold maxToken at le le'
    rw [position]
    exact isZero_cast_sub (by unfold scalarField; split <;> omega) (by unfold scalarField; omega)
  have padding : (1 - (if i.val < length then 1 else 0)) * value (ct.getD i.val 0) = 0 ↔
      (length ≤ i.val → ct.getD i.val 0 = 0) := by
    rw [one_sub_ite, ite_mul_eq_zero, Nat.not_lt, ← value_sub_eq_zero, value_zero, sub_zero]
  have plain : (23 : Variable) = value 23 := by decide +kernel
  have switched : ∀ (p q : Prop) [Decidable p] [Decidable q] (x : Variable),
      (if p then 1 else 0) * (if q then 1 else 0) * x = 0 ↔ (p → q → x = 0) := by
    intro p q _ _ x
    rw [mul_assoc, ite_mul_eq_zero, ite_mul_eq_zero]
  constructor
  · rintro ⟨active, less, h⟩
    obtain rfl := (isLess_active bounded i g active).mp h.isLess
    have compared := h.beyond
    rw [position] at compared
    obtain rfl := (isLess_beyond bounded i g less).mp compared
    refine ⟨padding.mp h.padding, fun isMac first => ?_, fun isUpdate first => ?_,
      fun isToken inside => ?_, fun isToken inside atEnd => ?_, fun isToken inside notEnd => ?_⟩
    · have demand := h.macKey first
      rw [mac, text, ite_mul_eq_zero] at demand
      exact value_sub_eq_zero.mp (demand isMac)
    · have demand := h.update first
      rw [update, text, ite_mul_eq_zero] at demand
      exact value_sub_eq_zero.mp (demand isUpdate)
    · have demand := h.inside
      rw [auth, switched] at demand
      have beyond := demand isToken inside
      by_contra outside
      rw [if_pos ⟨isToken, Nat.lt_of_not_le outside⟩] at beyond
      exact one_ne_zero' beyond
    · have demand := h.last
      rw [auth, text, last, mul_assoc, switched, ite_mul_eq_zero, if_pos isToken, plain] at demand
      exact value_sub_eq_zero.mp (demand isToken inside atEnd)
    · have demand := h.allowed
      rw [auth, text, last, one_sub_ite, mul_assoc, switched, ite_mul_eq_zero, if_pos isToken] at demand
      have zero := demand isToken inside notEnd
      rw [sub_eq_zero] at zero
      exact (ite_eq_one _).mp zero
  · intro h
    refine ⟨if i.val < length then 1 else 0,
      if kind = 1 ∧ s.tokenLength < (counter - 1) * 64 + i.val then 1 else 0,
      isByte_value _, (isLess_active bounded i g _).mpr rfl, padding.mpr h.padding,
      fun first => ?_, fun first => ?_, ?_, ?_, ?_, ?_⟩
    · rw [mac, text, ite_mul_eq_zero]
      exact fun isMac => value_sub_eq_zero.mpr (h.keyByte isMac first)
    · rw [update, text, ite_mul_eq_zero]
      exact fun isUpdate => value_sub_eq_zero.mpr (h.update isUpdate first)
    · rw [position]
      exact (isLess_beyond bounded i g _).mpr rfl
    · rw [auth, switched]
      intro isToken inside
      rw [if_neg]
      rintro ⟨-, beyond⟩
      exact absurd (h.inside isToken inside) (Nat.not_le.mpr beyond)
    · rw [auth, text, last, mul_assoc, switched, ite_mul_eq_zero, plain]
      intro isToken inside atEnd
      rw [if_pos isToken] at atEnd
      exact value_sub_eq_zero.mpr (h.last isToken inside atEnd)
    · rw [auth, text, last, one_sub_ite, mul_assoc, switched, ite_mul_eq_zero]
      intro isToken inside notEnd
      rw [if_pos isToken] at notEnd
      rw [sub_eq_zero]
      exact (ite_eq_one _).mpr (h.allowed isToken inside notEnd)

end

/-! ## The whole circuit -/

/-- The numbers that `assignments` puts together. -/
structure Derived (s : Shared) (kind counter length : Nat) (macKey : List UInt8) : Prop
    extends Bounded s kind counter length where
  keyLength : s.key.length = 32
  tokenLengthEnough : 64 ≤ s.tokenLength
  lengthPositive : 1 ≤ length
  macNumbers : kind = 0 → counter = 0 ∧ length = 32
  updateNumbers : kind = 2 → counter = 1 ∧ length = 6
  macKeyPadding : kind ≠ 0 → macKey = []

theorem define_iff {s : Shared} {kind counter length : Nat} {macKey : List UInt8}
    (derived : Derived s kind counter length macKey) (nonce ct : List UInt8) (g : Gadgets) :
    (makeAssignment s kind counter length nonce ct macKey).Define g ↔
      commitmentOf g.mimc s.key = s.commitment ∧
        ∀ i < chunkSize, ByteMeets s kind counter length nonce ct macKey i := by
  have bounded := derived.toBounded
  have mac := mac_eq s counter length nonce ct macKey bounded.kinds
  have auth := auth_eq s counter length nonce ct macKey bounded.kinds
  have update := update_eq s counter length nonce ct macKey bounded.kinds
  have hc := bounded.counterBound
  have hl := bounded.lengthBound
  have ht := bounded.tokenLengthBound
  unfold maxToken at hc ht
  unfold chunkSize at hl
  have counterSmall : counter < scalarField := by unfold scalarField; omega
  have lengthSmall : length < scalarField := by unfold scalarField; omega
  have tokenSmall : s.tokenLength < scalarField := by unfold scalarField; omega
  have committed : g.mimc [4041301, (makeAssignment s kind counter length nonce ct macKey).packed 0,
      (makeAssignment s kind counter length nonce ct macKey).packed 1] =
      commitmentOf g.mimc s.key := by
    rw [packed_zero _ _ _ _ _ _ _ derived.keyLength, packed_one _ _ _ _ _ _ _ derived.keyLength]
    rfl
  constructor
  · intro h
    refine ⟨committed.symm.trans h.commitment, fun i inside => ?_⟩
    exact (byteConstraints_iff nonce ct macKey bounded ⟨i, inside⟩ g).mp (h.bytes ⟨i, inside⟩)
  · rintro ⟨commits, bytes⟩
    exact {
      key := fun i => isByte_value _
      commitment := committed.trans commits
      nonce := fun i => isByte_value _
      kind := by
        rw [mac, auth, update]
        obtain rfl | rfl | rfl : kind = 0 ∨ kind = 1 ∨ kind = 2 := by
          have := bounded.kinds
          omega
        all_goals simp
      lengthBound := by
        show (length : Variable).val ≤ chunkSize
        rw [val_cast lengthSmall]
        exact bounded.lengthBound
      lengthPositive := by
        show (length : Variable) ≠ 0
        rw [← Nat.cast_zero, ne_eq, cast_inj lengthSmall (by decide)]
        have := derived.lengthPositive
        omega
      tokenLengthBound := by
        show (s.tokenLength : Variable).val ≤ maxToken
        rw [val_cast tokenSmall]
        exact bounded.tokenLengthBound
      tokenLengthEnough := by
        show 64 ≤ (s.tokenLength : Variable).val
        rw [val_cast tokenSmall]
        exact derived.tokenLengthEnough
      counterBound := by
        show (counter : Variable).val ≤ maxToken / 64 + 1
        rw [val_cast counterSmall]
        exact bounded.counterBound
      macCounter := by
        rw [mac, ite_mul_eq_zero]
        intro isMac
        show (counter : Variable) = 0
        rw [(derived.macNumbers isMac).1, Nat.cast_zero]
      updateCounter := by
        rw [update, ite_mul_eq_zero]
        intro isUpdate
        show (counter : Variable) - 1 = 0
        rw [(derived.updateNumbers isUpdate).1, Nat.cast_one, sub_self]
      macLength := by
        rw [mac, ite_mul_eq_zero]
        intro isMac
        show (length : Variable) - 32 = 0
        rw [(derived.macNumbers isMac).2, Nat.cast_ofNat, sub_self]
      updateLength := by
        rw [update, ite_mul_eq_zero]
        intro isUpdate
        show (length : Variable) - 6 = 0
        rw [(derived.updateNumbers isUpdate).2, Nat.cast_ofNat, sub_self]
      authCounter := by
        rw [auth, ite_mul_eq_zero]
        intro isToken
        show isZero (counter : Variable) = 0
        have positive := bounded.counterPositive isToken
        unfold isZero
        rw [if_neg]
        rw [← Nat.cast_zero, cast_inj counterSmall (by decide)]
        omega
      counterWords := by
        intro block inside
        unfold chunkSize at inside
        show ((counter : Variable) + (block : Nat)).val < 2 ^ 32
        rw [← Nat.cast_add, val_cast (by unfold scalarField; omega)]
        omega
      bytes := fun i =>
        (byteConstraints_iff nonce ct macKey bounded i g).mpr (bytes i.val i.isLt)
      macKeyBytes := fun i => isByte_value _
      macKeyPadding := by
        intro i
        rw [mac, one_sub_ite, ite_mul_eq_zero]
        intro notMac
        show value (macKey.getD i.val 0) = 0
        rw [derived.macKeyPadding notMac]
        exact value_zero }

end GenSubnet.Credential
