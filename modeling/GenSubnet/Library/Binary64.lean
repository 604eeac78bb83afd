import Mathlib

/-!
# Binary floating point

What programs rely on when they compare differences of floating-point numbers: exchanging the sides
of a difference changes its sign and nothing else, and numbers that are not NaN are ordered.
-/

namespace GenSubnet.Library.Binary64
open Float.Model Float.Model.UnpackedFloat

/-- The number as the format describes it. -/
def value (x : Float) : UnpackedFloat := x.toModel.unpack

/-! ## Changing the sign -/

theorem ofBitVec_toBitVec (s : Sign) : Sign.ofBitVec s.toBitVec = s := by
  cases s <;> rfl

theorem unpackSign_packComponents {spec : Format} {s : Sign} {exponent : BitVec spec.exponentBits}
    {mantissa : BitVec spec.mantissaBitsWithoutImplicit} :
    unpackSign (packComponents spec s exponent mantissa) = s.toBitVec := by
  ext i hi
  obtain rfl : i = 0 := by omega
  simp [unpackSign, packComponents, BitVec.getLsbD_append, BitVec.getElem_append]

theorem unpack_packComponents_neg {spec : Format} (s : Sign) (exponent : BitVec spec.exponentBits)
    (mantissa : BitVec spec.mantissaBitsWithoutImplicit) :
    UnpackedFloat.unpack spec (packComponents spec (-s) exponent mantissa) =
      (UnpackedFloat.unpack spec (packComponents spec s exponent mantissa)).neg := by
  unfold UnpackedFloat.unpack
  simp only [unpackMantissa_packComponents, unpackExponent_packComponents, unpackSign_packComponents,
    ofBitVec_toBitVec]
  split_ifs <;> rfl

theorem unpack_pack_neg (u : UnpackedFloat) :
    (pack u.neg).unpack = (pack u).unpack.neg := by
  cases u with
  | notANumber => rfl
  | infinity s => exact unpack_packComponents_neg s _ _
  | zero s => exact unpack_packComponents_neg s _ _
  | finite s m e pos =>
      have flips (t : Sign) : (pack (.finite t m e pos)).unpack =
          UnpackedFloat.unpack Format.binary64 (UnpackedFloat.pack Format.binary64 (.finite t m e pos)) := rfl
      rw [UnpackedFloat.neg, flips, flips]
      simp only [UnpackedFloat.pack, packedInfinity]
      split_ifs
      · exact unpack_packComponents_neg s _ _
      · exact unpack_packComponents_neg s _ _
      · exact unpack_packComponents_neg s _ _

theorem isNaN_normalize (spec : Format) (m e : Int) : (UnpackedFloat.normalize spec m e .positive).isNaN = false := by
  unfold UnpackedFloat.normalize UnpackedFloat.round roundWithAccuracy
  split
  · simp only
    split_ifs <;> rfl
  · rfl
  · simp only
    split_ifs <;> rfl

/-! ## Differences -/

theorem round_neg (spec : Format) (s : Sign) (m : Nat) (e : Int) :
    UnpackedFloat.round spec (-s) m e = (UnpackedFloat.round spec s m e).neg := by
  unfold UnpackedFloat.round roundWithAccuracy
  simp only
  split_ifs <;> rfl

theorem normalize_neg (spec : Format) (m e : Int) :
    UnpackedFloat.normalize spec (-m) e .positive = (UnpackedFloat.normalize spec m e .positive).neg ∨
      UnpackedFloat.normalize spec (-m) e .positive = .zero .positive ∧ UnpackedFloat.normalize spec m e .positive = .zero .positive := by
  unfold UnpackedFloat.normalize
  rcases lt_trichotomy m 0 with negative | rfl | positive
  · left
    rw [compare_lt_iff_lt.mpr negative, compare_gt_iff_gt.mpr (Int.neg_pos_of_neg negative)]
    exact round_neg spec .negative _ e
  · right
    exact ⟨rfl, rfl⟩
  · left
    rw [compare_gt_iff_gt.mpr positive, compare_lt_iff_lt.mpr (Int.neg_neg_of_pos positive)]
    simp only [neg_neg]
    exact round_neg spec .positive _ e

theorem unpacked_sub_swap (u v : UnpackedFloat) :
    UnpackedFloat.sub Format.binary64 v u = (UnpackedFloat.sub Format.binary64 u v).neg ∨
      UnpackedFloat.sub Format.binary64 v u = .zero .positive ∧
        UnpackedFloat.sub Format.binary64 u v = .zero .positive := by
  cases u with
  | notANumber => cases v <;> exact Or.inl rfl
  | infinity s =>
      cases v with
      | infinity t => cases s <;> cases t <;> exact Or.inl rfl
      | _ => exact Or.inl rfl
  | zero s =>
      cases v with
      | zero t => cases s <;> cases t <;> first | exact Or.inl rfl | exact Or.inr ⟨rfl, rfl⟩
      | finite t m e pos => cases t <;> exact Or.inl rfl
      | infinity t => cases t <;> exact Or.inl rfl
      | _ => exact Or.inl rfl
  | finite s m e pos =>
      cases v with
      | infinity t => cases t <;> exact Or.inl rfl
      | finite t n f pos' =>
          have swapped := normalize_neg Format.binary64
            (s.apply (decreaseExponent m e (min e f)).1 - t.apply (decreaseExponent n f (min e f)).1)
            (min e f)
          rw [neg_sub] at swapped
          rw [UnpackedFloat.sub, UnpackedFloat.sub, min_comm f e]
          exact swapped
      | _ => exact Or.inl rfl

theorem value_sub_swap (x y : Float) :
    value (y - x) = (value (x - y)).neg ∨
      value (y - x) = .zero .positive ∧ value (x - y) = .zero .positive := by
  have differences (a b : Float) : value (a - b) =
      (Float.Model.pack (UnpackedFloat.sub Format.binary64 (value a) (value b))).unpack := rfl
  rw [differences, differences]
  rcases unpacked_sub_swap (value x) (value y) with flipped | ⟨left, right⟩
  · rw [flipped, unpack_pack_neg]
    exact Or.inl rfl
  · rw [left, right]
    exact Or.inr ⟨rfl, rfl⟩

theorem abs_flip (u : UnpackedFloat) : u.neg.abs = u.abs := by
  cases u <;> rfl

theorem abs_sub_swap (x y : Float) : (y - x).abs = (x - y).abs := by
  have magnitude (a : Float) : a.abs = ⟨Float.Model.pack (value a).abs⟩ := rfl
  rw [magnitude, magnitude]
  rcases value_sub_swap x y with flipped | ⟨left, right⟩
  · rw [flipped, abs_flip]
  · rw [left, right]

/-! ## The order -/

theorem compare_swap (u v : UnpackedFloat) : v.compare u = (u.compare v).map Ordering.swap := by
  have swaps {e f : Int} {m n : Nat} : ((compare e f).then (compare m n)).swap =
      (compare f e).then (compare n m) := by
    rw [Ordering.swap_then, ← Std.OrientedOrd.eq_swap, ← Std.OrientedOrd.eq_swap]
  cases u with
  | notANumber => cases v <;> rfl
  | zero s =>
      cases v with
      | infinity t | finite t => cases t <;> rfl
      | _ => rfl
  | infinity s =>
      cases v with
      | infinity t => cases s <;> cases t <;> rfl
      | zero t => cases s <;> rfl
      | finite t => cases s <;> cases t <;> rfl
      | notANumber => cases s <;> rfl
  | finite s m e pos =>
      cases v with
      | infinity t | finite t =>
          cases s <;> cases t <;>
            first | rfl | exact congrArg some (Eq.symm swaps) | exact congrArg some (congrArg _ swaps.symm)
      | zero t | notANumber => cases s <;> rfl

theorem compare_isSome {u v : UnpackedFloat} (left : u.isNaN = false) (right : v.isNaN = false) :
    ∃ o, u.compare v = some o := by
  cases u with
  | notANumber => cases left
  | zero s =>
      cases v with
      | notANumber => cases right
      | zero t => exact ⟨_, rfl⟩
      | infinity t | finite t => cases t <;> exact ⟨_, rfl⟩
  | infinity s | finite s =>
      cases v with
      | notANumber => cases right
      | zero t => cases s <;> exact ⟨_, rfl⟩
      | infinity t | finite t => cases s <;> cases t <;> exact ⟨_, rfl⟩

theorem lt_iff {x y : Float} : x < y ↔ (value x).compare (value y) = some .lt := by
  refine (decide_eq_true_iff (p := x.toModel < y.toModel)).trans ?_
  exact beq_iff_eq

theorem le_iff {x y : Float} : x ≤ y ↔ ∃ o, (value x).compare (value y) = some o ∧ o.isLE = true := by
  refine (decide_eq_true_iff (p := x.toModel ≤ y.toModel)).trans ?_
  exact Option.any_eq_true _ _

theorem beq_iff {x y : Float} : (x == y) = true ↔ (value x).compare (value y) = some .eq := by
  change ((value x).compare (value y) == some .eq) = true ↔ _
  exact beq_iff_eq

theorem compare_gt_iff {u v : UnpackedFloat} : u.compare v = some .gt ↔ v.compare u = some .lt := by
  rw [compare_swap v u, Option.map_eq_some_iff]
  constructor
  · rintro ⟨o, compared, swapped⟩
    rw [compared, ← o.swap_swap, swapped]
    rfl
  · intro compared
    exact ⟨.lt, compared, rfl⟩

theorem beq_swap (x y : Float) : (x == y) = (y == x) := by
  rw [Bool.eq_iff_iff, beq_iff, beq_iff, compare_swap (value y), Option.map_eq_some_iff]
  constructor
  · rintro ⟨o, compared, swapped⟩
    rw [compared, ← o.swap_swap, swapped]
    rfl
  · intro compared
    exact ⟨.eq, compared, rfl⟩

theorem lt_asymm {x y : Float} (less : x < y) : ¬ y < x := by
  rw [lt_iff] at less ⊢
  rw [compare_gt_iff.mpr less]
  rintro ⟨⟩

theorem lt_of_not_lt {x y : Float} (left : x.isNaN = false) (right : y.isNaN = false)
    (differs : (x == y) = false) (notLess : ¬ y < x) : x < y := by
  obtain ⟨o, compared⟩ := compare_isSome (u := value x) (v := value y) left right
  cases o with
  | lt => exact lt_iff.mpr compared
  | eq => rw [beq_iff.mpr compared] at differs; cases differs
  | gt => exact absurd (lt_iff.mpr (compare_gt_iff.mp compared)) notLess

/-! ## Signs of differences -/

theorem value_zero : value 0 = .zero .positive := rfl

theorem compare_neg_zero (u : UnpackedFloat) :
    u.neg.compare (.zero .positive) = UnpackedFloat.compare (.zero .positive) u := by
  cases u with
  | notANumber | zero => rfl
  | infinity s | finite s => cases s <;> rfl

theorem sub_lt_zero_iff (x y : Float) : y - x < 0 ↔ 0 < x - y := by
  rw [lt_iff, lt_iff, value_zero]
  rcases value_sub_swap x y with flipped | ⟨left, right⟩
  · rw [flipped, compare_neg_zero]
  · rw [left, right]

theorem isNaN_sub_swap (x y : Float) : (y - x).isNaN = (x - y).isNaN := by
  change (value (y - x)).isNaN = (value (x - y)).isNaN
  rcases value_sub_swap x y with flipped | ⟨left, right⟩
  · rw [flipped]
    cases value (x - y) <;> rfl
  · rw [left, right]

theorem abs_eq_zero {d : Float} (number : d.isNaN = false) (notBelow : ¬ d < 0) (notAbove : ¬ 0 < d) :
    d.abs = 0 := by
  obtain ⟨o, compared⟩ := compare_isSome (u := value d) (v := value 0) number rfl
  have equal : o = .eq := by
    cases o with
    | lt => exact absurd (lt_iff.mpr compared) notBelow
    | gt => exact absurd (lt_iff.mpr (compare_gt_iff.mp compared)) notAbove
    | eq => rfl
  subst equal
  change (⟨Float.Model.pack (value d).abs⟩ : Float) = 0
  cases vd : value d with
  | zero s => rfl
  | notANumber => rw [vd] at compared; cases compared
  | infinity s | finite s => rw [vd, value_zero] at compared; cases s <;> cases compared

theorem lt_or_lt_of_not_abs_le {d t : Float} (number : d.isNaN = false) (level : (0 : Float) ≤ t)
    (far : ¬ d.abs ≤ t) : d < 0 ∨ 0 < d := by
  by_contra neither
  obtain ⟨notBelow, notAbove⟩ := not_or.mp neither
  rw [abs_eq_zero number notBelow notAbove] at far
  exact far level

theorem lt_or_lt_of_not_abs_lt {d t : Float} (number : d.isNaN = false) (level : (0 : Float) < t)
    (far : ¬ d.abs < t) : d < 0 ∨ 0 < d := by
  by_contra neither
  obtain ⟨notBelow, notAbove⟩ := not_or.mp neither
  rw [abs_eq_zero number notBelow notAbove] at far
  exact far level

theorem isNaN_iff {x : Float} : x.isNaN = true ↔ value x = .notANumber := by
  change (value x).isNaN = true ↔ _
  cases value x <;> simp [UnpackedFloat.isNaN]

theorem isNaN_abs {d : Float} (nan : d.isNaN = true) : d.abs.isNaN = true := by
  rw [isNaN_iff] at nan
  change (Float.Model.pack (value d).abs).unpack.isNaN = true
  rw [nan]
  rfl

theorem not_lt_of_isNaN {x y : Float} (nan : x.isNaN = true) : ¬ x < y := by
  rw [lt_iff, isNaN_iff.mp nan]
  rintro ⟨⟩

theorem not_le_of_isNaN {x y : Float} (nan : x.isNaN = true) : ¬ x ≤ y := by
  rw [le_iff, isNaN_iff.mp nan]
  rintro ⟨o, ⟨⟩, -⟩

theorem sub_same {x : Float} (finite : x.isFinite = true) : x - x = 0 := by
  change (⟨Float.Model.pack (UnpackedFloat.sub Format.binary64 (value x) (value x))⟩ : Float) = 0
  change (value x).isFinite = true at finite
  cases vx : value x with
  | notANumber | infinity s => rw [vx] at finite; cases finite
  | zero s => cases s <;> rfl
  | finite s m e pos =>
      rw [UnpackedFloat.sub]
      simp only [Int.sub_self]
      rfl

theorem isNaN_sub_same {x : Float} (infinite : x.isFinite = false) : (x - x).isNaN = true := by
  change (Float.Model.pack (UnpackedFloat.sub Format.binary64 (value x) (value x))).unpack.isNaN = true
  change (value x).isFinite = false at infinite
  cases vx : value x with
  | notANumber => rfl
  | infinity s => cases s <;> rfl
  | zero s | finite s => rw [vx] at infinite; cases infinite

theorem isNaN_of_isFinite {x : Float} (finite : x.isFinite = true) : x.isNaN = false := by
  change (value x).isFinite = true at finite
  change (value x).isNaN = false
  cases vx : value x with
  | notANumber => rw [vx] at finite; cases finite
  | _ => rfl

theorem isNaN_unpack_packInfinity (s : Sign) :
    (UnpackedFloat.unpack Format.binary64 (packedInfinity Format.binary64 s)).isNaN = false := by
  cases s <;> rfl

theorem isNaN_unpack_packComponents (s : Sign) {exponent : BitVec 11} (mantissa : BitVec 52)
    (small : exponent.toNat < 2047) :
    (UnpackedFloat.unpack Format.binary64
      (packComponents Format.binary64 s exponent mantissa)).isNaN = false := by
  have differs : exponent ≠ -1#11 := by
    rintro rfl
    exact absurd small (by decide)
  unfold UnpackedFloat.unpack
  simp only [unpackExponent_packComponents]
  rw [if_neg differs]
  split_ifs <;> rfl

theorem isNaN_unpack_pack {u : UnpackedFloat} (number : u.isNaN = false) :
    (pack u).unpack.isNaN = false := by
  cases u with
  | notANumber => cases number
  | infinity s => exact isNaN_unpack_packInfinity s
  | zero s => cases s <;> rfl
  | finite s m e pos =>
      change (UnpackedFloat.unpack Format.binary64
        (UnpackedFloat.pack Format.binary64 (.finite s m e pos))).isNaN = false
      unfold UnpackedFloat.pack
      simp only
      split
      · exact isNaN_unpack_packInfinity s
      · rename_i small
        split
        · refine isNaN_unpack_packComponents s _ ?_
          rw [BitVec.toNat_ofNat]
          exact lt_of_le_of_lt (Nat.mod_le _ _) (by omega)
        · exact isNaN_unpack_packComponents s _ (by decide)

theorem isNaN_sub_of_isFinite {x y : Float} (left : x.isFinite = true) (right : y.isFinite = true) :
    (x - y).isNaN = false := by
  refine isNaN_unpack_pack ?_
  change (value x).isFinite = true at left
  change (value y).isFinite = true at right
  change (UnpackedFloat.sub Format.binary64 (value x) (value y)).isNaN = false
  cases vx : value x with
  | notANumber | infinity s => rw [vx] at left; cases left
  | zero s =>
      cases vy : value y with
      | notANumber | infinity t => rw [vy] at right; cases right
      | zero t => cases s <;> cases t <;> rfl
      | finite t => rfl
  | finite s m e pos =>
      cases vy : value y with
      | notANumber | infinity t => rw [vy] at right; cases right
      | zero t => rfl
      | finite t n f pos' =>
          rw [UnpackedFloat.sub]
          simp only
          exact isNaN_normalize _ _ _

theorem add_swap (x y : Float) : x + y = y + x := by
  change (⟨Float.Model.pack (UnpackedFloat.add Format.binary64 (value x) (value y))⟩ : Float) =
    ⟨Float.Model.pack (UnpackedFloat.add Format.binary64 (value y) (value x))⟩
  congr 2
  cases value x with
  | notANumber => cases value y <;> rfl
  | infinity s =>
      cases value y with
      | infinity t => cases s <;> cases t <;> rfl
      | _ => rfl
  | zero s =>
      cases value y with
      | zero t => cases s <;> cases t <;> rfl
      | _ => rfl
  | finite s m e pos =>
      cases value y with
      | finite t n f pos' =>
          rw [UnpackedFloat.add, UnpackedFloat.add, min_comm e f]
          simp only [Int.add_comm]
      | _ => rfl

theorem not_two_le_of_lt_one {x : Float} (less : x < 1) : ¬ (2 : Float) ≤ x := by
  have one : value 1 = .finite .positive (2 ^ 52) (-52) (by decide) := rfl
  have two : value 2 = .finite .positive (2 ^ 52) (-51) (by decide) := rfl
  rw [lt_iff, one] at less
  rw [le_iff, two]
  rintro ⟨o, compared, isLE⟩
  cases vx : value x with
  | notANumber => rw [vx] at compared; cases compared
  | zero s => rw [vx] at compared; cases compared; cases isLE
  | infinity s =>
      rw [vx] at less compared
      cases s with
      | positive => cases less
      | negative => cases compared; cases isLE
  | finite s m e pos =>
      rw [vx] at less compared
      cases s with
      | negative => cases compared; cases isLE
      | positive =>
          have below := Option.some.inj less
          obtain rfl := Option.some.inj compared
          rw [Ordering.then_eq_lt, compare_lt_iff_lt, compare_eq_iff_eq] at below
          rw [Ordering.isLE_then_iff_or, compare_lt_iff_lt, compare_eq_iff_eq] at isLE
          omega

end GenSubnet.Library.Binary64
