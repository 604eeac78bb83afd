import Mathlib.Data.Int.Log
import Mathlib.Data.Rat.Floor
import Mathlib.Tactic.Linarith
import Mathlib.Tactic.NormNum

/-!
# Rounding to a binary64

A quotient of two numbers is computed as if exactly and then rounded to the nearest number with 53
significant bits, to the even one of two that are equally near. Numbers here are rationals below the
range in which the format overflows.
-/

namespace GenSubnet.Library.Rounding

/-- The nearest integer, the even one of two. -/
def halfEven (x : Rat) : Int :=
  if x - ⌊x⌋ < 1 / 2 then ⌊x⌋
  else if 1 / 2 < x - ⌊x⌋ then ⌊x⌋ + 1
  else ⌊x⌋ + ⌊x⌋ % 2

/-- The exponent of the last of the 53 bits; subnormal numbers have fewer. -/
def lastBit (x : Rat) : Int := max (Int.log 2 |x| - 52) (-1074)

def nearest (x : Rat) : Rat := halfEven (x / 2 ^ lastBit x) * 2 ^ lastBit x

/-- The integer part. -/
def truncate (x : Rat) : Int := if 0 ≤ x then ⌊x⌋ else ⌈x⌉

theorem halfEven_le {x : Rat} {n : Int} (le : x ≤ n) : halfEven x ≤ n := by
  have floor : ⌊x⌋ ≤ n := Int.floor_le_iff.mpr (lt_of_le_of_lt le (by linarith))
  rcases floor.lt_or_eq with below | same
  · have parity := Int.emod_lt_of_pos ⌊x⌋ (b := 2) (by omega)
    unfold halfEven
    split_ifs <;> omega
  · have exact_ : x - ⌊x⌋ < 1 / 2 := by
      rw [same]
      linarith
    rw [halfEven, if_pos exact_, same]

theorem le_halfEven {x : Rat} {n : Int} (le : n ≤ x) : n ≤ halfEven x := by
  have floor : n ≤ ⌊x⌋ := Int.le_floor.mpr le
  have parity := Int.emod_nonneg ⌊x⌋ (b := 2) (by omega)
  unfold halfEven
  split_ifs <;> omega

theorem nearest_le {x bound : Rat} {n : Int} (multiple : bound = n * 2 ^ lastBit x)
    (le : x ≤ bound) : nearest x ≤ bound := by
  have positive : (0 : Rat) < 2 ^ lastBit x := zpow_pos (by norm_num) _
  rw [nearest, multiple]
  apply mul_le_mul_of_nonneg_right _ positive.le
  exact_mod_cast halfEven_le ((div_le_iff₀ positive).mpr (multiple ▸ le))

theorem le_nearest {x bound : Rat} {n : Int} (multiple : bound = n * 2 ^ lastBit x)
    (le : bound ≤ x) : bound ≤ nearest x := by
  have positive : (0 : Rat) < 2 ^ lastBit x := zpow_pos (by norm_num) _
  rw [nearest, multiple]
  apply mul_le_mul_of_nonneg_right _ positive.le
  exact_mod_cast le_halfEven ((le_div_iff₀ positive).mpr (multiple ▸ le))

theorem lastBit_le {x : Rat} {p : Nat} (few : p ≤ 52) (small : |x| < 2 ^ (53 - p : Int)) :
    lastBit x ≤ -p := by
  apply max_le _ (by omega)
  rcases eq_or_ne x 0 with rfl | ne
  · simp only [abs_zero, Int.log_zero_right]
    omega
  · have low : Int.log 2 |x| < 53 - p := by
      apply (Int.lt_zpow_iff_log_lt (by omega) (abs_pos.mpr ne)).mp
      exact_mod_cast small
    omega

theorem multiple_of_dyadic {x : Rat} {p : Nat} (few : p ≤ 52) (small : |x| < 2 ^ (53 - p : Int))
    (n : Int) : ∃ m : Int, (n / 2 ^ p : Rat) = m * 2 ^ lastBit x := by
  have last := lastBit_le few small
  obtain ⟨k, exponent⟩ := Int.eq_ofNat_of_zero_le (show 0 ≤ -p - lastBit x by omega)
  have same : lastBit x = -((p + k : Nat) : Int) := by
    push_cast
    omega
  refine ⟨n * 2 ^ k, ?_⟩
  rw [same, zpow_neg, zpow_natCast, pow_add]
  push_cast
  field_simp

theorem multiple_of_int {x : Rat} (small : |x| < 2 ^ 53) (n : Int) :
    ∃ m : Int, (n : Rat) = m * 2 ^ lastBit x := by
  simpa using multiple_of_dyadic (p := 0) (by omega) (by exact_mod_cast small) n

theorem nearest_le_dyadic {x : Rat} {p : Nat} (few : p ≤ 52) (small : |x| < 2 ^ (53 - p : Int))
    {n : Int} (le : x ≤ n / 2 ^ p) : nearest x ≤ n / 2 ^ p := by
  obtain ⟨m, multiple⟩ := multiple_of_dyadic few small n
  exact nearest_le multiple le

theorem dyadic_le_nearest {x : Rat} {p : Nat} (few : p ≤ 52) (small : |x| < 2 ^ (53 - p : Int))
    {n : Int} (le : n / 2 ^ p ≤ x) : n / 2 ^ p ≤ nearest x := by
  obtain ⟨m, multiple⟩ := multiple_of_dyadic few small n
  exact le_nearest multiple le

theorem nearest_le_int {x : Rat} (small : |x| < 2 ^ 53) {n : Int} (le : x ≤ n) : nearest x ≤ n := by
  obtain ⟨m, multiple⟩ := multiple_of_int small n
  exact nearest_le multiple le

theorem int_le_nearest {x : Rat} (small : |x| < 2 ^ 53) {n : Int} (le : n ≤ x) : n ≤ nearest x := by
  obtain ⟨m, multiple⟩ := multiple_of_int small n
  exact le_nearest multiple le

theorem nearest_int {n : Int} (small : |(n : Rat)| < 2 ^ 53) : nearest n = n :=
  le_antisymm (nearest_le_int small le_rfl) (int_le_nearest small le_rfl)

/-! ## Monotonicity -/

theorem halfEven_mono {x y : Rat} (le : x ≤ y) : halfEven x ≤ halfEven y := by
  rcases (Int.floor_le_floor le).lt_or_eq with less | same
  · have parity := Int.emod_two_eq_zero_or_one ⌊x⌋
    have upper : halfEven x ≤ ⌊x⌋ + 1 := by
      unfold halfEven
      split_ifs <;> omega
    have lower : ⌊y⌋ ≤ halfEven y := le_halfEven (Int.floor_le y)
    omega
  · have parity := Int.emod_two_eq_zero_or_one ⌊y⌋
    unfold halfEven
    rw [same]
    split_ifs <;> first | omega | linarith

theorem lastBit_mono {x y : Rat} (positive : 0 < x) (le : x ≤ y) : lastBit x ≤ lastBit y := by
  have log : Int.log 2 |x| ≤ Int.log 2 |y| := by
    rw [abs_of_pos positive, abs_of_pos (positive.trans_le le)]
    exact Int.log_mono_right positive le
  unfold lastBit
  omega

theorem nearest_mono {x y : Rat} (nonneg : 0 ≤ x) (le : x ≤ y) : nearest x ≤ nearest y := by
  rcases nonneg.eq_or_lt with zero | positive
  · subst zero
    have zero : nearest 0 = 0 := by exact_mod_cast nearest_int (n := 0) (by norm_num)
    rw [zero]
    exact le_nearest (n := 0) (by simp) le
  have positive' := positive.trans_le le
  rcases (lastBit_mono positive le).lt_or_eq with less | same
  · -- A power of two lies between the two numbers, and both roundings keep it.
    have exponent : lastBit y = Int.log 2 y - 52 := by
      unfold lastBit at less ⊢
      rw [abs_of_pos positive'] at less ⊢
      omega
    have low : (2 : Rat) ^ Int.log 2 y ≤ y := by
      exact_mod_cast Int.zpow_log_le_self (R := Rat) (b := 2) (by norm_num) positive'
    have high : x ≤ (2 : Rat) ^ Int.log 2 y := by
      have log : Int.log 2 x < Int.log 2 y := by
        unfold lastBit at less
        rw [abs_of_pos positive, abs_of_pos positive'] at less
        omega
      have := (Int.lt_zpow_iff_log_lt (R := Rat) (b := 2) (by norm_num) positive).mpr log
      exact_mod_cast this.le
    obtain ⟨k, steps⟩ := Int.eq_ofNat_of_zero_le (show 0 ≤ Int.log 2 y - lastBit x by omega)
    have left : nearest x ≤ (2 : Rat) ^ Int.log 2 y := by
      apply nearest_le (n := 2 ^ k) _ high
      rw [show Int.log 2 y = k + lastBit x by omega, zpow_add₀ (by norm_num), zpow_natCast]
      push_cast
      rfl
    have right : (2 : Rat) ^ Int.log 2 y ≤ nearest y := by
      apply le_nearest (n := 2 ^ 52) _ low
      rw [exponent, show Int.log 2 y = (52 : Nat) + (Int.log 2 y - 52) by push_cast; omega,
        zpow_add₀ (by norm_num), zpow_natCast]
      push_cast
      congr 2
      omega
    exact left.trans right
  · have scale : (0 : Rat) < 2 ^ lastBit y := zpow_pos (by norm_num) _
    rw [nearest, nearest, same]
    apply mul_le_mul_of_nonneg_right _ scale.le
    exact_mod_cast halfEven_mono (div_le_div_of_nonneg_right le scale.le)

/-! ## The error -/

theorem abs_halfEven_sub_le (x : Rat) : |halfEven x - x| ≤ 1 / 2 := by
  have below := Int.floor_le x
  have above := Int.lt_floor_add_one x
  have parity := Int.emod_two_eq_zero_or_one ⌊x⌋
  rw [abs_le]
  unfold halfEven
  split_ifs with less more
  · constructor <;> linarith
  · push_cast
    constructor <;> linarith
  · have half : x - ⌊x⌋ = 1 / 2 := le_antisymm (not_lt.mp more) (not_lt.mp less)
    rcases parity with even | odd
    · rw [even, add_zero]
      constructor <;> linarith
    · rw [odd]
      push_cast
      constructor <;> linarith

theorem abs_nearest_sub_le (x : Rat) : |nearest x - x| ≤ 2 ^ lastBit x / 2 := by
  have positive : (0 : Rat) < 2 ^ lastBit x := zpow_pos (by norm_num) _
  have scaled : nearest x - x =
      (halfEven (x / 2 ^ lastBit x) - x / 2 ^ lastBit x) * 2 ^ lastBit x := by
    rw [nearest, sub_mul, div_mul_cancel₀ _ positive.ne']
  rw [scaled, abs_mul, abs_of_pos positive]
  have := mul_le_mul_of_nonneg_right (abs_halfEven_sub_le (x / 2 ^ lastBit x)) positive.le
  linarith

theorem two_pow_lastBit_le {x : Rat} (normal : -1074 ≤ Int.log 2 |x| - 52) (ne : x ≠ 0) :
    (2 : Rat) ^ lastBit x ≤ |x| / 2 ^ 52 := by
  rw [lastBit, max_eq_left normal, zpow_sub₀ (by norm_num)]
  have low := Int.zpow_log_le_self (R := Rat) (b := 2) (by norm_num) (abs_pos.mpr ne)
  have low : (2 : Rat) ^ Int.log 2 |x| ≤ |x| := by exact_mod_cast low
  exact div_le_div_of_nonneg_right low (by norm_num)

theorem nearest_le_relative {x : Rat} (nonneg : 0 ≤ x) :
    nearest x ≤ x + x / 2 ^ 53 + 2 ^ (-1075 : Int) := by
  have error := (abs_le.mp (abs_nearest_sub_le x)).2
  have small : (0 : Rat) < 2 ^ (-1075 : Int) := zpow_pos (by norm_num) _
  have part : (0 : Rat) ≤ x / 2 ^ 53 := div_nonneg nonneg (by norm_num)
  rcases le_or_gt (-1074) (Int.log 2 |x| - 52) with normal | subnormal
  · rcases eq_or_ne x 0 with rfl | ne
    · simp only [abs_zero, Int.log_zero_right] at normal
      have zero : nearest 0 = 0 := by exact_mod_cast nearest_int (n := 0) (by norm_num)
      rw [zero]
      linarith
    · have last := two_pow_lastBit_le normal ne
      rw [abs_of_nonneg nonneg] at last
      have half : x / 2 ^ 52 / 2 = x / 2 ^ 53 := by ring
      linarith
  · have last : lastBit x = -1074 := max_eq_right subnormal.le
    have half : (2 : Rat) ^ (-1074 : Int) / 2 = 2 ^ (-1075 : Int) := by
      rw [show (-1075 : Int) = -1074 - 1 by norm_num, zpow_sub_one₀ (by norm_num)]
      rfl
    rw [last, half] at error
    linarith

theorem nearest_le_add {x : Rat} (small : |x| < 2) : nearest x ≤ x + 1 / 2 ^ 53 := by
  have error := (abs_le.mp (abs_nearest_sub_le x)).2
  have last : lastBit x ≤ -52 := by
    exact_mod_cast lastBit_le (p := 52) le_rfl (by norm_num; exact small)
  have bound : (2 : Rat) ^ lastBit x / 2 ≤ 2 ^ (-52 : Int) / 2 :=
    div_le_div_of_nonneg_right (zpow_le_zpow_right₀ (by norm_num) last) (by norm_num)
  have value : (2 : Rat) ^ (-52 : Int) / 2 = 1 / 2 ^ 53 := by norm_num [zpow_neg]
  rw [value] at bound
  linarith

/-- A number that the format has. -/
def Exact (x : Rat) : Prop := nearest x = x

instance (x : Rat) : Decidable (Exact x) := inferInstanceAs (Decidable (nearest x = x))

theorem Exact.multiple {x : Rat} (exact_ : Exact x) : ∃ n : Int, x = n * 2 ^ (-1074 : Int) := by
  obtain ⟨k, exponent⟩ := Int.eq_ofNat_of_zero_le (sub_nonneg.mpr (le_max_right
    (Int.log 2 |x| - 52) (-1074)))
  refine ⟨halfEven (x / 2 ^ lastBit x) * 2 ^ k, ?_⟩
  have last : lastBit x = k + -1074 := by
    unfold lastBit
    omega
  have scaled : (2 : Rat) ^ lastBit x = 2 ^ k * 2 ^ (-1074 : Int) := by
    rw [last, zpow_add₀ (by norm_num), zpow_natCast]
  have whole : x = halfEven (x / 2 ^ lastBit x) * 2 ^ lastBit x := exact_.symm
  rw [Int.cast_mul, Int.cast_pow, mul_assoc]
  exact whole.trans (congrArg _ scaled)

theorem nearest_sub_le {x y : Rat} (left : Exact x) (right : Exact y) (le : y ≤ x) :
    nearest (x - y) ≤ (x - y) + (x - y) / 2 ^ 53 := by
  have nonneg : 0 ≤ x - y := sub_nonneg.mpr le
  have part : (0 : Rat) ≤ (x - y) / 2 ^ 53 := div_nonneg nonneg (by norm_num)
  rcases eq_or_ne (x - y) 0 with zero | ne
  · have rounded : nearest 0 = 0 := by exact_mod_cast nearest_int (n := 0) (by norm_num)
    rw [zero, rounded]
    norm_num
  rcases le_or_gt (-1074) (Int.log 2 |x - y| - 52) with normal | subnormal
  · have error := (abs_le.mp (abs_nearest_sub_le (x - y))).2
    have last := two_pow_lastBit_le normal ne
    rw [abs_of_nonneg nonneg] at last
    have half : (x - y) / 2 ^ 52 / 2 = (x - y) / 2 ^ 53 := by ring
    linarith
  · obtain ⟨m, xIs⟩ := left.multiple
    obtain ⟨n, yIs⟩ := right.multiple
    have last : lastBit (x - y) = -1074 := max_eq_right subnormal.le
    have multiple : x - y = ((m - n : Int) : Rat) * 2 ^ lastBit (x - y) := by
      rw [last, Int.cast_sub, sub_mul, ← xIs, ← yIs]
    have := nearest_le multiple le_rfl
    linarith

theorem nearest_nonneg {x : Rat} (nonneg : 0 ≤ x) : 0 ≤ nearest x :=
  le_nearest (n := 0) (by simp) nonneg

theorem two_le_nearest {x : Rat} (le : 2 ≤ x) : 2 ≤ nearest x := by
  rcases lt_or_ge x (2 ^ 53) with small | large
  · exact_mod_cast int_le_nearest (n := 2) (by rwa [abs_of_nonneg (by linarith)])
      (by exact_mod_cast le)
  · have error := (abs_le.mp (abs_nearest_sub_le x)).1
    have positive : 0 < x := by linarith
    have last : (2 : Rat) ^ lastBit x ≤ |x| / 2 ^ 52 := by
      apply two_pow_lastBit_le _ positive.ne'
      have : (1 : Rat) ≤ |x| := by
        rw [abs_of_pos positive]
        linarith
      have := Int.log_of_one_le_right 2 this
      omega
    rw [abs_of_pos positive] at last
    linarith

theorem exact_min_two_sub_one {x : Rat} (low : 1 ≤ nearest x) :
    Exact (min 2 (nearest x) - 1) := by
  obtain ⟨m, value⟩ : ∃ m : Int, min 2 (nearest x) - 1 = m / 2 ^ 52 := by
    rcases le_total 2 (nearest x) with more | less
    · refine ⟨2 ^ 52, ?_⟩
      rw [min_eq_left more]
      norm_num
    · rw [min_eq_right less]
      rcases lt_or_ge x 1 with below | above
      · have high : nearest x ≤ 1 := by
          rcases le_or_gt x 0 with nonpos | positive
          · exact (nearest_le (n := 0) (by simp) nonpos).trans zero_le_one
          · exact_mod_cast nearest_le_int (n := 1) (by rw [abs_of_pos positive]; linarith)
              (by exact_mod_cast below.le)
        exact ⟨0, by rw [le_antisymm high low]; norm_num⟩
      · have last : -52 ≤ lastBit x := by
          have : (1 : Rat) ≤ |x| := above.trans (le_abs_self x)
          have := Int.log_of_one_le_right 2 this
          unfold lastBit
          omega
        obtain ⟨k, steps⟩ := Int.eq_ofNat_of_zero_le (show 0 ≤ lastBit x + 52 by omega)
        refine ⟨halfEven (x / 2 ^ lastBit x) * 2 ^ k - 2 ^ 52, ?_⟩
        have bit : (2 : Rat) ^ lastBit x = 2 ^ k / 2 ^ 52 := by
          rw [show lastBit x = k - (52 : Nat) by push_cast; omega, zpow_sub₀ (by norm_num),
            zpow_natCast, zpow_natCast]
        rw [nearest]
        generalize halfEven (x / 2 ^ lastBit x) = n
        rw [bit]
        push_cast
        ring
  have small : |min 2 (nearest x) - 1| < 2 ^ (53 - (52 : Nat) : Int) := by
    have low' : (1 : Rat) ≤ min 2 (nearest x) := le_min (by norm_num) low
    have high : min 2 (nearest x) ≤ 2 := min_le_left _ _
    rw [abs_of_nonneg (by linarith)]
    norm_num
    linarith
  rw [Exact]
  apply le_antisymm
  · exact (nearest_le_dyadic le_rfl small value.le).trans value.ge
  · exact value.le.trans (dyadic_le_nearest le_rfl small value.ge)

theorem truncate_eq {x : Rat} {n : Int} (nonneg : 0 ≤ n) (low : n ≤ x) (high : x < n + 1) :
    truncate x = n := by
  have positive : 0 ≤ x := le_trans (by exact_mod_cast nonneg) low
  rw [truncate, if_pos positive, Int.floor_eq_iff]
  exact ⟨low, high⟩

theorem le_truncate {x : Rat} {n : Int} (nonneg : 0 ≤ n) (low : n ≤ x) : n ≤ truncate x := by
  have positive : 0 ≤ x := le_trans (by exact_mod_cast nonneg) low
  rw [truncate, if_pos positive]
  exact Int.le_floor.mpr low

example : nearest (1 / 3) = 6004799503160661 / 2 ^ 54 := by decide +kernel

end GenSubnet.Library.Rounding
