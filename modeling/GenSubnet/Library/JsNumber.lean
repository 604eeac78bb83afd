import GenSubnet.Library.Rounding
import Mathlib.Data.ENat.Basic
import Mathlib.Algebra.Order.BigOperators.Group.List
import Mathlib.Algebra.Order.Floor.Ring
import Mathlib.Tactic.Common

/-!
# Numbers of JavaScript

The values of type number, without the sign of zero: addition, which rounds, and the comparisons,
which are false of `NaN`. A sum of amounts bounds what the amounts hold in whole units, unless an
amount is negative or not a number.
-/

namespace GenSubnet.Library
open Rounding

inductive JsNumber
  | nan
  | negInfinity
  | posInfinity
  | finite (value : Rat)
deriving DecidableEq

namespace JsNumber

/-- The rounded value of an exact result. -/
def ofRat (x : Rat) : JsNumber :=
  if 2 ^ 1024 ≤ nearest x then .posInfinity
  else if nearest x ≤ -2 ^ 1024 then .negInfinity
  else .finite (nearest x)

def add : JsNumber → JsNumber → JsNumber
  | .finite x, .finite y => ofRat (x + y)
  | .nan, _ => .nan
  | _, .nan => .nan
  | .posInfinity, .negInfinity => .nan
  | .negInfinity, .posInfinity => .nan
  | .posInfinity, _ => .posInfinity
  | _, .posInfinity => .posInfinity
  | .negInfinity, _ => .negInfinity
  | _, .negInfinity => .negInfinity

/-- `x < y` -/
def less : JsNumber → JsNumber → Bool
  | .finite x, .finite y => x < y
  | .nan, _ => false
  | _, .nan => false
  | .negInfinity, y => y ≠ .negInfinity
  | _, .negInfinity => false
  | .posInfinity, _ => false
  | _, .posInfinity => true

/-- `x <= y` -/
def atMost (x y : JsNumber) : Bool := x ≠ .nan && y ≠ .nan && !less y x

def ofNat (n : Nat) : JsNumber := .finite n

/-- The truth of a number. -/
def truthy (x : JsNumber) : Bool := x ≠ .nan && x ≠ .finite 0

/-! ## Amounts -/

/-- What an amount holds in whole units; less than nothing is nothing. -/
def whole : JsNumber → ℕ∞
  | .nan => 0
  | .negInfinity => 0
  | .posInfinity => ⊤
  | .finite x => (⌊x⌋.toNat : ℕ)

/-- An amount below zero, or none. -/
def deficient : JsNumber → Bool
  | .nan => true
  | .negInfinity => true
  | .posInfinity => false
  | .finite x => x < 0

/-- What is not exceeded by a sum of amounts. -/
def Reaches (sum : JsNumber) (total : ℕ∞) : Prop :=
  sum = .posInfinity ∨ ∃ s : Rat, sum = .finite s ∧ 0 ≤ s ∧
    ∀ n : Nat, n < 2 ^ 53 → (n : ℕ∞) ≤ total → (n : Rat) ≤ s

theorem reaches_zero : Reaches (.finite 0) 0 := by
  refine Or.inr ⟨0, rfl, le_rfl, ?_⟩
  intro n _ small
  have none : n = 0 := by simpa using small
  simp [none]

theorem nat_le_nearest {n : Nat} {x : Rat} (small : n < 2 ^ 53) (le : (n : Rat) ≤ x) :
    (n : Rat) ≤ nearest x := by
  have exactly : nearest ((n : Int) : Rat) = ((n : Int) : Rat) := by
    apply nearest_int
    rw [Int.cast_natCast, Nat.abs_cast]
    exact_mod_cast small
  have mono : nearest (n : Rat) ≤ nearest x := nearest_mono (Nat.cast_nonneg n) le
  rw [Int.cast_natCast] at exactly
  rwa [exactly] at mono

theorem Reaches.add {sum amount : JsNumber} {total : ℕ∞} (reaches : Reaches sum total)
    (sound : amount.deficient = false) : Reaches (sum.add amount) (total + amount.whole) := by
  rcases reaches with rfl | ⟨s, rfl, nonneg, bounds⟩
  · cases amount with
    | finite x => exact Or.inl rfl
    | posInfinity => exact Or.inl rfl
    | nan => cases sound
    | negInfinity => cases sound
  · cases amount with
    | nan => cases sound
    | negInfinity => cases sound
    | posInfinity => exact Or.inl rfl
    | finite x =>
        have positive : 0 ≤ x := by simpa [deficient] using sound
        have kept (n : Nat) (small : n < 2 ^ 53) (le : (n : ℕ∞) ≤ total + (finite x).whole) :
            (n : Rat) ≤ nearest (s + x) := by
          apply nat_le_nearest small
          have units : ((⌊x⌋.toNat : ℕ) : Rat) ≤ x := by
            rw [← Int.cast_natCast, Int.toNat_of_nonneg (Int.floor_nonneg.mpr positive)]
            exact Int.floor_le x
          have before : ((n - ⌊x⌋.toNat : ℕ) : Rat) ≤ s := by
            apply bounds _ (by omega)
            rw [ENat.coe_sub]
            exact tsub_le_iff_right.mpr le
          have parts : n ≤ (n - ⌊x⌋.toNat) + ⌊x⌋.toNat := by omega
          calc (n : Rat) ≤ ((n - ⌊x⌋.toNat : ℕ) : Rat) + ((⌊x⌋.toNat : ℕ) : Rat) := by exact_mod_cast parts
            _ ≤ s + x := add_le_add before units
        have floor : (0 : Rat) ≤ nearest (s + x) := by
          have zero := nat_le_nearest (n := 0) (x := s + x) (by norm_num) (by
            rw [Nat.cast_zero]
            exact add_nonneg nonneg positive)
          rwa [Nat.cast_zero] at zero
        change Reaches (ofRat (s + x)) _
        unfold ofRat
        split
        · exact Or.inl rfl
        · split
          · rename_i below
            have lowest : (-2 ^ 1024 : Rat) < 0 := by norm_num
            exact absurd (floor.trans below) (not_le.mpr lowest)
          · exact Or.inr ⟨_, rfl, floor, kept⟩

theorem reaches_foldl {amounts : List JsNumber} {sum : JsNumber} {total : ℕ∞}
    (sound : ∀ amount ∈ amounts, amount.deficient = false) (reaches : Reaches sum total) :
    Reaches (amounts.foldl add sum) (total + (amounts.map whole).sum) := by
  induction amounts generalizing sum total with
  | nil => simpa using reaches
  | cons amount rest ih =>
      have first := reaches.add (sound amount List.mem_cons_self)
      have later := ih (fun other member => sound other (List.mem_cons_of_mem _ member)) first
      rwa [List.map_cons, List.sum_cons, ← add_assoc]

theorem Reaches.le_limit {sum : JsNumber} {total : ℕ∞} (reaches : Reaches sum total) {limit : Nat}
    (small : limit + 1 < 2 ^ 53) (within : less (ofNat limit) sum = false) : total ≤ limit := by
  rcases reaches with rfl | ⟨s, rfl, -, bounds⟩
  · cases within
  · have le : s ≤ limit := by simpa [less, ofNat] using within
    by_contra large
    have more : ((limit + 1 : ℕ) : ℕ∞) ≤ total := by
      rw [Nat.cast_add, Nat.cast_one]
      exact Order.add_one_le_of_lt (not_le.mp large)
    have beyond := (bounds (limit + 1) small more).trans le
    have apart : ((limit + 1 : ℕ) : Rat) ≤ (limit : Rat) := beyond
    have absurdity : limit + 1 ≤ limit := by exact_mod_cast apart
    omega

theorem whole_le_of_sum {amounts : List JsNumber} {limit : Nat} (small : limit + 1 < 2 ^ 53)
    (sound : ∀ amount ∈ amounts, amount.deficient = false)
    (within : less (ofNat limit) (amounts.foldl add (.finite 0)) = false) :
    (amounts.map whole).sum ≤ limit := by
  have reaches := reaches_foldl sound reaches_zero
  rw [zero_add] at reaches
  exact reaches.le_limit small within

end JsNumber

end GenSubnet.Library
