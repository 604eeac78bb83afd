import Mathlib
import GenSubnet.Library.ByteText

/-!
# Decimal numbers in bytes
-/

namespace GenSubnet.Library

def isDigit (b : UInt8) : Bool := 48 ≤ b && b ≤ 57

def decimal (n : Nat) : List UInt8 := (Nat.toDigits 10 n).map fun c => UInt8.ofNat c.toNat

def decimalValue (digits : List UInt8) : Nat :=
  digits.foldl (fun value b => 10 * value + (b.toNat - 48)) 0

/-- `0|[1-9][0-9]*` -/
def isDecimal (text : List UInt8) : Bool :=
  text == [48] || (text.head?.any fun b => 49 ≤ b && b ≤ 57) && text.all isDigit

theorem digit_of_char {c : Char} (digit : c.isDigit = true) :
    (UInt8.ofNat c.toNat).toNat = c.toNat ∧ isDigit (UInt8.ofNat c.toNat) = true := by
  have range : 48 ≤ c.toNat ∧ c.toNat ≤ 57 := by
    simp only [Char.isDigit, Bool.and_eq_true, decide_eq_true_eq] at digit
    exact ⟨UInt32.le_iff_toNat_le.mp digit.1, UInt32.le_iff_toNat_le.mp digit.2⟩
  have value : (UInt8.ofNat c.toNat).toNat = c.toNat := by
    rw [UInt8.toNat_ofNat', Nat.mod_eq_of_lt (by omega)]
  refine ⟨value, ?_⟩
  simp only [isDigit, Bool.and_eq_true, decide_eq_true_eq, UInt8.le_iff_toNat_le, value]
  exact range

theorem decimal_all (n : Nat) : (decimal n).all isDigit = true := by
  rw [decimal, List.all_map, List.all_eq_true]
  intro c member
  exact (digit_of_char (Nat.isDigit_of_mem_toDigits (by decide) (by decide) member)).2

theorem decimalValue_decimal (n : Nat) : decimalValue (decimal n) = n := by
  have folds : ∀ (cs : List Char) (value : Nat), (∀ c ∈ cs, c.isDigit = true) →
      (cs.map fun c => UInt8.ofNat c.toNat).foldl (fun value b => 10 * value + (b.toNat - 48)) value =
        Nat.ofDigitChars 10 cs value := by
    intro cs
    induction cs with
    | nil =>
        intro value _
        rfl
    | cons c cs ih =>
        intro value digits
        have own := (digit_of_char (digits c List.mem_cons_self)).1
        rw [List.map_cons, List.foldl_cons, ih _ fun d member => digits d (List.mem_cons_of_mem c member),
          Nat.ofDigitChars_cons, own]
        rfl
  rw [decimalValue, decimal, folds _ _ fun c member =>
    Nat.isDigit_of_mem_toDigits (by decide) (by decide) member]
  exact Nat.ofDigitChars_toDigits (by decide) (by decide)

theorem decimal_length_le {n k : Nat} (positive : 0 < k) (bound : n < 10 ^ k) :
    (decimal n).length ≤ k := by
  rw [decimal, List.length_map]
  exact (Nat.length_toDigits_le_iff (by decide) positive).mpr bound

theorem decimal_head {n : Nat} (positive : 0 < n) :
    ((decimal n).head?.any fun b => 49 ≤ b && b ≤ 57) = true := by
  induction n using Nat.strongRecOn with
  | ind n ih =>
      by_cases small : n < 10
      · have each : ∀ m < 10, 0 < m →
            ([m.digitChar].map fun c => UInt8.ofNat c.toNat).head?.any
              (fun b => 49 ≤ b && b ≤ 57) = true := by decide
        rw [decimal, Nat.toDigits_of_lt_base small]
        exact each n small positive
      · have rest : 0 < n / 10 := Nat.div_pos (by omega) (by decide)
        have shorter := ih (n / 10) (by omega) rest
        rw [decimal, Nat.toDigits_of_base_le (by decide) (by omega), List.map_append]
        rw [decimal] at shorter
        cases digits : (Nat.toDigits 10 (n / 10)).map fun c => UInt8.ofNat c.toNat with
        | nil =>
            rw [digits] at shorter
            cases shorter
        | cons b bs =>
            rw [digits] at shorter
            exact shorter

theorem isDecimal_decimal (n : Nat) : isDecimal (decimal n) = true := by
  rcases Nat.eq_zero_or_pos n with rfl | positive
  · decide
  · rw [isDecimal, decimal_head positive, decimal_all]
    simp

end GenSubnet.Library
