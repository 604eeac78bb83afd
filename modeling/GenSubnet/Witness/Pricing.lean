import Mathlib
import GenSubnet.Library.Dict
import GenSubnet.Witness.Budget

/-!
# The model table

`ModelTable` and `PricingStore` of `shared/subnet_common/witness/pricing.py`, and `credits` of
`miner_runtime/accounting.py` with its decimal arithmetic. Decimals are equal as numbers; what a
charge keeps is the text of one.
-/

namespace GenSubnet.Witness.Pricing
open Library

/-- A decimal that is not negative. -/
structure Decimal where
  coefficient : Nat
  exponent : Int
deriving DecidableEq

namespace Decimal

def value (d : Decimal) : Rat := d.coefficient * 10 ^ d.exponent

/-- `==` -/
def Equals (d e : Decimal) : Prop := d.value = e.value

instance (d e : Decimal) : Decidable (d.Equals e) := inferInstanceAs (Decidable (_ = _))

def digits (n : Nat) : String := toString n

/-- The context of 28 digits, which rounds to the even one of two. -/
def fix (d : Decimal) : Decimal :=
  let excess := (digits d.coefficient).length - 28
  if excess = 0 then d
  else
    let unit := 10 ^ excess
    let quotient := d.coefficient / unit
    let rest := d.coefficient % unit
    let rounded :=
      if unit < 2 * rest ∨ unit = 2 * rest ∧ quotient % 2 = 1 then quotient + 1 else quotient
    if rounded = 10 ^ 28 then ⟨10 ^ 27, d.exponent + excess + 1⟩ else ⟨rounded, d.exponent + excess⟩

def mul (d : Decimal) (n : Nat) : Decimal := fix ⟨d.coefficient * n, d.exponent⟩

def add (d e : Decimal) : Decimal :=
  let exponent := min d.exponent e.exponent
  fix ⟨d.coefficient * 10 ^ (d.exponent - exponent).toNat +
    e.coefficient * 10 ^ (e.exponent - exponent).toNat, exponent⟩

/-- `str` -/
def str (d : Decimal) : String :=
  let text := digits d.coefficient
  let left := d.exponent + text.length
  let place := if d.exponent ≤ 0 ∧ -6 < left then left else 1
  let whole :=
    if place ≤ 0 then "0"
    else if (text.length : Int) ≤ place then
      text ++ String.ofList (List.replicate (place - text.length).toNat '0')
    else (text.take place.toNat).toString
  let fraction :=
    if place ≤ 0 then "." ++ String.ofList (List.replicate (-place).toNat '0') ++ text
    else if (text.length : Int) ≤ place then ""
    else "." ++ (text.drop place.toNat).toString
  let power :=
    if left = place then "" else "E" ++ (if 0 ≤ left - place then "+" else "") ++ toString (left - place)
  whole ++ fraction ++ power

example : (add (add ⟨0, 0⟩ (mul ⟨10, -2⟩ 3)) (mul ⟨25, -1⟩ 7)).str = "17.80" := by decide +kernel

end Decimal

structure ModelRates where
  inputCredits : Decimal
  outputCredits : Decimal
  longInputCredits : Decimal
  longOutputCredits : Decimal
deriving DecidableEq

structure ModelTable where
  callsPerPrompt : Nat
  creditsPerPrompt : Decimal
  longContextAboveInputTokens : Nat
  models : Dict String ModelRates
  checkedOn : Option String := none
deriving DecidableEq

def ModelRates.Equals (a b : ModelRates) : Prop :=
  a.inputCredits.Equals b.inputCredits ∧ a.outputCredits.Equals b.outputCredits ∧
    a.longInputCredits.Equals b.longInputCredits ∧ a.longOutputCredits.Equals b.longOutputCredits

instance (a b : ModelRates) : Decidable (a.Equals b) := inferInstanceAs (Decidable (_ ∧ _))

/-- `require_extension` does not raise. -/
def ModelTable.Extends (table previous : ModelTable) : Prop :=
  table.callsPerPrompt = previous.callsPerPrompt ∧
    table.creditsPerPrompt.Equals previous.creditsPerPrompt ∧
    table.longContextAboveInputTokens = previous.longContextAboveInputTokens ∧
    ∀ item ∈ previous.models.items, ∃ rates ∈ table.models.get item.1, rates.Equals item.2

instance (table previous : ModelTable) : Decidable (table.Extends previous) :=
  inferInstanceAs (Decidable (_ ∧ _ ∧ _ ∧ ∀ item ∈ previous.models.items, _))

/-- `table == previous` -/
def ModelTable.Equals (table previous : ModelTable) : Prop :=
  table.Extends previous ∧ previous.Extends table ∧ table.checkedOn = previous.checkedOn

instance (table previous : ModelTable) : Decidable (table.Equals previous) :=
  inferInstanceAs (Decidable (_ ∧ _ ∧ _))

/-- `credits`, of a model of the table. -/
def ModelRates.credits (rates : ModelRates) (longAbove : Nat) (usage : Tokens) : Decimal :=
  let long := longAbove < usage.input
  let input := if long then rates.longInputCredits else rates.inputCredits
  let output := if long then rates.longOutputCredits else rates.outputCredits
  ((Decimal.mk 0 0).add (input.mul usage.input)).add (output.mul usage.output)

/-- The text of the credits; a model that the table has not gets none. -/
def ModelTable.credits (table : ModelTable) (model : String) (usage : Tokens) : Option String :=
  (table.models.get model).map fun rates =>
    (rates.credits table.longContextAboveInputTokens usage).str

/-- A table as it is published, with the hash of its bytes. -/
structure Published where
  table : ModelTable
  sha256 : String
deriving DecidableEq

/-- `PricingStore.publish`; `none` when it raises. -/
def publish (saved : Option Published) (new : Published) : Option (Option Published) :=
  match saved with
  | none => some (some new)
  | some previous =>
      if new.table.Extends previous.table then
        if new.table.Equals previous.table then some saved else some (some new)
      else none

/-- The rates of the previous table stand in the new one digit by digit. -/
def ModelTable.Keeps (table previous : ModelTable) : Prop :=
  table.longContextAboveInputTokens = previous.longContextAboveInputTokens ∧
    ∀ item ∈ previous.models.items, table.models.get item.1 = some item.2

instance (table previous : ModelTable) : Decidable (table.Keeps previous) :=
  inferInstanceAs (Decidable (_ ∧ ∀ item ∈ previous.models.items, _))

theorem ModelTable.Keeps.refl (table : ModelTable) : table.Keeps table :=
  ⟨rfl, fun _ member => Dict.get_eq_some_iff.mpr member⟩

theorem ModelTable.Keeps.trans {a b c : ModelTable} (second : c.Keeps b) (first : b.Keeps a) :
    c.Keeps a :=
  ⟨second.1.trans first.1, fun item member =>
    second.2 _ (Dict.get_eq_some_iff.mp (first.2 item member))⟩

end GenSubnet.Witness.Pricing
