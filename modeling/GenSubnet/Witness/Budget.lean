import GenSubnet.Library.Dict
import GenSubnet.Witness.Records

/-!
# The dispatch ledger of a call

`Budget` of `witness_pod/budget.py`: the ledger in which the one possible dispatch of a call is
reserved before a byte of it is released, discarded when it did not happen, and settled with the
usage that the provider reported.
-/

namespace GenSubnet.Witness
open Library

inductive ChargeState | possible | settled | unknown
deriving DecidableEq

structure Tokens where
  input : Nat
  output : Nat
deriving DecidableEq

structure Charge where
  exchangeId : Uuid
  model : String
  state : ChargeState := .possible
  credits : Option String := none
  usage : Option Tokens := none
deriving DecidableEq

structure Ledger where
  revision : Uuid
  scopeKey : String
  pricingSha256 : String
  charges : Dict String Charge := .empty
deriving DecidableEq

inductive BudgetRejected
  | unknownModel | identityChanged | possibleDispatch | invalidUsage | invalidCounts
  | inconsistentCounts | differentAttempt | noReservedDispatch | usageChanged
deriving DecidableEq

def BudgetRejected.message : BudgetRejected → String
  | .unknownModel => "Unknown priced model"
  | .identityChanged => "Call ledger identity changed"
  | .possibleDispatch => "This call already has a possible dispatch"
  | .invalidUsage => "Invalid verified token usage"
  | .invalidCounts => "Invalid verified token counts"
  | .inconsistentCounts => "Inconsistent verified token counts"
  | .differentAttempt => "Settlement belongs to a different capture attempt"
  | .noReservedDispatch => "Usage has no reserved dispatch"
  | .usageChanged => "Verified usage changed after settlement"

/-- The reasons of `BudgetNotReserved`. -/
inductive NotReserved
  | requestHashMismatch | unsupportedServiceTier | unsupportedModel | pricingUnavailable
  | ledgerReadFailed | ledgerWriteRejected | ledgerBusy
deriving DecidableEq

/-- The request body as `reserve` reads it. -/
structure Body where
  digest : String
  model : String
  serviceTier : Option String
deriving DecidableEq

/-- The usage in a provider's metadata: a count is `none` where it is not an integer. -/
inductive Usage
  | malformed
  | reported (input output : Option Int) (total : Option (Option Rat))
deriving DecidableEq

/-- The model table: what `_require_model` raises, with the refresh it may try, and the credits of
a settled usage. -/
structure Rates where
  require : String → Except NotReserved Unit
  credits : String → Tokens → String

variable (rates : Rates)

def newLedger (pricingSha256 : String) (scope : Scope) (seed : Nat) : Ledger :=
  { revision := .drawn seed 0, scopeKey := scope.key, pricingSha256 }

/-- The checks of `reserve` that come before the ledger. -/
def reserveChecks (request : RequestKey) (body : Body) : Except NotReserved Unit :=
  if body.digest ≠ request.requestSha256 then .error .requestHashMismatch
  else if body.serviceTier = some "flex" then .error .unsupportedServiceTier
  else rates.require body.model

def Ledger.revise (ledger : Ledger) (seed : Nat) (charges : Dict String Charge) : Ledger :=
  { ledger with charges, revision := .drawn seed 1 }

/-- The write of `reserve`. -/
def Ledger.reserve (ledger : Ledger) (base : String) (seed : Nat) (exchangeId : Uuid)
    (model : String) : Except BudgetRejected Ledger :=
  if ledger.charges.contains base then .error .possibleDispatch
  else .ok (ledger.revise seed (ledger.charges.set base { exchangeId, model }))

/-- The write of `discard`; `none` where it returns without one. -/
def Ledger.discard (ledger : Ledger) (base : String) (seed : Nat) (exchangeId : Uuid) :
    Option Ledger :=
  match ledger.charges.get base with
  | some current =>
      if current.exchangeId ≠ exchangeId then none
      else some (ledger.revise seed (ledger.charges.filter fun _ charge =>
        charge.exchangeId ≠ exchangeId))
  | none => some (ledger.revise seed (ledger.charges.filter fun _ charge =>
      charge.exchangeId ≠ exchangeId))

def Usage.normalize : Option Usage → Except BudgetRejected (Option Tokens)
  | none => .ok none
  | some .malformed => .error .invalidUsage
  | some (.reported (some (.ofNat input)) (some (.ofNat output)) total) =>
      match total with
      | none => .ok (some ⟨input, output⟩)
      | some total =>
          if total = some ((input + output : Nat) : Rat) then .ok (some ⟨input, output⟩)
          else .error .inconsistentCounts
  | some (.reported _ _ _) => .error .invalidCounts

def Rates.creditsOf (model : String) : Option Tokens → Except BudgetRejected (Option String)
  | none => .ok none
  | some tokens =>
      match rates.require model with
      | .error _ => .error .unknownModel
      | .ok _ => .ok (some (rates.credits model tokens))

def Charge.settled (charge : Charge) (usage : Option Tokens) (credits : Option String) : Charge :=
  { charge with
    state := if usage = none then .unknown else .settled
    usage := usage
    credits := credits }

/-- The part of `settle` that follows the choice of the charge. -/
def Ledger.settleCharge (ledger : Ledger) (key : String) (seed : Nat) (usage : Option Tokens)
    (charge : Charge) : Except BudgetRejected (Option Ledger) :=
  match rates.creditsOf charge.model usage with
  | .error rejected => .error rejected
  | .ok credits =>
      if charge.state = .possible then
        .ok (some (ledger.revise seed (ledger.charges.set key (charge.settled usage credits))))
      else if charge.usage ≠ usage ∨ charge.credits ≠ credits then .error .usageChanged
      else .ok none

/-- The write of `settle`; `none` where it returns without one. -/
def Ledger.settle (ledger : Ledger) (base : String) (exchangeKey : Uuid → String) (seed : Nat)
    (usage : Option Usage) (exchangeId : Option Uuid) : Except BudgetRejected (Option Ledger) :=
  match Usage.normalize usage with
  | .error rejected => .error rejected
  | .ok normalized =>
      match ledger.charges.get base, exchangeId with
      | some charge, some exchange =>
          if charge.exchangeId ≠ exchange then
            match ledger.charges.get (exchangeKey exchange) with
            | none => if normalized = none then .ok none else .error .differentAttempt
            | some other =>
                if other.exchangeId ≠ exchange then .error .differentAttempt
                else ledger.settleCharge rates (exchangeKey exchange) seed normalized other
          else ledger.settleCharge rates base seed normalized charge
      | some charge, none => ledger.settleCharge rates base seed normalized charge
      | none, _ => if normalized = none then .ok none else .error .noReservedDispatch

/-! ## What the operations do to the charges -/

/-- The charges are all made under the key of the call, and each belongs to one of the exchanges. -/
def Ledger.Charged (ledger : Ledger) (base : String) (exchanges : Set Uuid) : Prop :=
  ∀ item ∈ ledger.charges.items, item.1 = base ∧ item.2.exchangeId ∈ exchanges

variable {rates}
variable {ledger after : Ledger} {base : String} {exchanges : Set Uuid} {seed : Nat} {exchange : Uuid}

theorem newLedger_charged (pricingSha256 : String) (scope : Scope) (seed : Nat) (base : String)
    (exchanges : Set Uuid) : (newLedger pricingSha256 scope seed).Charged base exchanges := by
  intro item member
  cases member

theorem reserve_eq {model : String} (reserved : ledger.reserve base seed exchange model = .ok after) :
    ledger.charges.contains base = false ∧ after = ledger.revise seed
      (ledger.charges.set base { exchangeId := exchange, model := model }) := by
  unfold Ledger.reserve at reserved
  split at reserved
  · cases reserved
  · rename_i absent
    exact ⟨Bool.eq_false_iff.mpr absent, (Except.ok.inj reserved).symm⟩

theorem discard_eq (discarded : ledger.discard base seed exchange = some after) :
    after = ledger.revise seed (ledger.charges.filter fun _ charge =>
      charge.exchangeId ≠ exchange) := by
  unfold Ledger.discard at discarded
  split at discarded
  · split at discarded
    · cases discarded
    · exact (Option.some.inj discarded).symm
  · exact (Option.some.inj discarded).symm

theorem Ledger.Charged.reserve {model : String} (charged : ledger.Charged base exchanges)
    (reserved : ledger.reserve base seed exchange model = .ok after) :
    after.Charged base (insert exchange exchanges) := by
  obtain ⟨-, rfl⟩ := reserve_eq reserved
  intro item member
  rcases Dict.mem_items_set member with rfl | member
  · exact ⟨rfl, Set.mem_insert _ _⟩
  · exact ⟨(charged item member).1, Set.mem_insert_of_mem _ (charged item member).2⟩

theorem Ledger.Charged.discard (charged : ledger.Charged base exchanges)
    (discarded : ledger.discard base seed exchange = some after) : after.Charged base exchanges := by
  obtain rfl := discard_eq discarded
  intro item member
  exact charged item (Dict.mem_items_filter.mp member).1

theorem Ledger.Charged.settleCharge {key : String} {usage : Option Tokens} {charge : Charge}
    (charged : ledger.Charged base exchanges) (present : ledger.charges.get key = some charge)
    (settled : ledger.settleCharge rates key seed usage charge = .ok (some after)) :
    after.Charged base exchanges := by
  have old := charged _ (Dict.get_eq_some_iff.mp present)
  unfold Ledger.settleCharge at settled
  split at settled
  · cases settled
  · split at settled
    · obtain rfl := Option.some.inj (Except.ok.inj settled)
      intro item member
      rcases Dict.mem_items_set member with rfl | member
      · exact old
      · exact charged item member
    · split at settled <;> cases settled

theorem Ledger.Charged.settle {exchangeKey : Uuid → String} {usage : Option Usage}
    {exchangeId : Option Uuid} (charged : ledger.Charged base exchanges)
    (settled : ledger.settle rates base exchangeKey seed usage exchangeId = .ok (some after)) :
    after.Charged base exchanges := by
  unfold Ledger.settle at settled
  split at settled
  · cases settled
  · split at settled
    · rename_i charge exchange present
      split at settled
      · split at settled
        · split at settled <;> cases settled
        · rename_i other present'
          split at settled
          · cases settled
          · exact charged.settleCharge present' settled
      · exact charged.settleCharge present settled
    · rename_i charge present
      exact charged.settleCharge present settled
    · split at settled <;> cases settled

end GenSubnet.Witness
