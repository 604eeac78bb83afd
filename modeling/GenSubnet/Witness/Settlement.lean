import GenSubnet.Library.Parallel
import GenSubnet.Library.Versioned
import GenSubnet.Witness.Pricing

/-!
# The settlement of a call

The three operations of `Budget` as programs over the ledger of one call. Any number of Budgets run
them at once, each with the model table that it has read.
-/

namespace GenSubnet.Witness.Settlement
open Library Library.Effects Pricing

inductive Error
  | rejected (reason : BudgetRejected)
  | notReserved (reason : NotReserved)
  /-- `StateConflict`, `WriteRejected` and `WriteUncertain` -/
  | conflict | writeRejected | uncertain
  /-- A read of the ledger or of the table, or the table read, raises something else. -/
  | unavailable
deriving DecidableEq

/-- What a write of the ledger is for. -/
inductive Change
  | reserve (exchangeId : Uuid)
  | discard (exchangeId : Uuid)
  | settle (usage : Option Usage) (exchangeId : Option Uuid)

inductive Request
  | load
  | save (write : Put Ledger Change)
  /-- `uuid.uuid4()`, by the seed of a try. -/
  | seed
  /-- `_require_model` of a Budget, which leaves it with this table. -/
  | requireModel (budget : Nat) (model : String)
  /-- `self.pricing_hash` of a Budget. -/
  | pricingHash (budget : Nat)

@[reducible] def Request.Reply : Request → Type
  | .load => Option Ledger
  | .save _ => Unit
  | .seed => Nat
  | .requireModel _ _ => ModelTable
  | .pricingHash _ => String

abbrev Task := Prog Request Request.Reply Error

def ask (q : Request) : Task q.Reply := Prog.request q

/-- The call: its scope, its request, the key of its charge and those of its exchanges. -/
structure Invocation where
  scope : Scope
  request : RequestKey
  base : String
  exchangeKey : Uuid → String

variable (item : Invocation)

/-- The ledger of a snapshot, a new one where there is none. -/
def opened (budget : Nat) : Option Ledger → Task Ledger
  | some ledger => pure ledger
  | none => do
      let seed ← ask .seed
      let hash ← ask (.pricingHash budget)
      return newLedger hash item.scope seed

/-- `_load` -/
def load (budget : Nat) : Task (Ledger × Option Ledger) := do
  let snapshot ← ask .load
  let ledger ← opened item budget snapshot
  if ledger.scopeKey ≠ item.scope.key then throw (.rejected .identityChanged)
  else return (ledger, snapshot)

/-- Save a ledger, and try again when it has changed. -/
def save (write : Put Ledger Change) (again : Task Unit) : Task Unit :=
  tryCatch (ask (.save write)) fun
    | .conflict => again
    | error => throw error

/-! ## reserve -/

def reserveLoop (budget : Nat) (exchangeId : Uuid) (model : String) : Nat → Task Unit
  | 0 => throw (.notReserved .ledgerBusy)
  | n + 1 => do
      let (ledger, snapshot) ← tryCatch (load item budget)
        fun _ => throw (.notReserved .ledgerReadFailed)
      let seed ← ask .seed
      match ledger.reserve item.base seed exchangeId model with
      | .error reason => throw (.rejected reason)
      | .ok after =>
          tryCatch (ask (.save ⟨.reserve exchangeId, snapshot, after⟩)) fun
            | .conflict => reserveLoop budget exchangeId model n
            | .writeRejected => throw (.notReserved .ledgerWriteRejected)
            | error => throw error

def reserve (budget : Nat) (exchangeId : Uuid) (body : Body) : Task Unit :=
  if body.digest ≠ item.request.requestSha256 then throw (.notReserved .requestHashMismatch)
  else if body.serviceTier = some "flex" then throw (.notReserved .unsupportedServiceTier)
  else do
    let _ ← tryCatch (ask (.requireModel budget body.model)) fun
      | .rejected _ => throw (.notReserved .unsupportedModel)
      | _ => throw (.notReserved .pricingUnavailable)
    reserveLoop item budget exchangeId body.model 16

/-! ## discard -/

def discardLoop (budget : Nat) (exchangeId : Uuid) : Nat → Task Unit
  | 0 => throw .conflict
  | n + 1 => do
      let (ledger, snapshot) ← load item budget
      let seed ← ask .seed
      match ledger.discard item.base seed exchangeId with
      | none => return
      | some after => save ⟨.discard exchangeId, snapshot, after⟩ (discardLoop budget exchangeId n)

/-! ## settle -/

/-- The charge that is to be settled, by its key; `none` where there is nothing to settle. -/
def select (ledger : Ledger) (normalized : Option Tokens) (exchangeId : Option Uuid) :
    Except BudgetRejected (Option (String × Charge)) :=
  match ledger.charges.get item.base with
  | none => if normalized = none then .ok none else .error .noReservedDispatch
  | some charge =>
      match exchangeId with
      | none => .ok (some (item.base, charge))
      | some exchange =>
          if charge.exchangeId = exchange then .ok (some (item.base, charge))
          else
            match ledger.charges.get (item.exchangeKey exchange) with
            | none => if normalized = none then .ok none else .error .differentAttempt
            | some other =>
                if other.exchangeId = exchange then .ok (some (item.exchangeKey exchange, other))
                else .error .differentAttempt

/-- The text of the credits of a usage. -/
def price (budget : Nat) (model : String) : Option Tokens → Task (Option String)
  | none => pure none
  | some usage => do
      let table ← ask (.requireModel budget model)
      return table.credits model usage

def settleLoop (budget : Nat) (usage : Option Usage) (normalized : Option Tokens)
    (exchangeId : Option Uuid) : Nat → Task Unit
  | 0 => throw .conflict
  | n + 1 => do
      let (ledger, snapshot) ← load item budget
      match select item ledger normalized exchangeId with
      | .error reason => throw (.rejected reason)
      | .ok none => return
      | .ok (some (key, charge)) => do
          let credits ← price budget charge.model normalized
          if charge.state ≠ .possible then
            if charge.usage ≠ normalized ∨ charge.credits ≠ credits then
              throw (.rejected .usageChanged)
            else return
          else do
            let seed ← ask .seed
            let after := ledger.revise seed (ledger.charges.set key (charge.settled normalized credits))
            save ⟨.settle usage exchangeId, snapshot, after⟩
              (settleLoop budget usage normalized exchangeId n)

def settle (budget : Nat) (usage : Option Usage) (exchangeId : Option Uuid) : Task Unit :=
  match Usage.normalize usage with
  | .error reason => throw (.rejected reason)
  | .ok normalized => settleLoop item budget usage normalized exchangeId 16

/-! ## The world -/

structure World where
  ledger : Versioned Ledger Change := { data := none }
  published : Option Published := none
  /-- The table and the hash of each Budget. -/
  budgets : List Published := []

inductive Move
  | publish (new : Published)
  /-- A Budget starts with the table that is published. -/
  | create
  /-- A write whose answer was lost takes effect or is dropped. -/
  | settle (n : Nat) (lands : Bool)

def World.move (w : World) : Move → Option World
  | .publish new => (publish w.published new).map fun published => { w with published }
  | .create => w.published.map fun table => { w with budgets := w.budgets ++ [table] }
  | .settle n lands => (w.ledger.settle n lands).map fun ledger => { w with ledger }

/-- How a request is answered. -/
inductive Choice
  | done
  | fail
  | fate (fate : Fate)
  | seed (seed : Nat)

def replyTo : Fate → Except Error Unit
  | .saved => .ok ()
  | .conflict => .error .conflict
  | .rejected => .error .writeRejected
  | .uncertain => .error .uncertain

/-- The table that a Budget has after `_require_model`, which may read the published one. -/
def World.required (w : World) (budget : Nat) (model : String) :
    Option (Except Error ModelTable × World) :=
  match w.budgets[budget]? with
  | none => none
  | some own =>
      if own.table.models.contains model then some (.ok own.table, w)
      else
        match w.published with
        | none => some (.error .unavailable, w)
        | some fresh =>
            if fresh.table.Extends own.table then
              let w := { w with budgets := w.budgets.set budget fresh }
              if fresh.table.models.contains model then some (.ok fresh.table, w)
              else some (.error (.rejected .unknownModel), w)
            else some (.error .unavailable, w)

/-- The published table cannot be read, where a Budget has to. -/
def World.unread (w : World) (budget : Nat) (model : String) :
    Option (Except Error ModelTable × World) :=
  match w.budgets[budget]? with
  | none => none
  | some own => if own.table.models.contains model then none else some (.error .unavailable, w)

def World.answer (w : World) : (q : Request) → Choice → Option (Except Error q.Reply × World)
  | .load, .done => some (.ok w.ledger.data, w)
  | .load, .fail => some (.error .unavailable, w)
  | .save write, .fate fate =>
      (w.ledger.save write fate).map fun ledger => (replyTo fate, { w with ledger })
  | .seed, .seed seed => some (.ok seed, w)
  | .requireModel budget model, .done => w.required budget model
  | .requireModel budget model, .fail => w.unread budget model
  | .pricingHash budget, .done => w.budgets[budget]?.map fun own => (.ok own.sha256, w)
  | _, _ => none

inductive Operation
  | reserve (budget : Nat) (exchangeId : Uuid) (body : Body)
  | discard (budget : Nat) (exchangeId : Uuid)
  | settle (budget : Nat) (usage : Option Usage) (exchangeId : Option Uuid)
deriving DecidableEq

def Operation.program : Operation → Task Unit
  | .reserve budget exchangeId body => Settlement.reserve item budget exchangeId body
  | .discard budget exchangeId => discardLoop item budget exchangeId 16
  | .settle budget usage exchangeId => Settlement.settle item budget usage exchangeId

def system : Shared World Request Request.Reply Error Unit Move Choice Operation where
  move := World.move
  answer := World.answer
  body := Operation.program item

end GenSubnet.Witness.Settlement
