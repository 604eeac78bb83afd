import GenSubnet.Gateway.Inventory
import GenSubnet.Library.Optimistic

/-!
# The selected Pod of a scope

`Selection` of `selection.py`: one record says which Pod of a scope is selected, and its three
changes are loops over compare-and-swap.
-/

namespace GenSubnet.Gateway
open Library Library.Optimistic

structure SelectionRecord where
  startId : String
  podId : String
  epochNs : Nat
  active : Bool
  accessGranted : Option Bool
deriving DecidableEq

inductive SelectionOp
  | update (pod : Pod) (active : Bool)
  | grant (pod : Pod)
  | revokeUnserved (pod : Pod)
deriving DecidableEq

inductive StateConflict | fenced
deriving DecidableEq

/-- What a change returns: `none` is Python's `None`. -/
abbrev SelectionDecision := Decision SelectionRecord (Option Bool) StateConflict

abbrev SelectionState := Optimistic.State SelectionRecord SelectionOp (Option Bool) StateConflict

def Selection.selected (record : Option SelectionRecord) (startId podId : String) : Bool :=
  match record with
  | none => false
  | some value => value.active && value.startId = startId && value.podId = podId

/-- `revoked`, for a Pod that has a scope. -/
def Selection.revoked (record : Option SelectionRecord) (pod : Pod) : Bool :=
  match record with
  | none => false
  | some value =>
      (value.startId = pod.startId && value.podId ≠ pod.id) ||
        (pod.epochNs ≤ value.epochNs && (!value.active || value.podId ≠ pod.id))

def Selection.grant (pod : Pod) : Option SelectionRecord → SelectionDecision
  | none => .returns (some false)
  | some value =>
      if value.active = false ∨ value.podId ≠ pod.id ∨ value.startId ≠ pod.startId then
        .returns (some false)
      else if value.accessGranted = some true then .returns (some true)
      else .writes { value with accessGranted := some true } (some true)

def Selection.revokeUnserved (pod : Pod) : Option SelectionRecord → SelectionDecision
  | none => .returns (some false)
  | some value =>
      if value.accessGranted ≠ some false ∨ value.podId ≠ pod.id ∨ value.startId ≠ pod.startId then
        .returns (some false)
      else if value.active = false then .returns (some true)
      else .writes { value with active := false } (some true)

/-- The record that `update` makes of the current one. -/
def Selection.updatedRecord (pod : Pod) (active : Bool) (current : Option SelectionRecord) :
    SelectionRecord where
  startId := pod.startId
  podId := pod.id
  epochNs := pod.epochNs
  active := active
  accessGranted :=
    match current with
    | some value =>
        if value.podId = pod.id then value.accessGranted
        else if active ∧ pod.lifecycle = .pending then some false
        else none
    | none => if active ∧ pod.lifecycle = .pending then some false else none

def Selection.update (pod : Pod) (active : Bool) (current : Option SelectionRecord) : SelectionDecision :=
  let value := updatedRecord pod active current
  match current with
  | none => .writes value none
  | some old =>
      if old = value then .returns none
      else if active = false ∧ old.podId ≠ pod.id then .returns none
      else if active ∧ (pod.epochNs < old.epochNs ∨
          (old.startId = value.startId ∧ old.podId ≠ pod.id) ∨
          (old.podId = pod.id ∧ old.active = false)) then
        .raises .fenced
      else .writes value none

def SelectionOp.pod : SelectionOp → Pod
  | .update pod _ | .grant pod | .revokeUnserved pod => pod

def SelectionOp.decision : SelectionOp → Option SelectionRecord → SelectionDecision
  | .update pod active => Selection.update pod active
  | .grant pod => Selection.grant pod
  | .revokeUnserved pod => Selection.revokeUnserved pod

/-! ## The order of the records -/

/-- A record of a Pod in the inventory. -/
def SelectionRecord.Of (value : SelectionRecord) (pods : Set Pod) : Prop :=
  ∃ pod ∈ pods, value.podId = pod.id ∧ value.startId = pod.startId ∧ value.epochNs = pod.epochNs

/-- Either the epoch grows, or the Pod stays: then it does not come back to life, and it neither
loses access nor becomes one that was never served. -/
inductive SelectionRecord.Before : SelectionRecord → SelectionRecord → Prop
  | epoch {old new : SelectionRecord} (grows : old.epochNs < new.epochNs) : Before old new
  | pod {old new : SelectionRecord} (same : new.podId = old.podId)
      (epoch : new.epochNs = old.epochNs) (dead : old.active = false → new.active = false)
      (granted : old.accessGranted = some true → new.accessGranted = some true)
      (unserved : new.accessGranted = some false → old.accessGranted = some false) : Before old new

def Later : Option SelectionRecord → Option SelectionRecord → Prop
  | none, _ => True
  | some _, none => False
  | some old, some new => old.Before new

def Good (pods : Set Pod) : Option SelectionRecord → Prop
  | none => True
  | some value => value.Of pods

theorem SelectionRecord.Before.trans {a b c : SelectionRecord} (first : a.Before b)
    (second : b.Before c) : a.Before c := by
  cases first with
  | epoch grows =>
      cases second with
      | epoch more => exact .epoch (grows.trans more)
      | pod same epoch _ _ _ => exact .epoch (epoch ▸ grows)
  | pod same epoch dead granted unserved =>
      cases second with
      | epoch more => exact .epoch (epoch ▸ more)
      | pod same' epoch' dead' granted' unserved' =>
          exact .pod (same'.trans same) (epoch'.trans epoch) (dead' ∘ dead) (granted' ∘ granted)
            (unserved ∘ unserved')

theorem later_trans (a b c : Option SelectionRecord) (first : Later a b) (second : Later b c) :
    Later a c := by
  cases a with
  | none => trivial
  | some a =>
      cases b with
      | none => cases first
      | some b =>
          cases c with
          | none => cases second
          | some c => exact SelectionRecord.Before.trans first second

variable {pods : Set Pod} {pod : Pod} {active : Bool} {current : Option SelectionRecord}
  {value : SelectionRecord} {result : Option Bool}

/-! ## What a change does -/

theorem Selection.grant_returns_true (decides : Selection.grant pod current = .returns (some true)) :
    ∃ old, current = some old ∧ old.podId = pod.id ∧ old.active = true ∧
      old.accessGranted = some true := by
  cases current with
  | none => cases decides
  | some old =>
      simp only [Selection.grant] at decides
      split at decides
      · cases decides
      · rename_i own
        split at decides
        · rename_i granted
          simp only [not_or, Bool.not_eq_false, ne_eq, not_not] at own
          exact ⟨old, rfl, own.2.1, own.1, granted⟩
        · cases decides

theorem Selection.grant_writes (decides : Selection.grant pod current = .writes value result) :
    ∃ old, current = some old ∧ old.podId = pod.id ∧ old.active = true ∧
      value = { old with accessGranted := some true } := by
  cases current with
  | none => cases decides
  | some old =>
      simp only [Selection.grant] at decides
      split at decides
      · cases decides
      · rename_i own
        split at decides
        · cases decides
        · simp only [not_or, Bool.not_eq_false, ne_eq, not_not] at own
          obtain ⟨rfl, -⟩ := Decision.writes.inj decides
          exact ⟨old, rfl, own.2.1, own.1, rfl⟩

theorem Selection.revokeUnserved_returns_true (decides : Selection.revokeUnserved pod current = .returns (some true)) :
    ∃ old, current = some old ∧ old.podId = pod.id ∧ old.active = false ∧
      old.accessGranted = some false := by
  cases current with
  | none => cases decides
  | some old =>
      simp only [Selection.revokeUnserved] at decides
      split at decides
      · cases decides
      · rename_i own
        split at decides
        · rename_i dead
          simp only [not_or, ne_eq, not_not] at own
          exact ⟨old, rfl, own.2.1, dead, own.1⟩
        · cases decides

theorem Selection.revokeUnserved_writes (decides : Selection.revokeUnserved pod current = .writes value result) :
    ∃ old, current = some old ∧ old.podId = pod.id ∧ old.accessGranted = some false ∧
      value = { old with active := false } := by
  cases current with
  | none => cases decides
  | some old =>
      simp only [Selection.revokeUnserved] at decides
      split at decides
      · cases decides
      · rename_i own
        split at decides
        · cases decides
        · simp only [not_or, ne_eq, not_not] at own
          obtain ⟨rfl, -⟩ := Decision.writes.inj decides
          exact ⟨old, rfl, own.2.1, own.1, rfl⟩

theorem Selection.update_returns (decides : Selection.update pod active current = .returns result) :
    ∃ old, current = some old ∧ (old = Selection.updatedRecord pod active current ∨
      active = false ∧ old.podId ≠ pod.id) := by
  cases current with
  | none => cases decides
  | some old =>
      simp only [Selection.update] at decides
      split at decides
      · rename_i same
        exact ⟨old, rfl, Or.inl same⟩
      · split at decides
        · rename_i other
          exact ⟨old, rfl, Or.inr other⟩
        · split at decides <;> cases decides

theorem Selection.update_writes (decides : Selection.update pod active current = .writes value result) :
    value = Selection.updatedRecord pod active current ∧ ∀ old, current = some old →
      (old.podId = pod.id ∧ (active = false ∨ old.active = true)) ∨
      (old.podId ≠ pod.id ∧ active = true ∧ old.epochNs ≤ pod.epochNs ∧
        old.startId ≠ pod.startId) := by
  cases current with
  | none =>
      obtain ⟨rfl, -⟩ := Decision.writes.inj decides
      exact ⟨rfl, fun old none => nomatch none⟩
  | some old =>
      simp only [Selection.update] at decides
      split at decides
      · cases decides
      · split at decides
        · cases decides
        · rename_i touches
          split at decides
          · cases decides
          · rename_i fences
            obtain ⟨rfl, -⟩ := Decision.writes.inj decides
            refine ⟨rfl, ?_⟩
            intro old present
            obtain rfl := Option.some.inj present
            clear present
            by_cases own : old.podId = pod.id
            · refine Or.inl ⟨own, ?_⟩
              cases active with
              | false => exact Or.inl rfl
              | true =>
                  have alive := by simpa [own] using fences
                  exact Or.inr alive.2
            · cases active with
              | false => exact absurd ⟨rfl, own⟩ touches
              | true =>
                  simp only [true_and, not_or, not_and, not_lt] at fences
                  exact Or.inr ⟨own, rfl, fences.1, fun same => fences.2.1 same own⟩

end GenSubnet.Gateway
