import Mathlib.Data.List.Basic
import Mathlib.Data.Set.Basic

/-!
# The inventory of the provider

`models.py`: scopes, and Pods as the provider lists them. The scope is what `Pod.scope` makes of the
markers and the name; it is absent when these are not those of a worker or a gateway.
-/

namespace GenSubnet.Gateway

structure Scope where
  deployment : String
  round : String
  hotkey : String
deriving DecidableEq

/-- The last part of the name. -/
inductive Lifecycle | pending | active | draining | drained
deriving DecidableEq

structure Pod where
  id : String
  scope : Option Scope
  startId : String
  podSpec : String := ""
  epochNs : Nat
  replaces : Option String := none
  image : String := ""
  status : String := "RUNNING"
  lifecycle : Lifecycle := .pending
  /-- The name is of the older form, with a hash of the hotkey. -/
  legacyName : Bool := false
deriving DecidableEq

/-- The Pods of a scope: one identifier has one set of markers, and different connections have
different epochs. -/
structure Inventory (pods : Set Pod) : Prop where
  identified : ∀ p ∈ pods, ∀ q ∈ pods, p.id = q.id → p.startId = q.startId ∧ p.epochNs = q.epochNs
  epochs : ∀ p ∈ pods, ∀ q ∈ pods, p.startId ≠ q.startId → p.epochNs ≠ q.epochNs

end GenSubnet.Gateway
