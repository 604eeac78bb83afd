import GenSubnet.Gateway.StartQueue
import GenSubnet.Library.Effects
import Mathlib.Data.List.MinMax
import Mathlib.Data.Prod.Lex
import Mathlib.Data.String.Basic

/-!
# The allocator

`Allocator` of `lifecycle.py`, as programs that ask the provider, the worker's control channel, the
selection, the clock and the queue of starts. What the process keeps in memory is asked for as well,
so that it outlives an error.
-/

namespace GenSubnet.Gateway
open Library Library.Effects

inductive Phase | queued | draining | creating | allocated | retiring | rejected | lost | retired
deriving DecidableEq

structure Session where
  startId : String
  replaces : Option String
  phase : Phase
  specHash : String
  image : String
  podId : Option String := none
  rejection : Option Nat := none
deriving DecidableEq

structure PodSpec where
  image : String
  fingerprint : String
deriving DecidableEq

/-- What `PodSpec.body` asks for; the name ends in `-pending`. -/
structure PodBody where
  scope : Scope
  startId : String
  podSpec : String
  epochNs : Nat
  replaces : Option String
  image : String
deriving DecidableEq

def PodSpec.body (spec : PodSpec) (scope : Scope) (startId : String) (epochNs : Nat)
    (replaces : Option String) : PodBody where
  scope := scope
  startId := startId
  podSpec := spec.fingerprint
  epochNs := epochNs
  replaces := replaces
  image := spec.image

structure Operation where
  session : Session
  epochNs : Nat
  since : Rat
  submitted : Bool := false
deriving DecidableEq

inductive GatewayError
  | providerUnavailable
  /-- A `ProviderUnavailable` too. -/
  | createRejected (status : Nat)
  | inventoryConflict (message : String)
  | allocationConflict (message : String)
  | capacityReached
  | authRejected (code : String) (status : Nat)
  | queue (error : QueueError)
  | assertion
  /-- What a callback, the selection or the control channel raised. -/
  | raised
deriving DecidableEq

def GatewayError.isProviderUnavailable : GatewayError → Bool
  | .providerUnavailable | .createRejected _ => true
  | _ => false

/-! ## Requests -/

inductive Request
  | list (fresh : Bool)
  | get (podId : String)
  | rename (podId : String) (lifecycle : Lifecycle)
  | delete (podId : String)
  | create (body : PodBody)
  | drain (pod : Pod)
  /-- `selection.update`; without a selection nothing happens. -/
  | select (pod : Pod) (active : Bool)
  | revoked (pod : Pod)
  | clock
  | operations
  | remember (scope : Scope) (operation : Operation)
  | forget (scope : Scope)
  /-- `queue.unresolved`, or nothing. -/
  | pendingCreates
  | round
  | fence
  /-- `auth.authorize` -/
  | member (hotkey : String)
  | requireRound (scope : Scope)
  | authorize (scope : Scope) (startId : String)
  | releaseAuthorization (scope : Scope) (startId : String)
  /-- An entry of the queue that is next, as the process has it in memory. -/
  | pick
  | record (scope : Scope) (result : Session)
  | useRound
deriving DecidableEq

@[reducible] def Request.Reply : Request → Type
  | .list _ => List Pod
  | .get _ => Option Pod
  | .create _ => Pod
  | .drain _ | .revoked _ | .fence => Bool
  | .clock => Rat
  | .operations => Dict Scope Operation
  | .pendingCreates => List (Scope × String)
  | .round => String
  | .pick => Option (Scope × PendingStart)
  | .rename _ _ | .delete _ | .select _ _ | .remember _ _ | .forget _ | .member _ | .requireRound _
  | .authorize _ _ | .releaseAuthorization _ _ | .record _ _ | .useRound => Unit

abbrev Process := Prog Request Request.Reply GatewayError

open Prog (outcome)

def ask (q : Request) : Process q.Reply := Prog.request q

structure Allocator where
  spec : PodSpec
  /-- `max_pods` of the admission, if there is one. -/
  maxPods : Option Nat := none
  createGrace : Rat := 600

/-! ## Pods -/

/-- The markers of a Pod that has a scope. -/
def Pod.markers (pod : Pod) : Option Scope × String × String × Nat × Option String :=
  (pod.scope, pod.startId, pod.podSpec, pod.epochNs, pod.replaces)

/-- The name is that of `Scope.name` with this ending. -/
def Pod.Named (pod : Pod) (lifecycle : Lifecycle) : Prop :=
  pod.legacyName = false ∧ pod.lifecycle = lifecycle

instance (pod : Pod) (lifecycle : Lifecycle) : Decidable (pod.Named lifecycle) :=
  inferInstanceAs (Decidable (_ ∧ _))

def Lifecycle.phase : Lifecycle → Phase
  | .pending => .creating
  | .active => .allocated
  | .draining => .retiring
  | .drained => .retired

def Pod.session (pod : Pod) : Session where
  startId := pod.startId
  replaces := pod.replaces
  phase := pod.lifecycle.phase
  specHash := pod.podSpec
  image := pod.image
  podId := some pod.id

def Pod.Matches (pod : Pod) (scope : Scope) (session : Session) : Prop :=
  pod.scope = some scope ∧ pod.startId = session.startId ∧ pod.image = session.image ∧
    pod.podSpec = session.specHash

instance (pod : Pod) (scope : Scope) (session : Session) : Decidable (pod.Matches scope session) :=
  inferInstanceAs (Decidable (_ ∧ _))

/-- `status in ("EXITED", "ERROR")` -/
def Pod.stopped (pod : Pod) : Bool := pod.status = "EXITED" || pod.status = "ERROR"

def owned (inventory : List Pod) (scope : Scope) : List Pod :=
  inventory.filter fun p => p.scope = some scope

/-- `starts[start]` -/
def latestEpoch (pods : List Pod) (startId : String) : Nat :=
  ((pods.filter fun p => p.startId = startId).map Pod.epochNs).foldl max 0

/-- Newer connections supersede older ones; within one, an active Pod wins over a late copy. -/
def winner (pods : List Pod) : Option Pod :=
  match (pods.map Pod.startId).argmax fun s => toLex (latestEpoch pods s, s) with
  | none => none
  | some start =>
      let copies := pods.filter fun p => p.startId = start
      let active := copies.filter fun p => p.lifecycle = .active
      let viable := copies.filter fun p => p.lifecycle = .pending
      (if active ≠ [] then active else if viable ≠ [] then viable else copies).argmin Pod.id

/-- `Admission.check`, of the Pods that are workers of the deployment. -/
def workers (inventory : List Pod) (deployment : String) : List Pod :=
  inventory.filter fun p =>
    p.scope.any fun scope => scope.deployment = deployment && scope.round ≠ "gateway"

/-- `int`, of a time in nanoseconds. -/
def nanoseconds (now : Rat) : Nat := (truncate (now * 1000000000)).toNat

/-! ## Changing one Pod -/

/-- A reply of the provider to a change is not a fact about the Pod. -/
def unconfirmed (p : Process Unit) : Process Unit :=
  tryCatch p fun e => if e.isProviderUnavailable then pure () else throw e

/-- `_rename` -/
def rename (pod : Pod) (lifecycle : Lifecycle) : Process Pod :=
  match pod.scope with
  | none => throw (.inventoryConflict "Invalid Pod ownership")
  | some scope => do
      match ← ask (.get pod.id) with
      | none => throw (.inventoryConflict "Pod identity changed")
      | some current =>
          if current.scope ≠ some scope ∨ current.image ≠ pod.image ∨ current.markers ≠ pod.markers then
            throw (.inventoryConflict "Pod identity changed")
          else if current.Named lifecycle then return current
          else if current.legacyName ≠ pod.legacyName ∨ current.lifecycle ≠ pod.lifecycle then
            throw (.inventoryConflict "Pod lifecycle changed")
          else do
            unconfirmed (ask (.rename pod.id lifecycle))
            match ← ask (.get pod.id) with
            | none => throw .providerUnavailable
            | some actual =>
                if ¬ actual.Named lifecycle ∨ actual.image ≠ pod.image ∨ actual.markers ≠ pod.markers then
                  throw .providerUnavailable
                else return actual

/-- The end of `retire`: delete, and look whether it is gone. -/
def discard (original : Session) (pod : Pod) : Process Session := do
  unconfirmed (ask (.delete pod.id))
  match ← ask (.get pod.id) with
  | some _ => return { original with phase := .retiring }
  | none => return { original with phase := .retired }

/-- Whether there is nothing left to drain, or no drain was asked for. -/
def quiesce (drain : Bool) (pod : Pod) : Process Bool :=
  if drain && !pod.stopped then ask (.drain pod) else pure true

variable (a : Allocator)

def retire (scope : Scope) (startId podId : String) (drain : Bool) : Process Session := do
  match ← ask (.get podId) with
  | none =>
      return { startId, replaces := none, phase := .retired, specHash := a.spec.fingerprint
               image := a.spec.image, podId := some podId }
  | some pod =>
      if pod.scope ≠ some scope ∨ pod.startId ≠ startId then
        throw (.inventoryConflict "Cannot retire a different Pod")
      else do
        ask (.select pod false)
        if pod.lifecycle = .drained then discard pod.session pod
        else do
          let draining ← rename pod .draining
          let quiet ← quiesce drain draining
          if quiet = false then return { pod.session with phase := .retiring }
          else do
            let drained ← rename draining .drained
            discard pod.session drained

/-! ## Choosing the Pod of a scope -/

/-- Retire all but the winner; whether a Pod of another connection is still there. -/
def retireOthers (scope : Scope) (winner : Pod) : List Pod → Process Bool
  | [] => pure false
  | pod :: rest =>
      if pod.id = winner.id then retireOthers scope winner rest
      else do
        let retired ← retire a scope pod.startId pod.id true
        let blocked ← retireOthers scope winner rest
        return (pod.startId ≠ winner.startId && retired.phase ≠ .retired) || blocked

/-- The winner is on its way out, or the selection has revoked it. -/
def outgoing (winner : Pod) : Process Bool :=
  if winner.lifecycle = .draining || winner.lifecycle = .drained || winner.stopped then pure true
  else ask (.revoked winner)

def serve (winner : Pod) : Process Session := do
  ask (.select winner true)
  return winner.session

/-- `_reconcile` -/
def reconcileIn (scope : Scope) (inventory : List Pod) : Process (Option Session) :=
  match winner (owned inventory scope) with
  | none => return none
  | some winner => do
      let blocked ← retireOthers a scope winner (owned inventory scope)
      let out ← outgoing winner
      if out = true then some <$> retire a scope winner.startId winner.id true
      else if winner.lifecycle = .pending then
        if blocked then return some winner.session
        else if winner.image ≠ a.spec.image ∨ winner.podSpec ≠ a.spec.fingerprint then
          some <$> retire a scope winner.startId winner.id true
        else do
          ask (.select winner true)
          let active ← rename winner .active
          some <$> serve active
      else some <$> serve winner

def current (scope : Scope) : Process (Option Session) := do
  let pod := winner (owned (← ask (.list false)) scope)
  let operations ← ask .operations
  match Dict.get operations scope with
  | none => return pod.map Pod.session
  | some operation =>
      if operation.session.phase = .creating ∨ operation.session.phase = .draining then do
        let now ← ask .clock
        if a.createGrace ≤ now - operation.since then do
          ask (.remember scope
            { operation with session := { operation.session with phase := .lost, podId := none } })
          return pod.map Pod.session
        else if pod.all fun pod => pod.epochNs < operation.epochNs then return some operation.session
        else return pod.map Pod.session
      else return pod.map Pod.session

def status (scope : Scope) (startId : String) : Process (Option Session) := do
  let inventory ← ask (.list false)
  match winner ((owned inventory scope).filter fun p => p.startId = startId) with
  | some pod => return some pod.session
  | none => do
      let operations ← ask .operations
      match Dict.get operations scope with
      | none => return none
      | some operation =>
          if operation.session.startId ≠ startId then return none
          else if operation.session.phase = .allocated then
            return some { operation.session with phase := .lost, podId := none }
          else do
            let now ← ask .clock
            if a.createGrace ≤ now - operation.since then
              return some { operation.session with phase := .lost, podId := none }
            else return some operation.session

/-! ## Creating a Pod -/

/-- Retire the earlier Pods of the hotkey, until one is not gone. -/
def retireEarlier (scope : Scope) : List Pod → Process Bool
  | [] => pure true
  | pod :: rest =>
      match pod.scope with
      | none => retireEarlier scope rest
      | some owner =>
          if owner ≠ scope ∧ (scope.round = "gateway" ∨ owner.round = "gateway" ∨
              owner.deployment ≠ scope.deployment ∨ owner.hotkey ≠ scope.hotkey) then
            retireEarlier scope rest
          else do
            let retired ← retire a owner pod.startId pod.id
              (scope.round = "gateway" || owner.round ≠ scope.round)
            if retired.phase ≠ .retired then return false else retireEarlier scope rest

/-- The creates of this process that are uncertain. -/
def uncertainCreates : List (Scope × Operation) → Process (List (Scope × String))
  | [] => pure []
  | (scope, operation) :: rest =>
      if operation.submitted ∧ operation.session.phase = .creating then do
        let now ← ask .clock
        let others ← uncertainCreates rest
        return if now - operation.since < a.createGrace then
          (scope, operation.session.startId) :: others else others
      else uncertainCreates rest

/-- The creates that are pending and of which no Pod is listed. -/
def unlisted (inventory : List Pod) (deployment : String) (pending : List (Scope × String)) :
    List (Scope × String) :=
  pending.dedup.filter fun item =>
    item.1.deployment = deployment && (some item.1, item.2) ∉ inventory.map fun p => (p.scope, p.startId)

def checkAdmission (scope : Scope) (inventory : List Pod) : Process Unit :=
  match a.maxPods with
  | none => pure ()
  | some maxPods => do
      let operations ← ask .operations
      let uncertain ← uncertainCreates a (Dict.items operations)
      let pending ← ask .pendingCreates
      if maxPods ≤ (workers inventory scope.deployment).length +
          (unlisted inventory scope.deployment (uncertain ++ pending)).length then
        throw .capacityReached
      else pure ()

def requireFence : Process Unit := do
  if (← ask .fence) = true then pure () else throw (.authRejected "gateway_fenced" 503)

/-- `_authorize_create` of the gateway, the allocator's `before_create`. -/
def authorizeCreate (scope : Scope) (startId : String) : Process Unit := do
  let round ← ask .round
  if scope.round ≠ round then throw (.authRejected "gateway_fenced" 503)
  else do
    requireFence
    ask (.member scope.hotkey)
    ask (.requireRound scope)
    ask (.authorize scope startId)
    requireFence
    ask (.requireRound scope)

/-- The create itself, and what its reply says. -/
def dispatch (scope : Scope) (operation : Operation) : Process Session := do
  match ← outcome (ask (.create (a.spec.body scope operation.session.startId operation.epochNs
      operation.session.replaces))) with
  | .error (.createRejected status) => do
      let session := { operation.session with phase := .rejected, rejection := some status }
      ask (.remember scope { operation with session })
      return session
  | .error e => if e.isProviderUnavailable then return operation.session else throw e
  | .ok pod =>
      if ¬ Pod.Matches pod scope operation.session then
        throw (.inventoryConflict "Create returned a different Pod")
      else do
        match ← reconcileIn a scope (← ask (.list true)) with
        | some actual => do
            ask (.remember scope { operation with session := actual })
            return actual
        | none => return operation.session

/-- `_progress`, of the operation of the scope. -/
def progress (scope : Scope) (operation : Operation) : Process Session := do
  let inventory ← ask (.list true)
  if (owned inventory scope).any fun p => p.startId = operation.session.startId then do
    match ← reconcileIn a scope inventory with
    | none => throw .assertion
    | some actual => do
        ask (.remember scope { operation with session := actual })
        return actual
  else if operation.submitted then return operation.session
  else do
    let retired ← retireEarlier a scope inventory
    if retired = false then return operation.session
    else do
      checkAdmission a scope (← ask (.list true))
      authorizeCreate scope operation.session.startId
      let now ← ask .clock
      let submitted :=
        { operation with
          epochNs := max operation.epochNs (nanoseconds now)
          submitted := true
          session := { operation.session with phase := .creating } }
      ask (.remember scope submitted)
      dispatch a scope submitted

/-! ## The calls -/

def reconcile (scope : Scope) : Process (Option Session) := do
  let operations ← ask .operations
  match Dict.get operations scope with
  | none =>
      match ← reconcileIn a scope (← ask (.list true)) with
      | some actual => return some actual
      | none => current a scope
  | some operation =>
      if operation.session.phase = .draining ∧ operation.submitted = false then
        some <$> progress a scope operation
      else
        match ← reconcileIn a scope (← ask (.list true)) with
        | some actual =>
            if actual.startId = operation.session.startId then do
              ask (.remember scope { operation with session := actual })
              return some actual
            else return some actual
        | none => current a scope

/-- Forget an intent that was not submitted, without changing Pods. -/
def cancel (scope : Scope) (startId : String) : Process Unit := do
  let operations ← ask .operations
  match Dict.get operations scope with
  | none => pure ()
  | some operation =>
      if operation.session.startId = startId ∧ operation.submitted = false then ask (.forget scope)
      else pure ()

/-- A new intent of the scope. -/
def begin (scope : Scope) (startId : String) (replaces : Option String) (pods : List Pod) :
    Process Session := do
  let now ← ask .clock
  let since ← ask .clock
  let operation : Operation :=
    { session :=
        { startId, replaces, phase := .draining, specHash := a.spec.fingerprint, image := a.spec.image }
      epochNs := max (nanoseconds now) ((pods.map Pod.epochNs).foldl max 0 + 1)
      since }
  ask (.remember scope operation)
  progress a scope operation

def acquire (scope : Scope) (startId : String) (replaces : Option String) : Process Session := do
  let inventory ← ask (.list true)
  let pods := owned inventory scope
  match winner (pods.filter fun p => p.startId = startId) with
  | some existing =>
      if existing.session.replaces ≠ replaces ∨ existing.session.specHash ≠ a.spec.fingerprint then
        throw (.allocationConflict "Connection ID has different parameters")
      else do
        let _ ← reconcileIn a scope inventory
        return (← status a scope startId).getD { existing.session with phase := .retired }
  | none => do
      let operations ← ask .operations
      match Dict.get operations scope with
      | none => begin a scope startId replaces pods
      | some operation =>
          if operation.session.startId = startId then
            if operation.session.replaces ≠ replaces ∨ operation.session.specHash ≠ a.spec.fingerprint then
              throw (.allocationConflict "Connection ID has different parameters")
            else do
              let now ← ask .clock
              if a.createGrace ≤ now - operation.since then
                return { operation.session with phase := .lost, podId := none }
              else progress a scope operation
          else if operation.session.phase = .draining ∨ operation.session.phase = .creating then do
            let now ← ask .clock
            if now - operation.since < a.createGrace then
              throw (.allocationConflict "A create attempt is still unresolved")
            else begin a scope startId replaces pods
          else begin a scope startId replaces pods

/-! ## What the programs ask -/

/-- What a retirement asks. -/
def Request.retires : Request → Bool
  | .get _ | .select _ _ | .drain _ | .delete _ => true
  | .rename _ lifecycle => lifecycle ≠ .active
  | _ => false

/-- What the choice of a Pod asks. -/
def Request.chooses : Request → Bool
  | .rename _ _ | .revoked _ => true
  | q => q.retires

/-- What is read of the process and the clock. -/
def Request.counts : Request → Bool
  | .operations | .clock | .pendingCreates => true
  | _ => false

theorem Request.chooses_of_retires (q : Request) (retires : q.retires = true) : q.chooses = true := by
  cases q <;> first | rfl | exact retires

open Prog

variable {a} {scope : Scope}

theorem asks {allowed : Request → Prop} {q : Request} (member : allowed q) : (ask q).Asks allowed :=
  asks_request member

theorem asks_unconfirmed {allowed : Request → Prop} {p : Process Unit} (asks : p.Asks allowed) :
    (unconfirmed p).Asks allowed := by
  refine asks.tryCatch ?_
  intro e
  split
  · exact asks_pure ()
  · exact asks_throw e

theorem asks_rename {allowed : Request → Prop} {pod : Pod} {lifecycle : Lifecycle}
    (gets : allowed (.get pod.id)) (renames : allowed (.rename pod.id lifecycle)) :
    (rename pod lifecycle).Asks allowed := by
  unfold rename
  split
  · exact asks_throw _
  · refine Asks.bind (asks gets) fun found => ?_
    split
    · exact asks_throw _
    · split_ifs
      · exact asks_throw _
      · exact asks_pure _
      · exact asks_throw _
      · refine Asks.bind (asks_unconfirmed (asks renames)) fun _ => ?_
        refine Asks.bind (asks gets) fun actual => ?_
        split
        · exact asks_throw _
        · split
          · exact asks_throw _
          · exact asks_pure _

theorem asks_discard (original : Session) (pod : Pod) :
    (discard original pod).Asks fun q => q.retires = true := by
  refine Asks.bind (asks_unconfirmed (asks rfl)) fun _ => ?_
  refine Asks.bind (asks rfl) fun found => ?_
  split
  · exact asks_pure _
  · exact asks_pure _

theorem asks_retire (startId podId : String) (drain : Bool) :
    (retire a scope startId podId drain).Asks fun q => q.retires = true := by
  refine Asks.bind (asks rfl) fun found => ?_
  split
  · exact asks_pure _
  · rename_i pod
    split
    · exact asks_throw _
    · refine Asks.bind (asks rfl) fun _ => ?_
      split
      · exact asks_discard _ _
      · refine Asks.bind (asks_rename rfl rfl) fun draining => ?_
        have quiesces : (quiesce drain draining).Asks fun q => q.retires = true := by
          unfold quiesce
          split
          · exact asks rfl
          · exact asks_pure true
        refine quiesces.bind fun quiet => ?_
        split
        · exact asks_pure _
        · exact Asks.bind (asks_rename rfl rfl) fun drained => asks_discard _ _

theorem asks_retireOthers (winner : Pod) (pods : List Pod) :
    (retireOthers a scope winner pods).Asks fun q => q.retires = true := by
  induction pods with
  | nil => exact asks_pure false
  | cons pod rest ih =>
      rw [retireOthers]
      split
      · exact ih
      · exact (asks_retire _ _ _).bind fun retired => ih.bind fun blocked => asks_pure _

theorem asks_serve (pod : Pod) : (serve pod).Asks fun q => q.chooses = true :=
  Asks.bind (asks rfl) fun _ => asks_pure _

theorem asks_reconcileIn (inventory : List Pod) :
    (reconcileIn a scope inventory).Asks fun q => q.chooses = true := by
  unfold reconcileIn
  split
  · exact asks_pure _
  · rename_i pod _
    have retires : (some <$> retire a scope pod.startId pod.id true).Asks fun q => q.chooses = true :=
      ((asks_retire _ _ _).mono Request.chooses_of_retires).map some
    refine ((asks_retireOthers pod _).mono Request.chooses_of_retires).bind fun blocked => ?_
    have goes : (outgoing pod).Asks fun q => q.chooses = true := by
      unfold outgoing
      split
      · exact asks_pure true
      · exact asks rfl
    refine goes.bind fun out => ?_
    split
    · exact retires
    · split
      · split
        · exact asks_pure _
        · split
          · exact retires
          · refine Asks.bind (asks rfl) fun _ => ?_
            exact Asks.bind (asks_rename rfl rfl) fun active => (asks_serve _).map some
      · exact (asks_serve _).map some

theorem asks_retireEarlier (inventory : List Pod) :
    (retireEarlier a scope inventory).Asks fun q => q.retires = true := by
  induction inventory with
  | nil => exact asks_pure true
  | cons pod rest ih =>
      rw [retireEarlier]
      split
      · exact ih
      · split
        · exact ih
        · refine (asks_retire _ _ _).bind fun retired => ?_
          split
          · exact asks_pure false
          · exact ih

theorem asks_uncertainCreates (items : List (Scope × Operation)) :
    (uncertainCreates a items).Asks fun q => q.counts = true := by
  induction items with
  | nil => exact asks_pure []
  | cons item rest ih =>
      rw [uncertainCreates]
      split
      · exact Asks.bind (asks rfl) fun now => ih.bind fun others => asks_pure _
      · exact ih

theorem asks_checkAdmission (inventory : List Pod) :
    (checkAdmission a scope inventory).Asks fun q => q.counts = true := by
  unfold checkAdmission
  split
  · exact asks_pure ()
  · refine Asks.bind (asks rfl) fun operations => ?_
    refine (asks_uncertainCreates _).bind fun uncertain => ?_
    refine Asks.bind (asks rfl) fun pending => ?_
    split
    · exact asks_throw _
    · exact asks_pure ()

end GenSubnet.Gateway
