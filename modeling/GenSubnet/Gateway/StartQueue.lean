import GenSubnet.Gateway.Inventory
import GenSubnet.Library.Dict
import Mathlib.Data.Rat.Floor

/-!
# The queue of starts

`StartQueue` of `admission.py`: one intent for each hotkey, the attempts that were made, and creates
that are still uncertain. Every change reads the journal, changes it and saves it; the process keeps
a copy of what it has loaded or saved last.
-/

namespace GenSubnet.Gateway
open Library

structure PendingStart where
  round : String
  startId : String
  replaces : Option String
  sequence : Nat
  eligibleAt : Int
  submitted : Bool := false
deriving DecidableEq

structure CreateAttempt where
  round : String
  startId : String
  atTime : Int
  rejected : Bool := false
  submitted : Bool := true
deriving DecidableEq

structure QueueState where
  sequence : Nat := 0
  lastCreateAt : Option Int := none
  pending : Dict String PendingStart := .empty
  attempts : Dict String CreateAttempt := .empty
  history : Dict String (Dict String CreateAttempt) := .empty
  /-- The key `hotkey/start_id` is a pair: no hotkey has a slash. -/
  retained : Dict (String × String) CreateAttempt := .empty
deriving DecidableEq

inductive QueueError
  | createDeferred (retryAt : Rat)
  | capacityReached
  | stateConflict
  | keyError
  /-- The save raised. -/
  | unsaved
deriving DecidableEq

structure QueueSettings where
  interval : Rat := 10
  capacity : Nat := 1024

/-- `int`, of a number of seconds. -/
def truncate (seconds : Rat) : Int := if 0 ≤ seconds then ⌊seconds⌋ else ⌈seconds⌉

/-! ## Reading -/

def QueueState.historyOf (state : QueueState) (hotkey : String) : Dict String CreateAttempt :=
  (state.history.get hotkey).getD .empty

/-- `history.setdefault(hotkey, {})[start_id] = attempt` -/
def QueueState.setHistory (state : QueueState) (hotkey startId : String) (attempt : CreateAttempt) :
    QueueState :=
  { state with history := state.history.set hotkey ((state.historyOf hotkey).set startId attempt) }

/-- What `_load` makes of the journal: current attempts are part of the history. -/
def QueueState.loaded (state : QueueState) (now : Rat) : QueueState :=
  { state with
    pending := state.pending.mapValues fun entry =>
      { entry with eligibleAt := min entry.eligibleAt (truncate now) }
    history := state.attempts.items.foldl (fun history item =>
      history.set item.1 (((history.get item.1).getD .empty).setDefault item.2.startId item.2))
      state.history }

/-- `pending` -/
def QueueState.entry (state : QueueState) (scope : Scope) : Option PendingStart :=
  (state.pending.get scope.hotkey).filter fun entry => entry.round = scope.round

/-- `attempt`, of the connection with an identifier, through its alias. -/
def QueueState.attempt (state : QueueState) (scope : Scope) (startId : String) :
    Option CreateAttempt :=
  match ((state.historyOf scope.hotkey).get startId).filter fun a => a.round = scope.round with
  | none => none
  | some found =>
      (some (((state.historyOf scope.hotkey).get found.startId).getD found)).filter fun a =>
        a.round = scope.round

/-- `attempt`, of the hotkey. -/
def QueueState.latestAttempt (state : QueueState) (scope : Scope) : Option CreateAttempt :=
  (state.attempts.get scope.hotkey).filter fun a => a.round = scope.round

/-- The entry is this connection of this round. -/
def PendingStart.Is (entry : PendingStart) (scope : Scope) (startId : String) : Prop :=
  entry.round = scope.round ∧ entry.startId = startId

instance (entry : PendingStart) (scope : Scope) (startId : String) :
    Decidable (entry.Is scope startId) :=
  inferInstanceAs (Decidable (_ ∧ _))

/-- `entries`, in no particular order. -/
def QueueState.entries (state : QueueState) (deployment : String) : List (Scope × PendingStart) :=
  state.pending.items.map fun item => (⟨deployment, item.2.round, item.1⟩, item.2)

/-- Creates whose Pod may not be visible yet. -/
def QueueState.unresolved (state : QueueState) (deployment : String) (now : Rat) :
    List (Scope × String) :=
  ((state.entries deployment).filter fun item => item.2.submitted).map
      (fun item => (item.1, item.2.startId)) ++
    (state.retained.items.filter fun item => now - item.2.atTime < 600).map fun item =>
      (⟨deployment, item.2.round, item.1.1⟩, item.1.2)

/-! ## Changes -/

variable (settings : QueueSettings) (scope : Scope) (startId : String) (now : Rat)
  (state : QueueState)

def unsubmitted (round startId : String) (now : Rat) : CreateAttempt where
  round := round
  startId := startId
  atTime := ⌈now⌉
  submitted := false

/-- The connection was attempted or asked for in this round. -/
def QueueState.Known (state : QueueState) (scope : Scope) (startId : String) : Prop :=
  ∃ a ∈ (state.historyOf scope.hotkey).get startId, a.round = scope.round

instance : Decidable (state.Known scope startId) :=
  match h : (state.historyOf scope.hotkey).get startId with
  | none => isFalse (by rintro ⟨a, member, -⟩; rw [h] at member; cases member)
  | some a =>
      decidable_of_iff (a.round = scope.round) (by simp [QueueState.Known, h])

def QueueState.enqueue (replaces : Option String) : Except QueueError (QueueState × PendingStart) :=
  match state.pending.get scope.hotkey with
  | some current =>
      if current.round ≠ scope.round then .error (.createDeferred (now + 60))
      else if state.Known scope startId then .ok (state, current)
      else .ok (state.setHistory scope.hotkey startId
        (unsubmitted scope.round current.startId now), current)
  | none =>
      if settings.capacity ≤ state.pending.size then .error .capacityReached
      else if state.Known scope startId then .error .stateConflict
      else
        let entry : PendingStart :=
          { round := scope.round, startId, replaces, sequence := state.sequence + 1
            eligibleAt := truncate now }
        .ok (QueueState.setHistory
          { state with
            sequence := state.sequence + 1
            pending := state.pending.set scope.hotkey entry }
          scope.hotkey startId (unsubmitted scope.round startId now), entry)

/-- When the next create is due. -/
def QueueState.due : Rat :=
  match state.lastCreateAt with
  | none => 0
  | some last => if settings.interval = 0 then 0 else last + settings.interval

/-- The connection was submitted in this round. -/
def QueueState.Submitted (state : QueueState) (scope : Scope) (startId : String) : Prop :=
  ∃ a ∈ (state.historyOf scope.hotkey).get startId, a.round = scope.round ∧ a.submitted = true

instance : Decidable (state.Submitted scope startId) :=
  match h : (state.historyOf scope.hotkey).get startId with
  | none => isFalse (by rintro ⟨a, member, -⟩; rw [h] at member; cases member)
  | some a =>
      decidable_of_iff (a.round = scope.round ∧ a.submitted = true)
        (by simp [QueueState.Submitted, h])

def QueueState.authorize : Except QueueError QueueState :=
  match state.pending.get scope.hotkey with
  | none => .error (.createDeferred (now + 60))
  | some entry =>
      if ¬ entry.Is scope startId ∨ entry.submitted then .error (.createDeferred (now + 60))
      else if now < state.due settings then .error (.createDeferred (state.due settings))
      else if state.Submitted scope startId then .error .stateConflict
      else
        let attempt : CreateAttempt := { round := scope.round, startId, atTime := ⌈now⌉ }
        .ok (QueueState.setHistory
          { state with
            pending := state.pending.set scope.hotkey { entry with submitted := true }
            attempts := state.attempts.set scope.hotkey attempt
            lastCreateAt := some ⌈now⌉ }
          scope.hotkey startId attempt)

/-- `max(previous, key=lambda attempt: attempt.at)`, the first of them. -/
def latest : List CreateAttempt → Option CreateAttempt
  | [] => none
  | a :: rest =>
      match latest rest with
      | none => some a
      | some b => if a.atTime < b.atTime then some b else some a

def QueueState.releaseAuthorization : Except QueueError QueueState :=
  match state.pending.get scope.hotkey with
  | none => .ok state
  | some entry =>
      if ¬ entry.Is scope startId ∨ entry.submitted = false then .ok state
      else
        match state.history.get scope.hotkey with
        | none => .error .keyError
        | some history =>
            match history.get startId with
            | none => .error .keyError
            | some own =>
                let history := history.set startId { own with submitted := false }
                let previous := (history.items.map Prod.snd).filter fun a =>
                  a.round = scope.round && a.submitted
                .ok { state with
                  pending := state.pending.set scope.hotkey { entry with submitted := false }
                  history := state.history.set scope.hotkey history
                  attempts :=
                    match latest previous with
                    | some a => state.attempts.set scope.hotkey a
                    | none => state.attempts.erase scope.hotkey }

/-- The pending starts without the entry of a connection. -/
def QueueState.withoutEntry : Dict String PendingStart :=
  match state.pending.get scope.hotkey with
  | some entry =>
      if entry.Is scope startId then state.pending.erase scope.hotkey else state.pending
  | none => state.pending

def QueueState.complete (rejected : Bool) : QueueState :=
  match state.attempts.get scope.hotkey with
  | some previous =>
      if rejected ∧ previous.round = scope.round ∧ previous.startId = startId then
        QueueState.setHistory
          { state with
            pending := state.withoutEntry scope startId
            attempts := state.attempts.set scope.hotkey { previous with rejected := true } }
          scope.hotkey startId { previous with rejected := true }
      else { state with pending := state.withoutEntry scope startId }
  | none => { state with pending := state.withoutEntry scope startId }

def QueueState.cancel : QueueState × Bool :=
  match state.pending.get scope.hotkey with
  | none => (state, true)
  | some entry =>
      if ¬ entry.Is scope startId ∨ entry.submitted then (state, false)
      else ({ state with pending := state.pending.erase scope.hotkey }, true)

/-- The attempts and the history of one round. -/
def QueueState.keepRound (round : String) : QueueState :=
  { state with
    attempts := state.attempts.filter fun _ a => a.round = round
    history := state.history.mapValues fun attempts => attempts.filter fun _ a => a.round = round }

def QueueState.discardOld (round : String) : QueueState :=
  { state.keepRound round with
    pending := state.pending.filter fun _ entry => entry.round = round || entry.submitted }

/-- Retain the attempts of the submitted entries of other rounds. -/
def retainOld (round : String) (attempts : Dict String CreateAttempt) :
    List (String × PendingStart) → Dict (String × String) CreateAttempt →
      Except QueueError (Dict (String × String) CreateAttempt)
  | [], retained => .ok retained
  | (hotkey, entry) :: rest, retained =>
      if entry.round ≠ round ∧ entry.submitted then
        match attempts.get hotkey with
        | none => .error .keyError
        | some attempt => retainOld round attempts rest (retained.set (hotkey, entry.startId) attempt)
      else retainOld round attempts rest retained

def QueueState.rollover (round : String) : Except QueueError QueueState :=
  match retainOld round state.attempts state.pending.items state.retained with
  | .error e => .error e
  | .ok retained =>
      .ok { state.keepRound round with
        retained := retained.filter fun _ a => now - a.atTime < 600
        pending := state.pending.filter fun _ entry => entry.round = round }

/-! ## The process -/

/-- What becomes of a save: the answer of an uncertain one is lost. -/
inductive Saving | saved | rejected | uncertain
deriving DecidableEq

structure StartQueue where
  stored : QueueState := {}
  memory : QueueState := {}
deriving DecidableEq

/-- `_change` -/
def StartQueue.change {α : Type} (q : StartQueue) (now : Rat) (saving : Saving)
    (change : QueueState → Except QueueError (QueueState × α)) : StartQueue × Except QueueError α :=
  match change (q.stored.loaded now) with
  | .error e => (q, .error e)
  | .ok (state, result) =>
      match saving with
      | .saved => (⟨state, state⟩, .ok result)
      | .rejected => (q, .error .unsaved)
      | .uncertain => ({ q with stored := state }, .error .unsaved)

def StartQueue.load (q : StartQueue) (now : Rat) : StartQueue :=
  { q with memory := q.stored.loaded now }

end GenSubnet.Gateway
