import GenSubnet.Library.Dict
import GenSubnet.Library.Transition
import Mathlib.Data.Finset.Card

/-!
# The schedule of an execution

`Schedule` of `observations.py`: it records the calls that a program makes, with the ticks at which
they began and ended, and on a later run holds every call back until it may begin, or end, in the
recorded order. A call holds the lock but for the operation itself and while it waits.
-/

namespace GenSubnet.Runtime
open Library

inductive Action | create | next | close
deriving DecidableEq

/-- `Observation.identity`, with the id of the request key. -/
structure Identity where
  key : String
  occurrence : Nat
  action : Action
  index : Nat
deriving DecidableEq

inductive Source | client | gateway | provider
deriving DecidableEq

structure Failure where
  message : String
  exchangeId : Option String
  statusCode : Option Nat
  code : Option String
  source : Source
  pending : Bool := false
deriving DecidableEq

/-- How an operation ends. -/
inductive Ending
  /-- It returns; with a captured response, the exchange of that. -/
  | returned (exchangeId : Option String)
  /-- It raises a witness error, of the class. -/
  | raised (name : String) (failure : Failure)
  /-- It raises something else. -/
  | other (name : String)
deriving DecidableEq

/-- `outcome`: `return`, or the name of the class of the error. -/
def Ending.outcome : Ending → String
  | .returned _ => "return"
  | .raised name _ => name
  | .other name => name

structure Observation where
  identity : Identity
  stream : Bool
  entered : Nat
  exited : Option Nat := none
  outcome : Option String := none
  exchangeId : Option String := none
  failure : Option Failure := none
deriving DecidableEq

structure Execution where
  observations : List Observation := []
  finished : Bool := false
  outputSha256 : Option String := none
  outputIsNone : Bool := false
deriving DecidableEq

structure Schedule where
  execution : Execution
  record : Bool
  /-- For each identity the observation that stands for it, by its position. -/
  steps : Dict Identity Nat
  tick : Nat
  saved : Finset Identity
  started : Finset Identity := ∅
  done : Finset Identity := ∅
  counts : Dict String Nat := .empty
  failure : Option String := none

/-! ## A new schedule -/

def Observation.times (o : Observation) : List Nat := o.entered :: o.exited.toList

def Execution.times (e : Execution) : List Nat := e.observations.flatMap Observation.times

def Execution.identities (e : Execution) : List Identity := e.observations.map Observation.identity

/-- `Execution observation order is invalid`, if not. -/
def Execution.Valid (e : Execution) : Prop :=
  e.identities.Nodup ∧ e.times.Nodup ∧ e.times.mergeSort = List.range e.times.length ∧
    (∀ o ∈ e.observations, ∀ exited ∈ o.exited, o.entered < exited) ∧
    (e.finished = true → ∀ o ∈ e.observations, o.exited ≠ none)

instance (e : Execution) : Decidable e.Valid :=
  inferInstanceAs (Decidable (_ ∧ _ ∧ _ ∧ (∀ o ∈ e.observations, ∀ exited ∈ o.exited, _) ∧
    (_ → ∀ o ∈ e.observations, _)))

/-- Where each identity is, from a position on. -/
def positions : Nat → List Observation → Dict Identity Nat → Dict Identity Nat
  | _, [], steps => steps
  | n, o :: rest, steps => positions (n + 1) rest (steps.set o.identity n)

def Schedule.init (e : Execution) (record : Bool) : Option Schedule :=
  if e.Valid then some {
    execution := e
    record
    steps := positions 0 e.observations .empty
    tick := e.times.length
    saved := e.identities.toFinset }
  else none

/-! ## A call -/

/-- Where a call is. -/
inductive Point
  /-- A new step waits until everything that was saved is done. -/
  | saving
  | entering (entry : Nat) (replay : Bool)
  | running (entry : Nat) (replay : Bool)
  | exiting (entry : Nat) (ending : Ending)
  | ended (ending : Ending)
  | mismatched
deriving DecidableEq

variable (s : Schedule)

def Schedule.observations : List Observation := s.execution.observations

/-- `mismatch` -/
def Schedule.mismatch (message : String) : Schedule × Point :=
  ({ s with failure := some message }, .mismatched)

/-- Every step that had exited before this one entered is done. -/
def Schedule.MayEnter (entry : Observation) : Prop :=
  ∀ item ∈ s.steps.items, ∀ other ∈ s.observations[item.2]?, ∀ exited ∈ other.exited,
    exited < entry.entered → other.identity ∈ s.done

instance (entry : Observation) : Decidable (s.MayEnter entry) :=
  inferInstanceAs (Decidable (∀ item ∈ s.steps.items, ∀ other ∈ s.observations[item.2]?,
    ∀ exited ∈ other.exited, _ → _))

/-- Every step that had entered before this one exited is started, and every one that had exited
before is done. -/
def Schedule.MayExit (exit : Nat) : Prop :=
  ∀ item ∈ s.steps.items, ∀ other ∈ s.observations[item.2]?,
    (other.entered < exit → other.identity ∈ s.started) ∧
      ∀ exited ∈ other.exited, exited < exit → other.identity ∈ s.done

instance (exit : Nat) : Decidable (s.MayExit exit) :=
  inferInstanceAs (Decidable (∀ item ∈ s.steps.items, ∀ other ∈ s.observations[item.2]?,
    _ ∧ ∀ exited ∈ other.exited, _ → _))

/-- What a thread does when its wait is not over: it waits on, unless the schedule has failed or its
time is up. -/
def Schedule.hold (point : Point) (expired : Bool) : Schedule × Point :=
  match s.failure with
  | some _ => (s, .mismatched)
  | none =>
      if expired then s.mismatch "Execution has missing work or incompatible observation order"
      else (s, point)

def Schedule.enter (entry : Nat) (replay expired : Bool) : Schedule × Point :=
  match s.observations[entry]? with
  | none => (s, .mismatched)
  | some o =>
      if s.MayEnter o then ({ s with started := insert o.identity s.started }, .running entry replay)
      else s.hold (.entering entry replay) expired

/-- The step has an observation. -/
def Schedule.found (entry : Nat) (stream expired : Bool) : Schedule × Point :=
  match s.observations[entry]? with
  | none => (s, .mismatched)
  | some o =>
      if o.stream ≠ stream ∨ o.identity ∈ s.started then
        s.mismatch "Execution changed its model-call interface"
      else s.enter entry o.exited.isSome expired

def Schedule.add (identity : Identity) (stream : Bool) : Schedule :=
  { s with
    execution := { s.execution with
      observations := s.observations ++ [{ identity, stream, entered := s.tick }] }
    steps := s.steps.set identity s.observations.length
    tick := s.tick + 1 }

def Schedule.create (identity : Identity) (stream expired : Bool) : Schedule × Point :=
  if s.saved ⊆ s.done then (s.add identity stream).found s.observations.length stream expired
  else s.hold .saving expired

/-- `step`, up to its operation. -/
def Schedule.arrive (identity : Identity) (stream expired : Bool) : Schedule × Point :=
  match s.failure with
  | some _ => (s, .mismatched)
  | none =>
      match s.steps.get identity with
      | some entry => s.found entry stream expired
      | none =>
          if s.record = false ∨ s.execution.finished = true then
            s.mismatch "Execution changed a request, request_id, stream operation or occurrence"
          else s.create identity stream expired

def Schedule.exit (entry : Nat) (ending : Ending) (expired : Bool) : Schedule × Point :=
  match s.observations[entry]? with
  | none => (s, .mismatched)
  | some o =>
      if s.MayExit (o.exited.getD 0) then ({ s with done := insert o.identity s.done }, .ended ending)
      else s.hold (.exiting entry ending) expired

/-- What is recorded of an ending. -/
def Observation.close (o : Observation) (tick : Nat) (ending : Ending) : Observation :=
  { o with
    exited := some tick
    outcome := some ending.outcome
    failure := match ending with
      | .raised _ failure => some failure
      | _ => o.failure
    exchangeId := match ending with
      | .raised _ failure => failure.exchangeId
      | .returned (some exchangeId) => some exchangeId
      | _ => o.exchangeId }

/-- `Failure.restore` -/
def Failure.restore (failure : Failure) : Ending :=
  .raised (if failure.pending ∧ failure.exchangeId.isSome then "ExchangePending" else "WitnessError")
    failure

/-- How a recorded step ends when it runs again: a recorded failure is raised. -/
def Observation.replayed (o : Observation) (ending : Ending) : Ending :=
  match o.failure with
  | some failure => failure.restore
  | none => ending

/-- `step`, from the end of its operation. -/
def Schedule.complete (entry : Nat) (replay : Bool) (ending : Ending) (expired : Bool) : Schedule × Point :=
  match s.observations[entry]? with
  | none => (s, .mismatched)
  | some o =>
      if replay then
        let ending := o.replayed ending
        if o.outcome ≠ some ending.outcome then
          s.mismatch "Retained observation produced a different outcome"
        else s.exit entry ending expired
      else
        ({ s with
          execution := { s.execution with
            observations := s.observations.set entry (o.close s.tick ending) }
          tick := s.tick + 1
          done := insert o.identity s.done }, .ended ending)

/-- A waiting thread looks again. -/
def Schedule.wake (identity : Identity) (stream : Bool) (expired : Bool) : Point →
    Option (Schedule × Point)
  | .saving => some (s.create identity stream expired)
  | .entering entry replay => some (s.enter entry replay expired)
  | .exiting entry ending => some (s.exit entry ending expired)
  | .running _ _ | .ended _ | .mismatched => none

/-- `occurrence` -/
def Schedule.occurrence (key : String) : Schedule × Nat :=
  let value := (s.counts.get key).getD 0
  ({ s with counts := s.counts.set key (value + 1) }, value)

/-- `finish`, of an output with a digest. -/
def Schedule.finish (digest : String) (isNone : Bool) : Schedule × Bool :=
  if s.failure.isSome ∨ s.done.card ≠ s.steps.size then
    ({ s with failure := some "Execution did not consume its observations" }, false)
  else if s.execution.finished then
    if s.execution.outputSha256 ≠ some digest ∨ s.execution.outputIsNone ≠ isNone then
      ({ s with failure := some "Execution output differs" }, false)
    else (s, true)
  else
    ({ s with execution := { s.execution with
      finished := true, outputSha256 := some digest, outputIsNone := isNone } }, true)

/-! ## Runs -/

structure Call where
  identity : Identity
  stream : Bool
  point : Point

structure Calls where
  schedule : Schedule
  calls : List Call := []

inductive CallEvent
  | occurrence (key : String)
  /-- `expired`: its time is up when it would have to wait. -/
  | step (identity : Identity) (stream : Bool) (expired : Bool := false)
  | complete (call : Nat) (ending : Ending) (expired : Bool := false)
  /-- The thread of a call that waits holds the lock again. -/
  | wake (call : Nat) (expired : Bool := false)
  | finish (digest : String) (isNone : Bool)

def Calls.move (s : Calls) (n : Nat) (call : Call) (result : Schedule × Point) : Calls where
  schedule := result.1
  calls := s.calls.set n { call with point := result.2 }

def Calls.step (s : Calls) : CallEvent → Option Calls
  | .occurrence key => some { s with schedule := (s.schedule.occurrence key).1 }
  | .step identity stream expired =>
      let result := s.schedule.arrive identity stream expired
      some ⟨result.1, s.calls ++ [⟨identity, stream, result.2⟩]⟩
  | .complete n ending expired =>
      match s.calls[n]? with
      | some call =>
          match call.point with
          | .running entry replay =>
              some (s.move n call (s.schedule.complete entry replay ending expired))
          | _ => none
      | none => none
  | .wake n expired =>
      match s.calls[n]? with
      | some call =>
          (s.schedule.wake call.identity call.stream expired call.point).map (s.move n call)
      | none => none
  | .finish digest isNone => some { s with schedule := (s.schedule.finish digest isNone).1 }

end GenSubnet.Runtime
