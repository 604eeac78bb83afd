import GenSubnet.Library.Transition
import Mathlib

/-!
# The pool of proof contexts

`pythonProofPool` of `python_pool.go`. What is done with the mutex held is one step; a call that
waits receives its lease from its channel in a step of its own, and the initialization of a context
runs in the background.
-/

namespace GenSubnet.Witness.ProofPool
open Library

/-- `pythonProofLease` -/
abbrev PythonProofLease (X : Type) := Except String X

structure PythonProofPool (X : Type) where
  available : List X
  /-- The calls that own the channels. -/
  waiting : List Nat := []
  count : Nat
  limit : Nat
  initializing : Bool := false
  initializeError : Option String := none

/-- A call of `acquire`, with what is done with its context. -/
inductive Call (X : Type)
  /-- It waits for its channel, which holds what has been sent. -/
  | waiting (ready : Option (PythonProofLease X))
  | returned (lease : PythonProofLease X)
  | released

/-- A background initialization, before and after it has returned. -/
inductive Initializer (X : Type)
  | running
  | finished (result : PythonProofLease X)

/-- How `newPythonProofContext` ends. -/
inductive Outcome (X : Type)
  | success (context : X)
  | failure (error : String)
  | panic

structure System (X : Type) where
  pool : PythonProofPool X
  /-- In the order in which the calls have taken the mutex. -/
  calls : List (Call X) := []
  initializers : List (Initializer X) := []
  /-- The contexts that have been made. -/
  created : List X

variable {X : Type}

/-- `newPythonProofPool` -/
def newPythonProofPool (first : X) (limit : Nat) : System X where
  pool := { available := [first], count := 1, limit }
  created := [first]

namespace System
variable (s : System X)

def growIfNeeded : System X :=
  if s.pool.waiting ≠ [] ∧ s.pool.count < s.pool.limit ∧ ¬ s.pool.initializing then
    { s with
      pool := { s.pool with initializing := true }
      initializers := s.initializers ++ [.running] }
  else s

def acquire : System X :=
  match s.pool.initializeError with
  | some err => { s with calls := s.calls ++ [.returned (.error err)] }
  | none =>
      match s.pool.available.getLast? with
      | some context =>
          { s with
            pool := { s.pool with available := s.pool.available.dropLast }
            calls := s.calls ++ [.returned (.ok context)] }
      | none =>
          growIfNeeded
            { s with
              pool := { s.pool with waiting := s.pool.waiting ++ [s.calls.length] }
              calls := s.calls ++ [.waiting none] }

/-- `lease := <-ready` -/
def receive (call : Nat) : Option (System X) :=
  match s.calls[call]? with
  | some (.waiting (some lease)) => some { s with calls := s.calls.set call (.returned lease) }
  | _ => none

/-- A send to the channel of a call; it has room for one lease, and a second would block. -/
def send (lease : PythonProofLease X) (calls : List (Call X)) (call : Nat) : Option (List (Call X)) :=
  match calls[call]? with
  | some (.waiting none) => some (calls.set call (.waiting (some lease)))
  | _ => none

def handoff (context : X) : Option (System X) :=
  match s.pool.waiting with
  | [] => some { s with pool := { s.pool with available := s.pool.available ++ [context] } }
  | ready :: rest =>
      (send (.ok context) s.calls ready).map fun calls =>
        { s with pool := { s.pool with waiting := rest }, calls }

def release (call : Nat) : Option (System X) :=
  match s.calls[call]? with
  | some (.returned (.ok context)) => handoff { s with calls := s.calls.set call .released } context
  | _ => none

/-- `newPythonProofContext` returns or panics, inside the first part of `grow`. -/
def finish [DecidableEq X] (i : Nat) (outcome : Outcome X) : Option (System X) :=
  match s.initializers[i]? with
  | some .running =>
      match outcome with
      | .success context =>
          if context ∈ s.created then none
          else
            some { s with
              initializers := s.initializers.set i (.finished (.ok context))
              created := s.created ++ [context] }
      | .failure err => some { s with initializers := s.initializers.set i (.finished (.error err)) }
      | .panic =>
          some { s with
            initializers :=
              s.initializers.set i (.finished (.error "proof context initialization failed")) }
  | _ => none

/-- The rest of `grow`, with the mutex. -/
def grow (i : Nat) : Option (System X) :=
  match s.initializers[i]? with
  | some (.finished result) =>
      let s := { s with
        pool := { s.pool with initializing := false }
        initializers := s.initializers.eraseIdx i }
      match result with
      | .error err =>
          (s.pool.waiting.foldlM (send (.error err)) s.calls).map fun calls =>
            { s with pool := { s.pool with initializeError := some err, waiting := [] }, calls }
      | .ok context =>
          (handoff { s with pool := { s.pool with count := s.pool.count + 1 } } context).map growIfNeeded
  | _ => none

end System

inductive Event (X : Type)
  | acquire
  | receive (call : Nat)
  | release (call : Nat)
  | finish (initializer : Nat) (outcome : Outcome X)
  | grow (initializer : Nat)

def step [DecidableEq X] (s : System X) : Event X → Option (System X)
  | .acquire => some s.acquire
  | .receive call => s.receive call
  | .release call => s.release call
  | .finish i outcome => s.finish i outcome
  | .grow i => s.grow i

/-! ## Callers -/

/-- The context that a call has been given and has not released. -/
def Call.context : Call X → Option X
  | .waiting (some (.ok context)) => some context
  | .returned (.ok context) => some context
  | _ => none

def System.Leases (s : System X) (call : Nat) (context : X) : Prop :=
  (s.calls[call]?.bind Call.context) = some context

/-- The call waits, and its channel is empty. -/
def System.Pending (s : System X) (call : Nat) : Prop := s.calls[call]? = some (.waiting none)

/-- The context that a step of the mutex gives back or adds. -/
def offered (s : System X) : Event X → Option X
  | .release call => s.calls[call]?.bind Call.context
  | .grow i =>
      match s.initializers[i]? with
      | some (.finished (.ok context)) => some context
      | _ => none
  | _ => none

/-- The step gives the context to the pending call that has waited longest, and keeps it where no call
is pending. -/
structure Serves (s : System X) (context : X) (after : System X) : Prop where
  oldest : (∃ call, s.Pending call) → ∃ call, s.Pending call ∧ (∀ other < call, ¬ s.Pending other) ∧
    after.calls[call]? = some (.waiting (some (.ok context)))
  kept : (¬ ∃ call, s.Pending call) → context ∈ after.pool.available

end GenSubnet.Witness.ProofPool
