import GenSubnet.Library.Dict
import GenSubnet.Library.Parallel
import GenSubnet.Library.Versioned

/-!
# The submission index

`results` and `update_result` of `ArtifactRepository` in `witness_pod/artifacts.py`. Any number of
repositories share the index of one hotkey and round, and each keeps the snapshot that it has saved
last. Results are of any type.
-/

namespace GenSubnet.Witness.Artifacts
open Library Library.Effects

inductive Error
  /-- `ValueError`: "Prompt is not admitted", "Saved prompt is not admitted" and
  "Saved prompt results differ". -/
  | promptNotAdmitted | savedNotAdmitted | resultsDiffer
  /-- `StateConflict` and `WriteUncertain` -/
  | conflict | uncertain
  /-- The index is not read, or a write of it is rejected. -/
  | failed
deriving DecidableEq

/-- `GenerationsMap` -/
abbrev Index (α : Type) := Dict String α

/-- What a write of the index is for. -/
inductive Tag (α : Type)
  | update (prompt : String) (result : α)
  | migrate

variable (α : Type)

inductive Request
  | load
  | save (write : Put (Index α) (Tag α))
  /-- `self._saved` of a repository, and its assignment. -/
  | saved (repository : Nat)
  | remember (repository : Nat) (index : Index α)

variable {α}

@[reducible] def Request.Reply : Request α → Type
  | .load | .saved _ => Option (Index α)
  | .save _ | .remember _ _ => Unit

abbrev Task (α : Type) := Prog (Request α) Request.Reply Error

def ask (q : Request α) : Task α q.Reply := Prog.request q

variable [DecidableEq α] (promptIds : Dict String String)

/-- `set(self.prompt_ids.values())` -/
def Official (key : String) : Prop := key ∈ promptIds.items.map Prod.snd

instance (key : String) : Decidable (Official promptIds key) := inferInstanceAs (Decidable (_ ∈ _))

def officialOf (key : String) : Option String :=
  if Official promptIds key then some key else promptIds.get key

/-- The loop of `_identify`. -/
def identifyFrom (identified : Index α) : List (String × α) → Except Error (Index α)
  | [] => .ok identified
  | (key, result) :: rest =>
      match officialOf promptIds key with
      | none => .error .savedNotAdmitted
      | some prompt =>
          if (identified.get prompt).any fun other => other ≠ result then .error .resultsDiffer
          else identifyFrom (identified.set prompt result) rest

/-- `_identify` -/
def identify (results : Index α) : Except Error (Index α) := identifyFrom promptIds .empty results.items

/-- The results of a snapshot. -/
def opened (snapshot : Option (Index α)) : Index α := snapshot.getD .empty

/-! ## results -/

def resultsLoop (repository : Nat) : Nat → Option (Index α) → Task α (Option (Index α))
  | 0, _ => throw .conflict
  | n + 1, saved => do
      match identify promptIds (opened saved) with
      | .error e => throw e
      | .ok identified =>
          if identified.items.Perm (opened saved).items then return some identified
          else do
            match ← Prog.outcome (ask (.save ⟨.migrate, saved, identified⟩)) with
            | .ok _ => do
                ask (.remember repository identified)
                return some identified
            | .error .conflict => do
                let saved ← ask .load
                resultsLoop repository n saved
            | .error e => throw e

def results (repository : Nat) : Task α (Option (Index α)) := do
  let saved ← ask .load
  resultsLoop promptIds repository 16 saved

/-! ## update_result -/

def updateLoop (repository : Nat) (prompt : String) (result : α) :
    Nat → Option (Index α) → Task α (Option (Index α))
  | 0, _ => throw .conflict
  | n + 1, saved => do
      match identify promptIds (opened saved) with
      | .error e => throw e
      | .ok identified => do
          let results := identified.set prompt result
          match ← Prog.outcome (ask (.save ⟨.update prompt result, saved, results⟩)) with
          | .ok _ => do
              ask (.remember repository results)
              return none
          | .error .conflict => do
              let saved ← ask .load
              updateLoop repository prompt result n saved
          | .error e => throw e

/-- The snapshot that an update starts from. -/
def start (repository : Nat) : Task α (Option (Index α)) := do
  match ← ask (.saved repository) with
  | some index => return some index
  | none => ask .load

def updateResult (repository : Nat) (prompt : String) (result : α) : Task α (Option (Index α)) :=
  match promptIds.get prompt with
  | none => throw .promptNotAdmitted
  | some id => do
      let saved ← start repository
      updateLoop promptIds repository id result 16 saved

/-! ## The world -/

structure World (α : Type) where
  index : Versioned (Index α) (Tag α)
  saved : Dict Nat (Index α) := .empty

/-- A write whose answer was lost takes effect or is dropped. -/
structure Move where
  write : Nat
  lands : Bool

def World.move (w : World α) (m : Move) : Option (World α) :=
  (w.index.settle m.write m.lands).map fun index => { w with index }

/-- How a request is answered. -/
inductive Choice
  | done
  | fail
  | fate (fate : Fate)
  /-- The answer to a write was lost, and the object that is read back has its bytes. -/
  | found

def replyTo : Fate → Except Error Unit
  | .saved => .ok ()
  | .conflict => .error .conflict
  | .rejected => .error .failed
  | .uncertain => .error .uncertain

def World.answer (w : World α) : (q : Request α) → Choice → Option (Except Error q.Reply × World α)
  | .load, .done => some (.ok w.index.data, w)
  | .load, .fail => some (.error .failed, w)
  | .save write, .fate fate => (w.index.save write fate).map fun index => (replyTo fate, { w with index })
  | .save write, .found => (w.index.readBack write).map fun index => (.ok (), { w with index })
  | .saved repository, .done => some (.ok (w.saved.get repository), w)
  | .remember repository index, .done =>
      some (.ok (), { w with saved := w.saved.set repository index })
  | _, _ => none

variable (α) in
inductive Operation
  | results (repository : Nat)
  | update (repository : Nat) (prompt : String) (result : α)
deriving DecidableEq

def Operation.program : Operation α → Task α (Option (Index α))
  | .results repository => Artifacts.results promptIds repository
  | .update repository prompt result => updateResult promptIds repository prompt result

def repositories :
    Shared (World α) (Request α) Request.Reply Error (Option (Index α)) Move Choice (Operation α) where
  move := World.move
  answer := World.answer
  body := Operation.program promptIds

variable (α) in
abbrev Repositories :=
  Crowd (World α) (Request α) Request.Reply Error (Option (Index α)) (Operation α)

end GenSubnet.Witness.Artifacts
