import GenSubnet.Competition.GitBatcher
import GenSubnet.Library.Transition

/-!
# Runs that end with a stage transition

A run of the judge (`judge_iteration.py`, `round_runner.py`) or a collecting iteration
(`collection_iteration.py`), seen as what it does to the branch: it reads `state.json` at a commit,
writes files through a batcher, and at last writes `state.json` with the next stage and flushes. The
operator and the other services commit to the same branch at any time.
-/

namespace GenSubnet.Competition
open Library

inductive StageService | judge | collector
deriving DecidableEq

inductive StageRunPhase
  /-- The collector's own transition to COLLECTING, committed on the sha it has read. -/
  | direct
  | directSent (send : Nat)
  | batching
  /-- `state.json` is written; `flushed` when the final flush was made. -/
  | transitioned (flushed : Bool)
  | raised
deriving DecidableEq

structure StageRun where
  service : StageService
  pauseOnStageEnd : Bool := false
  repo : Repository
  /-- The state object that the run holds and changes. -/
  state : CompetitionState
  batcher : GitBatcher
  phase : StageRunPhase
  /-- What the run has read when it began, or what its own last commit of `state.json` has put
  there. -/
  read : Option CompetitionState
  /-- The last `state.json` that someone else has committed since; the inner `none` for one that is
  no state. -/
  foreign : Option (Option CompetitionState) := none
  /-- For each commit of the run that wrote `state.json`: what it replaced, and what the run had
  read. -/
  replaced : List (Option CompetitionState × Option CompetitionState) := []

/-- A run begins by reading the state at the head; it goes on only from its own stages. -/
def StageRun.begin (service : StageService) (pauseOnStageEnd : Bool) (branch : List Tree) :
    Option StageRun :=
  let repo : Repository := { branch }
  match repo.headTree.bind Tree.state with
  | none => none
  | some state =>
      let run phase : StageRun :=
        { service, pauseOnStageEnd, repo, state, batcher := { baseSha := repo.head }, phase,
          read := some state }
      match service, state.stage with
      | .judge, .duels | .collector, .collecting => some (run .batching)
      | .collector, .minerGeneration => some (run .direct)
      | _, _ => none

/-- The stage that the run moves to at its end. -/
def StageRun.nextStage (s : StageRun) : RoundStage :=
  match s.service with
  | .judge => if s.pauseOnStageEnd then .paused else .finalizing
  | .collector => .duels

def stateFile (state : CompetitionState) : Tree := .ofList [(.state, .state state)]

inductive StageRunEvent
  /-- Someone else's commit. -/
  | external (files : Tree)
  | sendDirect
  | directSucceeds
  | directFails
  /-- The run writes files other than `state.json`. -/
  | write (files : Tree) (now : Nat)
  | flush
  | refresh
  /-- The run writes `state.json` with its next stage. -/
  | transition (now : Nat)
  | commitSucceeds (now : Nat)
  | commitFails (refreshed : Bool)
  /-- The service handles a commit of the run. -/
  | land (send : Nat)

def StageRun.withBatcher (s : StageRun) (result : Repository × GitBatcher) : StageRun :=
  { s with repo := result.1, batcher := result.2 }

/-- Someone else commits on the head. -/
def StageRun.external (s : StageRun) (files : Tree) : StageRun :=
  { s with
    repo := s.repo.push files
    foreign := if files.contains .state then some (Tree.state files) else s.foreign }

/-- A commit of the run is handled, and if it is taken and writes `state.json`, this is noted. -/
def StageRun.land (s : StageRun) (n : Nat) : Option StageRun :=
  match s.repo.land n, s.repo.sends[n]? with
  | some repo, some send =>
      if send.base = s.repo.head ∧ send.files.contains .state then
        some { s with
          repo
          read := Tree.state send.files
          foreign := none
          replaced := s.replaced ++ [(s.repo.headTree.bind Tree.state, s.read)] }
      else some { s with repo }
  | _, _ => none

def StageRun.step (s : StageRun) : StageRunEvent → Option StageRun
  | .external files => some (s.external files)
  | .sendDirect =>
      if s.phase = .direct then
        let state := { s.state with stage := .collecting, nextStageEta := none }
        some { s with
          state
          repo := s.repo.send s.batcher.baseSha (stateFile state)
          phase := .directSent s.repo.sends.length }
      else none
  | .directSucceeds =>
      match s.phase with
      | .directSent n =>
          match s.repo.sends[n]? with
          | some ⟨_, _, .landed sha⟩ =>
              some { s with batcher := { s.batcher with baseSha := sha }, phase := .batching }
          | _ => none
      | _ => none
  | .directFails =>
      match s.phase with
      | .directSent _ => some { s with phase := .raised }
      | _ => none
  | .write files now =>
      if s.phase = .batching ∧ files.contains .state = false then
        some (s.withBatcher (s.batcher.write s.repo files now))
      else none
  | .flush =>
      match s.phase with
      | .batching => some (s.withBatcher (s.batcher.flush s.repo))
      | .transitioned false =>
          if s.batcher.inProgress.isSome then none
          else some { s.withBatcher (s.batcher.flush s.repo) with phase := .transitioned true }
      | _ => none
  | .refresh =>
      if s.phase = .batching ∧ s.service = .judge then
        some { s with batcher := s.batcher.refreshBaseSha s.repo }
      else none
  | .transition now =>
      if s.phase = .batching then
        let state := match s.service with
          | .judge => { s.state with stage := s.nextStage }
          | .collector => { s.state with stage := s.nextStage, nextStageEta := none }
        some { s.withBatcher (s.batcher.write s.repo (stateFile state) now) with
          state, phase := .transitioned false }
      else none
  | .commitSucceeds now =>
      (s.batcher.succeed s.repo now).map fun batcher => { s with batcher }
  | .commitFails refreshed =>
      (s.batcher.fail s.repo refreshed).map fun batcher => { s with batcher }
  | .land n => s.land n

end GenSubnet.Competition
