import GenSubnet.Judge.Timeline
import GenSubnet.Library.Transition

/-!
# The judge's run of a round

`RoundRunner` of `judge_service/round_runner.py` as a state machine: a run qualifies every miner
against the leader, then derives the timeline, requests validations and runs matches until the chain
of winners is verified. Verdicts arrive from outside, and a shutdown may be requested, before any
step. A run starts from whatever matches and requests an earlier one has cached.
-/

namespace GenSubnet.Judge
open Library

structure MinerSubmission where
  repo : String
  commit : String
  revealedAtBlock : Int
  tieBreaker : String
  round : String

/-- The submissions of a round, in the order of `submissions.json`. The collector admits no hotkey
of fewer than ten characters, so none of them is `leader`. -/
structure Submissions where
  entries : Dict String MinerSubmission
  hotkey_length : ∀ hotkey ∈ entries.keys, 10 ≤ hotkey.length

def Submissions.hotkeys (submissions : Submissions) : List String := submissions.entries.keys

theorem Submissions.leader_not_mem (submissions : Submissions) : "leader" ∉ submissions.hotkeys := by
  intro member
  exact absurd (submissions.hotkey_length _ member) (by decide)

structure LeaderEntry where
  hotkey : String
  repo : String
  commit : String

structure RoundResult where
  winnerHotkey : String
  repo : String
  commit : String
deriving DecidableEq

inductive Stage | paused | finalizing
deriving DecidableEq

/-- What a run is created with. -/
structure RoundSetup where
  submissions : Submissions
  winMargin : Rat
  pauseOnStageEnd : Bool := false

inductive Phase
  | starting
  | qualifying (rest : List String) (reload : Bool)
  | qualifyingMatch (hotkey : String) (rest : List String)
  | looping (reload : Bool)
  | announcing (timeline : Timeline)
  | requesting (timeline : Timeline) (rest : List TimelineEntry)
  | deciding (timeline : Timeline)
  | matching (left right : String)
  | awaiting
  | finalizing (winner : String) (reason : Option String)
  | transitioning (reason : String)
  | returned
  | raised

/-- The match that is on. -/
def Phase.playing : Phase → Option (String × String)
  | .qualifyingMatch hotkey _ => some ("leader", hotkey)
  | .matching left right => some (left, right)
  | _ => none

structure Runner where
  matrix : MatchMatrix := .empty
  requests : List String := []
  /-- The verdicts that the run has read. -/
  verdicts : Verdicts := {}
  /-- The verdicts in the repository. -/
  delivered : Verdicts := {}
  shutdown : Bool := false
  lastState : Option Timeline := none
  phase : Phase := .starting
  /-- `winner.json`, once the run has written it. -/
  result : Option RoundResult := none
  /-- The stage that the run has written to `state.json`. -/
  stage : Option Stage := none

inductive RunEvent
  | deliverValidation (hotkey : String) (result : ValidationResult)
  | deliverAudit (audit : AuditResult)
  | requestShutdown
  /-- A read or a notification raises. -/
  | fail
  /-- The leader's generations cover the prompts, or they do not yet. -/
  | baseline (complete : Bool)
  | matchFinished (margin : Rat)
  | wake
  | readLeader (leader : Option LeaderEntry)
  | advance

variable (setup : RoundSetup)

def RoundSetup.hotkeys (setup : RoundSetup) : List String := setup.submissions.hotkeys

def Runner.derive (s : Runner) : Timeline :=
  .derive s.matrix setup.winMargin s.verdicts setup.hotkeys

def Runner.reload (s : Runner) : Runner := { s with verdicts := s.delivered }

/-- The end of `_ensure_match` for a match that was run: a shutdown discards it. -/
def Runner.cacheMatch (s : Runner) (left right : String) (margin : Rat) : Runner :=
  if s.shutdown then s else { s with matrix := s.matrix.set (left, right) margin }

/-- `_ensure_match` of the main loop, up to the match itself. -/
def Runner.ensureMatch (s : Runner) (left right : String) : Runner :=
  if s.matrix.contains (left, right) then { s with phase := .looping false }
  else { s with phase := .matching left right }

/-- One entry of `_request_validations`. -/
def Runner.requestValidation (s : Runner) (entry : TimelineEntry) : Runner :=
  if entry.status ≠ .won ∨ entry.margin = none ∨ entry.hotkey ∈ s.requests then s
  else { s with requests := s.requests ++ [entry.hotkey] }

/-- `_resolve_winner`; `none` where it raises. -/
def resolveWinner (winner : String) (leader : Option LeaderEntry) : Option RoundResult :=
  if winner ≠ "leader" then
    (setup.submissions.entries.get winner).map fun submission =>
      ⟨winner, submission.repo, submission.commit⟩
  else leader.map fun leader => ⟨"leader", leader.repo, leader.commit⟩

/-- The step of a run to its next `await`. -/
def Runner.advance (s : Runner) : Option Runner :=
  match s.phase with
  | .starting =>
      if setup.hotkeys.isEmpty then
        some { s with phase := .finalizing "leader" (some "No submissions found") }
      else none
  | .qualifying rest true => some { s.reload with phase := .qualifying rest false }
  | .qualifying [] false => some { s with phase := .looping false }
  | .qualifying (hotkey :: rest) false =>
      if s.shutdown then some { s with phase := .looping false }
      else if (s.verdicts.rejection hotkey).isSome ∨ s.matrix.contains ("leader", hotkey) then
        some { s with phase := .qualifying rest false }
      else some { s with phase := .qualifyingMatch hotkey rest }
  | .looping reload =>
      if s.shutdown then some { s with phase := .returned }
      else
        let s := if reload then s.reload else s
        some { s with phase := .announcing (s.derive setup) }
  | .announcing timeline =>
      some { s with lastState := some timeline, phase := .requesting timeline timeline.entries }
  | .requesting timeline (entry :: rest) =>
      some { s.requestValidation entry with phase := .requesting timeline rest }
  | .requesting timeline [] => some { s with phase := .deciding timeline }
  | .deciding timeline =>
      if timeline.isFinalized then some { s with phase := .finalizing timeline.winner none }
      else
        match timeline.nextMatch, timeline.findExploratoryDuel s.matrix with
        | some (defender, challenger), _ => some (s.ensureMatch defender challenger)
        | none, some (left, right) => some (s.ensureMatch left right)
        | none, none => some { s with phase := .awaiting }
  | .transitioning _ =>
      some { s with
        phase := .returned
        stage := some (if setup.pauseOnStageEnd then .paused else .finalizing) }
  | .qualifyingMatch _ _ | .matching _ _ | .awaiting | .finalizing _ _ | .returned | .raised => none

def Runner.step (s : Runner) : RunEvent → Option Runner
  | .deliverValidation hotkey result =>
      if s.delivered.validations.contains hotkey then none
      else some { s with delivered := { s.delivered with
        validations := s.delivered.validations.set hotkey result } }
  | .deliverAudit audit =>
      if s.delivered.audits.contains audit.hotkey then none
      else some { s with delivered := { s.delivered with
        audits := s.delivered.audits.set audit.hotkey audit } }
  | .requestShutdown => some { s with shutdown := true }
  | .fail =>
      match s.phase with
      | .returned | .raised => none
      | _ => some { s with phase := .raised }
  | .baseline complete =>
      match s.phase with
      | .starting =>
          if setup.hotkeys.isEmpty then none
          else if complete then some { s with phase := .qualifying setup.hotkeys true }
          else some { s with phase := .returned }
      | _ => none
  | .matchFinished margin =>
      match s.phase with
      | .qualifyingMatch hotkey rest =>
          some { s.cacheMatch "leader" hotkey margin with phase := .qualifying rest true }
      | .matching left right =>
          some { s.cacheMatch left right margin with phase := .looping true }
      | _ => none
  | .wake =>
      match s.phase with
      | .awaiting => some { s with phase := .looping true }
      | _ => none
  | .readLeader leader =>
      match s.phase with
      | .finalizing winner reason =>
          match resolveWinner setup winner leader with
          | some result => some { s with
              result := some result
              phase := .transitioning
                (reason.getD ("Winner " ++ String.ofList (result.winnerHotkey.toList.take 10))) }
          | none => some { s with phase := .raised }
      | _ => none
  | .advance => s.advance setup

/-- A run begins with what is cached, and has read no verdict yet. -/
structure Runner.Fresh (s : Runner) : Prop where
  phase : s.phase = .starting
  verdicts : s.verdicts = {}
  result : s.result = none

end GenSubnet.Judge
