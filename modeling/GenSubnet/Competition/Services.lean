import GenSubnet.Competition.GitBatcher
import GenSubnet.Library.Transition

/-!
# The three services of a round

The iterations of the collector (`collection_iteration.py`, `prompts.py`), the judge
(`judge_iteration.py`, `round_runner.py`) and the round manager (`finalize_round.py`) on one branch.
An iteration reads the head and makes its commits on what it has read; its commits are handled, and
its answers arrive, in any order with those of the others.
-/

namespace GenSubnet.Competition
open Library

inductive CollectorPhase
  | idle
  /-- A commit on the sha that was read; `collects` when the iteration goes on to COLLECTING. -/
  | sent (send : Nat) (collects : Option CompetitionState)
  | collecting (state : CompetitionState) (batcher : GitBatcher)
  | transitioned (state : CompetitionState) (batcher : GitBatcher)

inductive JudgePhase
  | idle
  | running (state : CompetitionState) (batcher : GitBatcher)
  /-- `winner.json` is written. -/
  | resolved (state : CompetitionState) (batcher : GitBatcher)
  /-- `state.json` is written too. -/
  | transitioned (state : CompetitionState) (batcher : GitBatcher)

inductive ManagerPhase
  | idle
  | sent (send : Nat)

/-- The functions whose missing files are noted. -/
inductive Reader | collectSubmissions | finalizeRound
deriving DecidableEq

structure Services where
  repo : Repository
  collector : CollectorPhase := .idle
  judge : JudgePhase := .idle
  manager : ManagerPhase := .idle
  /-- The commits that close a round without submissions. -/
  closing : List (Nat × Nat) := []
  /-- Each `FileNotFoundError` that an iteration raised. -/
  missing : List (Reader × Path) := []

structure ServiceSettings where
  judgePauses : Bool := false
  managerPauses : Bool := false

/-- What an OPEN iteration finds past the reveal block: the submissions it admits, and the seed and
prompts that it draws. -/
structure Collection where
  admitted : List (String × MinerSubmission)
  seed : Nat
  prompts : List String
  eta : Option Int

/-- What the clock and the chain say to the round manager. -/
structure Finalization where
  schedule : Option RoundSchedule
  effectiveBlock : Int
  eta : Option Int

inductive ServiceEvent
  /-- Another service commits a file of its own. -/
  | other (path : String) (content : Content)
  | collectorOpen (collection : Collection)
  | collectorDeadline
  | collectorCollects
  | collectorSucceeds (now : Nat)
  | collectorFails (refreshed : Bool)
  | collectorWrites (path : String) (content : Content) (now : Nat)
  | collectorTransitions (now : Nat)
  | collectorFlushes
  | collectorStops
  | judgeBegins
  | judgeWrites (path : String) (content : Content) (now : Nat)
  | judgeRefreshes
  | judgeResolves (result : RoundResult) (now : Nat)
  | judgeTransitions (now : Nat)
  | judgeFlushes
  | judgeSucceeds (now : Nat)
  | judgeFails (refreshed : Bool)
  | judgeStops
  | managerFinalizes (finalization : Finalization)
  | managerStops
  | land (send : Nat)

/-! ## The files of the commits -/

def stateFiles (state : CompetitionState) (files : List (Path × Content)) : Tree :=
  .ofList ((.state, .state state) :: files)

def otherFile (path : String) (content : Content) : Tree := .ofList [(.other path, content)]

def winnerFiles (round : Nat) (result : RoundResult) : Tree := .ofList [(.winner round, .result result)]

/-- The commit with the seed, the prompts and the submissions of a round. -/
def collectionFiles (state : CompetitionState) (collection : Collection) : Tree :=
  stateFiles { state with stage := .minerGeneration, nextStageEta := collection.eta }
    [(.seed state.currentRound, .seed collection.seed),
      (.roundPrompts state.currentRound, .prompts collection.prompts),
      (.submissions state.currentRound, .submissions collection.admitted)]

/-- The commit that closes a round without submissions. -/
def closingFiles (state : CompetitionState) : Tree :=
  stateFiles { state with stage := .finalizing, nextStageEta := none } []

/-- `_find_new_leader` -/
def findNewLeader (result : RoundResult) (current : LeaderEntry) (effectiveBlock : Int) :
    Option LeaderEntry :=
  if result.winnerHotkey = "leader" then none
  else if result.repo = current.repo ∧ result.commit = current.commit then none
  else some
    { hotkey := result.winnerHotkey, repo := result.repo, commit := result.commit, weight := 1,
      effectiveBlock }

/-- The commit of `_commit_round_updates`. -/
def finalizationFiles (settings : ServiceSettings) (state : CompetitionState)
    (finalization : Finalization) (transitions : List LeaderEntry) (newLeader : Option LeaderEntry) :
    Tree :=
  let leaders := match newLeader with
    | some entry => [(.leader, .leaders (transitions ++ [entry]))]
    | none => []
  match finalization.schedule with
  | none => stateFiles ⟨state.currentRound, .finished, none⟩ leaders
  | some schedule =>
      stateFiles ⟨state.currentRound + 1, if settings.managerPauses then .paused else .opened,
          finalization.eta⟩
        ((.schedule (state.currentRound + 1), .schedule schedule) :: leaders)

/-! ## Reading -/

/-- The first of the paths that the tree has no file for. -/
def firstMissing (tree : Tree) (paths : List Path) : Option Path :=
  paths.find? fun path => !tree.contains path

/-- Whether the prompts of the round before are needed. -/
def carriesOver (tree : Tree) (round : Nat) : Bool :=
  decide (0 < round) && match Tree.config tree with
    | some config => decide (0 < config.carryoverPrompts)
    | none => false

/-- The files that `_collect_submissions` requires, in the order in which it reads them. -/
def collectionPaths (tree : Tree) (round : Nat) (admits : Bool) : List Path :=
  [.schedule round, .config] ++
    if admits then
      .prompts :: if carriesOver tree round then [.roundPrompts (round - 1)] else []
    else []

/-- The files that `finalize_round` requires. -/
def finalizationPaths (round : Nat) : List Path := [.config, .leader, .winner round]

/-- The files that `RoundRunner.create` requires. -/
def runnerPaths (round : Nat) : List Path :=
  [.config, .seed round, .roundPrompts round, .submissions round]

/-- The tree and the state at the head. -/
def Services.read (s : Services) : Option (Tree × CompetitionState) :=
  s.repo.headTree.bind fun tree => (Tree.state tree).map fun state => (tree, state)

def Services.send (s : Services) (files : Tree) : Services :=
  { s with repo := s.repo.send s.repo.head files }

/-! ## Iterations -/

/-- `_collect_submissions`, past the reveal block. -/
def Services.collectSubmissions (s : Services) (tree : Tree) (state : CompetitionState)
    (collection : Collection) : Services :=
  match firstMissing tree (collectionPaths tree state.currentRound (!collection.admitted.isEmpty)) with
  | some path => { s with missing := s.missing ++ [(.collectSubmissions, path)] }
  | none =>
      if collection.admitted.isEmpty then
        { s.send (closingFiles state) with
          collector := .sent s.repo.sends.length none
          closing := s.closing ++ [(s.repo.sends.length, state.currentRound)] }
      else
        { s.send (collectionFiles state collection) with
          collector := .sent s.repo.sends.length none }

/-- `finalize_round`; nothing is sent where the leader state is empty or a file is not what it
should be. -/
def Services.finalizeRound (settings : ServiceSettings) (s : Services) (tree : Tree)
    (state : CompetitionState) (finalization : Finalization) : Services :=
  match firstMissing tree (finalizationPaths state.currentRound) with
  | some path => { s with missing := s.missing ++ [(.finalizeRound, path)] }
  | none =>
      match tree.get .leader, tree.get (.winner state.currentRound) with
      | some (.leaders transitions), some (.result result) =>
          match transitions.getLast? with
          | some current =>
              { s.send (finalizationFiles settings state finalization transitions
                  (findNewLeader result current finalization.effectiveBlock)) with
                manager := .sent s.repo.sends.length }
          | none => s
      | _, _ => s

/-- A batcher's step of the collector's or the judge's run. -/
def Services.withRepo (s : Services) (repo : Repository) : Services := { s with repo }

def Services.step (settings : ServiceSettings) (s : Services) : ServiceEvent → Option Services
  | .other path content => some { s with repo := s.repo.push (otherFile path content) }
  | .collectorOpen collection =>
      match s.collector, s.read with
      | .idle, some (tree, state) =>
          if state.stage = .opened then some (s.collectSubmissions tree state collection) else none
      | _, _ => none
  | .collectorDeadline =>
      match s.collector, s.read with
      | .idle, some (tree, state) =>
          if state.stage = .minerGeneration ∧ tree.contains (.schedule state.currentRound) then
            let state := { state with stage := .collecting, nextStageEta := none }
            some { s.send (stateFiles state []) with
              collector := .sent s.repo.sends.length (some state) }
          else none
      | _, _ => none
  | .collectorCollects =>
      match s.collector, s.read with
      | .idle, some (_, state) =>
          if state.stage = .collecting then
            some { s with collector := .collecting state { baseSha := s.repo.head } }
          else none
      | _, _ => none
  | .collectorSucceeds now =>
      match s.collector with
      | .idle => none
      | .sent n collects =>
          match s.repo.sends[n]? with
          | some ⟨_, _, .landed sha⟩ =>
              match collects with
              | some state => some { s with collector := .collecting state { baseSha := sha } }
              | none => some { s with collector := .idle }
          | _ => none
      | .collecting state batcher =>
          (batcher.succeed s.repo now).map fun batcher =>
            { s with collector := .collecting state batcher }
      | .transitioned state batcher =>
          (batcher.succeed s.repo now).map fun batcher =>
            { s with collector := .transitioned state batcher }
  | .collectorFails refreshed =>
      match s.collector with
      | .idle => none
      | .sent _ _ => some { s with collector := .idle }
      | .collecting state batcher =>
          (batcher.fail s.repo refreshed).map fun batcher =>
            { s with collector := .collecting state batcher }
      | .transitioned state batcher =>
          (batcher.fail s.repo refreshed).map fun batcher =>
            { s with collector := .transitioned state batcher }
  | .collectorWrites path content now =>
      match s.collector with
      | .collecting state batcher =>
          let (repo, batcher) := batcher.write s.repo (otherFile path content) now
          some { s with repo, collector := .collecting state batcher }
      | _ => none
  | .collectorTransitions now =>
      match s.collector with
      | .collecting state batcher =>
          let state := { state with stage := .duels, nextStageEta := none }
          let (repo, batcher) := batcher.write s.repo (stateFiles state []) now
          some { s with repo, collector := .transitioned state batcher }
      | _ => none
  | .collectorFlushes =>
      match s.collector with
      | .transitioned state batcher =>
          let (repo, batcher) := batcher.flush s.repo
          some { s with repo, collector := .transitioned state batcher }
      | _ => none
  | .collectorStops => some { s with collector := .idle }
  | .judgeBegins =>
      match s.judge, s.read with
      | .idle, some (tree, state) =>
          if state.stage = .duels ∧ (firstMissing tree (runnerPaths state.currentRound)).isNone then
            some { s with judge := .running state { baseSha := s.repo.head } }
          else none
      | _, _ => none
  | .judgeWrites path content now =>
      match s.judge with
      | .running state batcher =>
          if batcher.inProgress.isSome then none
          else
            let (repo, batcher) := batcher.write s.repo (otherFile path content) now
            some { s with repo, judge := .running state batcher }
      | _ => none
  | .judgeRefreshes =>
      match s.judge with
      | .running state batcher =>
          if batcher.inProgress.isSome then none
          else some { s with judge := .running state (batcher.refreshBaseSha s.repo) }
      | _ => none
  | .judgeResolves result now =>
      match s.judge with
      | .running state batcher =>
          if batcher.inProgress.isSome then none
          else
            let (repo, batcher) :=
              batcher.write s.repo (winnerFiles state.currentRound result) now
            some { s with repo, judge := .resolved state batcher }
      | _ => none
  | .judgeTransitions now =>
      match s.judge with
      | .resolved state batcher =>
          if batcher.inProgress.isSome then none
          else
            let state := { state with
              stage := if settings.judgePauses then .paused else .finalizing }
            let (repo, batcher) := batcher.write s.repo (stateFiles state []) now
            some { s with repo, judge := .transitioned state batcher }
      | _ => none
  | .judgeFlushes =>
      match s.judge with
      | .running state batcher =>
          let (repo, batcher) := batcher.flush s.repo
          some { s with repo, judge := .running state batcher }
      | .transitioned state batcher =>
          let (repo, batcher) := batcher.flush s.repo
          some { s with repo, judge := .transitioned state batcher }
      | .idle | .resolved _ _ => none
  | .judgeSucceeds now =>
      match s.judge with
      | .idle => none
      | .running state batcher =>
          (batcher.succeed s.repo now).map fun batcher => { s with judge := .running state batcher }
      | .resolved state batcher =>
          (batcher.succeed s.repo now).map fun batcher => { s with judge := .resolved state batcher }
      | .transitioned state batcher =>
          (batcher.succeed s.repo now).map fun batcher =>
            { s with judge := .transitioned state batcher }
  | .judgeFails refreshed =>
      match s.judge with
      | .idle => none
      | .running state batcher =>
          (batcher.fail s.repo refreshed).map fun batcher =>
            { s with judge := .running state batcher }
      | .resolved state batcher =>
          (batcher.fail s.repo refreshed).map fun batcher =>
            { s with judge := .resolved state batcher }
      | .transitioned state batcher =>
          (batcher.fail s.repo refreshed).map fun batcher =>
            { s with judge := .transitioned state batcher }
  | .judgeStops => some { s with judge := .idle }
  | .managerFinalizes finalization =>
      match s.manager, s.read with
      | .idle, some (tree, state) =>
          if state.stage = .finalizing then some (s.finalizeRound settings tree state finalization)
          else none
      | _, _ => none
  | .managerStops => some { s with manager := .idle }
  | .land n => (s.repo.land n).map fun repo => { s with repo }

end GenSubnet.Competition
