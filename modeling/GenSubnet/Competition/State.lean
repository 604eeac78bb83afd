import Mathlib.Data.List.Basic
import Mathlib.Algebra.Order.Field.Rat

/-!
# The records of the competition

The files of `subnet_common/competition` by which the collector, the judge and the round manager
hand a round to each other.
-/

namespace GenSubnet.Competition

inductive RoundStage
  /-- `OPEN` -/
  | opened
  | minerGeneration
  | collecting
  | duels
  | finalizing
  | finished
  | paused
deriving DecidableEq

/-- Times are seconds of the epoch. -/
structure CompetitionState where
  currentRound : Nat
  stage : RoundStage
  nextStageEta : Option Int := none
deriving DecidableEq

structure RoundSchedule where
  earliestRevealBlock : Int
  latestRevealBlock : Int
  generationDeadlineBlock : Option Nat
deriving DecidableEq

structure CompetitionConfig where
  name : String
  winMargin : Rat
  promptsPerRound : Nat
  carryoverPrompts : Nat
deriving DecidableEq

structure LeaderEntry where
  hotkey : String
  repo : String
  commit : String
  docker : String := ""
  weight : Rat
  effectiveBlock : Int
deriving DecidableEq

structure RoundResult where
  winnerHotkey : String
  repo : String
  commit : String
deriving DecidableEq

structure MinerSubmission where
  repo : String
  commit : String
  revealedAtBlock : Int
  tieBreaker : String
  round : String
deriving DecidableEq

end GenSubnet.Competition
