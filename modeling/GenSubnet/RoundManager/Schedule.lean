import GenSubnet.Competition.State
import GenSubnet.Library.Datetime

/-!
# The schedule of the next round

The dates and blocks of `finalize_round.py`. Everything that raises, since a date leaves the
calendar, a duration is too long or a record is not valid, gives nothing.
-/

namespace GenSubnet.RoundManager
open Library Rounding Competition

/-- The fields of `CompetitionConfig` by which the rounds are scheduled. -/
structure RoundConfig where
  firstEvaluationDate : Date
  lastCompetitionDate : Date
  roundStartTime : TimeOfDay
  generationStageMinutes : Int
  /-- Nothing for an infinity or NaN. -/
  finalizationBufferHours : Option Rat
  roundDurationDays : Int

/-- `BLOCK_TIME_SECONDS` -/
def blockTimeSeconds : Int := 12

/-- `_estimate_round_start` -/
def estimateRoundStart (revealBlock currentBlock : Int) (currentTime : Datetime)
    (roundStartTime : TimeOfDay) : Option Datetime := do
  let blocksAgo := currentBlock - revealBlock
  let approximateTime ← currentTime.add (-(blocksAgo * blockTimeSeconds * 1000000))
  return Datetime.combine approximateTime.date roundStartTime

/-- The loop of `_ensure_finalization_buffer`. -/
def advanceToBuffer (candidate currentTime : Datetime) (minBuffer : Int) : Option Datetime :=
  if candidate.micros - currentTime.micros < minBuffer then
    match next : candidate.add dayLength with
    | some later => advanceToBuffer later currentTime minBuffer
    | none => none
  else some candidate
termination_by (calendarDays * dayLength - candidate.micros).toNat
decreasing_by
  have valid := candidate.valid
  rw [Datetime.add_eq_some.mp next]
  unfold dayLength calendarDays at *
  omega

/-- `RoundConfig.finalizationBufferHours` as a duration. -/
def RoundConfig.minBuffer (config : RoundConfig) : Option Int :=
  config.finalizationBufferHours.bind timedeltaHours

/-- `_ensure_finalization_buffer` -/
def ensureFinalizationBuffer (candidate currentTime : Datetime) (config : RoundConfig) :
    Option Datetime := do
  let minBuffer ← config.minBuffer
  advanceToBuffer candidate currentTime minBuffer

/-- `_clamp_to_competition_start` -/
def clampToCompetitionStart (candidate : Datetime) (config : RoundConfig) : Datetime :=
  let firstRound := Datetime.combine config.firstEvaluationDate config.roundStartTime
  if candidate.micros < firstRound.micros then firstRound else candidate

/-- The date that `_compute_next_round_start` begins with. -/
def earliestDate (currentTime : Datetime) (config : RoundConfig)
    (previousRoundStart : Option Datetime) : Option Date :=
  match previousRoundStart with
  | some start => (start.add (config.roundDurationDays * dayLength)).map Datetime.date
  | none => some currentTime.date

/-- How many blocks are made in so many microseconds. -/
def blocksUntil (delta : Int) : Int :=
  truncate (nearest (totalSeconds delta / blockTimeSeconds))

/-- `_compute_next_round_start` -/
def computeNextRoundStart (currentTime : Datetime) (currentBlock : Int) (config : RoundConfig)
    (previousRoundStart : Option Datetime) : Option (Datetime × Int) := do
  let earliestDate ← earliestDate currentTime config previousRoundStart
  let candidate := Datetime.combine earliestDate config.roundStartTime
  let candidate ← ensureFinalizationBuffer candidate currentTime config
  let candidate := clampToCompetitionStart candidate config
  return (candidate, currentBlock + blocksUntil (candidate.micros - currentTime.micros))

/-- A competition that has ended has no next schedule. -/
inductive NextSchedule
  | ended
  | next (schedule : RoundSchedule)

/-- `_build_next_schedule` -/
def buildNextSchedule (nextRoundStart : Datetime) (nextRoundStartBlock : Int) (config : RoundConfig)
    (previousLatestRevealBlock : Option Int) : Option NextSchedule :=
  if config.lastCompetitionDate.day < nextRoundStart.date.day then some .ended
  else
    let generationBlocks :=
      truncate (nearest (config.generationStageMinutes * 60 / blockTimeSeconds))
    let generationDeadlineBlock := nextRoundStartBlock + generationBlocks
    if 0 ≤ generationDeadlineBlock then
      some (.next
        { earliestRevealBlock := match previousLatestRevealBlock with
            | some block => block + 1
            | none => 0
          latestRevealBlock := nextRoundStartBlock
          generationDeadlineBlock := some generationDeadlineBlock.toNat })
    else none

end GenSubnet.RoundManager
