import GenSubnet.RoundManager.NextStart

/-!
# The start of the previous round

`_estimate_round_start` goes back from a block to a date. What the blocks leave out of the times is
at most a few seconds, and the date is the scheduled one exactly when these do not lead out of the
day.
-/

namespace GenSubnet.RoundManager
open Library Rounding

variable {genesis : Int} {scheduling finalization start : Datetime} {config : RoundConfig}
variable {previousRoundStart : Option Datetime} {block : Int}

/-- The microseconds of a block. -/
def blockLength : Int := blockTimeSeconds * 1000000

/-- The height of a chain that makes a block every twelve seconds. -/
def heightAt (genesis : Int) (t : Datetime) : Int := (t.micros - genesis) / blockLength

/-- The time since the last block. -/
def sinceBlock (genesis : Int) (t : Datetime) : Int := (t.micros - genesis) % blockLength

/-- The time that is left out when a delay is turned into blocks. -/
def dropped (delta : Int) : Int := delta - blocksUntil delta * blockLength

/-- How much later than scheduled the blocks make the round start. -/
def blockError (genesis : Int) (scheduling finalization start : Datetime) : Int :=
  sinceBlock genesis finalization - sinceBlock genesis scheduling -
    dropped (start.micros - scheduling.micros)

/-- The error leaves the start on its day. -/
def SameDay (genesis : Int) (scheduling finalization start : Datetime) (startTime : TimeOfDay) :
    Prop :=
  0 ≤ startTime.micros + blockError genesis scheduling finalization start ∧
    startTime.micros + blockError genesis scheduling finalization start < dayLength

/-- The finalization finds the scheduled start, and the next start is as many days after it as a
round has. -/
def Recovered (genesis : Int) (finalization : Datetime) (config : RoundConfig) (start : Datetime)
    (block : Int) : Prop :=
  estimateRoundStart block (heightAt genesis finalization) finalization config.roundStartTime =
    some start ∧
  ∀ next nextBlock, computeNextRoundStart finalization (heightAt genesis finalization) config
      (estimateRoundStart block (heightAt genesis finalization) finalization
        config.roundStartTime) = some (next, nextBlock) →
    start.micros + config.roundDurationDays * dayLength ≤ next.micros

theorem heightAt_mul (genesis : Int) (t : Datetime) :
    heightAt genesis t * blockLength = t.micros - genesis - sinceBlock genesis t := by
  have division := Int.mul_ediv_add_emod (t.micros - genesis) blockLength
  rw [Int.mul_comm] at division
  unfold heightAt sinceBlock
  omega

theorem estimate_eq (genesis : Int) (scheduling finalization start : Datetime)
    (startTime : TimeOfDay) :
    estimateRoundStart (heightAt genesis scheduling + blocksUntil (start.micros - scheduling.micros))
        (heightAt genesis finalization) finalization startTime =
      (start.add (blockError genesis scheduling finalization start)).map
        fun approximate => Datetime.combine approximate.date startTime := by
  have before := heightAt_mul genesis scheduling
  have after := heightAt_mul genesis finalization
  have moved : finalization.add (-((heightAt genesis finalization -
      (heightAt genesis scheduling + blocksUntil (start.micros - scheduling.micros))) *
        blockTimeSeconds * 1000000)) =
      start.add (blockError genesis scheduling finalization start) := by
    apply Option.ext
    intro approximate
    rw [Datetime.add_eq_some, Datetime.add_eq_some, mul_assoc, ← blockLength, sub_mul, add_mul]
    unfold blockError dropped
    omega
  simp [estimateRoundStart, moved, Option.map_eq_bind, Function.comp_def]

theorem estimate_eq_some_iff {startTime : TimeOfDay} (atStart : start.time = startTime)
    (error : Int) :
    ((start.add error).map fun approximate => Datetime.combine approximate.date startTime) =
      some start ↔ 0 ≤ startTime.micros + error ∧ startTime.micros + error < dayLength := by
  have position := Datetime.micros_eq start
  have valid := start.valid
  have day := start.date.valid
  rw [atStart] at position
  rw [Option.map_eq_some_iff]
  constructor
  · rintro ⟨approximate, added, same⟩
    have moved := Datetime.add_eq_some.mp added
    have date : approximate.micros / dayLength = start.date.day := by
      rw [← same, Datetime.date_combine]
      rfl
    unfold dayLength at *
    omega
  · rintro ⟨low, high⟩
    have inside : 0 ≤ start.micros + error ∧ start.micros + error < calendarDays * dayLength := by
      unfold dayLength calendarDays at *
      omega
    refine ⟨⟨start.micros + error, inside⟩, Datetime.add_eq_some.mpr rfl, ?_⟩
    have date : (⟨start.micros + error, inside⟩ : Datetime).date = start.date := by
      apply Date.ext
      simp only [Datetime.date, dayLength] at *
      omega
    rw [date, ← atStart, Datetime.combine_date_time]

theorem scheduled_eq {currentBlock : Int}
    (scheduled : computeNextRoundStart scheduling currentBlock config previousRoundStart =
      some (start, block)) :
    start.time = config.roundStartTime ∧
      block = currentBlock + blocksUntil (start.micros - scheduling.micros) := by
  simp only [computeNextRoundStart, ensureFinalizationBuffer, Option.bind_eq_bind,
    Option.bind_eq_some_iff] at scheduled
  obtain ⟨first, _, candidate, ⟨minBuffer, _, reached⟩, pair⟩ := scheduled
  obtain ⟨rfl, rfl⟩ := Prod.mk.inj (Option.some.inj pair)
  have sameTime := ((advanceToBuffer_least _ _ _).1 candidate reached).1.1
  rw [Datetime.time_combine] at sameTime
  exact ⟨clamp_time sameTime, rfl⟩

theorem duration_of_next {next : Datetime} {currentBlock nextBlock : Int}
    (atStart : start.time = config.roundStartTime)
    (found : computeNextRoundStart finalization currentBlock config (some start) =
      some (next, nextBlock)) :
    start.micros + config.roundDurationDays * dayLength ≤ next.micros := by
  simp only [computeNextRoundStart, ensureFinalizationBuffer, Option.bind_eq_bind,
    Option.bind_eq_some_iff] at found
  obtain ⟨first, earliest, candidate, ⟨minBuffer, _, reached⟩, pair⟩ := found
  obtain ⟨rfl, rfl⟩ := Prod.mk.inj (Option.some.inj pair)
  have aligned : ∀ previous ∈ some start, previous.time = config.roundStartTime := by
    rintro previous ⟨⟩
    exact atStart
  have least := clamp_least aligned earliest ((advanceToBuffer_least _ _ _).1 candidate reached)
  exact least.1.duration

theorem recovered_iff_sameDay
    (scheduled : computeNextRoundStart scheduling (heightAt genesis scheduling) config
      previousRoundStart = some (start, block)) :
    Recovered genesis finalization config start block ↔
      SameDay genesis scheduling finalization start config.roundStartTime := by
  obtain ⟨atStart, rfl⟩ := scheduled_eq scheduled
  rw [Recovered, estimate_eq, estimate_eq_some_iff atStart]
  constructor
  · rintro ⟨inside, _⟩
    exact inside
  · intro inside
    refine ⟨inside, ?_⟩
    rw [(estimate_eq_some_iff atStart _).mpr inside]
    intro next nextBlock found
    exact duration_of_next atStart found

/-! ## Short delays -/

variable {delta k : Int}

theorem totalSeconds_bounds (nonneg : 0 ≤ k) (low : k * 12000000 ≤ delta)
    (high : delta < (k + 1) * 12000000) (short : delta < 2 ^ 52) :
    12 * (k : Rat) ≤ totalSeconds delta ∧ totalSeconds delta ≤ 12 * (k + 1) - 1 / 2 ^ 20 := by
  have low' : (k : Rat) * 12000000 ≤ delta := by exact_mod_cast low
  have high' : (delta : Rat) ≤ (k + 1) * 12000000 - 1 := by
    have step : delta ≤ (k + 1) * 12000000 - 1 := by omega
    exact_mod_cast step
  have short' : (delta : Rat) < 2 ^ 52 := by exact_mod_cast short
  have nonneg' : (0 : Rat) ≤ k := by exact_mod_cast nonneg
  have size : |(delta : Rat) / 1000000| < 2 ^ 33 := by
    rw [abs_of_nonneg (by linarith)]
    linarith
  constructor
  · have whole : ((12 * k : Int) : Rat) ≤ totalSeconds delta := by
      apply int_le_nearest (size.trans (by norm_num))
      push_cast
      linarith
    push_cast at whole
    exact whole
  · have step : totalSeconds delta ≤ ((12 * (k + 1) * 2 ^ 20 - 1 : Int) : Rat) / 2 ^ 20 := by
      apply nearest_le_dyadic (p := 20) (by omega) (size.trans_le (by norm_num))
      push_cast
      linarith
    push_cast at step
    linarith

theorem blocksUntil_eq (nonneg : 0 ≤ k) (low : k * 12000000 ≤ delta)
    (high : delta < (k + 1) * 12000000) (short : delta < 2 ^ 52) : blocksUntil delta = k := by
  obtain ⟨least, most⟩ := totalSeconds_bounds nonneg low high short
  have few : (k : Rat) < 2 ^ 29 - 1 := by
    have few : k < 2 ^ 29 - 1 := by omega
    exact_mod_cast few
  have nonneg' : (0 : Rat) ≤ k := by exact_mod_cast nonneg
  have divided : totalSeconds delta / (blockTimeSeconds : Rat) = totalSeconds delta / 12 := rfl
  have size : |totalSeconds delta / 12| < 2 ^ 29 := by
    rw [abs_of_nonneg (by linarith)]
    linarith
  apply truncate_eq nonneg
  · rw [divided]
    apply int_le_nearest (size.trans (by norm_num))
    linarith
  · have step : nearest (totalSeconds delta / 12) ≤ (((k + 1) * 2 ^ 24 - 1 : Int) : Rat) / 2 ^ 24 := by
      apply nearest_le_dyadic (p := 24) (by omega) (size.trans_le (by norm_num))
      push_cast
      linarith
    rw [divided]
    push_cast at step
    linarith

theorem dropped_eq (forward : 0 ≤ delta) (short : delta < 2 ^ 52) :
    dropped delta = delta % blockLength := by
  have parts := Int.mul_ediv_add_emod delta blockLength
  have rest := Int.emod_lt_of_pos delta (b := blockLength) (by decide)
  have restNonneg := Int.emod_nonneg delta (b := blockLength) (by decide)
  have length : blockLength = 12000000 := rfl
  rw [length] at parts rest restNonneg
  have count : blocksUntil delta = delta / 12000000 :=
    blocksUntil_eq (by omega) (by omega) (by omega) short
  rw [dropped, count, length]
  omega

theorem blockError_eq (forward : scheduling ≤ start)
    (short : start.micros - scheduling.micros < 2 ^ 52) :
    blockError genesis scheduling finalization start =
      sinceBlock genesis finalization - sinceBlock genesis scheduling -
        (start.time.micros - scheduling.micros) % blockLength := by
  rw [Datetime.le_iff] at forward
  have position := Datetime.micros_eq start
  have length : blockLength = 12000000 := rfl
  have day : dayLength = 7200 * 12000000 := rfl
  rw [blockError, dropped_eq (by omega) short, length]
  rw [day] at position
  omega

/-- A start that is 24 seconds after midnight or more, and 12 seconds before it or more, is always
recovered. -/
theorem recovered_of_daytime
    (scheduled : computeNextRoundStart scheduling (heightAt genesis scheduling) config
      previousRoundStart = some (start, block)) (forward : scheduling ≤ start)
    (short : start.micros - scheduling.micros < 2 ^ 52)
    (early : 24000000 ≤ config.roundStartTime.micros)
    (late : config.roundStartTime.micros ≤ dayLength - 12000000) :
    Recovered genesis finalization config start block := by
  apply (recovered_iff_sameDay scheduled).mpr
  have length : blockLength = 12000000 := rfl
  unfold SameDay
  rw [blockError_eq forward short]
  unfold sinceBlock
  rw [length]
  omega

/-! ## A start at midnight -/

/-- Rounds of two days that start at midnight. -/
def midnight : RoundConfig :=
  { briefBuffer with
    roundStartTime := ⟨0, by decide⟩
    generationStageMinutes := 180
    finalizationBufferHours := some 1
    roundDurationDays := 2 }

/-- The scheduled start is recovered exactly when the error of the blocks leaves it on its day. -/
theorem previous_start_recovered_iff (genesis : Int) (scheduling finalization start : Datetime)
    (config : RoundConfig) (previousRoundStart : Option Datetime) (block : Int)
    (scheduled : computeNextRoundStart scheduling (heightAt genesis scheduling) config
      previousRoundStart = some (start, block)) :
    Recovered genesis finalization config start block ↔
      SameDay genesis scheduling finalization start config.roundStartTime :=
  recovered_iff_sameDay scheduled

/-- A start at midnight is recovered when it is scheduled with a block. -/
theorem previous_start_recovered_with_block :
    ∃ start block, Recovered 0 ⟨101 * dayLength, by decide⟩ midnight start block ∧
      SameDay 0 ⟨100 * dayLength, by decide⟩ ⟨101 * dayLength, by decide⟩ start
        midnight.roundStartTime := by
  have scheduled : computeNextRoundStart ⟨100 * dayLength, by decide⟩
      (heightAt 0 ⟨100 * dayLength, by decide⟩) midnight none =
        some (⟨101 * dayLength, by decide⟩, 727200) := by
    decide +kernel
  have inside : SameDay 0 ⟨100 * dayLength, by decide⟩ ⟨101 * dayLength, by decide⟩
      ⟨101 * dayLength, by decide⟩ midnight.roundStartTime := by
    unfold SameDay
    decide +kernel
  exact ⟨_, _, (previous_start_recovered_iff 0 _ _ _ midnight none _ scheduled).mpr inside, inside⟩

/-- Five seconds after a block, a round of two days is scheduled for midnight; it is taken to have
started the day before, and the next one starts a day early. -/
theorem midnight_start_lost :
    ∃ start block next nextBlock,
      computeNextRoundStart ⟨100 * dayLength + 36005000000, by decide⟩
        (heightAt 0 ⟨100 * dayLength + 36005000000, by decide⟩) midnight none =
          some (start, block) ∧
      estimateRoundStart block (heightAt 0 ⟨101 * dayLength + 36000000000, by decide⟩)
        ⟨101 * dayLength + 36000000000, by decide⟩ midnight.roundStartTime ≠ some start ∧
      computeNextRoundStart ⟨101 * dayLength + 36000000000, by decide⟩
        (heightAt 0 ⟨101 * dayLength + 36000000000, by decide⟩) midnight
        (estimateRoundStart block (heightAt 0 ⟨101 * dayLength + 36000000000, by decide⟩)
          ⟨101 * dayLength + 36000000000, by decide⟩ midnight.roundStartTime) =
          some (next, nextBlock) ∧
      next.micros < start.micros + midnight.roundDurationDays * dayLength := by
  refine ⟨⟨101 * dayLength, by decide⟩, 727199, ⟨102 * dayLength, by decide⟩, 734400, ?_⟩
  decide +kernel

end GenSubnet.RoundManager
