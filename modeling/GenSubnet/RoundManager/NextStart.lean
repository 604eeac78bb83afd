import GenSubnet.RoundManager.Schedule

/-!
# The start of the next round

`_compute_next_round_start` finds the earliest start that the calendar has, with the finalization
buffer that `timedelta` makes of the configured hours.
-/

namespace GenSubnet.RoundManager
open Library Rounding

variable {currentTime candidate : Datetime} {config : RoundConfig}
variable {previousRoundStart : Option Datetime}

/-- The start is not before the end of the previous round, or not before today. -/
def NotBefore (currentTime : Datetime) (config : RoundConfig)
    (previousRoundStart : Option Datetime) (start : Datetime) : Prop :=
  match previousRoundStart with
  | some previous => previous.micros + config.roundDurationDays * dayLength ≤ start.micros
  | none => currentTime.date.day ≤ start.date.day

/-- A start that respects the configuration, the buffer in microseconds, and the round before. -/
structure Admissible (currentTime : Datetime) (config : RoundConfig)
    (previousRoundStart : Option Datetime) (buffer : Rat) (start : Datetime) : Prop where
  atStartTime : start.time = config.roundStartTime
  evaluation : config.firstEvaluationDate.day ≤ start.date.day
  ahead : buffer ≤ (start.micros - currentTime.micros : Int)
  duration : NotBefore currentTime config previousRoundStart start

/-- The hours of the buffer are no `timedelta`. -/
def InvalidBuffer (config : RoundConfig) : Prop := config.minBuffer = none

/-- The duration leads from the previous start to a time before the calendar. -/
def BeforeCalendar (config : RoundConfig) (previousRoundStart : Option Datetime) : Prop :=
  ∃ previous ∈ previousRoundStart, previous.micros + config.roundDurationDays * dayLength < 0

/-! ## The buffer -/

/-- The instants from a candidate on, at its time of the day, with enough ahead of them. -/
def Buffered (candidate currentTime : Datetime) (minBuffer : Int) : Set Datetime :=
  { start | start.time = candidate.time ∧ candidate ≤ start ∧
    minBuffer ≤ start.micros - currentTime.micros }

theorem buffered_later {later : Datetime} {minBuffer : Int}
    (early : candidate.micros - currentTime.micros < minBuffer)
    (next : candidate.add dayLength = some later) :
    Buffered later currentTime minBuffer = Buffered candidate currentTime minBuffer := by
  have moved : later.micros = candidate.micros + 1 * dayLength := by
    rw [Datetime.add_eq_some.mp next]
    omega
  have date := Datetime.date_of_add_days moved
  have time := Datetime.time_of_add_days moved
  ext start
  constructor
  · rintro ⟨same, after, ahead⟩
    refine ⟨same.trans time, ?_, ahead⟩
    apply le_trans _ after
    rw [Datetime.le_iff, moved]
    unfold dayLength
    omega
  · rintro ⟨same, after, ahead⟩
    refine ⟨same.trans time.symm, ?_, ahead⟩
    rw [Datetime.le_iff_of_time_eq (time.trans same.symm), date]
    have notEarlier := (Datetime.le_iff_of_time_eq same.symm).mp after
    have different : candidate.date.day ≠ start.date.day := by
      intro equal
      have position := Datetime.micros_eq start
      rw [← equal, same, ← Datetime.micros_eq] at position
      omega
    omega

theorem buffered_empty {minBuffer : Int}
    (early : candidate.micros - currentTime.micros < minBuffer)
    (last : candidate.add dayLength = none) : Buffered candidate currentTime minBuffer = ∅ := by
  apply Set.eq_empty_of_forall_notMem
  rintro start ⟨same, after, ahead⟩
  have notEarlier := (Datetime.le_iff_of_time_eq same.symm).mp after
  have position := Datetime.micros_eq start
  have before := Datetime.micros_eq candidate
  have valid := start.valid
  have candidateValid := candidate.valid
  have left := Datetime.add_eq_none.mp last
  rw [same] at position
  unfold dayLength calendarDays at *
  omega

theorem advanceToBuffer_least (candidate currentTime : Datetime) (minBuffer : Int) :
    (∀ start, advanceToBuffer candidate currentTime minBuffer = some start →
      IsLeast (Buffered candidate currentTime minBuffer) start) ∧
    (advanceToBuffer candidate currentTime minBuffer = none →
      Buffered candidate currentTime minBuffer = ∅) := by
  fun_induction advanceToBuffer candidate currentTime minBuffer with
  | case1 candidate early later next ih =>
      rw [← buffered_later early next]
      exact ih
  | case2 candidate early last =>
      refine ⟨?_, fun _ => buffered_empty early last⟩
      intro start found
      cases found
  | case3 candidate enough =>
      refine ⟨?_, by simp⟩
      rintro start ⟨⟩
      refine ⟨⟨rfl, le_refl _, by omega⟩, ?_⟩
      rintro other ⟨_, after, _⟩
      exact after

/-! ## The constraints together -/

theorem clamp_time (sameTime : candidate.time = config.roundStartTime) :
    (clampToCompetitionStart candidate config).time = config.roundStartTime := by
  unfold clampToCompetitionStart
  simp only
  split
  · exact Datetime.time_combine _ _
  · exact sameTime

theorem clamp_date (sameTime : candidate.time = config.roundStartTime) :
    (clampToCompetitionStart candidate config).date.day =
      max candidate.date.day config.firstEvaluationDate.day := by
  have order := Datetime.le_iff_of_time_eq
    (x := Datetime.combine config.firstEvaluationDate config.roundStartTime)
    ((Datetime.time_combine _ _).trans sameTime.symm)
  rw [Datetime.le_iff, Datetime.date_combine] at order
  unfold clampToCompetitionStart
  simp only
  split
  · rw [Datetime.date_combine]
    omega
  · omega

theorem le_clamp (sameTime : candidate.time = config.roundStartTime) :
    candidate ≤ clampToCompetitionStart candidate config := by
  rw [Datetime.le_iff_of_time_eq (sameTime.trans (clamp_time sameTime).symm), clamp_date sameTime]
  omega

theorem notBefore_iff (atStart : ∀ previous ∈ previousRoundStart,
      previous.time = config.roundStartTime) {first : Date}
    (earliest : earliestDate currentTime config previousRoundStart = some first) {start : Datetime}
    (sameTime : start.time = config.roundStartTime) :
    NotBefore currentTime config previousRoundStart start ↔ first.day ≤ start.date.day := by
  cases previousRoundStart with
  | none =>
      obtain rfl := Option.some.inj earliest
      exact Iff.rfl
  | some previous =>
      obtain ⟨moved, added, rfl⟩ := Option.map_eq_some_iff.mp earliest
      have later := Datetime.add_eq_some.mp added
      have time := Datetime.time_of_add_days later
      rw [NotBefore, ← later]
      exact Datetime.le_iff_of_time_eq (time.trans ((atStart previous rfl).trans sameTime.symm))

theorem admissible_iff (atStart : ∀ previous ∈ previousRoundStart,
      previous.time = config.roundStartTime) {first : Date}
    (earliest : earliestDate currentTime config previousRoundStart = some first) {minBuffer : Int}
    {start : Datetime} :
    Admissible currentTime config previousRoundStart minBuffer start ↔
      start ∈ Buffered (Datetime.combine first config.roundStartTime) currentTime minBuffer ∧
      config.firstEvaluationDate.day ≤ start.date.day := by
  simp only [Buffered, Set.mem_ofPred_eq, Datetime.time_combine]
  constructor
  · intro admissible
    have sameTime := admissible.atStartTime
    refine ⟨⟨sameTime, ?_, ?_⟩, admissible.evaluation⟩
    · rw [Datetime.le_iff_of_time_eq ((Datetime.time_combine _ _).trans sameTime.symm),
        Datetime.date_combine]
      exact (notBefore_iff atStart earliest sameTime).mp admissible.duration
    · exact_mod_cast admissible.ahead
  · rintro ⟨⟨sameTime, after, ahead⟩, evaluation⟩
    rw [Datetime.le_iff_of_time_eq ((Datetime.time_combine _ _).trans sameTime.symm),
      Datetime.date_combine] at after
    exact ⟨sameTime, evaluation, by exact_mod_cast ahead,
      (notBefore_iff atStart earliest sameTime).mpr after⟩

theorem clamp_least (atStart : ∀ previous ∈ previousRoundStart,
      previous.time = config.roundStartTime) {first : Date}
    (earliest : earliestDate currentTime config previousRoundStart = some first) {minBuffer : Int}
    (least : IsLeast (Buffered (Datetime.combine first config.roundStartTime) currentTime minBuffer)
      candidate) :
    IsLeast { start | Admissible currentTime config previousRoundStart minBuffer start }
      (clampToCompetitionStart candidate config) := by
  obtain ⟨⟨candidateTime, after, ahead⟩, lowest⟩ := least
  rw [Datetime.time_combine] at candidateTime
  have time := clamp_time candidateTime
  have date := clamp_date candidateTime
  have notEarlier := le_clamp candidateTime
  constructor
  · rw [Set.mem_ofPred_eq, admissible_iff atStart earliest]
    refine ⟨⟨time.trans (Datetime.time_combine _ _).symm, le_trans after notEarlier, ?_⟩, by omega⟩
    rw [Datetime.le_iff] at notEarlier
    omega
  · intro other admissible
    have sameTime := admissible.atStartTime
    rw [Set.mem_ofPred_eq, admissible_iff atStart earliest] at admissible
    rw [Datetime.le_iff_of_time_eq (time.trans sameTime.symm), date]
    have bound := lowest admissible.1
    rw [Datetime.le_iff_of_time_eq (candidateTime.trans sameTime.symm)] at bound
    have evaluation := admissible.2
    omega

theorem computeNextRoundStart_eq (currentBlock : Int) {first : Date} {minBuffer : Int}
    (earliest : earliestDate currentTime config previousRoundStart = some first)
    (buffer : config.minBuffer = some minBuffer) :
    computeNextRoundStart currentTime currentBlock config previousRoundStart =
      (advanceToBuffer (Datetime.combine first config.roundStartTime) currentTime minBuffer).map
        fun candidate => (clampToCompetitionStart candidate config, currentBlock +
          blocksUntil ((clampToCompetitionStart candidate config).micros - currentTime.micros)) := by
  simp [computeNextRoundStart, earliest, ensureFinalizationBuffer, buffer, Option.map_eq_bind,
    Function.comp_def]

theorem earliestDate_none (missing : earliestDate currentTime config previousRoundStart = none)
    (buffer : Rat) :
    BeforeCalendar config previousRoundStart ∨
      ∀ start, ¬Admissible currentTime config previousRoundStart buffer start := by
  cases previousRoundStart with
  | none => cases missing
  | some previous =>
      rcases Datetime.add_eq_none.mp (Option.map_eq_none_iff.mp missing) with before | after
      · exact .inl ⟨previous, rfl, before⟩
      · right
        intro start admissible
        have duration : _ ≤ start.micros := admissible.duration
        have valid := start.valid
        omega

/-- A start that is found is the earliest admissible one, and it is found unless there is none, the
buffer is no duration, or the duration of a round leads before the calendar. -/
theorem next_start_earliest (currentTime : Datetime) (currentBlock : Int) (config : RoundConfig)
    (previousRoundStart : Option Datetime)
    (atStart : ∀ previous ∈ previousRoundStart, previous.time = config.roundStartTime) :
    (∀ start block, computeNextRoundStart currentTime currentBlock config previousRoundStart =
        some (start, block) →
      ∃ minBuffer : Int, config.minBuffer = some minBuffer ∧
        IsLeast { start | Admissible currentTime config previousRoundStart minBuffer start } start) ∧
    (computeNextRoundStart currentTime currentBlock config previousRoundStart = none ↔
      InvalidBuffer config ∨ BeforeCalendar config previousRoundStart ∨
        ∀ minBuffer : Int, config.minBuffer = some minBuffer →
          ∀ start, ¬Admissible currentTime config previousRoundStart minBuffer start) := by
  cases buffer : config.minBuffer with
  | none => simp [computeNextRoundStart, ensureFinalizationBuffer, buffer, InvalidBuffer]
  | some minBuffer =>
      cases earliest : earliestDate currentTime config previousRoundStart with
      | none =>
          have reason := earliestDate_none earliest minBuffer
          have missing : computeNextRoundStart currentTime currentBlock config previousRoundStart =
              none := by
            simp [computeNextRoundStart, earliest]
          simpa [missing, InvalidBuffer, buffer] using reason
      | some first =>
          have valid : ¬BeforeCalendar config previousRoundStart := by
            rintro ⟨previous, rfl, before⟩
            obtain ⟨moved, added, _⟩ := Option.map_eq_some_iff.mp earliest
            have later := Datetime.add_eq_some.mp added
            have inside := moved.valid
            omega
          have loop := advanceToBuffer_least (Datetime.combine first config.roundStartTime)
            currentTime minBuffer
          rw [computeNextRoundStart_eq currentBlock earliest buffer]
          constructor
          · intro start block found
            obtain ⟨candidate, reached, pair⟩ := Option.map_eq_some_iff.mp found
            obtain rfl := (Prod.mk.inj pair).1
            exact ⟨minBuffer, rfl, clamp_least atStart earliest (loop.1 candidate reached)⟩
          · simp only [Option.map_eq_none_iff, InvalidBuffer, buffer, valid, reduceCtorEq, false_or,
              Option.some_inj, forall_eq']
            constructor
            · intro missing start admissible
              have member := ((admissible_iff atStart earliest).mp admissible).1
              rw [loop.2 missing] at member
              exact member
            · intro noneAdmissible
              by_contra reached
              obtain ⟨candidate, reached⟩ := Option.ne_none_iff_exists'.mp reached
              have least := clamp_least atStart earliest (loop.1 candidate reached)
              exact noneAdmissible _ least.1

/-- Noon of a day, and a start at noon with a buffer of less than half a microsecond. -/
def noon : Datetime := ⟨dayLength / 2, by decide⟩

def briefBuffer : RoundConfig where
  firstEvaluationDate := ⟨0, by decide⟩
  lastCompetitionDate := ⟨1000, by decide⟩
  roundStartTime := ⟨dayLength / 2, by decide⟩
  generationStageMinutes := 180
  finalizationBufferHours := some (1 / 2 ^ 33)
  roundDurationDays := 1

/-- From a round that began at noon, the next one begins at noon of the next day. -/
theorem next_start_earliest_noon :
    ∃ start block, computeNextRoundStart noon 0 briefBuffer (some noon) = some (start, block) ∧
      start.micros = noon.micros + dayLength ∧
      ∃ minBuffer : Int, briefBuffer.minBuffer = some minBuffer ∧
        IsLeast { start | Admissible noon briefBuffer (some noon) minBuffer start } start := by
  have found : computeNextRoundStart noon 0 briefBuffer (some noon) =
      some (⟨noon.micros + dayLength, by decide⟩, 7200) := by
    decide +kernel
  have atStart : ∀ previous ∈ some noon, previous.time = briefBuffer.roundStartTime := by
    rintro previous ⟨⟩
    decide
  exact ⟨_, _, found, rfl, (next_start_earliest noon 0 briefBuffer (some noon) atStart).1 _ _ found⟩

/-- The buffer of 2⁻³³ hours is rounded to nothing, and a duration of 10⁹ days raises. -/
theorem brief_buffer_and_long_duration :
    (∃ start block, computeNextRoundStart noon 0 briefBuffer none = some (start, block) ∧
      ∀ hours ∈ briefBuffer.finalizationBufferHours,
        ¬Admissible noon briefBuffer none (hours * 3600000000) start) ∧
    computeNextRoundStart noon 0 { briefBuffer with roundDurationDays := 1000000000 } (some noon) =
      none := by
  constructor
  · refine ⟨noon, 0, ?_, ?_⟩
    · decide +kernel
    · intro hours given admissible
      obtain rfl := Option.some.inj given
      have ahead := admissible.ahead
      norm_num [noon] at ahead
  · decide +kernel

end GenSubnet.RoundManager
