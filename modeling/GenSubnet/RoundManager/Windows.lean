import GenSubnet.Competition.Services
import GenSubnet.RoundManager.PreviousStart

/-!
# The windows of the rounds

A run of the competition, as the round manager schedules it. Each window opens at the block after the
last one, and the leaders become active in the order in which they have won.
-/

namespace GenSubnet.RoundManager
open Library Rounding Competition

/-! ## The code -/

/-- The files that `finalize_round` reads and writes, but for the configuration. -/
structure Files where
  stage : RoundStage
  currentRound : Nat
  nextStageEta : Option Datetime
  schedules : Nat → Option RoundSchedule
  winners : Nat → Option RoundResult
  transitions : List LeaderEntry

/-- `LeaderState.get_leader` -/
def getLeader (transitions : List LeaderEntry) (currentBlock : Int) : Option LeaderEntry :=
  transitions.reverse.find? fun entry => entry.effectiveBlock ≤ currentBlock

/-- What the iteration reads: the configuration and the setting, the block and then the time. -/
structure Reading where
  config : RoundConfig
  pauseOnStageEnd : Bool
  currentBlock : Int
  currentTime : Datetime

def Reading.previousRoundStart (reading : Reading) (previousSchedule : Option RoundSchedule) :
    Option (Option Datetime) :=
  match previousSchedule with
  | some schedule => (estimateRoundStart schedule.latestRevealBlock reading.currentBlock
      reading.currentTime reading.config.roundStartTime).map some
  | none => some none

/-- `_commit_round_updates` -/
def Files.commit (files : Files) (pauseOnStageEnd : Bool) (nextRoundStart : Datetime)
    (nextSchedule : NextSchedule) (newLeader : Option LeaderEntry) : Files :=
  let files := { files with transitions := files.transitions ++ newLeader.toList }
  match nextSchedule with
  | .ended => { files with stage := .finished, nextStageEta := none }
  | .next schedule =>
      { files with
        stage := if pauseOnStageEnd then .paused else .opened
        currentRound := files.currentRound + 1
        nextStageEta := some nextRoundStart
        schedules := fun n => if n = files.currentRound + 1 then some schedule else files.schedules n }

/-- `finalize_round` -/
def finalizeRound (reading : Reading) (files : Files) : Option Files :=
  if files.stage ≠ .finalizing then some files
  else do
    let previousSchedule := files.schedules files.currentRound
    let previousRoundStart ← reading.previousRoundStart previousSchedule
    let (nextRoundStart, nextRoundStartBlock) ← computeNextRoundStart reading.currentTime
      reading.currentBlock reading.config previousRoundStart
    let nextSchedule ← buildNextSchedule nextRoundStart nextRoundStartBlock reading.config
      (previousSchedule.map RoundSchedule.latestRevealBlock)
    let roundResult ← files.winners files.currentRound
    let currentLeader ← files.transitions.getLast?
    let newLeader := findNewLeader roundResult currentLeader nextRoundStartBlock
    return files.commit reading.pauseOnStageEnd nextRoundStart nextSchedule newLeader

/-! ## Runs -/

structure Rounds where
  files : Files
  /-- The block at which the collector has closed the window of the round. -/
  closed : Option Int := none

inductive RoundEvent
  /-- `_collect_submissions` reads a block and goes on to the stage, if the window is over. -/
  | collect (block : Int) (stage : RoundStage)
  /-- Another service or the operator sets the stage of a competition that has not finished. -/
  | move (stage : RoundStage)
  | resolve (result : RoundResult)
  | finalize (reading : Reading)

def Rounds.withStage (s : Rounds) (stage : RoundStage) : Rounds :=
  { s with files := { s.files with stage } }

def step (s : Rounds) : RoundEvent → Option Rounds
  | .collect block stage =>
      match s.files.schedules s.files.currentRound with
      | some schedule =>
          if s.files.stage = .opened ∧ (stage = .minerGeneration ∨ stage = .finalizing) ∧
              schedule.latestRevealBlock ≤ block then
            some { s.withStage stage with closed := some block }
          else none
      | none => none
  | .move stage =>
      if s.files.stage ≠ .finished ∧ stage ≠ .finished then some (s.withStage stage) else none
  | .resolve result =>
      let winners n := if n = s.files.currentRound then some result else s.files.winners n
      some { s with files := { s.files with winners } }
  | .finalize reading =>
      (finalizeRound reading s.files).map fun files =>
        { files, closed := if s.files.stage = .finalizing then none else s.closed }

/-- A finalization comes after the window was closed, with a buffer of a block or more. -/
def Orderly (s : Rounds) : RoundEvent → Prop
  | .finalize reading => s.files.stage = .finalizing →
      (∃ closing ∈ s.closed, closing ≤ reading.currentBlock) ∧
        ∀ hours ∈ reading.config.finalizationBufferHours, 1 / 300 ≤ hours
  | _ => True

/-- The miners are not given a negative time. -/
def Generates (s : Rounds) : RoundEvent → Prop
  | .finalize reading => s.files.stage = .finalizing → 0 ≤ reading.config.generationStageMinutes
  | _ => True

instance (s : Rounds) (event : RoundEvent) : Decidable (Orderly s event) :=
  match event with
  | .finalize reading => inferInstanceAs (Decidable (s.files.stage = .finalizing →
      (∃ closing ∈ s.closed, closing ≤ reading.currentBlock) ∧
        ∀ hours ∈ reading.config.finalizationBufferHours, 1 / 300 ≤ hours))
  | .collect _ _ | .move _ | .resolve _ => isTrue trivial

instance (s : Rounds) (event : RoundEvent) : Decidable (Generates s event) :=
  match event with
  | .finalize reading => inferInstanceAs (Decidable (s.files.stage = .finalizing →
      0 ≤ reading.config.generationStageMinutes))
  | .collect _ _ | .move _ | .resolve _ => isTrue trivial

/-- The window of a schedule begins where that of the other ends, and it is over by the deadline. -/
structure Follows (before schedule : RoundSchedule) : Prop where
  earliest : schedule.earliestRevealBlock = before.latestRevealBlock + 1
  window : schedule.earliestRevealBlock ≤ schedule.latestRevealBlock
  deadline : ∃ deadline ∈ schedule.generationDeadlineBlock,
    schedule.latestRevealBlock ≤ (deadline : Int)

/-! ## Blocks -/

theorem one_le_blocksUntil {delta : Int} (long : 12000000 ≤ delta)
    (inside : delta < calendarDays * dayLength) : 1 ≤ blocksUntil delta := by
  have low : (12000000 : Rat) ≤ delta := by exact_mod_cast long
  have high : (delta : Rat) ≤ 3652059 * 86400000000 := by exact_mod_cast inside.le
  have size : |(delta : Rat) / 1000000| < 2 ^ 53 := by
    rw [abs_of_nonneg (by linarith)]
    linarith
  have seconds : ((12 : Int) : Rat) ≤ totalSeconds delta := by
    apply int_le_nearest size
    push_cast
    linarith
  have most : totalSeconds delta ≤ ((3652059 * 86400 : Int) : Rat) := by
    apply nearest_le_int size
    push_cast
    linarith
  push_cast at seconds most
  have divided : totalSeconds delta / (blockTimeSeconds : Rat) = totalSeconds delta / 12 := rfl
  apply le_truncate (by omega)
  rw [divided]
  apply int_le_nearest
  · rw [abs_of_nonneg (by linarith)]
    linarith
  · push_cast
    linarith

theorem minBuffer_of_hours {config : RoundConfig} {minBuffer : Int}
    (long : ∀ hours ∈ config.finalizationBufferHours, 1 / 300 ≤ hours)
    (buffer : config.minBuffer = some minBuffer) : 12000000 ≤ minBuffer := by
  obtain ⟨hours, given, rounded⟩ := Option.bind_eq_some_iff.mp buffer
  have enough := long hours given
  have floor := Int.floor_le hours
  have next := Int.lt_floor_add_one hours
  have nonneg : 0 ≤ hours := by linarith
  have whole : truncate hours = ⌊hours⌋ := by rw [truncate, if_pos nonneg]
  have parts : (12000000 : Int) ≤
      halfEven (⌊hours⌋ * 3600000000 + nearest (3600000000 * (hours - ⌊hours⌋))) := by
    apply le_halfEven
    rcases (Int.floor_nonneg.mpr nonneg).eq_or_lt with none | some
    · have fraction : ((12000000 : Int) : Rat) ≤ nearest (3600000000 * (hours - ⌊hours⌋)) := by
        apply int_le_nearest
        · rw [abs_of_nonneg (by linarith)]
          linarith
        · rw [← none]
          push_cast
          linarith
      rw [← none] at fraction ⊢
      simpa using fraction
    · have fraction : ((0 : Int) : Rat) ≤ nearest (3600000000 * (hours - ⌊hours⌋)) := by
        apply int_le_nearest
        · rw [abs_of_nonneg (by linarith)]
          linarith
        · push_cast
          linarith
      have hour : (1 : Rat) ≤ ⌊hours⌋ := by exact_mod_cast some
      push_cast at fraction ⊢
      linarith
  simp only [timedeltaHours, whole] at rounded
  split at rounded
  · obtain rfl := Option.some.inj rounded
    exact parts
  · cases rounded

theorem lt_nextRoundStartBlock {currentTime start : Datetime} {currentBlock block : Int}
    {config : RoundConfig} {previousRoundStart : Option Datetime}
    (long : ∀ hours ∈ config.finalizationBufferHours, 1 / 300 ≤ hours)
    (found : computeNextRoundStart currentTime currentBlock config previousRoundStart =
      some (start, block)) : currentBlock < block := by
  simp only [computeNextRoundStart, ensureFinalizationBuffer, Option.bind_eq_bind,
    Option.bind_eq_some_iff] at found
  obtain ⟨first, _, candidate, ⟨minBuffer, buffer, reached⟩, pair⟩ := found
  obtain ⟨rfl, rfl⟩ := Prod.mk.inj (Option.some.inj pair)
  obtain ⟨sameTime, _, ahead⟩ := ((advanceToBuffer_least _ _ _).1 candidate reached).1
  rw [Datetime.time_combine] at sameTime
  have bound := minBuffer_of_hours long buffer
  have later := le_clamp sameTime
  rw [Datetime.le_iff] at later
  have valid := (clampToCompetitionStart candidate config).valid
  have now := currentTime.valid
  have some : 1 ≤ blocksUntil
      ((clampToCompetitionStart candidate config).micros - currentTime.micros) :=
    one_le_blocksUntil (by omega) (by omega)
  omega

theorem follows_of_built {start : Datetime} {block : Int} {config : RoundConfig}
    {before schedule : RoundSchedule} (time : 0 ≤ config.generationStageMinutes)
    (later : before.latestRevealBlock < block)
    (built : buildNextSchedule start block config (some before.latestRevealBlock) =
      some (.next schedule)) : Follows before schedule ∧ schedule.latestRevealBlock = block := by
  unfold buildNextSchedule at built
  split at built
  · cases built
  · simp only at built
    split at built
    · rename_i valid
      obtain rfl := NextSchedule.next.inj (Option.some.inj built)
      have generation : 0 ≤ truncate (nearest (config.generationStageMinutes * 60 /
          blockTimeSeconds)) := by
        apply le_truncate le_rfl
        apply le_nearest (n := 0) (by simp)
        have nonneg : (0 : Rat) ≤ config.generationStageMinutes := by exact_mod_cast time
        have divisor : (0 : Rat) < blockTimeSeconds := by
          rw [blockTimeSeconds]
          norm_num
        push_cast
        positivity
      refine ⟨⟨rfl, ?_, ⟨_, rfl, ?_⟩⟩, rfl⟩
      · exact later
      · rw [Int.toNat_of_nonneg valid]
        simp only
        omega
    · cases built

/-! ## One finalization -/

theorem effectiveBlock_of_findNewLeader {result : RoundResult} {current entry : LeaderEntry}
    {block : Int} (found : findNewLeader result current block = some entry) :
    entry.effectiveBlock = block := by
  unfold findNewLeader at found
  split at found
  · cases found
  · split at found
    · cases found
    · obtain rfl := Option.some.inj found
      rfl

theorem finalizeRound_cases {reading : Reading} {files files' : Files}
    (finalizing : files.stage = .finalizing) (done : finalizeRound reading files = some files') :
    ∃ previousRoundStart start block next newLeader,
      computeNextRoundStart reading.currentTime reading.currentBlock reading.config
        previousRoundStart = some (start, block) ∧
      buildNextSchedule start block reading.config
        ((files.schedules files.currentRound).map RoundSchedule.latestRevealBlock) = some next ∧
      (∀ entry ∈ newLeader, entry.effectiveBlock = block) ∧
      files' = files.commit reading.pauseOnStageEnd start next newLeader := by
  rw [finalizeRound, if_neg (not_not_intro finalizing)] at done
  simp only [Option.bind_eq_bind, Option.bind_eq_some_iff] at done
  obtain ⟨previousRoundStart, _, ⟨start, block⟩, found, next, built, result, _, current, _, made⟩ :=
    done
  refine ⟨previousRoundStart, start, block, next, findNewLeader result current block, found, built,
    ?_, (Option.some.inj made).symm⟩
  intro entry member
  exact effectiveBlock_of_findNewLeader member

/-! ## The invariant -/

/-- The schedules since the first state follow each other, and the leaders that were appended are
active one after the other, none of them after the window of the round. -/
structure Chained (initial : Files) (appended : List LeaderEntry) (s : Rounds) : Prop where
  notEarlier : initial.currentRound ≤ s.files.currentRound
  chain : ∀ n, initial.currentRound < n → n ≤ s.files.currentRound → ∃ before schedule,
    s.files.schedules (n - 1) = some before ∧ s.files.schedules n = some schedule ∧
      Follows before schedule
  transitions : s.files.transitions = initial.transitions ++ appended
  increasing : appended.Pairwise fun e f => e.effectiveBlock < f.effectiveBlock
  current : ∃ schedule, s.files.schedules s.files.currentRound = some schedule ∧
    (∀ closing ∈ s.closed, schedule.latestRevealBlock ≤ closing) ∧
    (s.files.stage ≠ .finished → ∀ e ∈ appended, e.effectiveBlock ≤ schedule.latestRevealBlock)

variable {initial : Files} {appended : List LeaderEntry} {s s' : Rounds}

theorem Chained.withStage (chained : Chained initial appended s) (stage : RoundStage)
    (running : s.files.stage ≠ .finished) : Chained initial appended (s.withStage stage) := by
  obtain ⟨schedule, found, over_, bound⟩ := chained.current
  exact ⟨chained.notEarlier, chained.chain, chained.transitions, chained.increasing,
    schedule, found, over_, fun _ => bound running⟩

theorem Chained.closing (chained : Chained initial appended s) {schedule : RoundSchedule}
    {block : Int} (found : s.files.schedules s.files.currentRound = some schedule)
    (late : schedule.latestRevealBlock ≤ block) :
    Chained initial appended { s with closed := some block } := by
  obtain ⟨other, same, _, bound⟩ := chained.current
  obtain rfl := Option.some.inj (same.symm.trans found)
  refine ⟨chained.notEarlier, chained.chain, chained.transitions, chained.increasing,
    other, found, ?_, bound⟩
  rintro closing ⟨⟩
  exact late

theorem pairwise_append_leader {newLeader : Option LeaderEntry} {block : Int}
    (increasing : appended.Pairwise fun e f => e.effectiveBlock < f.effectiveBlock)
    (before : ∀ e ∈ appended, e.effectiveBlock < block)
    (effective : ∀ entry ∈ newLeader, entry.effectiveBlock = block) :
    (appended ++ newLeader.toList).Pairwise fun e f => e.effectiveBlock < f.effectiveBlock := by
  rw [List.pairwise_append]
  refine ⟨increasing, ?_, ?_⟩
  · cases newLeader <;> simp
  · intro e member entry new
    rw [effective entry (Option.mem_toList.mp new)]
    exact before e member

theorem Chained.finalize (chained : Chained initial appended s) {reading : Reading}
    (finalizing : s.files.stage = .finalizing) {files : Files}
    (done : finalizeRound reading s.files = some files)
    (orderly : Orderly s (.finalize reading)) (generates : Generates s (.finalize reading)) :
    ∃ appended, Chained initial appended { files, closed := none } := by
  obtain ⟨_, start, block, next, newLeader, found, built, effective, rfl⟩ :=
    finalizeRound_cases finalizing done
  obtain ⟨⟨closing, closed, read⟩, long⟩ := orderly finalizing
  obtain ⟨schedule, current, over_, bound⟩ := chained.current
  have running : s.files.stage ≠ .finished := by
    rw [finalizing]
    decide
  have ahead := lt_nextRoundStartBlock long found
  have late := over_ closing closed
  have later : schedule.latestRevealBlock < block := by omega
  have increasing := pairwise_append_leader chained.increasing
    (fun e member => lt_of_le_of_lt (bound running e member) later) effective
  have transitions : s.files.transitions ++ newLeader.toList =
      initial.transitions ++ (appended ++ newLeader.toList) := by
    rw [chained.transitions, List.append_assoc]
  refine ⟨appended ++ newLeader.toList, ?_⟩
  cases next with
  | ended =>
      refine ⟨chained.notEarlier, chained.chain, transitions, increasing, schedule, current, ?_, ?_⟩
      · rintro _ ⟨⟩
      · intro unfinished
        exact absurd rfl unfinished
  | next following =>
      rw [current] at built
      obtain ⟨follows, latest⟩ := follows_of_built (generates finalizing) later built
      have notEarlier := chained.notEarlier
      refine ⟨?_, ?_, transitions, increasing, following, ?_, ?_, ?_⟩
      · exact Nat.le_succ_of_le notEarlier
      · intro n after upTo
        change n ≤ s.files.currentRound + 1 at upTo
        simp only [Files.commit]
        rcases upTo.lt_or_eq with earlier | rfl
        · obtain ⟨a, b, first, second, chain⟩ := chained.chain n after (by omega)
          refine ⟨a, b, ?_, ?_, chain⟩
          · rw [if_neg (by omega), first]
          · rw [if_neg (by omega), second]
        · refine ⟨schedule, following, ?_, ?_, follows⟩
          · rw [if_neg (by omega)]
            exact current
          · rw [if_pos rfl]
      · simp [Files.commit]
      · rintro _ ⟨⟩
      · intro _ e member
        rw [latest]
        rcases List.mem_append.mp member with old | new
        · have before := bound running e old
          omega
        · exact (effective e (Option.mem_toList.mp new)).le

theorem Chained.step {event : RoundEvent} (chained : Chained initial appended s)
    (orderly : Orderly s event) (generates : Generates s event) (stepped : step s event = some s') :
    ∃ appended, Chained initial appended s' := by
  cases event with
  | collect block stage =>
      simp only [RoundManager.step] at stepped
      split at stepped
      · rename_i schedule found
        split at stepped
        · rename_i enabled
          obtain ⟨opened, _, late⟩ := enabled
          obtain rfl := Option.some.inj stepped
          have running : s.files.stage ≠ .finished := by
            rw [opened]
            decide
          exact ⟨appended, (chained.withStage stage running).closing found late⟩
        · cases stepped
      · cases stepped
  | move stage =>
      simp only [RoundManager.step] at stepped
      split at stepped
      · rename_i running
        obtain rfl := Option.some.inj stepped
        exact ⟨appended, chained.withStage stage running.1⟩
      · cases stepped
  | resolve result =>
      obtain rfl := Option.some.inj stepped
      exact ⟨appended, chained.notEarlier, chained.chain, chained.transitions, chained.increasing,
        chained.current⟩
  | finalize reading =>
      obtain ⟨files, done, rfl⟩ := Option.map_eq_some_iff.mp stepped
      by_cases finalizing : s.files.stage = .finalizing
      · rw [if_pos finalizing]
        exact chained.finalize finalizing done orderly generates
      · rw [finalizeRound, if_pos finalizing] at done
        obtain rfl := Option.some.inj done
        rw [if_neg finalizing]
        exact ⟨appended, chained⟩

/-! ## The leader of a block -/

theorem getLeader_append (earlier later : List LeaderEntry) (block : Int) :
    getLeader (earlier ++ later) block = (getLeader later block).or (getLeader earlier block) := by
  simp [getLeader, List.find?_append]

theorem getLeader_eq_none {entries : List LeaderEntry} {block : Int}
    (none : ∀ e ∈ entries, block < e.effectiveBlock) : getLeader entries block = .none := by
  rw [getLeader, List.find?_eq_none]
  intro e member
  simpa using none e (List.mem_reverse.mp member)

theorem getLeader_of_increasing {before after : List LeaderEntry} {e : LeaderEntry} {block : Int}
    (increasing : (before ++ e :: after).Pairwise fun e f => e.effectiveBlock < f.effectiveBlock)
    (active : e.effectiveBlock ≤ block) (next : ∀ f ∈ after.head?, block < f.effectiveBlock) :
    getLeader (before ++ e :: after) block = some e := by
  have rest : ∀ f ∈ after, block < f.effectiveBlock := by
    cases after with
    | nil => simp
    | cons f others =>
        have first := next f rfl
        have ordered := (List.pairwise_cons.mp (List.pairwise_append.mp increasing).2.1.of_cons).1
        intro g member
        rcases List.mem_cons.mp member with rfl | member
        · exact first
        · exact first.trans (ordered g member)
  have found : getLeader [e] block = some e := by simp [getLeader, active]
  rw [getLeader_append, ← List.singleton_append, getLeader_append, getLeader_eq_none rest, found]
  rfl

/-- Every schedule follows the one before, and every block has the last of the leaders whose block
has come. -/
theorem schedules_chain (initial final : Rounds) (events : List RoundEvent)
    (scheduled : ∃ schedule, initial.files.schedules initial.files.currentRound = some schedule ∧
      ∀ closing ∈ initial.closed, schedule.latestRevealBlock ≤ closing)
    (ran : run step initial events = some final)
    (orderly : Throughout step (fun s e => Orderly s e ∧ Generates s e) initial events) :
    (∀ n, initial.files.currentRound < n → n ≤ final.files.currentRound → ∃ before schedule,
      final.files.schedules (n - 1) = some before ∧ final.files.schedules n = some schedule ∧
        Follows before schedule) ∧
    ∃ appended, final.files.transitions = initial.files.transitions ++ appended ∧
      (appended.Pairwise fun e f => e.effectiveBlock < f.effectiveBlock) ∧
      (∀ block, (∀ e ∈ appended, block < e.effectiveBlock) →
        getLeader final.files.transitions block = getLeader initial.files.transitions block) ∧
      ∀ block before e after, appended = before ++ e :: after → e.effectiveBlock ≤ block →
        (∀ f ∈ after.head?, block < f.effectiveBlock) →
        getLeader final.files.transitions block = some e := by
  obtain ⟨schedule, found, late⟩ := scheduled
  have start : Chained initial.files [] initial :=
    ⟨le_rfl, fun n after upTo => absurd upTo (by omega), (List.append_nil _).symm, List.Pairwise.nil,
      schedule, found, late, by simp⟩
  have preserved : ∀ s e s', (∃ appended, Chained initial.files appended s) →
      (Orderly s e ∧ Generates s e) → step s e = some s' →
      ∃ appended, Chained initial.files appended s' := by
    rintro s e s' ⟨appended, chained⟩ ⟨orderly, generates⟩ stepped
    exact chained.step orderly generates stepped
  obtain ⟨appended, chained⟩ := orderly.invariant ran preserved ⟨[], start⟩
  refine ⟨chained.chain, appended, chained.transitions, chained.increasing, ?_, ?_⟩
  · intro block none
    rw [chained.transitions, getLeader_append, getLeader_eq_none none]
    rfl
  · rintro block before e after rfl active next
    rw [chained.transitions, getLeader_append,
      getLeader_of_increasing chained.increasing active next]
    rfl

/-! ## Two rounds -/

def daily (generationStageMinutes : Int) : RoundConfig :=
  { briefBuffer with
    generationStageMinutes
    finalizationBufferHours := some 1
    roundDurationDays := 1 }

def firstRound : Rounds where
  files :=
    { stage := .opened
      currentRound := 0
      nextStageEta := none
      schedules := fun n => if n = 0 then some ⟨0, 100, some 1000⟩ else none
      winners := fun _ => none
      transitions := [⟨"a", "a/r", "1", "", 1, 0⟩] }

def twoRounds (minutes : Int) : List RoundEvent :=
  [.collect 120 .minerGeneration, .move .duels, .resolve ⟨"b", "b/r", "2"⟩, .move .finalizing,
    .finalize ⟨daily minutes, false, 1000, ⟨100 * dayLength, by decide⟩⟩,
    .collect 9000 .minerGeneration, .move .duels, .resolve ⟨"c", "c/r", "3"⟩, .move .finalizing,
    .finalize ⟨daily minutes, false, 9100, ⟨101 * dayLength, by decide⟩⟩]

/-- The leader of the second of two rounds is found from its block on. -/
theorem schedules_chain_two_rounds :
    ∃ final, run step firstRound (twoRounds 180) = some final ∧ final.files.currentRound = 2 ∧
      (∀ n, 0 < n → n ≤ 2 → ∃ before schedule, final.files.schedules (n - 1) = some before ∧
        final.files.schedules n = some schedule ∧ Follows before schedule) ∧
      ∃ appended, final.files.transitions = firstRound.files.transitions ++ appended ∧
        appended.length = 2 := by
  have reached : (run step firstRound (twoRounds 180)).any (fun final =>
      final.files.currentRound = 2 ∧ final.files.transitions.length = 3) = true := by
    decide +kernel
  obtain ⟨final, ran, found⟩ := (Option.any_eq_true _ _).mp reached
  obtain ⟨round, length⟩ := of_decide_eq_true found
  have orderly : Throughout step (fun s e => Orderly s e ∧ Generates s e) firstRound
      (twoRounds 180) := by
    decide +kernel
  have scheduled : ∃ schedule,
      firstRound.files.schedules firstRound.files.currentRound = some schedule ∧
      ∀ closing ∈ firstRound.closed, schedule.latestRevealBlock ≤ closing :=
    ⟨⟨0, 100, some 1000⟩, rfl, by rintro _ ⟨⟩⟩
  obtain ⟨chain, appended, transitions, _⟩ :=
    schedules_chain firstRound final (twoRounds 180) scheduled ran orderly
  rw [round] at chain
  refine ⟨final, ran, round, chain, appended, transitions, ?_⟩
  rw [transitions, List.length_append] at length
  have one : firstRound.files.transitions.length = 1 := rfl
  omega

/-- With a negative time for the miners, the deadline is before the end of the window. -/
theorem deadline_before_window :
    ∃ final schedule deadline, run step firstRound (twoRounds (-10)) = some final ∧
      Throughout step Orderly firstRound (twoRounds (-10)) ∧
      final.files.schedules 1 = some schedule ∧
      schedule.generationDeadlineBlock = some deadline ∧
      (deadline : Int) < schedule.latestRevealBlock := by
  have reached : (run step firstRound (twoRounds (-10))).any (fun final =>
      final.files.schedules 1 = some ⟨101, 4600, some 4550⟩) = true := by
    decide +kernel
  obtain ⟨final, ran, found⟩ := (Option.any_eq_true _ _).mp reached
  refine ⟨final, ⟨101, 4600, some 4550⟩, 4550, ran, ?_, of_decide_eq_true found, rfl, by decide⟩
  decide +kernel

end GenSubnet.RoundManager
