import GenSubnet.Competition.PromptIds
import GenSubnet.Judge.Duel
import GenSubnet.Judge.Finalization
import GenSubnet.Library.Rounding
import Mathlib

/-!
# The matches of the judge

`run_match` of `match_execution.py` and `_ensure_match` of `round_runner.py`, up to the margin that is
cached. Duels run one after another; a shutdown may be requested at any `await`, and is looked for
before each duel, after the match, and before the margin is added. Only complete matches are cached.
-/

namespace GenSubnet.Judge
open Library Competition

structure GenerationResult where
  js : Option String := none
  views : Option String := none
  failureReason : Option String := none

abbrev Generations := Dict String GenerationResult

/-- At least one prompt has usable JavaScript. -/
def delivered (gens : Generations) : Bool := gens.items.any fun entry => entry.2.js.isSome

/-- How a duel ended. The report has `SKIPPED` for both of the last two. -/
inductive DuelEnd
  | judged (winner : DuelWinner)
  /-- `evaluate_duel` raised. -/
  | failed
  /-- A shutdown came before the evaluation. -/
  | skipped
deriving DecidableEq

/-- `WINNER_TO_SCORE` -/
def DuelEnd.score : DuelEnd → Int
  | .judged .right => 1
  | .judged .left => -1
  | .judged .draw | .failed | .skipped => 0

structure DuelReport where
  name : String
  prompt : String
  leftJs : Option String
  leftPng : Option String
  rightJs : Option String
  rightPng : Option String
  ending : DuelEnd

structure MatchReport where
  left : String
  right : String
  score : Int
  margin : Rat
  duels : List DuelReport

def previewUrl (gen : GenerationResult) : Option String :=
  (gen.views.filter (· ≠ "")).map gridUrl

/-- The report of `_evaluate_prompt`. -/
def duelReport (leftGens rightGens : Generations) (prompt : String) (ending : DuelEnd) : DuelReport :=
  let stem := judgeId prompt
  let leftGen := (leftGens.get stem).getD {}
  let rightGen := (rightGens.get stem).getD {}
  { name := stem, prompt, ending
    leftJs := leftGen.js, leftPng := previewUrl leftGen
    rightJs := rightGen.js, rightPng := previewUrl rightGen }

/-- The end of `run_match`. The quotient of two integers is rounded to a float; it is at most one, so
it does not overflow. -/
def matchReport (left right : String) (duels : List DuelReport) : MatchReport :=
  let duels := duels.insertionSort fun a b => a.name ≤ b.name
  let score := (duels.map fun duel => duel.ending.score).sum
  { left, right, score, duels
    margin := if duels.isEmpty then 0 else Rounding.nearest (score / duels.length) }

/-- What `_run_match_between` returns. -/
inductive MatchOutcome
  | neitherDelivered
  | leftMissing
  | rightMissing
  | interrupted
  | scored (report : MatchReport)

def MatchOutcome.margin : MatchOutcome → Rat
  | .neitherDelivered => 0
  | .leftMissing => 1
  | .rightMissing => -1
  | .interrupted => 0
  | .scored report => report.margin

/-- Where `_ensure_match` stands. -/
inductive MatchPoint
  | loading
  /-- At the head of the loop of `run_match`. -/
  | dueling (leftGens rightGens : Generations) (duels : List DuelReport) (rest : List String)
  | evaluating (leftGens rightGens : Generations) (duels : List DuelReport) (prompt : String)
      (rest : List String)
  /-- `run_match` has returned. -/
  | reported (leftGens rightGens : Generations) (report : MatchReport)
  /-- `_run_match_between` is about to return. -/
  | returning (leftGens rightGens : Generations) (outcome : MatchOutcome)

/-- A run of the judge with the match that is on. -/
structure Matching where
  runner : Runner
  point : Option MatchPoint := none

inductive MatchEvent
  /-- An event of the run, other than the end of a match. -/
  | runner (event : RunEvent)
  | readGenerations (left right : Generations)
  /-- `evaluate_duel` returns, or raises. -/
  | evaluated (winner : Option DuelWinner)
  | proceed

/-- `_run_match_between` once both miners' generations are read. -/
def beginMatch (prompts : List String) (left right : Generations) : MatchPoint :=
  match delivered left, delivered right with
  | false, false => .returning left right .neitherDelivered
  | false, true => .returning left right .leftMissing
  | true, false => .returning left right .rightMissing
  | true, true => .dueling left right [] prompts

variable (setup : RoundSetup) (prompts : List String)

/-- The match goes on to its next `await`. -/
def Matching.proceed (s : Matching) : Option Matching :=
  match s.point with
  | some (.dueling left right duels (prompt :: rest)) =>
      if s.runner.shutdown then
        let duels := duels ++ [duelReport left right prompt .skipped]
        some { s with point := some (.dueling left right duels rest) }
      else some { s with point := some (.evaluating left right duels prompt rest) }
  | some (.dueling left right duels []) =>
      s.runner.phase.playing.map fun pair =>
        { s with point := some (.reported left right (matchReport pair.1 pair.2 duels)) }
  | some (.reported left right report) =>
      let outcome := if s.runner.shutdown then .interrupted else .scored report
      some { s with point := some (.returning left right outcome) }
  | some (.returning _ _ outcome) =>
      (s.runner.step setup (.matchFinished outcome.margin)).map fun runner => ⟨runner, none⟩
  | _ => none

def Matching.step (s : Matching) : MatchEvent → Option Matching
  | .runner (.matchFinished _) => none
  | .runner event =>
      (s.runner.step setup event).map fun runner =>
        { runner, point := if runner.phase.playing.isSome then some (s.point.getD .loading) else none }
  | .readGenerations left right =>
      match s.point with
      | some .loading => some { s with point := some (beginMatch prompts left right) }
      | _ => none
  | .evaluated winner =>
      match s.point with
      | some (.evaluating left right duels prompt rest) =>
          let ending := match winner with
            | some winner => .judged winner
            | none => .failed
          let duels := duels ++ [duelReport left right prompt ending]
          some { s with point := some (.dueling left right duels rest) }
      | _ => none
  | .proceed => s.proceed setup

/-! ## Margins -/

def wins (winner : DuelWinner) (duels : List DuelReport) : Nat :=
  duels.countP fun duel => duel.ending = .judged winner

/-- A margin that a match may leave behind, and what it rests on. -/
inductive CompleteMatch (left right : Generations) (margin : Rat) : Prop
  | neitherDelivered (left : delivered left = false) (right : delivered right = false)
      (margin : margin = 0)
  | leftMissing (left : delivered left = false) (right : delivered right = true)
      (margin : margin = 1)
  | rightMissing (left : delivered left = true) (right : delivered right = false)
      (margin : margin = -1)
  | scored (left : delivered left = true) (right : delivered right = true) (duels : List DuelReport)
      (all : (duels.map DuelReport.prompt).Perm prompts)
      (judged : ∀ duel ∈ duels, duel.ending ≠ .skipped)
      (margin : margin =
        Rounding.nearest (((wins .right duels : Rat) - wins .left duels) / prompts.length))

variable {setup prompts}

theorem sum_score (duels : List DuelReport) :
    (duels.map fun duel => duel.ending.score).sum = (wins .right duels : Int) - wins .left duels := by
  induction duels with
  | nil => rfl
  | cons duel rest ih =>
      rw [List.map_cons, List.sum_cons, ih, wins, wins, wins, wins, List.countP_cons, List.countP_cons]
      rcases duel.ending with ⟨_ | _ | _⟩ | _ | _ <;> simp [DuelEnd.score] <;> omega

theorem wins_le (winner : DuelWinner) (duels : List DuelReport) :
    wins winner duels ≤ duels.length := List.countP_le_length

theorem matchReport_margin (left right : String) (duels : List DuelReport) :
    (matchReport left right duels).margin =
      Rounding.nearest (((wins .right duels : Rat) - wins .left duels) / duels.length) := by
  have sorted := List.perm_insertionSort (fun a b : DuelReport => a.name ≤ b.name) duels
  have score : ((duels.insertionSort fun a b => a.name ≤ b.name).map fun duel => duel.ending.score).sum =
      (wins .right duels : Int) - wins .left duels :=
    ((sorted.map _).sum_eq).trans (sum_score duels)
  simp only [matchReport, score, sorted.length_eq]
  split
  · rename_i empty
    rw [List.isEmpty_iff] at empty
    obtain rfl : duels = [] := List.Perm.eq_nil (empty ▸ sorted.symm)
    exact (Rounding.nearest_int (n := 0) (by norm_num)).symm.trans (by simp [wins])
  · push_cast
    rfl

theorem CompleteMatch.range {left right : Generations} {margin : Rat}
    (complete : CompleteMatch prompts left right margin) : -1 ≤ margin ∧ margin ≤ 1 := by
  cases complete with
  | neitherDelivered _ _ margin | leftMissing _ _ margin | rightMissing _ _ margin =>
      rw [margin]
      norm_num
  | scored _ _ duels all _ margin =>
      have length : duels.length = prompts.length := by simpa using all.length_eq
      have right : (wins .right duels : Rat) ≤ prompts.length := by
        exact_mod_cast length ▸ wins_le .right duels
      have left : (wins .left duels : Rat) ≤ prompts.length := by
        exact_mod_cast length ▸ wins_le .left duels
      have bound : |((wins .right duels : Rat) - wins .left duels) / prompts.length| ≤ 1 := by
        rw [abs_div, Nat.abs_cast]
        apply div_le_one_of_le₀ _ (by positivity)
        rw [abs_le]
        have : (0 : Rat) ≤ wins .right duels := by positivity
        have : (0 : Rat) ≤ wins .left duels := by positivity
        constructor <;> linarith
      have small : |((wins .right duels : Rat) - wins .left duels) / prompts.length| < 2 ^ 53 :=
        bound.trans_lt (by norm_num)
      obtain ⟨below, above⟩ := abs_le.mp bound
      rw [margin]
      exact ⟨by exact_mod_cast Rounding.int_le_nearest (n := -1) small (by exact_mod_cast below),
        by exact_mod_cast Rounding.nearest_le_int (n := 1) small (by exact_mod_cast above)⟩

/-! ## Every moment of a shutdown -/

/-- What a match guarantees at a point, as long as no shutdown is requested. -/
def MatchPoint.Sound (prompts : List String) (shutdown : Bool) : MatchPoint → Prop
  | .loading => True
  | .dueling left right duels rest => delivered left = true ∧ delivered right = true ∧
      duels.map DuelReport.prompt ++ rest = prompts ∧
      (shutdown = false → ∀ duel ∈ duels, duel.ending ≠ .skipped)
  | .evaluating left right duels prompt rest => delivered left = true ∧ delivered right = true ∧
      duels.map DuelReport.prompt ++ prompt :: rest = prompts ∧
      (shutdown = false → ∀ duel ∈ duels, duel.ending ≠ .skipped)
  | .reported left right report =>
      shutdown = false → CompleteMatch prompts left right report.margin
  | .returning left right outcome =>
      shutdown = false → CompleteMatch prompts left right outcome.margin

def Matching.Sound (prompts : List String) (s : Matching) : Prop :=
  ∀ point, s.point = some point → point.Sound prompts s.runner.shutdown

theorem MatchPoint.Sound.shutdown {point : MatchPoint} {shutdown shutdown' : Bool}
    (sound : point.Sound prompts shutdown) (mono : shutdown = true → shutdown' = true) :
    point.Sound prompts shutdown' := by
  have running (still : shutdown' = false) : shutdown = false := by
    by_contra stopped
    simp [mono (Bool.of_not_eq_false stopped)] at still
  cases point with
  | loading => trivial
  | dueling left right duels rest | evaluating left right duels prompt rest =>
      obtain ⟨left, right, all, judged⟩ := sound
      exact ⟨left, right, all, fun still => judged (running still)⟩
  | reported left right report | returning left right outcome =>
      exact fun still => sound (running still)

theorem beginMatch_sound (left right : Generations) (shutdown : Bool) :
    (beginMatch prompts left right).Sound prompts shutdown := by
  unfold beginMatch
  cases hasLeft : delivered left <;> cases hasRight : delivered right
  · exact fun _ => .neitherDelivered hasLeft hasRight rfl
  · exact fun _ => .leftMissing hasLeft hasRight rfl
  · exact fun _ => .rightMissing hasLeft hasRight rfl
  · exact ⟨hasLeft, hasRight, rfl, by simp⟩

section Frame

variable {s s' : Runner}

theorem advance_frame (stepped : s.advance setup = some s') :
    s'.matrix = s.matrix ∧ s'.shutdown = s.shutdown := by
  have requested : ∀ entry, (s.requestValidation entry).matrix = s.matrix ∧
      (s.requestValidation entry).shutdown = s.shutdown := by
    intro entry
    unfold Runner.requestValidation
    split <;> exact ⟨rfl, rfl⟩
  have ensured : ∀ left right, (s.ensureMatch left right).matrix = s.matrix ∧
      (s.ensureMatch left right).shutdown = s.shutdown := by
    intro left right
    unfold Runner.ensureMatch
    split <;> exact ⟨rfl, rfl⟩
  unfold Runner.advance at stepped
  (repeat' split at stepped) <;> first
    | (cases stepped; done)
    | (obtain rfl := Option.some.inj stepped
       simp [requested, ensured, Runner.reload])

theorem step_frame {event : RunEvent} (stepped : s.step setup event = some s') :
    ((∀ margin, event ≠ .matchFinished margin) → s'.matrix = s.matrix) ∧
      (s.shutdown = true → s'.shutdown = true) := by
  cases event with
  | advance =>
      obtain ⟨matrix, shutdown⟩ := advance_frame stepped
      exact ⟨fun _ => matrix, shutdown.trans⟩
  | matchFinished margin =>
      refine ⟨fun other => absurd rfl (other margin), ?_⟩
      simp only [Runner.step] at stepped
      split at stepped
      · obtain rfl := Option.some.inj stepped
        simp
      · obtain rfl := Option.some.inj stepped
        simp
      · cases stepped
  | deliverValidation _ _ | deliverAudit _ | requestShutdown | fail | baseline _ | wake
  | readLeader _ =>
      simp only [Runner.step] at stepped
      (repeat' split at stepped) <;> first
        | (cases stepped; done)
        | (obtain rfl := Option.some.inj stepped
           simp)

theorem matchFinished_frame {margin : Rat} (stepped : s.step setup (.matchFinished margin) = some s') :
    ∃ pair, s.phase.playing = some pair ∧
      s'.matrix = if s.shutdown then s.matrix else s.matrix.set pair margin := by
  simp only [Runner.step] at stepped
  split at stepped
  · rename_i hotkey rest at_phase
    obtain rfl := Option.some.inj stepped
    refine ⟨("leader", hotkey), by rw [at_phase]; rfl, ?_⟩
    unfold Runner.cacheMatch
    split <;> rfl
  · rename_i left right at_phase
    obtain rfl := Option.some.inj stepped
    refine ⟨(left, right), by rw [at_phase]; rfl, ?_⟩
    unfold Runner.cacheMatch
    split <;> rfl
  · cases stepped

end Frame

theorem Matching.Sound.proceed {s s' : Matching} (sound : s.Sound prompts)
    (stepped : s.proceed setup = some s') : s'.Sound prompts := by
  unfold Matching.proceed at stepped
  split at stepped
  · rename_i left right duels prompt rest at_point
    obtain ⟨hasLeft, hasRight, all, judged⟩ := sound _ at_point
    split at stepped
    · rename_i stopped
      obtain rfl := Option.some.inj stepped
      rintro point ⟨⟩
      refine ⟨hasLeft, hasRight, by simpa [duelReport] using all, ?_⟩
      intro running
      simp [stopped] at running
    · obtain rfl := Option.some.inj stepped
      rintro point ⟨⟩
      exact ⟨hasLeft, hasRight, all, judged⟩
  · rename_i left right duels at_point
    obtain ⟨hasLeft, hasRight, all, judged⟩ := sound _ at_point
    obtain ⟨pair, playing, rfl⟩ := Option.map_eq_some_iff.mp stepped
    rintro point ⟨⟩
    intro running
    rw [List.append_nil] at all
    refine .scored hasLeft hasRight duels (all ▸ .refl _) (judged running) ?_
    rw [matchReport_margin, ← all, List.length_map]
  · rename_i left right report at_point
    have complete := sound _ at_point
    obtain rfl := Option.some.inj stepped
    rintro point ⟨⟩
    intro running
    simp only at running
    rw [if_neg (by simp [running])]
    exact complete running
  · obtain ⟨runner, -, rfl⟩ := Option.map_eq_some_iff.mp stepped
    rintro point ⟨⟩
  · cases stepped

theorem Matching.step_runner {s s' : Matching} {event : RunEvent}
    (stepped : s.step setup prompts (.runner event) = some s') :
    (∀ margin, event ≠ .matchFinished margin) ∧
      ∃ runner, s.runner.step setup event = some runner ∧ s' =
        { runner
          point := if runner.phase.playing.isSome then some (s.point.getD .loading) else none } := by
  unfold Matching.step at stepped
  split at stepped
  · cases stepped
  · rename_i other same
    cases same
    obtain ⟨runner, stepped, same⟩ := Option.map_eq_some_iff.mp stepped
    exact ⟨other, runner, stepped, same.symm⟩
  · rename_i same
    cases same
  · rename_i same
    cases same
  · rename_i same
    cases same

theorem matching_sound_step (s : Matching) (event : MatchEvent) (s' : Matching)
    (sound : s.Sound prompts) (stepped : s.step setup prompts event = some s') :
    s'.Sound prompts := by
  cases event with
  | runner event =>
      obtain ⟨-, runner, observed, rfl⟩ := Matching.step_runner stepped
      intro point at_point
      have shutdown := (step_frame observed).2
      simp only at at_point ⊢
      split at at_point
      · cases before : s.point with
        | none =>
            rw [before] at at_point
            cases at_point
            trivial
        | some known =>
            rw [before] at at_point
            cases at_point
            exact (sound _ before).shutdown shutdown
      · cases at_point
  | readGenerations left right =>
      simp only [Matching.step] at stepped
      split at stepped
      · obtain rfl := Option.some.inj stepped
        rintro point ⟨⟩
        exact beginMatch_sound left right _
      · cases stepped
  | evaluated winner =>
      simp only [Matching.step] at stepped
      split at stepped
      · rename_i left right duels prompt rest at_point
        obtain ⟨hasLeft, hasRight, all, judged⟩ := sound _ at_point
        obtain rfl := Option.some.inj stepped
        rintro point ⟨⟩
        refine ⟨hasLeft, hasRight, by simpa [duelReport] using all, ?_⟩
        intro running duel member
        rcases List.mem_append.mp member with member | member
        · exact judged running duel member
        · obtain rfl := List.mem_singleton.mp member
          cases winner <;> simp [duelReport]
      · cases stepped
  | proceed => exact sound.proceed stepped

def samplePrompts : List String := ["https://cdn/p0.png", "https://cdn/p1.png"]

def sampleGenerations : Generations := .ofList [("p0", { js := some "https://cdn/p0.js" })]

/-- The first miner wins the first duel against the leader; the second evaluation raises. -/
def sampleMatch : List MatchEvent :=
  [.runner (.baseline true), .runner .advance, .runner .advance,
    .readGenerations sampleGenerations sampleGenerations, .proceed, .evaluated (some .right),
    .proceed, .evaluated none, .proceed, .proceed]

end GenSubnet.Judge
