import GenSubnet.Judge.MatchBound
import GenSubnet.Judge.MatchExecution
import Mathlib

/-!
# The reports of a round

`save_match_report` files a match under its challenger and the first ten characters of its defender.
Two matches of one round have one path exactly when they agree in both, and the repository holds the
report of every match that was played exactly when no two of these do.
-/

namespace GenSubnet.Judge
open Library

/-! ## Paths -/

/-- `left[:10]` -/
def firstTen (name : String) : List Char := name.toList.take 10

/-- `_path` of `match_report.py` -/
def reportPath (roundNum : Nat) (left right : String) : String :=
  "rounds/" ++ toString roundNum ++ "/" ++ right ++ "/duels_" ++ String.ofList (firstTen left) ++ ".json"

/-- The leader, or a hotkey of the submissions. -/
def RoundSetup.Competes (setup : RoundSetup) (name : String) : Prop :=
  name = "leader" ∨ name ∈ setup.hotkeys

theorem RoundSetup.Competes.firstTen_length {setup : RoundSetup} {name : String}
    (competes : setup.Competes name) : firstTen name = "leader".toList ∨ (firstTen name).length = 10 := by
  rcases competes with rfl | member
  · exact Or.inl rfl
  · have long := setup.submissions.hotkey_length name member
    rw [← String.length_toList] at long
    exact Or.inr (by rw [firstTen, List.length_take]; omega)

theorem reportPath_toList (roundNum : Nat) (left right : String) :
    (reportPath roundNum left right).toList =
      ("rounds/".toList ++ (toString roundNum).toList ++ "/".toList) ++
        (right.toList ++ "/duels_".toList ++ firstTen left ++ ".json".toList) := by
  simp only [reportPath, String.toList_append, String.toList_ofList, List.append_assoc]

theorem leader_ne_long {right right' ten : List Char} (long : ten.length = 10) :
    right ++ "/duels_".toList ++ "leader".toList ≠ right' ++ "/duels_".toList ++ ten := by
  intro same
  have parts : (right ++ "/du".toList) ++ "els_leader".toList = (right' ++ "/duels_".toList) ++ ten := by
    rw [← same]
    simp
  have front := (List.append_inj' parts (by rw [long]; rfl)).1
  have last := congrArg List.getLast? front
  rw [List.getLast?_append_of_ne_nil _ (by decide), List.getLast?_append_of_ne_nil _ (by decide)] at last
  exact absurd last (by decide)

theorem reportPath_eq_iff {setup : RoundSetup} (roundNum : Nat) {left right left' right' : String}
    (competes : setup.Competes left) (competes' : setup.Competes left') :
    reportPath roundNum left right = reportPath roundNum left' right' ↔
      right = right' ∧ firstTen left = firstTen left' := by
  constructor
  · intro same
    have lists := congrArg String.toList same
    rw [reportPath_toList, reportPath_toList] at lists
    have names := List.append_cancel_right (List.append_cancel_left lists)
    have parts (length : (firstTen left).length = (firstTen left').length) :
        right = right' ∧ firstTen left = firstTen left' := by
      obtain ⟨front, ten⟩ := List.append_inj' names length
      exact ⟨String.toList_injective (List.append_cancel_right front), ten⟩
    rcases competes.firstTen_length with short | long <;>
      rcases competes'.firstTen_length with short' | long'
    · exact parts (by rw [short, short'])
    · rw [short] at names
      exact absurd names (leader_ne_long long')
    · rw [short'] at names
      exact absurd names.symm (leader_ne_long long)
    · exact parts (long.trans long'.symm)
  · rintro ⟨rfl, ten⟩
    rw [reportPath, reportPath, ten]

/-- Matches with one challenger whose defenders agree in the first ten characters. -/
def Collide (a b : String × String) : Prop := a ≠ b ∧ a.2 = b.2 ∧ firstTen a.1 = firstTen b.1

def matchPath (roundNum : Nat) (pair : String × String) : String := reportPath roundNum pair.1 pair.2

/-! ## Runs with their reports -/

/-- The runs of a round with the reports that they have saved. -/
structure Reporting where
  matching : Matching
  /-- The reports in the repository. -/
  reports : Dict String MatchReport := .empty
  /-- The matches whose duels were run to the end. -/
  played : List (String × String) := []
  /-- The matches that are cached because a miner has delivered nothing. -/
  uncontested : List (String × String) := []

/-- What `_run_match_between` saves at a step, where no shutdown was requested. -/
def Matching.saves (s : Matching) : MatchEvent → Option MatchReport
  | .proceed =>
      match s.point with
      | some (.reported _ _ report) => if s.runner.shutdown then none else some report
      | _ => none
  | _ => none

/-- A miner has delivered nothing. -/
def MatchOutcome.conceded : MatchOutcome → Bool
  | .neitherDelivered | .leftMissing | .rightMissing => true
  | .interrupted | .scored _ => false

/-- The match that a step caches without duels. -/
def Matching.concedes (s : Matching) : MatchEvent → Option (String × String)
  | .proceed =>
      match s.point with
      | some (.returning _ _ outcome) =>
          if outcome.conceded && !s.runner.shutdown then s.runner.phase.playing else none
      | _ => none
  | _ => none

/-- A step of a run, or, with no event, the begin of the next one. -/
def Reporting.step (roundNum : Nat) (setup : RoundSetup) (prompts : List String) (s : Reporting) :
    Option MatchEvent → Option Reporting
  | some event =>
      (s.matching.step setup prompts event).map fun matching =>
        let uncontested := s.uncontested ++ (s.matching.concedes event).toList
        match s.matching.saves event with
        | some report =>
            { matching, uncontested
              reports := s.reports.set (matchPath roundNum (report.left, report.right)) report
              played := s.played ++ [(report.left, report.right)] }
        | none => { s with matching, uncontested }
  | none =>
      match s.matching.runner.phase with
      | .returned | .raised => some { s with matching := ⟨s.matching.runner.again, none⟩ }
      | _ => none

/-- The repository holds a report of the match, with the margin that is cached for it. -/
def Reporting.Holds (roundNum : Nat) (s : Reporting) (pair : String × String) : Prop :=
  ∃ report, s.reports.get (matchPath roundNum pair) = some report ∧ (report.left, report.right) = pair ∧
    (pair ∉ s.uncontested → ∀ margin, s.matching.runner.matrix.get pair = some margin →
      report.margin = margin)


/-! ## What is kept -/

section
variable {setup : RoundSetup} {prompts : List String} {roundNum : Nat}

theorem RoundSetup.competes_of_wanted {pair : String × String} (wanted : pair ∈ setup.wanted) :
    setup.Competes pair.1 := by
  have left : ∀ {names : List String} {pair : String × String}, pair ∈ orderedPairs names → pair.1 ∈ names := by
    intro names pair member
    induction names with
    | nil => cases member
    | cons first rest ih =>
        rw [orderedPairs, List.mem_append] at member
        rcases member with here | later
        · obtain ⟨right, -, rfl⟩ := List.mem_map.mp here
          exact List.mem_cons_self
        · exact List.mem_cons_of_mem _ (ih later)
  rcases List.mem_cons.mp (left wanted) with leader | member
  · exact Or.inl leader
  · exact Or.inr member

theorem phase_of_playing {phase : Phase} {pair : String × String} (playing : phase.playing = some pair) :
    (∃ hotkey rest, phase = .qualifyingMatch hotkey rest) ∨ ∃ left right, phase = .matching left right := by
  unfold Phase.playing at playing
  split at playing
  · exact Or.inl ⟨_, _, rfl⟩
  · exact Or.inr ⟨_, _, rfl⟩
  · cases playing

theorem playing_kept {s s' : Runner} {event : RunEvent} {pair : String × String}
    (other : ∀ margin, event ≠ .matchFinished margin) (playing : s.phase.playing = some pair)
    (stepped : s.step setup event = some s') :
    s'.phase.playing = some pair ∨ s'.phase.playing = none := by
  cases event with
  | matchFinished margin => exact absurd rfl (other margin)
  | deliverValidation hotkey result =>
      simp only [Runner.step] at stepped
      split at stepped
      · cases stepped
      · obtain rfl := Option.some.inj stepped
        exact Or.inl playing
  | deliverAudit audit =>
      simp only [Runner.step] at stepped
      split at stepped
      · cases stepped
      · obtain rfl := Option.some.inj stepped
        exact Or.inl playing
  | requestShutdown =>
      obtain rfl := Option.some.inj stepped
      exact Or.inl playing
  | fail =>
      simp only [Runner.step] at stepped
      split at stepped
      · cases stepped
      · cases stepped
      · obtain rfl := Option.some.inj stepped
        exact Or.inr rfl
  | advance =>
      rcases phase_of_playing playing with ⟨hotkey, rest, at_phase⟩ | ⟨left, right, at_phase⟩ <;>
        simp [Runner.step, Runner.advance, at_phase] at stepped
  | baseline _ | wake | readLeader _ =>
      rcases phase_of_playing playing with ⟨hotkey, rest, at_phase⟩ | ⟨left, right, at_phase⟩ <;>
        simp [Runner.step, at_phase] at stepped

/-- No two of the matches that were played have one path. -/
def Reporting.Apart (s : Reporting) : Prop := ∀ a ∈ s.played, ∀ b ∈ s.played, ¬ Collide a b

/-- What the point of a match says of the reports. -/
def MatchPoint.Filed (roundNum : Nat) (s : Reporting) : MatchPoint → Prop
  | .reported _ _ report => s.matching.runner.phase.playing = some (report.left, report.right)
  | .returning _ _ (.scored report) =>
      s.matching.runner.phase.playing = some (report.left, report.right) ∧
        (report.left, report.right) ∈ s.played ∧
        s.reports.get (matchPath roundNum (report.left, report.right)) = some report
  | .returning _ _ .interrupted => s.matching.runner.shutdown = true
  | _ => True

structure Reporting.Sound (roundNum : Nat) (setup : RoundSetup) (s : Reporting) : Prop where
  runner : s.matching.runner.Sound setup
  new : s.matching.runner.PlaysNew setup
  point : ∀ point, s.matching.point = some point → point.Filed roundNum s
  wanted : ∀ pair ∈ s.played, pair ∈ setup.wanted
  cached : ∀ pair margin, s.matching.runner.matrix.get pair = some margin →
    pair ∈ s.played ∨ pair ∈ s.uncontested
  holds : s.Apart → ∀ pair ∈ s.played, s.Holds roundNum pair

variable {s : Reporting}

theorem Reporting.Sound.of_same (sound : s.Sound roundNum setup) {matching : Matching}
    (runner : matching.runner.Sound setup) (new : matching.runner.PlaysNew setup)
    (matrix : matching.runner.matrix = s.matching.runner.matrix)
    (point : ∀ point, matching.point = some point → point.Filed roundNum { s with matching }) :
    Reporting.Sound roundNum setup { s with matching } where
  runner := runner
  new := new
  point := point
  wanted := sound.wanted
  cached pair margin is := sound.cached pair margin (matrix ▸ is)
  holds apart pair member := by
    obtain ⟨report, filed, names, margins⟩ := sound.holds apart pair member
    exact ⟨report, filed, names, fun contested margin is => margins contested margin (matrix ▸ is)⟩

theorem Reporting.Sound.save (sound : s.Sound roundNum setup) {left right : Generations}
    {report : MatchReport} (at_point : s.matching.point = some (.reported left right report)) :
    Reporting.Sound roundNum setup
      { s with
        matching := { s.matching with point := some (.returning left right (.scored report)) }
        reports := s.reports.set (matchPath roundNum (report.left, report.right)) report
        played := s.played ++ [(report.left, report.right)] } := by
  have playing : s.matching.runner.phase.playing = some (report.left, report.right) :=
    sound.point _ at_point
  obtain ⟨wanted, absent⟩ := sound.new.1 _ playing
  have uncached : s.matching.runner.matrix.get (report.left, report.right) = none := by
    simpa [Dict.contains] using absent
  refine ⟨sound.runner, sound.new, ?_, ?_, ?_, ?_⟩
  · rintro point ⟨⟩
    exact ⟨playing, List.mem_append_right _ List.mem_cons_self, Dict.get_set_self _ _ _⟩
  · intro pair member
    rcases List.mem_append.mp member with old | here
    · exact sound.wanted pair old
    · rw [List.mem_singleton.mp here]
      exact wanted
  · intro pair margin is
    exact (sound.cached pair margin is).imp_left (List.mem_append_left _)
  · intro apart pair member
    by_cases here : pair = (report.left, report.right)
    · subst here
      refine ⟨report, Dict.get_set_self _ _ _, rfl, ?_⟩
      intro _ margin is
      rw [uncached] at is
      cases is
    · have old : pair ∈ s.played := by
        rcases List.mem_append.mp member with old | last
        · exact old
        · exact absurd (List.mem_singleton.mp last) here
      have before : s.Apart := fun a inside b inside' =>
        apart a (List.mem_append_left _ inside) b (List.mem_append_left _ inside')
      obtain ⟨other, filed, names, margins⟩ := sound.holds before pair old
      have elsewhere : matchPath roundNum pair ≠ matchPath roundNum (report.left, report.right) := by
        intro same
        obtain ⟨challenger, ten⟩ := (reportPath_eq_iff roundNum
          (RoundSetup.competes_of_wanted (sound.wanted pair old))
          (RoundSetup.competes_of_wanted wanted)).mp same
        exact apart pair member _ (List.mem_append_right _ List.mem_cons_self) ⟨here, challenger, ten⟩
      exact ⟨other, (Dict.get_set_of_ne _ _ elsewhere).trans filed, names, margins⟩

theorem Reporting.Sound.finish (sound : s.Sound roundNum setup) {left right : Generations}
    {outcome : MatchOutcome} {runner : Runner}
    (at_point : s.matching.point = some (.returning left right outcome))
    (stepped : s.matching.runner.step setup (.matchFinished outcome.margin) = some runner) :
    Reporting.Sound roundNum setup
      { s with
        matching := ⟨runner, none⟩
        uncontested := s.uncontested ++ (s.matching.concedes .proceed).toList } := by
  obtain ⟨-, new⟩ := Runner.Moves.step sound.runner sound.new stepped
  obtain ⟨pair, playing, matrix⟩ := matchFinished_frame stepped
  have filed := sound.point _ at_point
  have lists : s.matching.concedes .proceed =
      if outcome.conceded && !s.matching.runner.shutdown then some pair else none := by
    simp only [Matching.concedes, at_point, playing]
  have known (other : String × String) (margin : Rat) (is : runner.matrix.get other = some margin) :
      s.matching.runner.matrix.get other = some margin ∨
        s.matching.runner.shutdown = false ∧ other = pair ∧ margin = outcome.margin := by
    rw [matrix] at is
    split at is
    · exact Or.inl is
    · rename_i running
      by_cases same : other = pair
      · subst same
        rw [Dict.get_set_self, Option.some.injEq] at is
        exact Or.inr ⟨by simpa using running, rfl, is.symm⟩
      · rw [Dict.get_set_of_ne _ _ same] at is
        exact Or.inl is
  refine ⟨sound_step _ _ _ sound.runner stepped, new, by rintro point ⟨⟩, sound.wanted, ?_, ?_⟩
  · intro other margin is
    rcases known other margin is with old | ⟨running, rfl, -⟩
    · exact (sound.cached other margin old).imp_right (List.mem_append_left _)
    · cases outcome with
      | neitherDelivered | leftMissing | rightMissing =>
          right
          rw [lists, running]
          exact List.mem_append_right _ List.mem_cons_self
      | interrupted =>
          have stopped : s.matching.runner.shutdown = true := filed
          rw [running] at stopped
          cases stopped
      | scored report =>
          obtain ⟨plays, member, -⟩ := filed
          obtain rfl := Option.some.inj (playing.symm.trans plays)
          exact Or.inl member
  · intro apart other member
    obtain ⟨report, at_path, names, margins⟩ := sound.holds apart other member
    refine ⟨report, at_path, names, ?_⟩
    intro contested margin is
    have before : other ∉ s.uncontested := fun inside => contested (List.mem_append_left _ inside)
    rcases known other margin is with old | ⟨running, rfl, rfl⟩
    · exact margins before margin old
    · cases outcome with
      | neitherDelivered | leftMissing | rightMissing =>
          refine absurd (List.mem_append_right _ ?_) contested
          rw [lists, running]
          exact List.mem_cons_self
      | interrupted =>
          have stopped : s.matching.runner.shutdown = true := filed
          rw [running] at stopped
          cases stopped
      | scored scored =>
          obtain ⟨plays, -, saved⟩ := filed
          obtain rfl := Option.some.inj (playing.symm.trans plays)
          rw [saved, Option.some.injEq] at at_path
          rw [← at_path]
          rfl

theorem Reporting.step_match {event : MatchEvent} {s' : Reporting}
    (stepped : s.step roundNum setup prompts (some event) = some s') :
    ∃ matching, s.matching.step setup prompts event = some matching ∧
      (s.matching.saves event = none → s.matching.concedes event = none → s' = { s with matching }) := by
  obtain ⟨matching, moved, is⟩ := Option.map_eq_some_iff.mp stepped
  refine ⟨matching, moved, ?_⟩
  intro saves concedes
  rw [← is]
  simp only [saves, concedes, Option.toList_none, List.append_nil]

theorem Reporting.Sound.proceed {s' : Reporting} (sound : s.Sound roundNum setup)
    (stepped : s.step roundNum setup prompts (some .proceed) = some s') : s'.Sound roundNum setup := by
  obtain ⟨matching, moved, quiet⟩ := Reporting.step_match stepped
  have proceeds : s.matching.proceed setup = some matching := moved
  unfold Matching.proceed at proceeds
  split at proceeds
  · rename_i left right duels prompt rest at_point
    rw [quiet (by simp only [Matching.saves, at_point]) (by simp only [Matching.concedes, at_point])]
    split at proceeds
    · obtain rfl := Option.some.inj proceeds
      refine sound.of_same sound.runner sound.new rfl ?_
      rintro point ⟨⟩
      trivial
    · obtain rfl := Option.some.inj proceeds
      refine sound.of_same sound.runner sound.new rfl ?_
      rintro point ⟨⟩
      trivial
  · rename_i left right duels at_point
    rw [quiet (by simp only [Matching.saves, at_point]) (by simp only [Matching.concedes, at_point])]
    obtain ⟨pair, playing, rfl⟩ := Option.map_eq_some_iff.mp proceeds
    refine sound.of_same sound.runner sound.new rfl ?_
    rintro point ⟨⟩
    exact playing
  · rename_i left right report at_point
    cases stopped : s.matching.runner.shutdown with
    | true =>
        rw [quiet (by simp only [Matching.saves, at_point, stopped, if_true])
          (by simp only [Matching.concedes, at_point])]
        obtain rfl := Option.some.inj proceeds
        refine sound.of_same sound.runner sound.new rfl ?_
        rintro point ⟨⟩
        rw [if_pos stopped]
        exact stopped
    | false =>
        have running : ¬ s.matching.runner.shutdown = true := by simp [stopped]
        obtain rfl := Option.some.inj proceeds
        have saved := sound.save at_point
        have is := stepped
        simp only [Reporting.step, moved, Option.map_some, Matching.saves, Matching.concedes, at_point,
          if_neg running, Option.toList_none, List.append_nil, Option.some.injEq] at is
        rw [← is]
        exact saved
  · rename_i left right outcome at_point
    obtain ⟨runner, finished, rfl⟩ := Option.map_eq_some_iff.mp proceeds
    have is := stepped
    have nothing : s.matching.saves .proceed = none := by simp only [Matching.saves, at_point]
    simp only [Reporting.step, moved, Option.map_some, nothing, Option.some.injEq] at is
    rw [← is]
    exact sound.finish at_point finished
  · cases proceeds

theorem Reporting.Sound.step {event : Option MatchEvent} {s' : Reporting} (sound : s.Sound roundNum setup)
    (stepped : s.step roundNum setup prompts event = some s') : s'.Sound roundNum setup := by
  cases event with
  | none =>
      have fresh : s.matching.runner.again.Fresh := ⟨rfl, rfl, rfl⟩
      have follows := @Runner.Fresh.follows setup _ fresh
      have again : s' = { s with matching := ⟨s.matching.runner.again, none⟩ } := by
        simp only [Reporting.step] at stepped
        split at stepped
        · exact (Option.some.inj stepped).symm
        · exact (Option.some.inj stepped).symm
        · cases stepped
      rw [again]
      refine sound.of_same follows.sound follows.new rfl ?_
      rintro point ⟨⟩
  | some event =>
      cases event with
      | proceed => exact sound.proceed stepped
      | runner event =>
          obtain ⟨matching, moved, quiet⟩ := Reporting.step_match stepped
          rw [quiet rfl rfl]
          obtain ⟨other, runner, observed, rfl⟩ := Matching.step_runner moved
          obtain ⟨-, new⟩ := Runner.Moves.step sound.runner sound.new observed
          obtain ⟨matrix, shutdown⟩ := step_frame observed
          refine sound.of_same (sound_step _ _ _ sound.runner observed) new (matrix other) ?_
          intro point at_point
          simp only at at_point
          split at at_point
          · rename_i playing
            -- what was known of the match is still so, since the same match is on
            have still (pair : String × String) (before : s.matching.runner.phase.playing = some pair) :
                runner.phase.playing = some pair := by
              rcases playing_kept other before observed with same | ended
              · exact same
              · rw [ended] at playing
                cases playing
            cases known : s.matching.point with
            | none =>
                rw [known] at at_point
                cases at_point
                trivial
            | some before =>
                rw [known] at at_point
                cases at_point
                have filed := sound.point _ known
                match before, filed with
                | .loading, _ => trivial
                | .dueling _ _ _ _, _ => trivial
                | .evaluating _ _ _ _ _, _ => trivial
                | .reported _ _ _, filed => exact still _ filed
                | .returning _ _ .neitherDelivered, _ => trivial
                | .returning _ _ .leftMissing, _ => trivial
                | .returning _ _ .rightMissing, _ => trivial
                | .returning _ _ .interrupted, filed => exact shutdown filed
                | .returning _ _ (.scored _), filed => exact ⟨still _ filed.1, filed.2⟩
          · cases at_point
      | readGenerations left right =>
          obtain ⟨matching, moved, quiet⟩ := Reporting.step_match stepped
          rw [quiet rfl rfl]
          simp only [Matching.step] at moved
          split at moved
          · obtain rfl := Option.some.inj moved
            refine sound.of_same sound.runner sound.new rfl ?_
            rintro point ⟨⟩
            unfold beginMatch
            split <;> trivial
          · cases moved
      | evaluated winner =>
          obtain ⟨matching, moved, quiet⟩ := Reporting.step_match stepped
          rw [quiet rfl rfl]
          simp only [Matching.step] at moved
          split at moved
          · obtain rfl := Option.some.inj moved
            refine sound.of_same sound.runner sound.new rfl ?_
            rintro point ⟨⟩
            trivial
          · cases moved

end

/-- The state in which a round begins. -/
def Reporting.Begins (s : Reporting) : Prop :=
  s.matching.runner.Fresh ∧ s.matching.runner.matrix = .empty ∧ s.matching.point = none ∧ s.played = [] ∧
    s.uncontested = []

theorem Reporting.Begins.sound {setup : RoundSetup} {roundNum : Nat} {s : Reporting} (begins : s.Begins) :
    s.Sound roundNum setup := by
  obtain ⟨fresh, matrix, point, played, -⟩ := begins
  have follows := @Runner.Fresh.follows setup _ fresh
  refine ⟨follows.sound, follows.new, ?_, ?_, ?_, ?_⟩
  · intro known is
    rw [point] at is
    cases is
  · intro pair member
    rw [played] at member
    cases member
  · intro pair margin is
    rw [matrix] at is
    cases is
  · intro _ pair member
    rw [played] at member
    cases member

/-- The paths of distinct matches are distinct exactly when no two of these have one challenger and
defenders that agree in the first ten characters. In every round, each cached match was played or is
one to which a miner had delivered nothing, and the repository holds its report of every match that was
played exactly when no two of these are such. -/
theorem reports_kept (setup : RoundSetup) (prompts : List String) (roundNum : Nat) :
    (∀ matches' : List (String × String), matches'.Nodup → (∀ pair ∈ matches', setup.Competes pair.1) →
      ((matches'.map (matchPath roundNum)).Nodup ↔ ∀ a ∈ matches', ∀ b ∈ matches', ¬ Collide a b)) ∧
    ∀ s₀ events s, s₀.Begins → run (Reporting.step roundNum setup prompts) s₀ events = some s →
      (∀ pair margin, s.matching.runner.matrix.get pair = some margin →
        pair ∈ s.played ∨ pair ∈ s.uncontested) ∧
      ((∀ pair ∈ s.played, s.Holds roundNum pair) ↔ ∀ a ∈ s.played, ∀ b ∈ s.played, ¬ Collide a b) := by
  constructor
  · intro pairs nodup competes
    constructor
    · rintro distinct a left b right ⟨ne, challenger, ten⟩
      have same : matchPath roundNum a = matchPath roundNum b :=
        (reportPath_eq_iff roundNum (competes a left) (competes b right)).mpr ⟨challenger, ten⟩
      exact ne (List.inj_on_of_nodup_map distinct left right same)
    · intro apart
      apply nodup.map_on
      intro a left b right same
      by_contra ne
      exact apart a left b right
        ⟨ne, (reportPath_eq_iff roundNum (competes a left) (competes b right)).mp same⟩
  · intro s₀ events s begins ran
    have sound : s.Sound roundNum setup :=
      run_invariant ran (fun u event v sound stepped => sound.step stepped) begins.sound
    refine ⟨sound.cached, ?_, sound.holds⟩
    rintro holds a left b right ⟨ne, challenger, ten⟩
    have same : matchPath roundNum a = matchPath roundNum b :=
      (reportPath_eq_iff roundNum (RoundSetup.competes_of_wanted (sound.wanted a left))
        (RoundSetup.competes_of_wanted (sound.wanted b right))).mpr ⟨challenger, ten⟩
    obtain ⟨report, filed, names, -⟩ := holds a left
    obtain ⟨other, filed', names', -⟩ := holds b right
    rw [same, filed', Option.some.injEq] at filed
    rw [filed, names] at names'
    exact ne names'


/-! ## Hotkeys with one beginning -/

/-- Three miners whose hotkeys begin with `5HotkeyOfM`. -/
def threeMiners : RoundSetup where
  submissions := {
    entries := .ofList [("5HotkeyOfMinerA", sampleSubmission), ("5HotkeyOfMinerB", sampleSubmission),
      ("5HotkeyOfMinerC", sampleSubmission)]
    hotkey_length := by decide +kernel }
  winMargin := 0

/-- The reports of two defenders against one challenger have one path. -/
theorem shared_beginning_collides :
    ¬ ∀ (setup : RoundSetup) (roundNum : Nat) (pairs : List (String × String)), pairs.Nodup →
      (∀ pair ∈ pairs, pair ∈ setup.wanted) → (pairs.map (matchPath roundNum)).Nodup := by
  intro distinct
  have nodup := distinct threeMiners 1
    [("5HotkeyOfMinerA", "5HotkeyOfMinerC"), ("5HotkeyOfMinerB", "5HotkeyOfMinerC")] (by decide)
    (by decide +kernel)
  exact absurd nodup (by decide +kernel)

/-- A round of one match, which is played against the leader. -/
theorem sample_report_kept :
    ∃ s, run (Reporting.step 1 sampleSetup samplePrompts) ⟨⟨{}, none⟩, .empty, [], []⟩
        ((sampleMatch ++ [MatchEvent.proceed]).map some) = some s ∧
      s.played = [("leader", "5HotkeyOfMinerA")] ∧ s.Holds 1 ("leader", "5HotkeyOfMinerA") := by
  have ran : (run (Reporting.step 1 sampleSetup samplePrompts) ⟨⟨{}, none⟩, .empty, [], []⟩
      ((sampleMatch ++ [MatchEvent.proceed]).map some)).any
        fun s => s.played = [("leader", "5HotkeyOfMinerA")] := by
    decide +kernel
  obtain ⟨s, ran, played⟩ := (Option.any_eq_true _ _).mp ran
  have played := of_decide_eq_true played
  have begins : Reporting.Begins ⟨⟨{}, none⟩, .empty, [], []⟩ := ⟨⟨rfl, rfl, rfl⟩, rfl, rfl, rfl, rfl⟩
  obtain ⟨-, holds⟩ := (reports_kept sampleSetup samplePrompts 1).2 _ _ s begins ran
  refine ⟨s, ran, played, ?_⟩
  apply holds.mpr
  · rw [played]
    intro a left b right collide
    rw [List.mem_singleton.mp left, List.mem_singleton.mp right] at collide
    exact collide.1 rfl
  · rw [played]
    exact List.mem_cons_self

end GenSubnet.Judge
