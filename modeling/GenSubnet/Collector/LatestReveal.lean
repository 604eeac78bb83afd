import GenSubnet.Collector.Isolation

/-!
# The latest reveal

`parse_commitment` takes the greatest of the values with their blocks, so in a block with several
reveals it takes the greatest text, not the last one. The latest reveal wins exactly when the last
one is also the greatest of its block.
-/

namespace GenSubnet.Collector
open Library

variable (py : Interpreter)

/-- The submission has, for each field, the last value that was revealed in the window; and those of
the last reveal, if it has both. -/
structure LatestWins (window : Window) (commitment : List Reveal) (submission : Submission py) :
    Prop where
  repo : ∃ last ∈ (carried py "repo" (window.reveals commitment)).getLast?,
    Json.text last.2 = some submission.repo
  commit : ∃ last ∈ (carried py "commit" (window.reveals commitment)).getLast?,
    Json.text last.2 = some submission.commit
  together : ∀ reveal ∈ (window.reveals commitment).getLast?,
    ∀ repo ∈ carries py "repo" reveal.2, ∀ commit ∈ carries py "commit" reveal.2,
      Json.text repo = some submission.repo ∧ Json.text commit = some submission.commit

/-- The first value is a text that is greater than the second one. -/
def exceeds : Json → Json → Bool
  | .str s, .str t => decide (t < s)
  | _, _ => false

/-- No text of the block of the last value is greater than the last one. -/
def LastGreatest (values : List (Int × Json)) : Prop :=
  ∀ last ∈ values.getLast?, ∀ other ∈ values, other.1 = last.1 → exceeds other.2 last.2 = false

instance (values : List (Int × Json)) : Decidable (LastGreatest values) :=
  match h : values.getLast? with
  | none => isTrue (by simp [LastGreatest, h])
  | some last =>
      decidable_of_iff (∀ other ∈ values, other.1 = last.1 → exceeds other.2 last.2 = false)
        (by simp [LastGreatest, h])

/-! ## Texts -/

theorem codePoints_of_text {points : List Nat} {chars : List Char}
    (text : Json.text (.str points) = some chars) : points = chars.map Char.toNat := by
  simp only [Json.text] at text
  induction points generalizing chars with
  | nil =>
      obtain rfl := Option.some.inj text
      rfl
  | cons n rest ih =>
      rw [List.mapM_cons] at text
      obtain ⟨c, first, others⟩ := Option.bind_eq_some_iff.mp text
      obtain ⟨cs, more, same⟩ := Option.bind_eq_some_iff.mp others
      obtain rfl := Option.some.inj same
      rw [List.map_cons, ← ih more]
      split at first
      · obtain rfl := Option.some.inj first
        rfl
      · cases first

theorem string_of_text {value : Json} {chars : List Char} (text : Json.text value = some chars) :
    value = .str (chars.map Char.toNat) := by
  cases value with
  | str points => rw [codePoints_of_text text]
  | null | bool _ | int _ | float _ | array _ | object _ => cases text

/-! ## The greatest value -/

theorem pairGt_strings_of_ok {depth : Nat} {a b : Int × Json} {greater : Bool} (tied : a.1 = b.1)
    (compared : pairGt depth a b = .ok greater)
    (string : (∃ s, a.2 = .str s) ∨ ∃ t, b.2 = .str t) :
    ∃ s t, a.2 = .str s ∧ b.2 = .str t ∧ (greater = true ↔ t < s) := by
  obtain ⟨block, a⟩ := a
  obtain ⟨_, b⟩ := b
  obtain rfl : block = _ := tied
  have both : ∃ s t, a = .str s ∧ b = .str t := by
    cases depth with
    | zero => simp [pairGt, Json.eq] at compared
    | succ depth =>
        rcases string with ⟨s, rfl⟩ | ⟨t, rfl⟩
        · cases b with
          | str t => exact ⟨s, t, rfl, rfl⟩
          | null | bool _ | int _ | float _ | array _ | object _ =>
              simp [pairGt, Json.eq, Json.gt, Json.number] at compared
        · cases a with
          | str s => exact ⟨s, t, rfl, rfl⟩
          | null | bool _ | int _ | float _ | array _ | object _ =>
              simp [pairGt, Json.eq, Json.gt, Json.number] at compared
  obtain ⟨s, t, rfl, rfl⟩ := both
  refine ⟨s, t, rfl, rfl, ?_⟩
  cases depth with
  | zero => simp [pairGt, Json.eq] at compared
  | succ depth =>
      by_cases same : s = t
      · simp [pairGt, Json.eq, same] at compared
        simp [← compared, same]
      · simp [pairGt, Json.eq, Json.gt, same] at compared
        simp [← compared]

theorem pairGt_of_ne {depth : Nat} {a b : Int × Json} {greater : Bool} (ne : a.1 ≠ b.1)
    (compared : pairGt depth a b = .ok greater) : greater = true ↔ b.1 < a.1 := by
  rw [pairGt, if_pos ne] at compared
  simp [← Except.ok.inj compared]

/-- A text that is the greatest value is of the last block, and the greatest text of it. The
induction is on the values that are left, from whatever the greatest so far is. -/
theorem greatest_of_latest {best first : Int × Json} {rest : List (Int × Json)} {s : List Nat}
    (found : latest py first rest = .ok best) (string : best.2 = .str s) :
    ∀ value ∈ first :: rest, value.1 ≤ best.1 ∧
      (value.1 = best.1 → ∃ t, value.2 = .str t ∧ ¬ s < t) := by
  induction rest generalizing first with
  | nil =>
      obtain rfl := Except.ok.inj found
      simp [string]
  | cons next rest ih =>
      simp only [latest, pyMax] at found
      rw [List.forall_mem_cons]
      split at found
      · cases found
      · rename_i compared
        have later := ih found
        obtain ⟨below, top⟩ := later next List.mem_cons_self
        refine ⟨?_, later⟩
        by_cases tied : next.1 = first.1
        · refine ⟨tied ▸ below, fun last => ?_⟩
          obtain ⟨t, next_string, least⟩ := top (tied.trans last)
          obtain ⟨_, u, same, first_string, greater⟩ :=
            pairGt_strings_of_ok tied compared (Or.inl ⟨t, next_string⟩)
          obtain rfl : t = _ := Json.str.inj (next_string.symm.trans same)
          exact ⟨u, first_string, fun more => least (more.trans (greater.mp rfl))⟩
        · have greater := (pairGt_of_ne tied compared).mp rfl
          exact ⟨by omega, fun last => by omega⟩
      · rename_i compared
        have later := ih found
        obtain ⟨below, top⟩ := later first List.mem_cons_self
        refine ⟨⟨below, top⟩, List.forall_mem_cons.mpr ⟨?_, fun v h => later v (.tail _ h)⟩⟩
        by_cases tied : next.1 = first.1
        · refine ⟨tied ▸ below, fun last => ?_⟩
          obtain ⟨t, first_string, least⟩ := top (tied.symm.trans last)
          obtain ⟨u, _, next_string, same, greater⟩ :=
            pairGt_strings_of_ok tied compared (Or.inr ⟨t, first_string⟩)
          obtain rfl : t = _ := Json.str.inj (first_string.symm.trans same)
          refine ⟨u, next_string, fun more => ?_⟩
          have notLess : ¬ t < u := fun less => by simpa using greater.mpr less
          exact notLess (lt_of_le_of_lt (not_lt.mp least) more)
        · have notGreater : ¬ first.1 < next.1 := fun less => by
            simpa using (pairGt_of_ne tied compared).mpr less
          exact ⟨by omega, fun last => by omega⟩

/-! ## The last value -/

theorem carried_ordered {field : String} {reveals : List Reveal}
    (ordered : (reveals.map Prod.fst).Pairwise (· ≤ ·)) :
    ((carried py field reveals).map Prod.fst).Pairwise (· ≤ ·) := by
  apply List.Pairwise.sublist _ ordered
  induction reveals with
  | nil => exact .slnil
  | cons reveal rest ih =>
      rw [List.map_cons, List.pairwise_cons] at ordered
      rw [carried, List.filterMap_cons]
      cases carries py field reveal.2 with
      | none => exact (ih ordered.2).cons _
      | some value => exact (ih ordered.2).cons_cons _

theorem getLast?_carried {field : String} {reveals : List Reveal} {reveal : Reveal} {value : Json}
    (last : reveals.getLast? = some reveal) (carries_ : carries py field reveal.2 = some value) :
    (carried py field reveals).getLast? = some (reveal.1, value) := by
  obtain ⟨before, rfl⟩ := List.getLast?_eq_some_iff.mp last
  simp [carried, carries_]

/-- With the blocks in order, the greatest value is the last one just when the last one is greatest
in its block. -/
theorem latest_text_iff {first best : Int × Json} {rest : List (Int × Json)} {text : List Char}
    (ordered : ((first :: rest).map Prod.fst).Pairwise (· ≤ ·))
    (found : latest py first rest = .ok best) (best_text : Json.text best.2 = some text) :
    (∃ last ∈ (first :: rest).getLast?, Json.text last.2 = some text) ↔
      LastGreatest (first :: rest) := by
  have best_string := string_of_text best_text
  have greatest := greatest_of_latest py found best_string
  have member : best ∈ first :: rest := pyMax_mem found
  obtain ⟨last, at_end⟩ := Option.ne_none_iff_exists'.mp
    (fun none => by simpa using List.getLast?_eq_none_iff.mp none : (first :: rest).getLast? ≠ none)
  obtain ⟨before, split⟩ := List.getLast?_eq_some_iff.mp at_end
  rw [at_end]
  have tied : last.1 = best.1 := by
    apply le_antisymm (greatest last (by simp [split])).1
    rw [split] at ordered member
    rcases List.mem_append.mp member with earlier | same
    · rw [List.map_append, List.pairwise_append] at ordered
      exact ordered.2.2 _ (List.mem_map_of_mem earlier) _ (by simp)
    · rw [List.mem_singleton.mp same]
  obtain ⟨t, last_string, least⟩ := (greatest last (by simp [split])).2 tied
  constructor
  · rintro ⟨_, ⟨⟩, last_text⟩ _ at_end' other listed same
    obtain rfl := Option.some.inj (at_end.symm.trans at_end')
    obtain ⟨s, string, bounded⟩ := (greatest other listed).2 (same.trans tied)
    rw [string, string_of_text last_text, exceeds, decide_eq_false_iff_not]
    exact bounded
  · intro lastGreatest
    have bounded := lastGreatest last at_end best member tied.symm
    rw [best_string, last_string, exceeds, decide_eq_false_iff_not] at bounded
    have same : t = text.map Char.toNat := le_antisymm (not_lt.mp least) (not_lt.mp bounded)
    refine ⟨last, rfl, ?_⟩
    rw [last_string, same, ← best_string]
    exact best_text

theorem makeSubmission_text {hotkey : String} {block : Int} {repo commit : Json}
    {submission : Submission py}
    (made : makeSubmission py hotkey block repo commit = some submission) :
    Json.text repo = some submission.repo ∧ Json.text commit = some submission.commit := by
  unfold makeSubmission at made
  split at made
  · rename_i repo_text commit_text
    split at made
    · obtain rfl := Option.some.inj made
      exact ⟨repo_text, commit_text⟩
    · cases made
  · cases made

theorem parseCommitment_cases {hotkey : String} {commitment : List Reveal} {window : Window}
    {submission : Submission py}
    (returned : parseCommitment py hotkey commitment window = .ok (some submission)) :
    ∃ repo repos commit commits bestRepo bestCommit,
      carried py "repo" (window.reveals commitment) = repo :: repos ∧
      carried py "commit" (window.reveals commitment) = commit :: commits ∧
      latest py repo repos = .ok bestRepo ∧ latest py commit commits = .ok bestCommit ∧
      Json.text bestRepo.2 = some submission.repo ∧
      Json.text bestCommit.2 = some submission.commit := by
  unfold parseCommitment at returned
  rcases collectFields_cases py (window.reveals commitment) with
    ⟨-, collected⟩ | ⟨-, e, collected⟩
  · rw [collected] at returned
    cases repos : carried py "repo" (window.reveals commitment) with
    | nil => simp [repos] at returned
    | cons repo repos' =>
        cases commits : carried py "commit" (window.reveals commitment) with
        | nil => simp [repos, commits] at returned
        | cons commit commits' =>
            simp only [repos, commits] at returned
            split at returned
            · cases returned
            · rename_i block bestRepo foundRepo
              split at returned
              · cases returned
              · rename_i block' bestCommit foundCommit
                obtain ⟨repo_text, commit_text⟩ := makeSubmission_text py (Except.ok.inj returned)
                exact ⟨repo, repos', commit, commits', _, _, rfl, rfl, foundRepo, foundCommit,
                  repo_text, commit_text⟩
  · simp [collected] at returned

/-- For reveals in the order of the chain, the submission that is returned has the latest of each
field exactly when, for each field, the last value is also the greatest text of its block. -/
theorem latest_wins_iff {hotkey : String} {commitment : List Reveal} {window : Window}
    {submission : Submission py} (ordered : (commitment.map Prod.fst).Pairwise (· ≤ ·))
    (returned : parseCommitment py hotkey commitment window = .ok (some submission)) :
    LatestWins py window commitment submission ↔
      LastGreatest (carried py "repo" (window.reveals commitment)) ∧
        LastGreatest (carried py "commit" (window.reveals commitment)) := by
  obtain ⟨repo, repos, commit, commits, bestRepo, bestCommit, carriedRepo, carriedCommit, foundRepo,
    foundCommit, repo_text, commit_text⟩ := parseCommitment_cases py returned
  have window_ordered : ((window.reveals commitment).map Prod.fst).Pairwise (· ≤ ·) :=
    ordered.sublist (List.filter_sublist.map _)
  have repo_iff := latest_text_iff py (carriedRepo ▸ carried_ordered py window_ordered) foundRepo
    repo_text
  have commit_iff := latest_text_iff py (carriedCommit ▸ carried_ordered py window_ordered)
    foundCommit commit_text
  rw [carriedRepo, carriedCommit, ← repo_iff, ← commit_iff]
  constructor
  · intro latest
    exact ⟨carriedRepo ▸ latest.repo, carriedCommit ▸ latest.commit⟩
  · rintro ⟨lastRepo, lastCommit⟩
    refine ⟨carriedRepo.symm ▸ lastRepo, carriedCommit.symm ▸ lastCommit, ?_⟩
    intro reveal last repo' carriesRepo commit' carriesCommit
    obtain ⟨_, at_end, text⟩ := lastRepo
    rw [← carriedRepo, getLast?_carried py last carriesRepo] at at_end
    obtain ⟨_, at_end', text'⟩ := lastCommit
    rw [← carriedCommit, getLast?_carried py last carriesCommit] at at_end'
    cases at_end
    cases at_end'
    exact ⟨text, text'⟩

/-! ## Two reveals in one block -/

def revealText (repo : String) (digit : Char) : String :=
  "\x7b\"repo\": \"" ++ repo ++ "\", \"commit\": \"" ++
    String.ofList (List.replicate 40 digit) ++ "\"\x7d"

def sampleHotkey : String := "5FHneW46xGXgs5mUiveU4sbTyGBzmstUspZC92UhjJM694ty"

theorem returned_of_isSome {hotkey : String} {commitment : List Reveal} {window : Window}
    (found : ((parseCommitment py hotkey commitment window).toOption.bind id).isSome = true) :
    ∃ submission, parseCommitment py hotkey commitment window = .ok (some submission) := by
  cases parsed : parseCommitment py hotkey commitment window with
  | error e => simp [parsed, Except.toOption] at found
  | ok result =>
      cases result with
      | none => simp [parsed, Except.toOption] at found
      | some submission => exact ⟨submission, rfl⟩

def raisedReveals : List Reveal := [(150, revealText "a/a" 'a'), (150, revealText "b/b" 'b')]

def loweredReveals : List Reveal := [(150, revealText "b/b" 'b'), (150, revealText "a/a" 'a')]

/-- The second reveal is the later one, and the greater one. -/
theorem latest_wins_iff_raised : ∃ submission,
    parseCommitment sampleInterpreter sampleHotkey raisedReveals ⟨100, 200⟩ = .ok (some submission) ∧
    LatestWins sampleInterpreter ⟨100, 200⟩ raisedReveals submission := by
  obtain ⟨submission, returned⟩ := @returned_of_isSome sampleInterpreter sampleHotkey raisedReveals
    ⟨100, 200⟩ (by decide +kernel)
  exact ⟨submission, returned,
    (latest_wins_iff sampleInterpreter (by decide +kernel) returned).mpr (by decide +kernel)⟩

/-- The second reveal is the later one, but the repo and the commit of the first are returned. -/
theorem earlier_reveal_wins : ∃ submission,
    parseCommitment sampleInterpreter sampleHotkey loweredReveals ⟨100, 200⟩ = .ok (some submission) ∧
    ¬ LatestWins sampleInterpreter ⟨100, 200⟩ loweredReveals submission := by
  have first : (((parseCommitment sampleInterpreter sampleHotkey loweredReveals
      ⟨100, 200⟩).toOption.bind id).any fun submission =>
        submission.repo = "b/b".toList) = true := by decide +kernel
  have last : (((carried sampleInterpreter "repo"
      (Window.reveals ⟨100, 200⟩ loweredReveals)).getLast?).any fun last =>
        Json.text last.2 = some "a/a".toList) = true := by decide +kernel
  obtain ⟨submission, returned⟩ := @returned_of_isSome sampleInterpreter sampleHotkey loweredReveals
    ⟨100, 200⟩ (by decide +kernel)
  refine ⟨submission, returned, fun latest => ?_⟩
  obtain ⟨value, at_end, text⟩ := latest.repo
  rw [at_end, Option.any_some, text, decide_eq_true_eq] at last
  rw [returned, Except.toOption, Option.bind_some, id, Option.any_some, decide_eq_true_eq] at first
  rw [first] at last
  exact absurd last (by decide)

end GenSubnet.Collector
