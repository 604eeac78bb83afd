import GenSubnet.Collector.Submission
import Mathlib.Data.List.Induction

/-!
# Isolation of the hotkeys' reveals

The collection reads the reveals of every hotkey, and the code catches only what a malformed text
raises. A value without members, a nesting beyond the recursion limit, a list or string that
contains the name of a field, or two values of one block that have no order raise something else,
and then no hotkey is collected. Exactly when every history is free of these, every hotkey gets what
its own history says.
-/

namespace GenSubnet.Collector
open Library

variable (py : Interpreter)

/-- A decoded text whose fields can be read. -/
def Readable : Except LoadError Json → Prop
  | .error .malformed => True
  | .error .recursion => False
  | .ok (.object _) => True
  | .ok (.array items) =>
      ∀ item ∈ items, item.isStr (codePoints "repo") = false ∧ item.isStr (codePoints "commit") = false
  | .ok (.str s) => ¬ codePoints "repo" <:+: s ∧ ¬ codePoints "commit" <:+: s
  | .ok (.null) | .ok (.bool _) | .ok (.int _) | .ok (.float _) => False

/-- The value that a text carries for a field: the nonempty member of an object. -/
def carries (field : String) (text : String) : Option Json :=
  match readText py text with
  | .ok (.object members) =>
      match lookupIn (codePoints field) members with
      | some value => if value.truthy then some value else none
      | none => none
  | _ => none

/-- The values that a history carries for a field, with their blocks. -/
def carried (field : String) (reveals : List Reveal) : List (Int × Json) :=
  reveals.filterMap fun reveal => (carries py field reveal.2).map (reveal.1, ·)

/-- Each value that shares its block with the greatest before it can be compared with that one. -/
def Ordered (values : List (Int × Json)) : Prop :=
  ∀ first before value after best, values = first :: before ++ value :: after →
    latest py first before = .ok best → value.1 = best.1 →
    ∃ greater, pairGt py.compareDepth value best = .ok greater

/-- A history that disturbs no other hotkey: its texts in the window are readable, and where it
carries both fields, the values of each are ordered. -/
structure Benign (window : Window) (commitment : List Reveal) : Prop where
  readable : ∀ reveal ∈ window.reveals commitment, Readable (readText py reveal.2)
  ordered : carried py "repo" (window.reveals commitment) ≠ [] →
    carried py "commit" (window.reveals commitment) ≠ [] →
    Ordered py (carried py "repo" (window.reveals commitment)) ∧
      Ordered py (carried py "commit" (window.reveals commitment))

/-! ## Reading -/

theorem readField_object (field : String) (members : List (List Nat × Json)) :
    readField field (.object members) = .ok (match lookupIn (codePoints field) members with
      | some value => if value.truthy then some value else none
      | none => none) := by
  unfold readField
  cases present : lookupIn (codePoints field) members with
  | none => simp [Json.contains, present]
  | some value => simp [Json.contains, Json.index, present]

theorem readField_array (field : String) (items : List Json) :
    readField field (.array items) =
      if ∀ item ∈ items, item.isStr (codePoints field) = false then .ok none
      else .error .badIndex := by
  unfold readField
  by_cases absent : ∀ item ∈ items, item.isStr (codePoints field) = false
  · have none : items.any (Json.isStr (codePoints field)) = false := by simpa using absent
    simp only [Json.contains, none, if_pos absent]
  · have some : items.any (Json.isStr (codePoints field)) = true := by simpa using absent
    simp only [Json.contains, some, Json.index, if_neg absent]

theorem readField_str (field : String) (s : List Nat) :
    readField field (.str s) =
      if codePoints field <:+: s then .error .badIndex else .ok none := by
  unfold readField
  by_cases present : codePoints field <:+: s
  · simp [Json.contains, Json.index, present]
  · simp [Json.contains, present]

theorem readReveal_cases (text : String) :
    (Readable (readText py text) ∧
      readReveal py text = .ok (carries py "repo" text, carries py "commit" text)) ∨
    (¬ Readable (readText py text) ∧ ∃ e, readReveal py text = .error e) := by
  unfold readReveal carries
  cases read : readText py text with
  | error e =>
      cases e with
      | malformed => exact Or.inl ⟨trivial, rfl⟩
      | recursion => exact Or.inr ⟨id, _, rfl⟩
  | ok data =>
      cases data with
      | null | bool _ | int _ | float _ => exact Or.inr ⟨id, _, rfl⟩
      | object members =>
          refine Or.inl ⟨trivial, ?_⟩
          simp only [readField_object]
      | array items =>
          simp only [readField_array, Readable]
          by_cases repo : ∀ item ∈ items, item.isStr (codePoints "repo") = false
          · by_cases commit : ∀ item ∈ items, item.isStr (codePoints "commit") = false
            · simp only [if_pos repo, if_pos commit]
              exact Or.inl ⟨fun item member => ⟨repo item member, commit item member⟩, trivial⟩
            · simp only [if_pos repo, if_neg commit]
              exact Or.inr ⟨fun h => commit fun item member => (h item member).2, _, rfl⟩
          · simp only [if_neg repo]
            exact Or.inr ⟨fun h => repo fun item member => (h item member).1, _, rfl⟩
      | str s =>
          simp only [readField_str, Readable]
          by_cases repo : codePoints "repo" <:+: s
          · simp [repo]
          · by_cases commit : codePoints "commit" <:+: s <;> simp [repo, commit]

theorem collectFields_cases (reveals : List Reveal) :
    ((∀ reveal ∈ reveals, Readable (readText py reveal.2)) ∧
      collectFields py reveals = .ok (carried py "repo" reveals, carried py "commit" reveals)) ∨
    ((∃ reveal ∈ reveals, ¬ Readable (readText py reveal.2)) ∧
      ∃ e, collectFields py reveals = .error e) := by
  induction reveals with
  | nil => exact Or.inl ⟨by simp, rfl⟩
  | cons reveal rest ih =>
      obtain ⟨block, text⟩ := reveal
      simp only [collectFields, List.forall_mem_cons, List.exists_mem_cons_iff]
      rcases readReveal_cases py text with ⟨readable, read⟩ | ⟨unreadable, e, read⟩
      · rcases ih with ⟨all, collected⟩ | ⟨bad, e, collected⟩
        · refine Or.inl ⟨⟨readable, all⟩, ?_⟩
          simp only [read, collected, carried, List.filterMap_cons]
          cases carries py "repo" text <;> cases carries py "commit" text <;> rfl
        · exact Or.inr ⟨Or.inr bad, e, by simp only [read, collected]⟩
      · exact Or.inr ⟨Or.inl unreadable, e, by simp only [read]⟩

/-! ## The latest value -/

theorem latest_iff (first : Int × Json) (rest : List (Int × Json)) :
    (∃ best, latest py first rest = .ok best) ↔ Ordered py (first :: rest) := by
  constructor
  · rintro ⟨last, found⟩ first' before value after best split at_best tied
    obtain ⟨rfl, tail⟩ := List.cons.inj split
    rw [tail, latest, List.append_eq, pyMax_append] at found
    rw [latest] at at_best
    rw [at_best] at found
    simp only [pyMax] at found
    cases compared : pairGt py.compareDepth value best with
    | error e =>
        rw [compared] at found
        cases found
    | ok greater => exact ⟨greater, rfl⟩
  · intro ordered
    induction rest using List.reverseRecOn with
    | nil => exact ⟨first, rfl⟩
    | append_singleton before value ih =>
        have shorter : Ordered py (first :: before) := by
          intro first' before' value' after best split
          refine ordered first' before' value' (after ++ [value]) best ?_
          rw [← List.cons_append, split, List.append_assoc]
          rfl
        obtain ⟨best, found⟩ := ih shorter
        have compared : ∃ greater, pairGt py.compareDepth value best = .ok greater := by
          by_cases tied : value.1 = best.1
          · exact ordered first before value [] best rfl found tied
          · exact ⟨_, by rw [pairGt, if_pos tied]⟩
        obtain ⟨greater, compared⟩ := compared
        simp only [latest] at found ⊢
        rw [pyMax_append, found]
        simp only [pyMax, compared]
        cases greater <;> exact ⟨_, rfl⟩

theorem pairGt_strings {depth : Nat} (positive : 0 < depth) (block block' : Int) (a b : List Nat) :
    ∃ greater, pairGt depth (block, .str a) (block', .str b) = .ok greater := by
  obtain ⟨depth, rfl⟩ := Nat.exists_eq_succ_of_ne_zero (Nat.pos_iff_ne_zero.mp positive)
  unfold pairGt
  split
  · exact ⟨_, rfl⟩
  · by_cases same : a = b <;> simp [Json.eq, Json.gt, same]

/-! ## Isolation -/

theorem parseCommitment_iff (hotkey : String) (commitment : List Reveal) (window : Window) :
    (∃ submission, parseCommitment py hotkey commitment window = .ok submission) ↔
      Benign py window commitment := by
  unfold parseCommitment
  rcases collectFields_cases py (window.reveals commitment) with
    ⟨readable, collected⟩ | ⟨⟨reveal, member, unreadable⟩, e, collected⟩
  · rw [collected]
    cases repos : carried py "repo" (window.reveals commitment) with
    | nil =>
        exact ⟨fun _ => ⟨readable, fun h => absurd repos h⟩, fun _ => ⟨none, rfl⟩⟩
    | cons repo repos' =>
        cases commits : carried py "commit" (window.reveals commitment) with
        | nil => exact ⟨fun _ => ⟨readable, fun _ h => absurd commits h⟩, fun _ => ⟨none, rfl⟩⟩
        | cons commit commits' =>
            simp only
            have benign : Benign py window commitment ↔
                (∃ best, latest py repo repos' = .ok best) ∧
                  ∃ best, latest py commit commits' = .ok best := by
              rw [latest_iff, latest_iff, ← repos, ← commits]
              exact ⟨fun h => h.ordered (by simp [repos]) (by simp [commits]),
                fun h => ⟨readable, fun _ _ => h⟩⟩
            rw [benign]
            cases latest py repo repos' with
            | error e => simp
            | ok best =>
                cases latest py commit commits' with
                | error e => simp
                | ok best => simp
  · rw [collected]
    constructor
    · rintro ⟨submission, h⟩
      cases h
    · intro benign
      exact absurd (benign.readable reveal member) unreadable

/-- The submission of a hotkey, from its own history and the window alone. -/
def Submits (window : Window) (item : String × List Reveal) (result : Option (Submission py)) : Prop :=
  parseCommitment py item.1 item.2 window = .ok result

theorem makeSubmission_hotkey {hotkey : String} {block : Int} {repo commit : Json}
    {submission : Submission py}
    (made : makeSubmission py hotkey block repo commit = some submission) :
    submission.hotkey = hotkey := by
  unfold makeSubmission at made
  split at made
  · split at made
    · rw [← Option.some.inj made]
    · cases made
  · cases made

theorem parseCommitment_hotkey {hotkey : String} {commitment : List Reveal} {window : Window}
    {submission : Submission py}
    (parsed : parseCommitment py hotkey commitment window = .ok (some submission)) :
    submission.hotkey = hotkey := by
  unfold parseCommitment at parsed
  split at parsed
  · cases parsed
  · split at parsed
    · cases parsed
    · split at parsed
      · cases parsed
      · exact makeSubmission_hotkey py (Except.ok.inj parsed)
  · cases parsed

theorem parseAll_cases (window : Window) (items : List (String × List Reveal)) :
    (∃ submissions, parseAll py window items = .ok submissions ∧
      (∀ item ∈ items, ∃ result, Submits py window item result) ∧
      ∀ submission, submission ∈ submissions ↔
        ∃ item ∈ items, Submits py window item (some submission)) ∨
    (∃ e, parseAll py window items = .error e) ∧
      ∃ item ∈ items, ∀ result, ¬ Submits py window item result := by
  induction items with
  | nil => exact Or.inl ⟨[], rfl, by simp, by simp⟩
  | cons item rest ih =>
      obtain ⟨hotkey, commitment⟩ := item
      simp only [parseAll, List.forall_mem_cons, List.exists_mem_cons_iff, Submits]
      cases parsed : parseCommitment py hotkey commitment window with
      | error e => exact Or.inr ⟨⟨e, rfl⟩, Or.inl nofun⟩
      | ok result =>
          rcases ih with ⟨submissions, all, each, exactly⟩ | ⟨⟨e, all⟩, bad⟩
          · refine Or.inl ⟨result.toList ++ submissions, by rw [all], ⟨⟨result, rfl⟩, each⟩, ?_⟩
            intro submission
            simp only [List.mem_append, Option.mem_toList, exactly, Except.ok.injEq,
              Submits]
          · exact Or.inr ⟨⟨e, by simp only [all]⟩, Or.inr bad⟩

/-- Every hotkey is collected, and for each the collection has the submission that its own history
gives, if any, and no other. -/
def Isolated (window : Window) (commitments : Commitments) : Prop :=
  ∃ submissions, readSubmissions py window commitments = .ok submissions ∧
    ∀ item ∈ commitments.items, ∃ result, Submits py window item result ∧
      ∀ submission, submission ∈ submissions ∧ submission.hotkey = item.1 ↔ result = some submission

/-- The collection is isolated exactly when every history is benign. -/
theorem isolated_iff_benign (window : Window) (commitments : Commitments) :
    Isolated py window commitments ↔ ∀ item ∈ commitments.items, Benign py window item.2 := by
  constructor
  · rintro ⟨submissions, -, each⟩ item member
    obtain ⟨result, submits, -⟩ := each item member
    exact (parseCommitment_iff py item.1 item.2 window).mp ⟨result, submits⟩
  · intro benign
    rcases parseAll_cases py window commitments.items with
      ⟨submissions, all, each, exactly⟩ | ⟨-, item, member, bad⟩
    · refine ⟨_, by rw [readSubmissions, all], ?_⟩
      intro item member
      obtain ⟨result, submits⟩ := each item member
      refine ⟨result, submits, ?_⟩
      intro submission
      rw [List.mem_mergeSort, exactly]
      constructor
      · rintro ⟨⟨other, member', submits'⟩, own⟩
        have same : other.1 = item.1 := (parseCommitment_hotkey py submits').symm.trans own
        have other_eq : other = item :=
          List.inj_on_of_nodup_map commitments.nodup member' member same
        rw [other_eq] at submits'
        exact Except.ok.inj (submits.symm.trans submits')
      · rintro rfl
        exact ⟨⟨item, member, submits⟩, parseCommitment_hotkey py submits⟩
    · obtain ⟨result, submits⟩ := (parseCommitment_iff py item.1 item.2 window).mpr (benign item member)
      exact absurd submits (bad result)

/-! ## One text that stops the collection -/

/-- The interpreter with its default limit, and `\w` on ASCII texts. -/
def sampleInterpreter : Interpreter where
  parseDepth := 1000
  compareDepth := 1000
  word c := c.isAlphanum || c == '_'

def honestText : String :=
  "\x7b\"repo\": \"test/model\", \"commit\": \"aaaaaaaaaaaaaaaaaaaaaaaaaaaaaaaaaaaaaaaa\"\x7d"

/-- An honest hotkey, and one that reveals the JSON text `1`. -/
def disturbedCommitments : Commitments :=
  .ofList [("5FHneW46xGXgs5mUiveU4sbTyGBzmstUspZC92UhjJM694ty", [(150, honestText)]),
    ("5GrwvaEF5zXb26Fz9rcQpDWS57CtERHpNehXCPcNoHGKutQY", [(151, "1")])]

/-- The number stops the collection of the honest hotkey too, which alone would be collected. -/
theorem number_stops_collection :
    ¬ Isolated sampleInterpreter ⟨100, 200⟩ disturbedCommitments ∧
      ∃ submission, Submits sampleInterpreter ⟨100, 200⟩
        ("5FHneW46xGXgs5mUiveU4sbTyGBzmstUspZC92UhjJM694ty", [(150, honestText)]) (some submission) := by
  constructor
  · rintro ⟨submissions, read, -⟩
    have stopped : (readSubmissions sampleInterpreter ⟨100, 200⟩ disturbedCommitments).toOption =
        none := by decide +kernel
    rw [read] at stopped
    cases stopped
  · have collected : ((parseCommitment sampleInterpreter
        "5FHneW46xGXgs5mUiveU4sbTyGBzmstUspZC92UhjJM694ty" [(150, honestText)]
        ⟨100, 200⟩).toOption.bind id).isSome = true := by decide +kernel
    obtain ⟨submission, some⟩ := Option.isSome_iff_exists.mp collected
    obtain ⟨result, parsed, rfl⟩ := Option.bind_eq_some_iff.mp some
    refine ⟨submission, ?_⟩
    cases own : parseCommitment sampleInterpreter
        "5FHneW46xGXgs5mUiveU4sbTyGBzmstUspZC92UhjJM694ty" [(150, honestText)] ⟨100, 200⟩ with
    | error e =>
        rw [own] at parsed
        cases parsed
    | ok result =>
        rw [own] at parsed
        obtain rfl := Option.some.inj parsed
        exact own

end GenSubnet.Collector
