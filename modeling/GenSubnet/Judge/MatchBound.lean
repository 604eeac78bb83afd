import GenSubnet.Judge.Finalization
import Mathlib.Data.Nat.Choose.Basic

/-!
# The judging loop does not spin

Every match that a run asks for is one of finitely many ordered pairs: the leader or a miner, and a
miner submitted after it. None of them is in the matrix when its match starts, and a match that is
not interrupted puts it there for good. So the number of pairs in the matrix, with one more while a
match is on, bounds the matches that were run.
-/

namespace GenSubnet.Judge
open Library

/-! ## The pairs that can be asked for -/

def orderedPairs : List String → List (String × String)
  | [] => []
  | left :: rest => rest.map (left, ·) ++ orderedPairs rest

theorem length_orderedPairs (hotkeys : List String) :
    (orderedPairs hotkeys).length = hotkeys.length.choose 2 := by
  induction hotkeys with
  | nil => rfl
  | cons left rest ih =>
      rw [orderedPairs, List.length_append, List.length_map, ih, List.length_cons,
        Nat.choose_succ_succ, Nat.choose_one_right]

theorem mem_orderedPairs {left right : String} {hotkeys : List String}
    (ordered : [left, right].Sublist hotkeys) : (left, right) ∈ orderedPairs hotkeys := by
  induction hotkeys with
  | nil => cases ordered
  | cons first rest ih =>
      rw [orderedPairs, List.mem_append]
      cases ordered with
      | cons _ later => exact Or.inr (ih later)
      | cons_cons _ later =>
          exact Or.inl (List.mem_map_of_mem (List.singleton_sublist.mp later))

/-- The leader against every miner, and every miner against those submitted after it. -/
def RoundSetup.wanted (setup : RoundSetup) : List (String × String) :=
  orderedPairs ("leader" :: setup.hotkeys)

variable {setup : RoundSetup}

theorem RoundSetup.length_wanted : setup.wanted.length =
    setup.hotkeys.length + setup.hotkeys.length * (setup.hotkeys.length - 1) / 2 := by
  rw [wanted, length_orderedPairs, List.length_cons, Nat.choose_succ_succ, Nat.choose_one_right,
    Nat.choose_two_right]

theorem RoundSetup.qualification_wanted {hotkey : String} (member : hotkey ∈ setup.hotkeys) :
    ("leader", hotkey) ∈ setup.wanted :=
  mem_orderedPairs ((List.singleton_sublist.mpr member).cons_cons _)

section Timeline

variable {matrix : MatchMatrix} {winMargin : Rat} {verdicts : Verdicts}

theorem hotkeys_deriveFrom (defender : String) (defenderVerified : Bool) (hotkeys : List String) :
    ((deriveFrom matrix winMargin verdicts defender defenderVerified hotkeys).map
      TimelineEntry.hotkey).Sublist hotkeys := by
  fun_induction deriveFrom matrix winMargin verdicts defender defenderVerified hotkeys with
  | case1 => exact .slnil
  | case2 _ _ _ _ _ ih | case3 _ _ _ _ _ _ _ ih => exact ih.cons _
  | case4 _ _ _ _ _ _ _ _ _ ih | case5 _ _ _ _ _ _ _ _ _ ih | case6 _ _ _ _ _ _ _ _ _ _ _ ih
  | case7 _ _ _ _ _ _ _ _ _ _ _ _ ih => exact ih.cons_cons _

theorem pending_deriveFrom (defender : String) (defenderVerified : Bool) (hotkeys : List String) :
    ∀ entry ∈ deriveFrom matrix winMargin verdicts defender defenderVerified hotkeys,
      entry.status = .pending → matrix.get (entry.defender, entry.hotkey) = none ∧
        [entry.defender, entry.hotkey].Sublist (defender :: hotkeys) := by
  have later {pair : List String} {defender hotkey : String} {rest : List String}
      (ordered : pair.Sublist (defender :: rest)) :
      pair.Sublist (defender :: hotkey :: rest) :=
    ordered.trans ((List.sublist_cons_self hotkey rest).cons_cons defender)
  fun_induction deriveFrom matrix winMargin verdicts defender defenderVerified hotkeys with
  | case1 => simp
  | case2 _ _ _ _ _ ih | case3 _ _ _ _ _ _ _ ih =>
      intro entry member pending
      exact (ih entry member pending).imp_right later
  | case4 _ _ _ _ _ _ _ _ _ ih | case6 _ _ _ _ _ _ _ _ _ _ _ ih =>
      rw [List.forall_mem_cons]
      refine ⟨by simp, ?_⟩
      intro entry member pending
      exact (ih entry member pending).imp_right later
  | case5 _ _ _ _ _ _ _ _ unmatched ih =>
      rw [List.forall_mem_cons]
      refine ⟨fun _ => ⟨unmatched, by simp⟩, ?_⟩
      intro entry member pending
      exact (ih entry member pending).imp_right later
  | case7 _ _ _ _ _ _ _ _ _ _ _ _ ih =>
      rw [List.forall_mem_cons]
      refine ⟨by simp, ?_⟩
      intro entry member pending
      exact (ih entry member pending).imp_right (List.Sublist.cons _)

theorem unmatchedPair_ordered {hotkeys : List String} {left right : String}
    (found : unmatchedPair matrix hotkeys = some (left, right)) :
    matrix.contains (left, right) = false ∧ [left, right].Sublist hotkeys := by
  induction hotkeys with
  | nil => cases found
  | cons first rest ih =>
      rw [unmatchedPair] at found
      split at found
      · rename_i other unmatched
        cases found
        have member := List.mem_of_find?_eq_some unmatched
        have absent := List.find?_some unmatched
        exact ⟨by simpa using absent, (List.singleton_sublist.mpr member).cons_cons _⟩
      · exact (ih found).imp_right (List.Sublist.cons _)

end Timeline

variable {s s' : Runner}

theorem Runner.nextMatch_wanted {left right : String}
    (next : (s.derive setup).nextMatch = some (left, right)) :
    (left, right) ∈ setup.wanted ∧ s.matrix.contains (left, right) = false := by
  obtain ⟨entry, found, pair⟩ := Option.map_eq_some_iff.mp next
  cases pair
  have pending : entry.status = .pending := by simpa using List.find?_some found
  obtain ⟨unmatched, ordered⟩ := pending_deriveFrom "leader" true setup.hotkeys entry
    (List.mem_of_find?_eq_some found) pending
  exact ⟨mem_orderedPairs ordered, by simp [Dict.contains, unmatched]⟩

theorem Runner.findExploratoryDuel_wanted {left right : String}
    (found : (s.derive setup).findExploratoryDuel s.matrix = some (left, right)) :
    (left, right) ∈ setup.wanted ∧ s.matrix.contains (left, right) = false := by
  obtain ⟨absent, ordered⟩ := unmatchedPair_ordered found
  have candidates := (List.filter_sublist (p := fun e => e.status ≠ .rejected)
    (l := (s.derive setup).entries)).map TimelineEntry.hotkey
  have listed := (ordered.trans candidates).trans (hotkeys_deriveFrom "leader" true setup.hotkeys)
  exact ⟨mem_orderedPairs (listed.cons _), absent⟩

/-! ## What a step does to the matches -/

/-- At the start, in the qualification or at the head of the loop. -/
def Phase.AtHead : Phase → Prop
  | .starting | .qualifying _ _ | .looping _ => True
  | _ => False

def Phase.Over : Phase → Prop
  | .returned | .raised => True
  | _ => False

/-- The match that is on, if any, is a wanted one without a result yet. -/
def Runner.PlaysNew (setup : RoundSetup) (s : Runner) : Prop :=
  (∀ pair, s.phase.playing = some pair → pair ∈ setup.wanted ∧ s.matrix.contains pair = false) ∧
  match s.phase with
  | .qualifying rest _ | .qualifyingMatch _ rest => ∀ hotkey ∈ rest, hotkey ∈ setup.hotkeys
  | _ => True

/-- A match may have been started whose result is not cached: it is on, or no other follows. -/
def Runner.Open (s : Runner) : Prop :=
  s.phase.playing.isSome ∨ s.shutdown = true ∧ s.phase.AtHead ∧ s.phase ≠ .starting ∨ s.phase.Over

/-- A step seen from the matches. -/
inductive Runner.Moves (setup : RoundSetup) (s s' : Runner) : Prop
  | observes (phase : s'.phase = s.phase) (matrix : s'.matrix = s.matrix)
      (shutdown : s.shutdown = true → s'.shutdown = true)
  | starts (pair : String × String) (before : ¬ s.Open) (plays : s'.phase.playing = some pair)
      (wanted : pair ∈ setup.wanted) (absent : s.matrix.contains pair = false)
      (matrix : s'.matrix = s.matrix)
  | finishes (pair : String × String) (margin : Rat) (plays : s.phase.playing = some pair)
      (resumes : s.shutdown = true → s'.Open) (shutdown : s'.shutdown = s.shutdown)
      (matrix : s'.matrix = if s.shutdown then s.matrix else s.matrix.set pair margin)
  | goesOn (before : s.phase.playing = none) (after : s'.phase.playing = none)
      (matrix : s'.matrix = s.matrix) (shutdown : s'.shutdown = s.shutdown)
      (still : s.Open → s'.Open) (head : s'.phase.AtHead → s.phase.AtHead ∨ s.phase = .awaiting)
  | raises (ended : s'.phase.Over) (matrix : s'.matrix = s.matrix)

theorem Runner.ensureMatch_absent {left right : String}
    (absent : s.matrix.contains (left, right) = false) :
    s.ensureMatch left right = { s with phase := .matching left right } := by
  rw [Runner.ensureMatch, if_neg (by simp [absent])]

theorem Runner.cacheMatch_matrix (left right : String) (margin : Rat) :
    (s.cacheMatch left right margin).matrix =
      if s.shutdown then s.matrix else s.matrix.set (left, right) margin := by
  unfold Runner.cacheMatch
  split <;> rfl

theorem Runner.Moves.between (matrix : s'.matrix = s.matrix) (shutdown : s'.shutdown = s.shutdown)
    (before : s.phase.playing = none) (after : s'.phase.playing = none)
    (rest : ∀ rest reload, s'.phase ≠ .qualifying rest reload) (still : s.Open → s'.Open)
    (head : s'.phase.AtHead → s.phase.AtHead ∨ s.phase = .awaiting) :
    s.Moves setup s' ∧ s'.PlaysNew setup := by
  refine ⟨.goesOn before after matrix shutdown still head, by simp [after], ?_⟩
  split
  · rename_i hotkeys reload at_phase
    exact absurd at_phase (rest hotkeys reload)
  · rename_i at_phase
    rw [at_phase] at after
    cases after
  · trivial

theorem Runner.Moves.advance (sound : s.Sound setup) (new : s.PlaysNew setup)
    (stepped : s.advance setup = some s') : s.Moves setup s' ∧ s'.PlaysNew setup := by
  obtain ⟨-, phase⟩ := sound
  obtain ⟨plays, listed⟩ := new
  unfold Runner.advance at stepped
  split at stepped
  · rename_i at_phase
    split at stepped
    · obtain rfl := Option.some.inj stepped
      apply Runner.Moves.between <;>
        simp [Runner.Open, at_phase, Phase.playing, Phase.AtHead, Phase.Over]
    · cases stepped
  · rename_i rest at_phase
    obtain rfl := Option.some.inj stepped
    rw [at_phase] at listed
    refine ⟨.goesOn (by rw [at_phase]; rfl) rfl rfl rfl ?_ ?_, by simp [Phase.playing], listed⟩ <;>
      simp [Runner.Open, Runner.reload, at_phase, Phase.playing, Phase.AtHead, Phase.Over]
  · rename_i at_phase
    obtain rfl := Option.some.inj stepped
    apply Runner.Moves.between <;>
      simp [Runner.Open, at_phase, Phase.playing, Phase.AtHead, Phase.Over]
  · rename_i hotkey rest at_phase
    rw [at_phase] at listed
    obtain ⟨member, others⟩ := List.forall_mem_cons.mp listed
    split at stepped
    · obtain rfl := Option.some.inj stepped
      apply Runner.Moves.between <;>
        simp [Runner.Open, at_phase, Phase.playing, Phase.AtHead, Phase.Over]
    · rename_i running
      split at stepped
      · obtain rfl := Option.some.inj stepped
        refine ⟨.goesOn (by rw [at_phase]; rfl) rfl rfl rfl ?_ ?_, by simp [Phase.playing],
          others⟩ <;>
          simp [Runner.Open, at_phase, Phase.playing, Phase.AtHead, Phase.Over]
      · rename_i unsettled
        obtain rfl := Option.some.inj stepped
        have absent : s.matrix.contains ("leader", hotkey) = false :=
          Bool.eq_false_iff.mpr fun cached => unsettled (Or.inr cached)
        have wanted := RoundSetup.qualification_wanted member
        refine ⟨.starts ("leader", hotkey) ?_ rfl wanted absent rfl, ?_, others⟩
        · simp [Runner.Open, at_phase, running, Phase.playing, Phase.Over]
        · rintro pair ⟨⟩
          exact ⟨wanted, absent⟩
  · rename_i reload at_phase
    split at stepped
    · obtain rfl := Option.some.inj stepped
      apply Runner.Moves.between <;>
        simp [Runner.Open, at_phase, Phase.playing, Phase.AtHead, Phase.Over]
    · rename_i running
      obtain rfl := Option.some.inj stepped
      cases reload <;> apply Runner.Moves.between <;>
        simp [Runner.Open, Runner.reload, at_phase, running, Phase.playing, Phase.AtHead, Phase.Over]
  · rename_i timeline at_phase
    obtain rfl := Option.some.inj stepped
    apply Runner.Moves.between <;>
      simp [Runner.Open, at_phase, Phase.playing, Phase.AtHead, Phase.Over]
  · rename_i timeline entry rest at_phase
    obtain rfl := Option.some.inj stepped
    have kept : (s.requestValidation entry).matrix = s.matrix ∧
        (s.requestValidation entry).shutdown = s.shutdown := by
      unfold Runner.requestValidation
      split <;> exact ⟨rfl, rfl⟩
    apply Runner.Moves.between <;>
      simp [kept, Runner.Open, at_phase, Phase.playing, Phase.AtHead, Phase.Over]
  · rename_i timeline at_phase
    obtain rfl := Option.some.inj stepped
    apply Runner.Moves.between <;>
      simp [Runner.Open, at_phase, Phase.playing, Phase.AtHead, Phase.Over]
  · rename_i timeline at_phase
    rw [at_phase] at phase
    obtain ⟨-, rfl, -⟩ := phase
    have starts {left right : String} (wanted : (left, right) ∈ setup.wanted)
        (absent : s.matrix.contains (left, right) = false) :
        s.Moves setup (s.ensureMatch left right) ∧
          (s.ensureMatch left right).PlaysNew setup := by
      rw [Runner.ensureMatch_absent absent]
      refine ⟨.starts (left, right) ?_ rfl wanted absent rfl, ?_, trivial⟩
      · simp [Runner.Open, at_phase, Phase.playing, Phase.AtHead, Phase.Over]
      · rintro pair ⟨⟩
        exact ⟨wanted, absent⟩
    split at stepped
    · obtain rfl := Option.some.inj stepped
      apply Runner.Moves.between <;>
        simp [Runner.Open, at_phase, Phase.playing, Phase.AtHead, Phase.Over]
    · split at stepped
      · rename_i next
        obtain rfl := Option.some.inj stepped
        obtain ⟨wanted, absent⟩ := Runner.nextMatch_wanted next
        exact starts wanted absent
      · rename_i found
        obtain rfl := Option.some.inj stepped
        obtain ⟨wanted, absent⟩ := Runner.findExploratoryDuel_wanted found
        exact starts wanted absent
      · obtain rfl := Option.some.inj stepped
        apply Runner.Moves.between <;>
          simp [Runner.Open, at_phase, Phase.playing, Phase.AtHead, Phase.Over]
  · rename_i reason at_phase
    obtain rfl := Option.some.inj stepped
    apply Runner.Moves.between <;>
      simp [Runner.Open, at_phase, Phase.playing, Phase.AtHead, Phase.Over]
  · cases stepped
  · cases stepped
  · cases stepped
  · cases stepped
  · cases stepped
  · cases stepped

theorem Runner.Moves.step (sound : s.Sound setup) (new : s.PlaysNew setup) {event : RunEvent}
    (stepped : s.step setup event = some s') : s.Moves setup s' ∧ s'.PlaysNew setup := by
  cases event with
  | deliverValidation hotkey result =>
      simp only [Runner.step] at stepped
      split at stepped
      · cases stepped
      · obtain rfl := Option.some.inj stepped
        exact ⟨.observes rfl rfl id, new⟩
  | deliverAudit audit =>
      simp only [Runner.step] at stepped
      split at stepped
      · cases stepped
      · obtain rfl := Option.some.inj stepped
        exact ⟨.observes rfl rfl id, new⟩
  | requestShutdown =>
      obtain rfl := Option.some.inj stepped
      exact ⟨.observes rfl rfl fun _ => rfl, new⟩
  | fail =>
      simp only [Runner.step] at stepped
      split at stepped
      · cases stepped
      · cases stepped
      · obtain rfl := Option.some.inj stepped
        exact ⟨.raises trivial rfl, by simp [Phase.playing], trivial⟩
  | baseline complete =>
      simp only [Runner.step] at stepped
      split at stepped
      · rename_i at_phase
        split at stepped
        · cases stepped
        · split at stepped
          · obtain rfl := Option.some.inj stepped
            refine ⟨.goesOn (by rw [at_phase]; rfl) rfl rfl rfl ?_ ?_, by simp [Phase.playing],
              fun hotkey member => member⟩ <;>
              simp [Runner.Open, at_phase, Phase.playing, Phase.AtHead, Phase.Over]
          · obtain rfl := Option.some.inj stepped
            apply Runner.Moves.between <;>
              simp [Runner.Open, at_phase, Phase.playing, Phase.AtHead, Phase.Over]
      · cases stepped
  | matchFinished margin =>
      obtain ⟨-, listed⟩ := new
      simp only [Runner.step] at stepped
      split at stepped
      · rename_i hotkey rest at_phase
        rw [at_phase] at listed
        obtain rfl := Option.some.inj stepped
        refine ⟨.finishes ("leader", hotkey) margin (by rw [at_phase]; rfl) ?_ ?_
          (Runner.cacheMatch_matrix _ _ _), by simp [Phase.playing], listed⟩ <;>
          simp [Runner.Open, Phase.playing, Phase.AtHead, Phase.Over]
      · rename_i left right at_phase
        obtain rfl := Option.some.inj stepped
        refine ⟨.finishes (left, right) margin (by rw [at_phase]; rfl) ?_ ?_
          (Runner.cacheMatch_matrix _ _ _), by simp [Phase.playing], trivial⟩ <;>
          simp [Runner.Open, Phase.playing, Phase.AtHead, Phase.Over]
      · cases stepped
  | wake =>
      simp only [Runner.step] at stepped
      split at stepped
      · rename_i at_phase
        obtain rfl := Option.some.inj stepped
        apply Runner.Moves.between <;>
          simp [Runner.Open, at_phase, Phase.playing, Phase.AtHead, Phase.Over]
      · cases stepped
  | readLeader leader =>
      simp only [Runner.step] at stepped
      split at stepped
      · rename_i at_phase
        split at stepped
        · obtain rfl := Option.some.inj stepped
          apply Runner.Moves.between <;>
            simp [Runner.Open, at_phase, Phase.playing, Phase.AtHead, Phase.Over]
        · obtain rfl := Option.some.inj stepped
          exact ⟨.raises trivial rfl, by simp [Phase.playing], trivial⟩
      · cases stepped
  | advance => exact Runner.Moves.advance sound new stepped

/-! ## The pairs in the matrix -/

theorem Runner.Moves.kept (moves : s.Moves setup s') (new : s.PlaysNew setup)
    (pair : String × String) (margin : Rat) (cached : s.matrix.get pair = some margin) :
    s'.matrix.get pair = some margin := by
  cases moves with
  | observes _ matrix | starts _ _ _ _ _ matrix | goesOn _ _ matrix | raises _ matrix =>
      rw [matrix]
      exact cached
  | finishes played result plays _ _ matrix =>
      rw [matrix]
      split
      · exact cached
      · have absent := (new.1 played plays).2
        have ne : pair ≠ played := by
          rintro rfl
          simp [Dict.contains, cached] at absent
        rw [Dict.get_set_of_ne _ _ ne]
        exact cached

theorem countP_lt_of_mem {α : Type} {p q : α → Bool} {l : List α} (subset : ∀ x ∈ l, p x → q x)
    {new : α} (member : new ∈ l) (absent : p new = false) (present : q new = true) :
    l.countP p < l.countP q := by
  induction l with
  | nil => cases member
  | cons first rest ih =>
      obtain ⟨head, tail⟩ := List.forall_mem_cons.mp subset
      rw [List.countP_cons, List.countP_cons]
      rcases List.mem_cons.mp member with rfl | later
      · have := List.countP_mono_left tail
        rw [if_neg (by simp [absent]), if_pos present]
        omega
      · have := ih tail later
        split
        · rename_i counted
          rw [if_pos (head counted)]
          omega
        · omega

def Runner.cachedMatches (setup : RoundSetup) (s : Runner) : Nat :=
  setup.wanted.countP fun pair => s.matrix.contains pair

theorem Runner.cachedMatches_set {pair : String × String} (wanted : pair ∈ setup.wanted)
    (absent : s.matrix.contains pair = false) {margin : Rat}
    (matrix : s'.matrix = s.matrix.set pair margin) :
    s.cachedMatches setup < s'.cachedMatches setup := by
  refine countP_lt_of_mem ?_ wanted absent (by simp [matrix, Dict.contains_set])
  intro other _ cached
  rw [matrix, Dict.contains_set, cached, Bool.or_true]

theorem Runner.cachedMatches_lt {pair : String × String} (wanted : pair ∈ setup.wanted)
    (absent : s.matrix.contains pair = false) : s.cachedMatches setup < setup.wanted.length := by
  apply lt_of_le_of_ne List.countP_le_length
  intro all
  have cached := List.countP_eq_length.mp all pair wanted
  simp [absent] at cached

/-! ## Matches of a run -/

/-- A match begins. -/
def Runner.starts (s : Runner) (_ : RunEvent) (s' : Runner) : Bool :=
  s.phase.playing.isNone && s'.phase.playing.isSome

/-- So many matches may have been started, those that were cached before included. -/
def Runner.Spent (setup : RoundSetup) (s : Runner) (count : Nat) : Prop :=
  count ≤ setup.wanted.length ∧
    (count ≤ s.cachedMatches setup ∨ s.Open ∧ count ≤ s.cachedMatches setup + 1)

theorem Runner.Moves.spent (moves : s.Moves setup s') (new : s.PlaysNew setup) {event : RunEvent}
    {count : Nat} (spent : s.Spent setup count) :
    s'.Spent setup (count + (s.starts event s').toNat) := by
  obtain ⟨bounded, spent⟩ := spent
  cases moves with
  | observes phase matrix shutdown =>
      have none : s.starts event s' = false := by
        simp [Runner.starts, phase]
      have same : s'.cachedMatches setup = s.cachedMatches setup := by
        rw [cachedMatches, cachedMatches, matrix]
      have still : s.Open → s'.Open := by
        unfold Runner.Open
        rw [phase]
        exact Or.imp_right (Or.imp_left (And.imp_left shutdown))
      rw [none, Spent, same]
      exact ⟨bounded, spent.imp_right (And.imp_left still)⟩
  | starts pair before plays wanted absent matrix =>
      have same : s'.cachedMatches setup = s.cachedMatches setup := by
        rw [cachedMatches, cachedMatches, matrix]
      have room := Runner.cachedMatches_lt wanted absent
      have spent := spent.resolve_right fun h => before h.1
      have one : (s.starts event s').toNat ≤ 1 := Bool.toNat_le _
      rw [Spent, same]
      exact ⟨by omega, Or.inr ⟨Or.inl (by simp [plays]), by omega⟩⟩
  | finishes pair margin plays resumes shutdown matrix =>
      have none : s.starts event s' = false := by
        simp [Runner.starts, plays]
      have spent : count ≤ s.cachedMatches setup + 1 := by
        rcases spent with spent | ⟨-, spent⟩ <;> omega
      rw [none]
      split at matrix
      · rename_i stopped
        have same : s'.cachedMatches setup = s.cachedMatches setup := by
          rw [cachedMatches, cachedMatches, matrix]
        exact ⟨bounded, Or.inr ⟨resumes stopped, by rw [same]; exact spent⟩⟩
      · obtain ⟨wanted, absent⟩ := new.1 pair plays
        have more := Runner.cachedMatches_set wanted absent matrix
        exact ⟨bounded, Or.inl (by simp only [Bool.toNat_false]; omega)⟩
  | goesOn before after matrix shutdown still _ =>
      have none : s.starts event s' = false := by
        simp [Runner.starts, after]
      have same : s'.cachedMatches setup = s.cachedMatches setup := by
        rw [cachedMatches, cachedMatches, matrix]
      rw [none, Spent, same]
      exact ⟨bounded, spent.imp_right (And.imp_left still)⟩
  | raises ended matrix =>
      have none : s.starts event s' = false := by
        cases at_phase : s'.phase <;> simp_all [Runner.starts, Phase.playing, Phase.Over]
      have same : s'.cachedMatches setup = s.cachedMatches setup := by
        rw [cachedMatches, cachedMatches, matrix]
      rw [none, Spent, same]
      refine ⟨bounded, Or.inr ⟨Or.inr (Or.inr ended), ?_⟩⟩
      rcases spent with spent | ⟨-, spent⟩ <;> simp only [Bool.toNat_false] <;> omega

/-! ## Runs -/

/-- A run that had these matches cached: it is sound, plays nothing twice and has kept them. -/
structure Runner.Follows (setup : RoundSetup) (matrix : MatchMatrix) (s : Runner) : Prop where
  sound : s.Sound setup
  new : s.PlaysNew setup
  kept : ∀ pair margin, matrix.get pair = some margin → s.matrix.get pair = some margin

theorem Runner.Follows.refl (sound : s.Sound setup) (new : s.PlaysNew setup) :
    s.Follows setup s.matrix :=
  ⟨sound, new, fun _ _ cached => cached⟩

theorem Runner.Fresh.follows (fresh : s.Fresh) : s.Follows setup s.matrix := by
  refine .refl fresh.sound ?_
  rw [PlaysNew, fresh.phase]
  exact ⟨by simp [Phase.playing], trivial⟩

theorem follows_step {matrix : MatchMatrix} (s : Runner) (event : RunEvent) (s' : Runner)
    (follows : s.Follows setup matrix) (stepped : s.step setup event = some s') :
    s'.Follows setup matrix := by
  obtain ⟨moves, new⟩ := Runner.Moves.step follows.sound follows.new stepped
  refine ⟨sound_step s event s' follows.sound stepped, new, ?_⟩
  intro pair margin cached
  exact moves.kept follows.new pair margin (follows.kept pair margin cached)

theorem Runner.Fresh.spent (fresh : s.Fresh) : s.Spent setup (s.cachedMatches setup) :=
  ⟨List.countP_le_length, Or.inl le_rfl⟩

theorem starts_run {events : List RunEvent} (fresh : s.Fresh)
    (ran : run (Runner.step setup) s events = some s') :
    s.cachedMatches setup + countSteps (Runner.step setup) Runner.starts s events ≤
      setup.wanted.length := by
  have spent : s'.Spent setup
      (s.cachedMatches setup + countSteps (Runner.step setup) Runner.starts s events) := by
    refine run_count ran follows_step ?_ fresh.follows fresh.spent
    intro u event v count follows stepped spent
    exact (Runner.Moves.step follows.sound follows.new stepped).1.spent follows.new spent
  exact spent.1

/-! ## Iterations -/

/-- What an iteration that began with these matches has come to: it was stopped, it has added a
pair, or it has not reached the head of the loop again. -/
def Runner.Iterating (setup : RoundSetup) (matrix : MatchMatrix) (s : Runner) : Prop :=
  s.shutdown = true ∨
    (∃ pair ∈ setup.wanted, matrix.contains pair = false ∧ s.matrix.contains pair = true) ∨
    ¬ s.phase.AtHead

/-- An iteration of a run. -/
structure Runner.Iterates (setup : RoundSetup) (matrix : MatchMatrix) (s : Runner) : Prop
    extends s.Follows setup matrix where
  iterating : s.Iterating setup matrix

theorem Phase.Over.not_atHead {phase : Phase} (ended : phase.Over) : ¬ phase.AtHead := by
  cases phase <;> simp_all [Phase.Over, Phase.AtHead]

theorem Phase.not_atHead_of_playing {phase : Phase} {pair : String × String}
    (plays : phase.playing = some pair) : ¬ phase.AtHead := by
  cases phase <;> simp_all [Phase.playing, Phase.AtHead]

theorem iterating_step {matrix : MatchMatrix} (moves : s.Moves setup s')
    (follows : s.Follows setup matrix) (busy : s.phase ≠ .awaiting)
    (iterating : s.Iterating setup matrix) : s'.Iterating setup matrix := by
  have grown {pair : String × String} (cached : s.matrix.contains pair = true) :
      s'.matrix.contains pair = true := by
    obtain ⟨margin, cached⟩ := Option.isSome_iff_exists.mp cached
    exact Dict.contains_of_get (moves.kept follows.new pair margin cached)
  cases moves with
  | observes phase matrix shutdown =>
      rw [Runner.Iterating, phase, matrix]
      exact iterating.imp_left shutdown
  | starts pair _ plays => exact Or.inr (Or.inr (Phase.not_atHead_of_playing plays))
  | finishes pair margin plays _ shutdown added =>
      by_cases stopped : s.shutdown = true
      · exact Or.inl (shutdown.trans stopped)
      · obtain ⟨wanted, absent⟩ := follows.new.1 pair plays
        rw [if_neg stopped] at added
        refine Or.inr (Or.inl ⟨pair, wanted, ?_, by simp [added, Dict.contains_set]⟩)
        -- What was there before is still there, so a pair that is absent now was absent before.
        by_contra cached
        obtain ⟨margin, cached⟩ := Option.isSome_iff_exists.mp (Bool.of_not_eq_false cached)
        simp [Dict.contains, follows.kept pair margin cached] at absent
  | goesOn _ _ _ shutdown _ head =>
      rcases iterating with stopped | ⟨pair, wanted, absent, cached⟩ | inside
      · exact Or.inl (shutdown.trans stopped)
      · exact Or.inr (Or.inl ⟨pair, wanted, absent, grown cached⟩)
      · refine Or.inr (Or.inr fun atHead => ?_)
        exact (head atHead).elim inside busy
  | raises ended => exact Or.inr (Or.inr ended.not_atHead)

/-- An iteration that comes back to the head of the loop, without waiting and without a shutdown,
has added a pair. -/
theorem iteration_run {reload reload' : Bool} {events : List RunEvent}
    (follows : s.Follows setup s.matrix) (head : s.phase = .looping reload)
    (busy : Throughout (Runner.step setup) (fun u _ => u.phase ≠ .awaiting) s (.advance :: events))
    (ran : run (Runner.step setup) s (.advance :: events) = some s')
    (again : s'.phase = .looping reload') (running : s'.shutdown = false) :
    ∃ pair ∈ setup.wanted, s.matrix.contains pair = false ∧ s'.matrix.contains pair = true := by
  obtain ⟨u, first, ran⟩ := run_cons.mp ran
  have entered : u.Iterating setup s.matrix := by
    apply Or.inr
    apply Or.inr
    simp only [Runner.step, Runner.advance, head] at first
    split at first <;> obtain rfl := Option.some.inj first <;> simp [Phase.AtHead]
  have ended : s'.Iterates setup s.matrix := by
    refine (busy.2 u first).invariant ran ?_ ⟨follows_step s .advance u follows first, entered⟩
    rintro v event w ⟨follows, iterating⟩ busy stepped
    have moves := (Runner.Moves.step follows.sound follows.new stepped).1
    exact ⟨follows_step v event w follows stepped, iterating_step moves follows busy iterating⟩
  rcases ended.iterating with stopped | added | inside
  · simp [running] at stopped
  · exact added
  · exact absurd (by rw [again]; trivial) inside

/-! ## The runs of a round -/

/-- The runner that the next iteration of the service creates, with the matches cached so far. -/
def Runner.again (s : Runner) : Runner :=
  { matrix := s.matrix, requests := s.requests, delivered := s.delivered }

/-- A round: runs one after another, each begun when the one before it has returned or raised. -/
def Round.step (setup : RoundSetup) (s : Runner) : Option RunEvent → Option Runner
  | some event => s.step setup event
  | none =>
      match s.phase with
      | .returned | .raised => some s.again
      | _ => none

/-- A match ends, and no shutdown discards it. -/
def Round.completes (s : Runner) (event : Option RunEvent) (_ : Runner) : Bool :=
  match event with
  | some (.matchFinished _) => !s.shutdown
  | _ => false

theorem Runner.Moves.cachedMatches_le (moves : s.Moves setup s') (new : s.PlaysNew setup) :
    s.cachedMatches setup ≤ s'.cachedMatches setup := by
  apply List.countP_mono_left
  intro pair _ cached
  obtain ⟨margin, cached⟩ := Option.isSome_iff_exists.mp cached
  exact Dict.contains_of_get (moves.kept new pair margin cached)

theorem matchFinished_cachedMatches {margin : Rat} (new : s.PlaysNew setup)
    (running : s.shutdown = false) (stepped : s.step setup (.matchFinished margin) = some s') :
    s.cachedMatches setup < s'.cachedMatches setup := by
  simp only [Runner.step] at stepped
  split at stepped
  · rename_i hotkey rest at_phase
    obtain rfl := Option.some.inj stepped
    obtain ⟨wanted, absent⟩ := new.1 ("leader", hotkey) (by rw [at_phase]; rfl)
    exact Runner.cachedMatches_set wanted absent
      (by simp [Runner.cacheMatch_matrix, running]; rfl)
  · rename_i left right at_phase
    obtain rfl := Option.some.inj stepped
    obtain ⟨wanted, absent⟩ := new.1 (left, right) (by rw [at_phase]; rfl)
    exact Runner.cachedMatches_set wanted absent
      (by simp [Runner.cacheMatch_matrix, running]; rfl)
  · cases stepped

/-- So many matches are cached at least. -/
def Runner.Caches (setup : RoundSetup) (s : Runner) (count : Nat) : Prop :=
  count ≤ s.cachedMatches setup

theorem round_step {matrix : MatchMatrix} (s : Runner) (event : Option RunEvent) (s' : Runner)
    (follows : s.Follows setup matrix) (stepped : Round.step setup s event = some s') :
    s'.Follows setup matrix ∧
      s'.Caches setup (s.cachedMatches setup + (Round.completes s event s').toNat) := by
  cases event with
  | some event =>
      have grown := (Runner.Moves.step follows.sound follows.new stepped).1.cachedMatches_le
        follows.new
      refine ⟨follows_step s event s' follows stepped, ?_⟩
      cases completes : Round.completes s (some event) s' with
      | false => exact grown
      | true =>
          unfold Round.completes at completes
          split at completes
          · rename_i margin same
            cases same
            exact matchFinished_cachedMatches follows.new (by simpa using completes) stepped
          · cases completes
  | none =>
      have fresh : s'.Fresh ∧ s'.matrix = s.matrix := by
        simp only [Round.step] at stepped
        split at stepped
        · obtain rfl := Option.some.inj stepped
          exact ⟨⟨rfl, rfl, rfl⟩, rfl⟩
        · obtain rfl := Option.some.inj stepped
          exact ⟨⟨rfl, rfl, rfl⟩, rfl⟩
        · cases stepped
      have again := @Runner.Fresh.follows setup _ fresh.1
      refine ⟨⟨again.sound, again.new, fresh.2 ▸ follows.kept⟩, ?_⟩
      rw [Runner.Caches, Runner.cachedMatches, Runner.cachedMatches, fresh.2]
      exact le_rfl

theorem completes_run {events : List (Option RunEvent)} (fresh : s.Fresh)
    (ran : run (Round.step setup) s events = some s') :
    s'.Caches setup
      (s.cachedMatches setup + countSteps (Round.step setup) Round.completes s events) := by
  refine run_count ran (fun u event v follows stepped => (round_step u event v follows stepped).1)
    ?_ fresh.follows le_rfl
  intro u event v count follows stepped counted
  have grown := (round_step u event v follows stepped).2
  unfold Runner.Caches at counted grown ⊢
  omega

/-- Whatever is cached when a run begins, whenever verdicts arrive or a shutdown is requested: the
match that is on is a wanted one that the matrix lacks, so no result is overwritten; an iteration of
the main loop that neither finalizes, waits nor is stopped adds a pair; a run starts no more matches
than there are wanted pairs; and neither do the runs of a round, one after another, cache more. -/
theorem judging_bounded {s₀ : Runner} (fresh : s₀.Fresh) :
    (∀ events s, run (Runner.step setup) s₀ events = some s →
      (∀ pair, s.phase.playing = some pair →
        pair ∈ setup.wanted ∧ s.matrix.contains pair = false) ∧
      (∀ later t, run (Runner.step setup) s later = some t →
        ∀ pair margin, s.matrix.get pair = some margin → t.matrix.get pair = some margin) ∧
      (∀ reload reload' later t, s.phase = .looping reload →
        Throughout (Runner.step setup) (fun u _ => u.phase ≠ .awaiting) s (.advance :: later) →
        run (Runner.step setup) s (.advance :: later) = some t → t.phase = .looping reload' →
        t.shutdown = false → ∃ pair ∈ setup.wanted,
          s.matrix.contains pair = false ∧ t.matrix.contains pair = true) ∧
      countSteps (Runner.step setup) Runner.starts s₀ events ≤
        setup.hotkeys.length + setup.hotkeys.length * (setup.hotkeys.length - 1) / 2) ∧
    ∀ events s, run (Round.step setup) s₀ events = some s →
      countSteps (Round.step setup) Round.completes s₀ events ≤
        setup.hotkeys.length + setup.hotkeys.length * (setup.hotkeys.length - 1) / 2 := by
  rw [← RoundSetup.length_wanted]
  refine ⟨?_, ?_⟩
  · intro events s ran
    have follows : s.Follows setup s₀.matrix := run_invariant ran follows_step fresh.follows
    have onward : s.Follows setup s.matrix := .refl follows.sound follows.new
    refine ⟨follows.new.1, ?_, ?_, ?_⟩
    · intro later t ran
      have later : t.Follows setup s.matrix := run_invariant ran follows_step onward
      exact later.kept
    · intro reload reload' later t head busy ran again running
      exact iteration_run onward head busy ran again running
    · have started := starts_run fresh ran
      omega
  · intro events s ran
    have completed : _ ≤ _ := completes_run fresh ran
    have bounded : s.cachedMatches setup ≤ setup.wanted.length := List.countP_le_length
    omega

/-- Both miners meet the leader and each other, and the bound is reached. -/
theorem judging_bounded_sample :
    countSteps (Runner.step sampleSetup) Runner.starts {} sampleEvents = 3 ∧
    countSteps (Runner.step sampleSetup) Runner.starts {} sampleEvents ≤ 3 := by
  have enabled : (run (Runner.step sampleSetup) {} sampleEvents).isSome = true := by decide +kernel
  obtain ⟨s, ran⟩ := Option.isSome_iff_exists.mp enabled
  have hotkeys : sampleSetup.hotkeys.length = 2 := by decide +kernel
  have bounded := ((@judging_bounded sampleSetup {} ⟨rfl, rfl, rfl⟩).1 sampleEvents s ran).2.2.2
  rw [hotkeys] at bounded
  exact ⟨by decide +kernel, bounded⟩

end GenSubnet.Judge
