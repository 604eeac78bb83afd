import GenSubnet.Judge.Symmetry

/-!
# Positional bias

A vision model that gives its first picture one penalty and its second another, whatever they show,
is to decide nothing. Both calls of a pair cancel; a pair of which one call fails is averaged with the
neutral reply in Stages 2 and 3, and then the bias is left.
-/

namespace GenSubnet.Judge
open Library Library.Binary64

variable {vlm : Vlm} {compensated : Bool} {V : Type} {assets : Assets V} {promptUrl left right : String}
  {seed : Int} {p q : Int}

/-- The model replies with these penalties, whatever it is shown. -/
def Vlm.Biased (vlm : Vlm) (p q : Int) : Prop :=
  ∀ c reply, vlm.penalties c = some reply → reply.penalty1 = p ∧ reply.penalty2 = q

/-- The retries of the call are exhausted. -/
def Vlm.Fails (vlm : Vlm) (c : Call) : Prop := safeChatJson vlm.penalties c 5 = none

/-- Both calls fail, or none, or the penalties are level with the neutral ones. -/
def Calls.Level (calls : Calls) (vlm : Vlm) (p q : Int) (gap : Float) : Prop :=
  (vlm.Fails calls.ab ↔ vlm.Fails calls.ba) ∨
    ∀ x y, trueDiv (p + 5) 2 = some x → trueDiv (q + 5) 2 = some y → (x - y).abs < gap

/-- The averages of Stage 1 are finite. -/
def FiniteAverages (vlm : Vlm) (compensated : Bool) (promptUrl left right : String) (seed : Int) : Prop :=
  ∃ angles, s1Run vlm promptUrl left right seed = some angles ∧ (consistentAngles angles = [] ∨
    ∃ w, weighted compensated AngleResult.penA (consistentAngles angles) = some w ∧ w.isFinite = true)

/-! ## Replies -/

theorem mem_of_safeChatJson {α : Type} {ask : Call → Option α} {c : Call} {n : Nat} {reply : α}
    (replied : safeChatJson ask c n = some reply) : ∃ c', ask c' = some reply := by
  obtain ⟨attempt, -, found⟩ := List.exists_of_findSome?_eq_some replied
  exact ⟨_, found⟩

theorem Vlm.Biased.reply (biased : vlm.Biased p q) (c : Call) :
    (¬ vlm.Fails c ∧ (askPenalty vlm c).penalty1 = p ∧ (askPenalty vlm c).penalty2 = q) ∨
      (vlm.Fails c ∧ askPenalty vlm c = neutralPenalty) := by
  unfold Vlm.Fails askPenalty
  cases replied : safeChatJson vlm.penalties c 5 with
  | none => exact Or.inr ⟨rfl, rfl⟩
  | some reply =>
      obtain ⟨c', found⟩ := mem_of_safeChatJson replied
      exact Or.inl ⟨nofun, biased c' reply found⟩

theorem Vlm.Biased.level (biased : vlm.Biased p q) {calls : Calls}
    (both : vlm.Fails calls.ab ↔ vlm.Fails calls.ba) :
    (calls.ask vlm).penaltyA = (calls.ask vlm).penaltyB := by
  have sums : (calls.ask vlm).ab.penalty1 + (calls.ask vlm).ba.penalty2 =
      (calls.ask vlm).ab.penalty2 + (calls.ask vlm).ba.penalty1 := by
    rcases biased.reply calls.ab with ⟨answered, ab1, ab2⟩ | ⟨fails, ab⟩
    · rcases biased.reply calls.ba with ⟨-, ba1, ba2⟩ | ⟨fails, -⟩
      · rw [Calls.ask, ab1, ab2, ba1, ba2]
        exact Int.add_comm p q
      · exact absurd (both.mpr fails) answered
    · rcases biased.reply calls.ba with ⟨answered, -⟩ | ⟨-, ba⟩
      · exact absurd (both.mp fails) answered
      · rw [Calls.ask, ab, ba]
        rfl
  rw [Pair.penaltyA, Pair.penaltyB, sums]

/-- A pair of which one call fails keeps the bias. -/
structure Pair.Lone (pair : Pair) (p q : Int) : Prop where
  jsonFailed : pair.jsonFailed = true
  contradictory : pair.contradictory = false
  averages : pair.penaltyA = trueDiv (p + 5) 2 ∧ pair.penaltyB = trueDiv (q + 5) 2 ∨
    pair.penaltyA = trueDiv (q + 5) 2 ∧ pair.penaltyB = trueDiv (p + 5) 2

theorem Vlm.Biased.lone (biased : vlm.Biased p q) {calls : Calls}
    (lone : ¬ (vlm.Fails calls.ab ↔ vlm.Fails calls.ba)) : (calls.ask vlm).Lone p q := by
  rcases biased.reply calls.ab with ⟨answered, ab1, ab2⟩ | ⟨fails, ab⟩
  · rcases biased.reply calls.ba with ⟨answered', -⟩ | ⟨-, ba⟩
    · exact absurd (iff_of_false answered answered') lone
    · refine ⟨?_, ?_, Or.inl ⟨?_, ?_⟩⟩
      · simp [Pair.jsonFailed, Calls.ask, ba, neutralPenalty]
      · simp [Pair.contradictory, Pair.diffBa, Calls.ask, ba, neutralPenalty]
      · rw [Pair.penaltyA, Calls.ask, ab1, ba]
        rfl
      · rw [Pair.penaltyB, Calls.ask, ab2, ba]
        rfl
  · rcases biased.reply calls.ba with ⟨answered, ba1, ba2⟩ | ⟨fails', -⟩
    · refine ⟨?_, ?_, Or.inr ⟨?_, ?_⟩⟩
      · simp [Pair.jsonFailed, Calls.ask, ab, neutralPenalty]
      · simp [Pair.contradictory, Pair.diffAb, Calls.ask, ab, neutralPenalty]
      · rw [Pair.penaltyA, Calls.ask, ab, ba2, Int.add_comm]
        rfl
      · rw [Pair.penaltyB, Calls.ask, ab, ba1, Int.add_comm]
        rfl
    · exact absurd (iff_of_true fails fails') lone

theorem Vlm.Biased.level_iff (biased : vlm.Biased p q) (calls : Calls) {gap : Float} (positive : 0 < gap) :
    (∀ x y, (calls.ask vlm).penaltyA = some x → (calls.ask vlm).penaltyB = some y → (x - y).abs < gap) ↔
      calls.Level vlm p q gap := by
  by_cases both : vlm.Fails calls.ab ↔ vlm.Fails calls.ba
  · refine iff_of_true ?_ (Or.inl both)
    intro x y averageA averageB
    rw [biased.level both, averageB] at averageA
    obtain rfl := Option.some.inj averageA
    have zero : (y - y).abs = 0 := by
      rw [sub_same (isFinite_of_trueDiv averageB)]
      decide +kernel
    rw [zero]
    exact positive
  · have level : calls.Level vlm p q gap ↔ ∀ x y, trueDiv (p + 5) 2 = some x →
        trueDiv (q + 5) 2 = some y → (x - y).abs < gap := or_iff_right both
    rw [level]
    rcases (biased.lone both).averages with ⟨averageA, averageB⟩ | ⟨averageA, averageB⟩
    · rw [averageA, averageB]
    · rw [averageA, averageB]
      constructor
      · intro near x y averageP averageQ
        rw [← abs_sub_swap x y]
        exact near y x averageQ averageP
      · intro near x y averageQ averageP
        rw [← abs_sub_swap x y]
        exact near y x averageP averageQ

/-! ## Stages 2 and 3 -/

theorem average_eq_some_iff {pair : Pair} {averages : PenaltyPair} : pair.average = some averages ↔
    pair.penaltyA = some averages.penaltyA ∧ pair.penaltyB = some averages.penaltyB := by
  unfold Pair.average
  cases pair.penaltyA with
  | none => simp
  | some x =>
      cases pair.penaltyB with
      | none => simp
      | some y =>
          cases averages
          simp

theorem s2PenaltyVote_eq_none_iff (averages : PenaltyPair) {gap : Float} :
    (s2PenaltyVote (some averages) gap).1 = none ↔ (averages.penaltyA - averages.penaltyB).abs < gap := by
  unfold s2PenaltyVote
  simp only
  split
  · rename_i near
    exact ⟨fun _ => near, fun _ => rfl⟩
  · rename_i far
    exact ⟨nofun, fun near => absurd near far⟩

theorem Vlm.Biased.vote_iff (biased : vlm.Biased p q) (calls : Calls) {gap : Float} (positive : 0 < gap) :
    (∀ averages, (calls.ask vlm).average = some averages → (s2PenaltyVote (some averages) gap).1 = none) ↔
      calls.Level vlm p q gap := by
  rw [← biased.level_iff calls positive]
  constructor
  · intro abstains x y averageA averageB
    exact (s2PenaltyVote_eq_none_iff ⟨x, y⟩).mp
      (abstains ⟨x, y⟩ (average_eq_some_iff.mpr ⟨averageA, averageB⟩))
  · intro near averages found
    obtain ⟨averageA, averageB⟩ := average_eq_some_iff.mp found
    exact (s2PenaltyVote_eq_none_iff averages).mpr (near _ _ averageA averageB)

theorem s3Choice_eq {pair : Pair} {x y : Float} (averageA : pair.penaltyA = some x)
    (averageB : pair.penaltyB = some y) : s3Choice pair =
      some (if pair.contradictory = true ∨ (x - y).abs < 2.0 then none else some (Side.ofDiff (x - y))) := by
  unfold s3Choice
  rw [averageA, averageB]
  change (if _ then _ else _) = _
  cases pair.contradictory with
  | true => cases pair.jsonFailed <;> rfl
  | false =>
      rw [Bool.and_false, if_neg Bool.false_ne_true, if_neg Bool.false_ne_true]
      by_cases near : (x - y).abs < 2.0
      · rw [if_pos near, if_pos (Or.inr near)]
        rfl
      · rw [if_neg near, if_neg fun either => either.elim Bool.false_ne_true near]
        rfl

theorem Vlm.Biased.choice_iff (biased : vlm.Biased p q) (calls : Calls) :
    (∀ choice, s3Choice (calls.ask vlm) = some choice → choice = none) ↔ calls.Level vlm p q 2.0 := by
  have positive : (0 : Float) < 2.0 := by decide +kernel
  rw [← biased.level_iff calls positive]
  constructor
  · intro abstains x y averageA averageB
    have chosen := abstains _ (s3Choice_eq averageA averageB)
    by_cases both : vlm.Fails calls.ab ↔ vlm.Fails calls.ba
    · exact (biased.level_iff calls positive).mpr (Or.inl both) x y averageA averageB
    · by_contra far
      rw [(biased.lone both).contradictory, if_neg fun either => either.elim Bool.false_ne_true far] at chosen
      cases chosen
  · intro near choice chosen
    cases averageA : (calls.ask vlm).penaltyA with
    | none =>
        rw [s3Choice, averageA] at chosen
        cases chosen
    | some x =>
        cases averageB : (calls.ask vlm).penaltyB with
        | none =>
            rw [s3Choice, averageA, averageB] at chosen
            cases chosen
        | some y =>
            rw [s3Choice_eq averageA averageB, if_pos (Or.inr (near x y averageA averageB))] at chosen
            exact (Option.some.inj chosen).symm

theorem strong_of_vote_none {averages : PenaltyPair}
    (abstains : (s2PenaltyVote (some averages) 1.0).1 = none) (gap : Option Int) :
    s2StrongVoterChoice (s2PenaltyVote (some averages) 1.0).2 gap = s2StrongVoterChoice none gap := by
  have near := (s2PenaltyVote_eq_none_iff averages).mp abstains
  have weak : ¬ (2.0 : Float) ≤ (averages.penaltyA - averages.penaltyB).abs := not_two_le_of_lt_one near
  have difference : (s2PenaltyVote (some averages) 1.0).2 =
      some (averages.penaltyA - averages.penaltyB) := by
    unfold s2PenaltyVote
    simp only
    split <;> rfl
  unfold s2StrongVoterChoice
  rw [difference]
  simp only [Option.filter_some, weak, decide_false, Bool.false_eq_true, if_false, Option.filter_none]

/-! ## Stage 1 -/

theorem beq_self {x : Float} (number : x.isNaN = false) : (x == x) = true := by
  by_contra differs
  have less := lt_of_not_lt number number (Bool.eq_false_of_not_eq_true differs)
    fun less => lt_asymm less less
  exact lt_asymm less less

theorem Vlm.Biased.angle (biased : vlm.Biased p q) {calls : Calls} {weight : Float} {angle : AngleResult}
    (found : s1Angle weight (calls.ask vlm) = some angle) (counts : angle.contradictory = false) :
    angle.penA = angle.penB := by
  obtain ⟨penA, averageA, found⟩ := Option.bind_eq_some_iff.mp found
  obtain ⟨penB, averageB, found⟩ := Option.bind_eq_some_iff.mp found
  obtain rfl := Option.some.inj found
  have answered : (calls.ask vlm).jsonFailed = false := (Bool.or_eq_false_iff.mp counts).1
  by_cases both : vlm.Fails calls.ab ↔ vlm.Fails calls.ba
  · rw [biased.level both, averageB] at averageA
    exact (Option.some.inj averageA).symm
  · rw [(biased.lone both).jsonFailed] at answered
    cases answered

theorem Vlm.Biased.consistent (biased : vlm.Biased p q) {angles : List AngleResult}
    (ran : s1Run vlm promptUrl left right seed = some angles) :
    ∀ angle ∈ consistentAngles angles, angle.penA = angle.penB := by
  intro angle member
  obtain ⟨present, counts⟩ := List.mem_filter.mp member
  obtain ⟨_, -, found⟩ := mem_of_mapM ran angle present
  exact biased.angle found (by simpa using counts)

theorem s1Split_of_equal {angles : List AngleResult} (finite : ∀ angle ∈ angles, angle.Finite)
    (equal : ∀ angle ∈ angles, angle.penA = angle.penB) : s1Split angles = some false := by
  have signs : s1Signs angles = (0, 0, 0) := by
    unfold s1Signs
    induction angles with
    | nil => rfl
    | cons angle rest ih =>
        have here := finite angle List.mem_cons_self
        have same : (angle.penA == angle.penB) = true := by
          rw [← equal angle List.mem_cons_self]
          exact beq_self (isNaN_of_isFinite here.penA)
        rw [List.foldl_cons, s1Sign, if_pos same]
        exact ih (fun a member => finite a (List.mem_cons_of_mem _ member))
          fun a member => equal a (List.mem_cons_of_mem _ member)
  unfold s1Split s1DirectionConsistency
  rw [signs]
  decide +kernel

theorem weighted_congr {angles : List AngleResult} (equal : ∀ angle ∈ angles, angle.penA = angle.penB) :
    weighted compensated AngleResult.penA angles = weighted compensated AngleResult.penB angles := by
  have terms : (angles.map fun a => a.weight * a.penA) = angles.map fun a => a.weight * a.penB :=
    List.map_congr_left fun angle member => by rw [equal angle member]
  unfold weighted
  rw [terms]

theorem s1Verdict_of_same {angles : List AngleResult} (split : s1Split angles = some false) (w : Float) :
    s1Verdict angles w w = some none ↔ w.isFinite = true := by
  cases finite : w.isFinite with
  | true =>
      refine iff_of_true ?_ rfl
      have zero : (w - w).abs = 0 := by
        rw [sub_same finite]
        decide +kernel
      have near : (0 : Float) ≤ s1DrawThreshold := by decide +kernel
      unfold s1Verdict
      rw [zero, if_pos near]
      split <;> rfl
  | false =>
      refine iff_of_false ?_ Bool.false_ne_true
      have nan := isNaN_sub_same finite
      have far (t : Float) : ¬ (w - w).abs ≤ t := not_le_of_isNaN (isNaN_abs nan)
      unfold s1Verdict
      rw [if_neg fun both => far _ both.2, if_neg (far _), split]
      nofun

theorem Vlm.Biased.s1Choice_iff (biased : vlm.Biased p q) :
    s1Choice vlm compensated promptUrl left right seed = some none ↔
      FiniteAverages vlm compensated promptUrl left right seed := by
  unfold s1Choice FiniteAverages
  cases ran : s1Run vlm promptUrl left right seed with
  | none => simp
  | some angles =>
      have equal := biased.consistent ran
      have split := s1Split_of_equal (consistentAngles_finite (s1Run_finite ran)) equal
      rw [Option.bind_some, s1Aggregate_eq, ← weighted_congr equal]
      simp only [Option.some.injEq, exists_eq_left']
      by_cases empty : consistentAngles angles = []
      · rw [empty]
        exact iff_of_true rfl (Or.inl rfl)
      · rw [if_neg fun isEmpty => empty (List.isEmpty_iff.mp isEmpty), or_iff_right empty]
        cases weighted compensated AngleResult.penA (consistentAngles angles) with
        | none => simp
        | some w =>
            simp only [Option.bind_some, Option.some.injEq, exists_eq_left']
            exact s1Verdict_of_same split w

/-! ## The bias -/

/-- No stage decides anything. -/
structure BiasCancels (vlm : Vlm) (compensated : Bool) (assets : Assets V) (promptUrl left right : String)
    (seed : Int) : Prop where
  promptMatch : s1Choice vlm compensated promptUrl left right seed = some none
  bestView : ∀ raw, s2bvRun vlm assets promptUrl left right seed = some raw →
    (s2PenaltyVote raw 1.0).1 = none ∧
      ∀ gap, s2StrongVoterChoice (s2PenaltyVote raw 1.0).2 gap = s2StrongVoterChoice none gap
  artifacts : ∀ raw, s2acRun vlm promptUrl left right seed = some raw →
    (s2PenaltyVote (some raw) 1.0).1 = none
  gray : ∀ choice, s3Run vlm assets promptUrl left right seed = some choice → choice = none

theorem Vlm.Biased.bestView_iff (biased : vlm.Biased p q) :
    (∀ raw, s2bvRun vlm assets promptUrl left right seed = some raw → (s2PenaltyVote raw 1.0).1 = none) ↔
      ∀ aUrl bUrl, bestViews assets left right = some (some (aUrl, bUrl)) →
        (s2bvCalls promptUrl aUrl bUrl seed).Level vlm p q 1.0 := by
  have positive : (0 : Float) < 1.0 := by decide +kernel
  unfold s2bvRun
  rcases bestViews assets left right with _ | (_ | ⟨aUrl, bUrl⟩)
  · exact iff_of_true nofun nofun
  · refine iff_of_true ?_ nofun
    rintro raw ⟨⟩
    rfl
  · constructor
    · rintro abstains _ _ ⟨⟩
      refine (biased.vote_iff _ positive).mp fun averages found => ?_
      exact abstains (some averages) (Option.map_eq_some_iff.mpr ⟨averages, found, rfl⟩)
    · intro level raw ran
      obtain ⟨averages, found, rfl⟩ := Option.map_eq_some_iff.mp ran
      exact (biased.vote_iff _ positive).mpr (level aUrl bUrl rfl) averages found

theorem Vlm.Biased.gray_iff (biased : vlm.Biased p q) :
    (∀ choice, s3Run vlm assets promptUrl left right seed = some choice → choice = none) ↔
      (s3Fires assets left right = true → (s3Calls promptUrl left right seed).Level vlm p q 2.0) := by
  unfold s3Run
  cases s3Fires assets left right with
  | false =>
      refine iff_of_true ?_ nofun
      rintro choice ⟨⟩
      rfl
  | true =>
      rw [if_pos rfl, biased.choice_iff]
      exact ⟨fun level _ => level, fun level => level rfl⟩

/-- The bias cancels exactly when the averages of Stage 1 are finite and every pair of the later stages
that is asked is level. -/
theorem bias_cancels_iff (biased : vlm.Biased p q) :
    BiasCancels vlm compensated assets promptUrl left right seed ↔
      FiniteAverages vlm compensated promptUrl left right seed ∧
      (∀ aUrl bUrl, bestViews assets left right = some (some (aUrl, bUrl)) →
        (s2bvCalls promptUrl aUrl bUrl seed).Level vlm p q 1.0) ∧
      (s2acCalls promptUrl left right seed).Level vlm p q 1.0 ∧
      (s3Fires assets left right = true → (s3Calls promptUrl left right seed).Level vlm p q 2.0) := by
  have positive : (0 : Float) < 1.0 := by decide +kernel
  constructor
  · intro cancels
    refine ⟨biased.s1Choice_iff.mp cancels.promptMatch, ?_, ?_, biased.gray_iff.mp cancels.gray⟩
    · exact biased.bestView_iff.mp fun raw ran => (cancels.bestView raw ran).1
    · exact (biased.vote_iff _ positive).mp cancels.artifacts
  · rintro ⟨finite, bestView, artifacts, gray⟩
    refine ⟨biased.s1Choice_iff.mpr finite, ?_, ?_, biased.gray_iff.mpr gray⟩
    · intro raw ran
      have abstains := biased.bestView_iff.mpr bestView raw ran
      refine ⟨abstains, fun gap => ?_⟩
      rcases raw with _ | averages
      · rfl
      · exact strong_of_vote_none abstains gap
    · exact (biased.vote_iff _ positive).mpr artifacts

/-! ## One lost call -/

/-- The second model always has the worst penalty; one call is never answered. -/
def lopsidedVlm : Vlm where
  penalties call := if call.label = "s2ac_ba" then none else some ⟨0, 10, ""⟩
  checklist _ := none
  verification _ := none
  sideGuard _ := some .ok

theorem lopsidedVlm_biased : lopsidedVlm.Biased 0 10 := by
  intro c reply replied
  change (if c.label = "s2ac_ba" then none else some ⟨0, 10, ""⟩) = some reply at replied
  split at replied
  · cases replied
  · obtain rfl := Option.some.inj replied
    exact ⟨rfl, rfl⟩

theorem bias_cancels_iff_lopsided :
    BiasCancels lopsidedVlm true noAssets "prompt" "left" "right" 0 ↔
      FiniteAverages lopsidedVlm true "prompt" "left" "right" 0 ∧
      (∀ aUrl bUrl, bestViews noAssets "left" "right" = some (some (aUrl, bUrl)) →
        (s2bvCalls "prompt" aUrl bUrl 0).Level lopsidedVlm 0 10 1.0) ∧
      (s2acCalls "prompt" "left" "right" 0).Level lopsidedVlm 0 10 1.0 ∧
      (s3Fires noAssets "left" "right" = true →
        (s3Calls "prompt" "left" "right" 0).Level lopsidedVlm 0 10 2.0) :=
  bias_cancels_iff lopsidedVlm_biased

/-- The artifacts are voted on. -/
theorem lopsided_not_cancelled : ¬ ∀ (vlm : Vlm) (compensated : Bool) (assets : Assets Unit)
    (promptUrl left right : String) (seed p q : Int), vlm.Biased p q →
    BiasCancels vlm compensated assets promptUrl left right seed := by
  intro claim
  have cancels := claim lopsidedVlm true noAssets "prompt" "left" "right" 0 0 10 lopsidedVlm_biased
  have votes : (s2acRun lopsidedVlm "prompt" "left" "right" 0).any fun averages =>
      (s2PenaltyVote (some averages) 1.0).1 = some .a := by
    decide +kernel
  obtain ⟨averages, ran, vote⟩ := (Option.any_eq_true _ _).mp votes
  rw [decide_eq_true_eq, cancels.artifacts averages ran] at vote
  cases vote

end GenSubnet.Judge
