import GenSubnet.Judge.SideGuard

/-!
# Exchanging the models

For a vision model whose replies depend on the pictures and the prompt, a duel with the models
exchanged has the mirrored winner: every stage commutes with the exchange. The exception is a Stage 1
whose averages overflow to the same infinity, the difference of which has no sign.
-/

namespace GenSubnet.Judge
open Library Library.Binary64

/-- The replies depend only on the pictures shown in each position and on the prompt. -/
def Vlm.Positional (vlm : Vlm) : Prop :=
  ∀ c c' : Call, c.prompt = c'.prompt → c.images = c'.images → c.attempt = c'.attempt →
    vlm.penalties c = vlm.penalties c' ∧ vlm.checklist c = vlm.checklist c' ∧
      vlm.verification c = vlm.verification c' ∧ vlm.sideGuard c = vlm.sideGuard c'

def DuelWinner.mirror : DuelWinner → DuelWinner
  | .left => .right
  | .right => .left
  | .draw => .draw

theorem choiceToWinner_other (choice : Option Side) :
    choiceToWinner (choice.map Side.other) = (choiceToWinner choice).mirror := by
  rcases choice with _ | (_ | _) <;> rfl

variable {vlm : Vlm} {compensated : Bool} {V : Type} {assets : Assets V} {promptUrl left right : String}
  {seed : Int}

/-! ## Calls -/

theorem safeChatJson_congr {α : Type} {ask : Call → Option α} {c c' : Call} (n : Nat)
    (same : ∀ attempt, ask { c with attempt } = ask { c' with attempt }) :
    safeChatJson ask c n = safeChatJson ask c' n := by
  unfold safeChatJson
  congr 1
  funext attempt
  exact same attempt

theorem Vlm.Positional.askPenalty (positional : vlm.Positional) {c c' : Call}
    (prompt : c.prompt = c'.prompt) (images : c.images = c'.images) :
    askPenalty vlm c = askPenalty vlm c' := by
  unfold Judge.askPenalty
  have same : safeChatJson vlm.penalties c 5 = safeChatJson vlm.penalties c' 5 :=
    safeChatJson_congr 5 fun attempt =>
      (positional { c with attempt } { c' with attempt } prompt images rfl).1
  rw [same]

theorem Vlm.Positional.verification (positional : vlm.Positional) {c c' : Call}
    (prompt : c.prompt = c'.prompt) (images : c.images = c'.images) :
    safeChatJson vlm.verification c 5 = safeChatJson vlm.verification c' 5 :=
  safeChatJson_congr 5 fun attempt =>
    (positional { c with attempt } { c' with attempt } prompt images rfl).2.2.1

theorem Vlm.Positional.sideGuard (positional : vlm.Positional) {c c' : Call}
    (prompt : c.prompt = c'.prompt) (images : c.images = c'.images) :
    safeChatJson vlm.sideGuard c 4 = safeChatJson vlm.sideGuard c' 4 :=
  safeChatJson_congr 4 fun attempt =>
    (positional { c with attempt } { c' with attempt } prompt images rfl).2.2.2

/-! ## Pairs -/

def Pair.swap (pair : Pair) : Pair := ⟨pair.ba, pair.ab⟩

theorem Pair.eq_of {pair pair' : Pair} (ab : pair.ab = pair'.ab) (ba : pair.ba = pair'.ba) :
    pair = pair' := by
  cases pair
  cases pair'
  cases ab
  cases ba
  rfl

variable {pair : Pair}

theorem Pair.penaltyA_swap : pair.swap.penaltyA = pair.penaltyB := by
  rw [Pair.penaltyA, Pair.penaltyB, Int.add_comm]
  rfl

theorem Pair.penaltyB_swap : pair.swap.penaltyB = pair.penaltyA := by
  rw [Pair.penaltyA, Pair.penaltyB, Int.add_comm]
  rfl

theorem Pair.contradictory_swap : pair.swap.contradictory = pair.contradictory := by
  unfold Pair.contradictory Pair.diffAb Pair.diffBa Pair.swap
  rw [Bool.eq_iff_iff]
  simp only [Bool.or_eq_true, Bool.and_eq_true, decide_eq_true_eq]
  omega

theorem Pair.jsonFailed_swap : pair.swap.jsonFailed = pair.jsonFailed := Bool.or_comm _ _

theorem isFinite_of_trueDiv {m n : Int} {x : Float} (divided : trueDiv m n = some x) :
    x.isFinite = true := by
  unfold trueDiv at divided
  split at divided
  · cases divided
  · simp only at divided
    split at divided
    · obtain rfl := Option.some.inj divided
      assumption
    · cases divided

/-! ## Differences -/

theorem Side.ofDiff_swap {x y : Float} (sign : x - y < 0 ∨ 0 < x - y) :
    Side.ofDiff (y - x) = (Side.ofDiff (x - y)).other := by
  unfold Side.ofDiff
  rcases sign with below | above
  · rw [if_pos below, if_neg]
    · rfl
    · rw [sub_lt_zero_iff]
      exact lt_asymm below
  · rw [if_neg (lt_asymm above), if_pos ((sub_lt_zero_iff x y).mpr above)]
    rfl

theorem Side.ofGap_neg {gap : Int} (sign : gap ≠ 0) : Side.ofGap (-gap) = (Side.ofGap gap).other := by
  unfold Side.ofGap
  rcases Int.lt_or_gt_of_ne sign with below | above
  · rw [if_pos (by omega), if_neg (by omega)]
    rfl
  · rw [if_neg (by omega), if_pos (by omega)]
    rfl

/-! ## Stage 1 -/

def AngleResult.swap (angle : AngleResult) : AngleResult :=
  { angle with penA := angle.penB, penB := angle.penA }

structure AngleResult.Finite (angle : AngleResult) : Prop where
  penA : angle.penA.isFinite = true
  penB : angle.penB.isFinite = true

theorem s1Angle_swap (weight : Float) :
    s1Angle weight pair.swap = (s1Angle weight pair).map AngleResult.swap := by
  unfold s1Angle
  rw [Pair.penaltyA_swap, Pair.penaltyB_swap, Pair.contradictory_swap, Pair.jsonFailed_swap]
  cases pair.penaltyA <;> cases pair.penaltyB <;> rfl

theorem s1Angle_finite {weight : Float} {angle : AngleResult} (found : s1Angle weight pair = some angle) :
    angle.Finite := by
  obtain ⟨penA, averageA, found⟩ := Option.bind_eq_some_iff.mp found
  obtain ⟨penB, averageB, found⟩ := Option.bind_eq_some_iff.mp found
  obtain rfl := Option.some.inj found
  exact ⟨isFinite_of_trueDiv averageA, isFinite_of_trueDiv averageB⟩

theorem s1Pair_swap (positional : vlm.Positional) (angle : Angle) :
    (s1Calls promptUrl right left seed angle).ask vlm =
      ((s1Calls promptUrl left right seed angle).ask vlm).swap :=
  Pair.eq_of (positional.askPenalty rfl rfl) (positional.askPenalty rfl rfl)

theorem mapM_map {α β γ : Type} {f : α → Option β} {g : α → Option γ} {h : β → γ}
    (agree : ∀ x, g x = (f x).map h) (l : List α) : l.mapM g = (l.mapM f).map (List.map h) := by
  induction l with
  | nil => rfl
  | cons x rest ih =>
      rw [List.mapM_cons, List.mapM_cons, agree, ih]
      cases f x with
      | none => rfl
      | some y => cases rest.mapM f <;> rfl

theorem s1Run_swap (positional : vlm.Positional) :
    s1Run vlm promptUrl right left seed =
      (s1Run vlm promptUrl left right seed).map (List.map AngleResult.swap) := by
  refine mapM_map (fun angle => ?_) s1Angles
  rw [s1Pair_swap positional]
  exact s1Angle_swap _

theorem mem_of_mapM {α β : Type} {f : α → Option β} {l : List α} {l' : List β}
    (mapped : l.mapM f = some l') : ∀ y ∈ l', ∃ x ∈ l, f x = some y := by
  induction l generalizing l' with
  | nil =>
      obtain rfl := Option.some.inj mapped
      rintro y ⟨⟩
  | cons x rest ih =>
      rw [List.mapM_cons] at mapped
      obtain ⟨y, found, mapped⟩ := Option.bind_eq_some_iff.mp mapped
      obtain ⟨ys, others, mapped⟩ := Option.bind_eq_some_iff.mp mapped
      obtain rfl := Option.some.inj mapped
      intro z member
      rcases List.mem_cons.mp member with rfl | member
      · exact ⟨x, List.mem_cons_self, found⟩
      · obtain ⟨x', here, found⟩ := ih others z member
        exact ⟨x', List.mem_cons_of_mem _ here, found⟩

theorem s1Run_finite {angles : List AngleResult} (ran : s1Run vlm promptUrl left right seed = some angles) :
    ∀ angle ∈ angles, angle.Finite := by
  intro angle member
  obtain ⟨_, -, found⟩ := mem_of_mapM ran angle member
  exact s1Angle_finite found

variable {angles : List AngleResult}

theorem weighted_penA_swap : weighted compensated AngleResult.penA (angles.map AngleResult.swap) =
    weighted compensated AngleResult.penB angles := by
  unfold weighted
  rw [List.map_map, List.map_map]
  rfl

theorem weighted_penB_swap : weighted compensated AngleResult.penB (angles.map AngleResult.swap) =
    weighted compensated AngleResult.penA angles := by
  unfold weighted
  rw [List.map_map, List.map_map]
  rfl

def exchange (sums : Float × Float × Nat) : Float × Float × Nat := (sums.2.1, sums.1, sums.2.2)

theorem s1Sign_swap {angle : AngleResult} (finite : angle.Finite) (sums : Float × Float × Nat) :
    s1Sign (exchange sums) angle.swap = exchange (s1Sign sums angle) := by
  unfold s1Sign
  by_cases equal : (angle.penA == angle.penB) = true
  · have equal' : (angle.swap.penA == angle.swap.penB) = true := (beq_swap _ _).trans equal
    rw [if_pos equal, if_pos equal']
  · have differs : (angle.penA == angle.penB) = false := Bool.eq_false_of_not_eq_true equal
    have differs' : (angle.swap.penA == angle.swap.penB) = false := (beq_swap _ _).trans differs
    rw [if_neg (ne_true_of_eq_false differs), if_neg (ne_true_of_eq_false differs')]
    by_cases greater : angle.penB < angle.penA
    · have less : ¬ angle.swap.penB < angle.swap.penA := lt_asymm greater
      rw [if_pos greater, if_neg less]
      rfl
    · have less : angle.swap.penB < angle.swap.penA :=
        lt_of_not_lt (isNaN_of_isFinite finite.penA) (isNaN_of_isFinite finite.penB) differs greater
      rw [if_neg greater, if_pos less]
      rfl

theorem s1Signs_swap (finite : ∀ angle ∈ angles, angle.Finite) :
    s1Signs (angles.map AngleResult.swap) = exchange (s1Signs angles) := by
  suffices ∀ sums, (angles.map AngleResult.swap).foldl s1Sign (exchange sums) =
      exchange (angles.foldl s1Sign sums) from this (0, 0, 0)
  induction angles with
  | nil => exact fun _ => rfl
  | cons angle rest ih =>
      intro sums
      rw [List.map_cons, List.foldl_cons, List.foldl_cons, s1Sign_swap (finite angle List.mem_cons_self)]
      exact ih (fun angle member => finite angle (List.mem_cons_of_mem _ member)) _

theorem s1Split_swap (finite : ∀ angle ∈ angles, angle.Finite) :
    s1Split (angles.map AngleResult.swap) = s1Split angles := by
  have total : (exchange (s1Signs angles)).1 + (exchange (s1Signs angles)).2.1 =
      (s1Signs angles).1 + (s1Signs angles).2.1 := add_swap _ _
  have gap : ((exchange (s1Signs angles)).1 - (exchange (s1Signs angles)).2.1).abs =
      ((s1Signs angles).1 - (s1Signs angles).2.1).abs := abs_sub_swap _ _
  have consistency : s1DirectionConsistency (angles.map AngleResult.swap) =
      s1DirectionConsistency angles := by
    unfold s1DirectionConsistency
    rw [s1Signs_swap finite]
    simp only [total, gap]
    rfl
  unfold s1Split
  rw [consistency]

def consistentAngles (angles : List AngleResult) : List AngleResult :=
  angles.filter fun angle => !angle.contradictory

theorem consistentAngles_swap :
    consistentAngles (angles.map AngleResult.swap) = (consistentAngles angles).map AngleResult.swap := by
  unfold consistentAngles
  rw [List.filter_map]
  rfl

theorem consistentAngles_finite (finite : ∀ angle ∈ angles, angle.Finite) :
    ∀ angle ∈ consistentAngles angles, angle.Finite :=
  fun angle member => finite angle (List.mem_filter.mp member).1

/-- The averages of Stage 1 have no difference, and the angles do not go both ways. -/
def Undefined (compensated : Bool) (angles : List AngleResult) : Prop :=
  ∃ wpA wpB, weighted compensated AngleResult.penA (consistentAngles angles) = some wpA ∧
    weighted compensated AngleResult.penB (consistentAngles angles) = some wpB ∧
    (wpA - wpB).isNaN = true ∧ s1Split (consistentAngles angles) = some false

theorem Undefined.swap (finite : ∀ angle ∈ angles, angle.Finite) (undefined : Undefined compensated angles) :
    Undefined compensated (angles.map AngleResult.swap) := by
  obtain ⟨wpA, wpB, averageA, averageB, nan, split⟩ := undefined
  refine ⟨wpB, wpA, ?_, ?_, ?_, ?_⟩
  · rw [consistentAngles_swap, weighted_penA_swap]
    exact averageB
  · rw [consistentAngles_swap, weighted_penB_swap]
    exact averageA
  · rw [isNaN_sub_swap]
    exact nan
  · rw [consistentAngles_swap, s1Split_swap (consistentAngles_finite finite)]
    exact split

/-- What the averages of the angles that count decide. -/
def s1Verdict (angles : List AngleResult) (wpA wpB : Float) : Option (Option Side) :=
  if (8.0 : Float) ≤ (wpA + wpB) / 2.0 ∧ (wpA - wpB).abs ≤ s1BothBadMaxDiff then some none
  else if (wpA - wpB).abs ≤ s1DrawThreshold then some none
  else (s1Split angles).map fun split => if split = true then none else some (Side.ofDiff (wpA - wpB))

theorem s1Aggregate_eq : s1Aggregate compensated angles =
    if (consistentAngles angles).isEmpty then some none
    else (weighted compensated AngleResult.penA (consistentAngles angles)).bind fun wpA =>
      (weighted compensated AngleResult.penB (consistentAngles angles)).bind fun wpB =>
        s1Verdict (consistentAngles angles) wpA wpB := by
  unfold s1Aggregate
  change (if (consistentAngles angles).isEmpty then _ else _) = _
  split
  · rfl
  · change (weighted compensated AngleResult.penA (consistentAngles angles) >>= _) = _
    cases weighted compensated AngleResult.penA (consistentAngles angles) with
    | none => rfl
    | some wpA =>
        change (weighted compensated AngleResult.penB (consistentAngles angles) >>= _) = _
        cases weighted compensated AngleResult.penB (consistentAngles angles) with
        | none => rfl
        | some wpB =>
            change (if _ then _ else _) = (if _ then _ else _)
            split
            · rfl
            · split
              · rfl
              · change (s1Split (consistentAngles angles) >>= _) = _
                cases s1Split (consistentAngles angles) with
                | none => rfl
                | some split => cases split <;> rfl

theorem weighted_nil (penalty : AngleResult → Float) : weighted compensated penalty [] = none := by
  cases compensated <;> rfl

theorem s1Aggregate_of_undefined (undefined : Undefined compensated angles) :
    s1Aggregate compensated angles = some (some .b) := by
  obtain ⟨wpA, wpB, averageA, averageB, nan, split⟩ := undefined
  have some_angle : ¬ (consistentAngles angles).isEmpty = true := by
    intro empty
    rw [List.isEmpty_iff.mp empty, weighted_nil] at averageA
    cases averageA
  have far : ∀ t : Float, ¬ (wpA - wpB).abs ≤ t := fun t => not_le_of_isNaN (isNaN_abs nan)
  have side : Side.ofDiff (wpA - wpB) = .b := if_neg (not_lt_of_isNaN nan)
  rw [s1Aggregate_eq, if_neg some_angle, averageA, averageB, Option.bind_some, Option.bind_some, s1Verdict,
    if_neg (fun both => far _ both.2), if_neg (far _), split, Option.map_some, side]
  rfl

theorem s1Verdict_swap (finite : ∀ angle ∈ angles, angle.Finite) {wpA wpB : Float}
    (defined : s1Split angles = some false → (wpA - wpB).isNaN = false) :
    s1Verdict (angles.map AngleResult.swap) wpB wpA =
      (s1Verdict angles wpA wpB).map (Option.map Side.other) := by
  have both : wpB + wpA = wpA + wpB := add_swap _ _
  have gap : (wpB - wpA).abs = (wpA - wpB).abs := abs_sub_swap _ _
  unfold s1Verdict
  rw [both, gap, s1Split_swap finite]
  clear both
  split
  · rfl
  · split
    · rfl
    · rename_i far
      generalize s1Split angles = both at defined
      rcases both with _ | (_ | _)
      · rfl
      · have sign := lt_or_lt_of_not_abs_le (defined rfl) (by decide +kernel) far
        simp only [Option.map_some, Bool.false_eq_true, if_false]
        rw [Side.ofDiff_swap sign]
      · rfl

theorem s1Aggregate_swap (finite : ∀ angle ∈ angles, angle.Finite)
    (defined : ¬ Undefined compensated angles) :
    s1Aggregate compensated (angles.map AngleResult.swap) =
      (s1Aggregate compensated angles).map (Option.map Side.other) := by
  rw [s1Aggregate_eq, s1Aggregate_eq, consistentAngles_swap, weighted_penA_swap, weighted_penB_swap,
    List.isEmpty_map]
  split
  · rfl
  · cases averageA : weighted compensated AngleResult.penA (consistentAngles angles) with
    | none => cases weighted compensated AngleResult.penB (consistentAngles angles) <;> rfl
    | some wpA =>
        cases averageB : weighted compensated AngleResult.penB (consistentAngles angles) with
        | none => rfl
        | some wpB =>
            refine s1Verdict_swap (consistentAngles_finite finite) fun split => ?_
            refine Bool.eq_false_of_not_eq_true fun nan => defined ?_
            exact ⟨wpA, wpB, averageA, averageB, nan, split⟩

/-! ## Stage 2 -/

def PenaltyPair.swap (pair : PenaltyPair) : PenaltyPair := ⟨pair.penaltyB, pair.penaltyA⟩

theorem Pair.average_swap : pair.swap.average = pair.average.map PenaltyPair.swap := by
  unfold Pair.average
  rw [Pair.penaltyA_swap, Pair.penaltyB_swap]
  cases pair.penaltyA <;> cases pair.penaltyB <;> rfl

theorem Pair.average_number {averages : PenaltyPair} (found : pair.average = some averages) :
    (averages.penaltyA - averages.penaltyB).isNaN = false := by
  obtain ⟨penaltyA, averageA, found⟩ := Option.bind_eq_some_iff.mp found
  obtain ⟨penaltyB, averageB, found⟩ := Option.bind_eq_some_iff.mp found
  obtain rfl := Option.some.inj found
  exact isNaN_sub_of_isFinite (isFinite_of_trueDiv averageA) (isFinite_of_trueDiv averageB)

theorem s2bvPair_swap (positional : vlm.Positional) {aUrl bUrl : String} :
    (s2bvCalls promptUrl bUrl aUrl seed).ask vlm =
      ((s2bvCalls promptUrl aUrl bUrl seed).ask vlm).swap :=
  Pair.eq_of (positional.askPenalty rfl rfl) (positional.askPenalty rfl rfl)

theorem s2acPair_swap (positional : vlm.Positional) :
    (s2acCalls promptUrl right left seed).ask vlm =
      ((s2acCalls promptUrl left right seed).ask vlm).swap :=
  Pair.eq_of (positional.askPenalty rfl rfl) (positional.askPenalty rfl rfl)

theorem s2acRun_swap (positional : vlm.Positional) :
    s2acRun vlm promptUrl right left seed =
      (s2acRun vlm promptUrl left right seed).map PenaltyPair.swap := by
  unfold s2acRun
  rw [s2acPair_swap positional]
  exact Pair.average_swap

theorem bestViews_swap : bestViews assets right left =
    (bestViews assets left right).map (Option.map Prod.swap) := by
  unfold bestViews
  cases assets.embeddings left with
  | none => cases assets.embeddings right <;> rfl
  | some leftEmbeds =>
      cases assets.embeddings right with
      | none => rfl
      | some rightEmbeds =>
          change (pickBestView assets rightEmbeds >>= _) = Option.map _ (pickBestView assets leftEmbeds >>= _)
          rcases pickBestView assets leftEmbeds with _ | (_ | nameA)
          · cases pickBestView assets rightEmbeds <;> rfl
          · rcases pickBestView assets rightEmbeds with _ | (_ | nameB) <;> rfl
          · rcases pickBestView assets rightEmbeds with _ | (_ | nameB) <;> rfl

theorem s2bvRun_swap (positional : vlm.Positional) :
    s2bvRun vlm assets promptUrl right left seed =
      (s2bvRun vlm assets promptUrl left right seed).map (Option.map PenaltyPair.swap) := by
  unfold s2bvRun
  rw [bestViews_swap]
  rcases bestViews assets left right with _ | (_ | ⟨aUrl, bUrl⟩)
  · rfl
  · rfl
  · change Option.map some ((s2bvCalls promptUrl bUrl aUrl seed).ask vlm).average =
      Option.map _ (Option.map some ((s2bvCalls promptUrl aUrl bUrl seed).ask vlm).average)
    rw [s2bvPair_swap positional, Pair.average_swap]
    cases ((s2bvCalls promptUrl aUrl bUrl seed).ask vlm).average <;> rfl

theorem s2bvRun_number {averages : PenaltyPair}
    (ran : s2bvRun vlm assets promptUrl left right seed = some (some averages)) :
    (averages.penaltyA - averages.penaltyB).isNaN = false := by
  obtain ⟨views, -, ran⟩ := Option.bind_eq_some_iff.mp ran
  rcases views with _ | ⟨aUrl, bUrl⟩
  · cases ran
  · obtain ⟨found, average, same⟩ := Option.map_eq_some_iff.mp ran
    obtain rfl := Option.some.inj same
    exact Pair.average_number average

theorem s2PenaltyVote_swap {raw : Option PenaltyPair} {minGap : Float} (level : 0 < minGap)
    (number : ∀ averages, raw = some averages → (averages.penaltyA - averages.penaltyB).isNaN = false) :
    (s2PenaltyVote (raw.map PenaltyPair.swap) minGap).1 =
      (s2PenaltyVote raw minGap).1.map Side.other := by
  rcases raw with _ | averages
  · rfl
  · have gap : (averages.penaltyB - averages.penaltyA).abs = (averages.penaltyA - averages.penaltyB).abs :=
      abs_sub_swap _ _
    simp only [Option.map_some, s2PenaltyVote, PenaltyPair.swap]
    rw [gap]
    split
    · rfl
    · rename_i far
      rw [Side.ofDiff_swap (lt_or_lt_of_not_abs_lt (number _ rfl) level far)]
      rfl

theorem s2clVerify_seed (positional : vlm.Positional) {url : String} {checklist : PromptChecklist}
    (seed seed' : Int) :
    s2clVerify vlm promptUrl url checklist seed = s2clVerify vlm promptUrl url checklist seed' :=
  positional.verification rfl rfl

theorem s2clRun_swap (positional : vlm.Positional) :
    s2clRun vlm promptUrl right left seed = - s2clRun vlm promptUrl left right seed := by
  unfold s2clRun
  cases s2clDecompose vlm promptUrl seed with
  | none => rfl
  | some checklist =>
      simp only
      have same (url : String) : s2clVerify vlm promptUrl url checklist (seed + 100) =
          s2clVerify vlm promptUrl url checklist (seed + 200) := s2clVerify_seed positional _ _
      rw [same, same]
      cases s2clVerify vlm promptUrl (gridUrl left) checklist (seed + 200) with
      | none => cases s2clVerify vlm promptUrl (gridUrl right) checklist (seed + 200) <;> rfl
      | some verifyA =>
          cases s2clVerify vlm promptUrl (gridUrl right) checklist (seed + 200) with
          | none => rfl
          | some verifyB => exact (Int.neg_sub _ _).symm

theorem s2ChecklistVote_swap (gap : Int) {minGap : Nat} (level : 0 < minGap) :
    (s2ChecklistVote (-gap) minGap).1 = (s2ChecklistVote gap minGap).1.map Side.other := by
  unfold s2ChecklistVote
  rw [Int.natAbs_neg]
  split
  · rfl
  · rename_i far
    rw [Side.ofGap_neg (by omega)]
    rfl

theorem strong_penalty_swap {raw : Option PenaltyPair} {minGap : Float}
    (number : ∀ averages, raw = some averages → (averages.penaltyA - averages.penaltyB).isNaN = false) :
    ((s2PenaltyVote (raw.map PenaltyPair.swap) minGap).2.filter fun diff => (2.0 : Float) ≤ diff.abs).map
        Side.ofDiff =
      ((((s2PenaltyVote raw minGap).2.filter fun diff => (2.0 : Float) ≤ diff.abs).map
        Side.ofDiff).map Side.other) := by
  rcases raw with _ | averages
  · rfl
  · have gap : (averages.penaltyB - averages.penaltyA).abs = (averages.penaltyA - averages.penaltyB).abs :=
      abs_sub_swap _ _
    have difference (pair : PenaltyPair) :
        (s2PenaltyVote (some pair) minGap).2 = some (pair.penaltyA - pair.penaltyB) := by
      unfold s2PenaltyVote
      simp only
      split <;> rfl
    rw [Option.map_some, difference, difference]
    simp only [PenaltyPair.swap, Option.filter_some, gap]
    split
    · rename_i far
      rw [decide_eq_true_eq] at far
      have sign : averages.penaltyA - averages.penaltyB < 0 ∨ 0 < averages.penaltyA - averages.penaltyB := by
        refine lt_or_lt_of_not_abs_lt (t := 1) (number _ rfl) (by decide +kernel) fun less => ?_
        exact not_two_le_of_lt_one less far
      rw [Option.map_some, Option.map_some, Option.map_some, Side.ofDiff_swap sign]
    · rfl

theorem strong_gap_swap (gap : Int) :
    ((some (-gap)).filter fun gap => 6 ≤ gap.natAbs).map Side.ofGap =
      (((some gap).filter fun gap => 6 ≤ gap.natAbs).map Side.ofGap).map Side.other := by
  simp only [Option.filter_some, Int.natAbs_neg]
  split
  · rename_i far
    rw [decide_eq_true_eq] at far
    rw [Option.map_some, Option.map_some, Option.map_some, Side.ofGap_neg (by omega)]
  · rfl

theorem strong_other (first second : Option Side) :
    (match (first.map Side.other).toList ++ (second.map Side.other).toList with
      | [] => none
      | side :: rest => if rest.all (· = side) then some side else none) =
    (match first.toList ++ second.toList with
      | [] => none
      | side :: rest => if rest.all (· = side) then some side else none).map Side.other := by
  rcases first with _ | (_ | _) <;> rcases second with _ | (_ | _) <;> rfl

theorem s2Consensus_swap (bv ac cl : Option Side) :
    s2Consensus [bv.map Side.other, ac.map Side.other, cl.map Side.other] 2 =
      (s2Consensus [bv, ac, cl] 2).map Side.other := by
  rcases bv with _ | (_ | _) <;> rcases ac with _ | (_ | _) <;> rcases cl with _ | (_ | _) <;> rfl

/-! ## Stage 3 -/

def Samples.plus (s t : Samples) : Samples :=
  ⟨s.foreground + t.foreground, s.pale + t.pale, s.grayish + t.grayish⟩

theorem Samples.plus_comm (s t : Samples) : s.plus t = t.plus s := by
  simp [Samples.plus, Nat.add_comm]

/-- What is counted does not depend on what was counted before. -/
def Counts {α : Type} (f : Samples → α → Option Samples) : Prop :=
  ∀ (s t : Samples) (x : α), f (s.plus t) x = (f t x).map s.plus

theorem Counts.foldlM {α : Type} {f : Samples → α → Option Samples} (counts : Counts f)
    (s t : Samples) (l : List α) : l.foldlM f (s.plus t) = (l.foldlM f t).map s.plus := by
  induction l generalizing t with
  | nil => rfl
  | cons x rest ih =>
      rw [List.foldlM_cons, List.foldlM_cons, counts]
      cases f t x with
      | none => rfl
      | some u => exact ih u

theorem Samples.plus_add (s t : Samples) (red green blue : Nat) :
    (s.plus t).add red green blue = (t.add red green blue).map s.plus := by
  unfold Samples.add
  simp only
  split
  · rfl
  · cases saturation (max (max red green) blue) (min (min red green) blue) with
    | none => rfl
    | some sat =>
        refine congrArg some ?_
        simp only [Samples.plus, Nat.add_assoc]

theorem counts_addRow (bytesPerPixel : Nat) (row : List Nat) :
    Counts (Samples.addRow bytesPerPixel row) := by
  intro s t x
  unfold Samples.addRow
  cases row[x * bytesPerPixel]? with
  | none => rfl
  | some red =>
      cases row[x * bytesPerPixel + 1]? with
      | none => rfl
      | some green =>
          cases row[x * bytesPerPixel + 2]? with
          | none => rfl
          | some blue => exact Samples.plus_add s t red green blue

theorem counts_addPng : Counts Samples.addPng := by
  intro s t png
  refine Counts.foldlM ?_ s t (sampled png.height)
  intro s t y
  simp only
  cases png.rows[y]? with
  | none => rfl
  | some row => exact (counts_addRow png.bytesPerPixel row).foldlM s t (sampled png.width)

theorem Samples.plus_none (s : Samples) : s.plus {} = s := rfl

theorem foregroundStats_swap (pngA pngB : Png) :
    foregroundStats [pngB, pngA] = foregroundStats [pngA, pngB] := by
  have exchanged : [pngB, pngA].foldlM Samples.addPng {} = [pngA, pngB].foldlM Samples.addPng {} := by
    have both (p q : Png) : [p, q].foldlM Samples.addPng {} =
        (Samples.addPng {} p).bind fun s => (Samples.addPng {} q).map s.plus := by
      rw [List.foldlM_cons]
      cases Samples.addPng {} p with
      | none => rfl
      | some s =>
          rw [Option.bind_some, ← counts_addPng s {} q, Samples.plus_none]
          change (Samples.addPng s q >>= _) = _
          cases Samples.addPng s q <;> rfl
    rw [both, both]
    cases Samples.addPng {} pngA with
    | none => cases Samples.addPng {} pngB <;> rfl
    | some s =>
        cases Samples.addPng {} pngB with
        | none => rfl
        | some t => exact congrArg some (Samples.plus_comm t s)
  unfold foregroundStats
  rw [exchanged]

theorem s3Fires_swap : s3Fires assets right left = s3Fires assets left right := by
  unfold s3Fires
  rcases assets.gray (grayUrl left "front_left") with _ | (_ | pngA)
  · rcases assets.gray (grayUrl right "front_left") with _ | (_ | pngB) <;> rfl
  · rcases assets.gray (grayUrl right "front_left") with _ | (_ | pngB) <;> rfl
  · rcases assets.gray (grayUrl right "front_left") with _ | (_ | pngB)
    · rfl
    · rfl
    · simp only
      rw [foregroundStats_swap]

theorem s3Pair_swap (positional : vlm.Positional) :
    (s3Calls promptUrl right left seed).ask vlm = ((s3Calls promptUrl left right seed).ask vlm).swap :=
  Pair.eq_of (positional.askPenalty rfl rfl) (positional.askPenalty rfl rfl)

theorem s3Choice_swap : s3Choice pair.swap = (s3Choice pair).map (Option.map Side.other) := by
  unfold s3Choice
  rw [Pair.penaltyA_swap, Pair.penaltyB_swap, Pair.contradictory_swap, Pair.jsonFailed_swap]
  cases averageA : pair.penaltyA with
  | none => cases pair.penaltyB <;> rfl
  | some penA =>
      cases averageB : pair.penaltyB with
      | none => rfl
      | some penB =>
          have gap : (penB - penA).abs = (penA - penB).abs := abs_sub_swap _ _
          change (if _ then _ else _) = Option.map _ (if _ then _ else _)
          rw [gap]
          split
          · rfl
          · split
            · rfl
            · split
              · rfl
              · rename_i far
                have number := isNaN_sub_of_isFinite (isFinite_of_trueDiv averageA)
                  (isFinite_of_trueDiv averageB)
                rw [Side.ofDiff_swap (lt_or_lt_of_not_abs_lt number (by decide +kernel) far)]
                rfl

theorem s3Run_swap (positional : vlm.Positional) :
    s3Run vlm assets promptUrl right left seed =
      (s3Run vlm assets promptUrl left right seed).map (Option.map Side.other) := by
  unfold s3Run
  rw [s3Fires_swap, s3Pair_swap positional]
  split
  · exact s3Choice_swap
  · rfl

/-! ## Stage 4 -/

theorem s4AskPerAngle_seed (positional : vlm.Positional) (frontUrl angleUrl desc : String)
    (seed seed' : Int) :
    s4AskPerAngle vlm frontUrl angleUrl desc seed = s4AskPerAngle vlm frontUrl angleUrl desc seed' := by
  have same : safeChatJson vlm.sideGuard
      { label := "s4_per_angle", prompt := .perAngle desc, images := [frontUrl, angleUrl], seed } 4 =
      safeChatJson vlm.sideGuard
        { label := "s4_per_angle", prompt := .perAngle desc, images := [frontUrl, angleUrl]
          seed := seed' } 4 := positional.sideGuard rfl rfl
  unfold s4AskPerAngle
  rw [same]

theorem s4Angles_seed (positional : vlm.Positional) (views : String) (seed seed' : Int) :
    s4Angles vlm views seed = s4Angles vlm views seed' :=
  List.map_congr_left fun _ _ => s4AskPerAngle_seed positional _ _ _ _ _

theorem s4StepDown_swap (primary : Option Side) (sideA sideB : SideVerdict) :
    s4StepDown (primary.map Side.other) sideB sideA = (s4StepDown primary sideA sideB).map Side.other := by
  rcases primary with _ | (_ | _) <;> cases sideA <;> cases sideB <;> rfl

theorem s4Run_swap (positional : vlm.Positional) (primary : Option Side) :
    s4Run vlm right left (primary.map Side.other) seed = (s4Run vlm left right primary seed).map Side.other := by
  unfold s4Run
  rw [s4Angles_seed positional right (seed + 5000) (seed + 6000),
    s4Angles_seed positional left (seed + 6000) (seed + 5000)]
  exact s4StepDown_swap _ _ _

/-! ## The duel -/

theorem s2StrongVoterChoice_swap {raw : Option PenaltyPair} {minGap : Float}
    (number : ∀ averages, raw = some averages → (averages.penaltyA - averages.penaltyB).isNaN = false)
    (gap : Int) :
    s2StrongVoterChoice (s2PenaltyVote (raw.map PenaltyPair.swap) minGap).2 (some (-gap)) =
      (s2StrongVoterChoice (s2PenaltyVote raw minGap).2 (some gap)).map Side.other := by
  unfold s2StrongVoterChoice
  rw [strong_penalty_swap number, strong_gap_swap]
  exact strong_other _ _

theorem s2ChecklistVote_gap (gap : Int) (minGap : Nat) : (s2ChecklistVote gap minGap).2 = gap := by
  unfold s2ChecklistVote
  split <;> rfl

theorem primaryChoice_eq : primaryChoice vlm assets promptUrl left right seed =
    (s2bvRun vlm assets promptUrl left right seed).bind fun bv =>
      (s2acRun vlm promptUrl left right seed).bind fun ac =>
        let gap := s2clRun vlm promptUrl left right seed
        match s2StrongVoterChoice (s2PenaltyVote bv 1.0).2 (some gap) with
        | some side => some (some side)
        | none =>
            match s2Consensus [(s2PenaltyVote bv 1.0).1, (s2PenaltyVote (some ac) 1.0).1,
                (s2ChecklistVote gap 2).1] 2 with
            | some side => some (some side)
            | none => s3Run vlm assets promptUrl left right seed := by
  unfold primaryChoice
  cases s2bvRun vlm assets promptUrl left right seed with
  | none => rfl
  | some bv =>
      cases s2acRun vlm promptUrl left right seed with
      | none => rfl
      | some ac =>
          change (match s2StrongVoterChoice (s2PenaltyVote bv 1.0).2
              (some (s2ChecklistVote (s2clRun vlm promptUrl left right seed) 2).2) with
            | some side => some (some side)
            | none => _) = _
          rw [s2ChecklistVote_gap]
          rfl

theorem primaryChoice_swap (positional : vlm.Positional) :
    primaryChoice vlm assets promptUrl right left seed =
      (primaryChoice vlm assets promptUrl left right seed).map (Option.map Side.other) := by
  have level : (0 : Float) < 1.0 := by decide +kernel
  rw [primaryChoice_eq, primaryChoice_eq, s2bvRun_swap positional, s2acRun_swap positional,
    s2clRun_swap positional]
  cases bvRan : s2bvRun vlm assets promptUrl left right seed with
  | none => rfl
  | some bv =>
      cases acRan : s2acRun vlm promptUrl left right seed with
      | none => rfl
      | some ac =>
          have bvNumber (averages : PenaltyPair) (found : bv = some averages) :=
            s2bvRun_number (found ▸ bvRan)
          have acNumber (averages : PenaltyPair) (found : some ac = some averages) :
              (averages.penaltyA - averages.penaltyB).isNaN = false := by
            obtain rfl := Option.some.inj found
            exact Pair.average_number acRan
          simp only [Option.map_some, Option.bind_some]
          rw [s2StrongVoterChoice_swap bvNumber]
          cases s2StrongVoterChoice (s2PenaltyVote bv 1.0).2
              (some (s2clRun vlm promptUrl left right seed)) with
          | some side => rfl
          | none =>
              rw [← Option.map_some (f := PenaltyPair.swap), s2PenaltyVote_swap level bvNumber,
                s2PenaltyVote_swap level acNumber, s2ChecklistVote_swap _ (by decide)]
              simp only [Option.map_none]
              rw [s2Consensus_swap]
              cases s2Consensus [(s2PenaltyVote bv 1.0).1, (s2PenaltyVote (some ac) 1.0).1,
                  (s2ChecklistVote (s2clRun vlm promptUrl left right seed) 2).1] 2 with
              | some side => rfl
              | none => exact s3Run_swap positional

theorem judgeViews_swap (positional : vlm.Positional)
    (defined : ∀ angles, s1Run vlm promptUrl left right seed = some angles →
      ¬ Undefined compensated angles) :
    judgeViews vlm compensated assets promptUrl right left seed =
      (judgeViews vlm compensated assets promptUrl left right seed).map (Option.map Side.other) := by
  rw [judgeViews_eq, judgeViews_eq]
  unfold s1Choice
  rw [s1Run_swap positional]
  cases ran : s1Run vlm promptUrl left right seed with
  | none => rfl
  | some angles =>
      rw [Option.map_some, Option.bind_some, Option.bind_some,
        s1Aggregate_swap (s1Run_finite ran) (defined angles ran)]
      rcases s1Aggregate compensated angles with _ | (_ | side)
      · rfl
      · change Option.map _ (primaryChoice vlm assets promptUrl right left seed) =
          Option.map _ (Option.map _ (primaryChoice vlm assets promptUrl left right seed))
        rw [primaryChoice_swap positional]
        cases primaryChoice vlm assets promptUrl left right seed with
        | none => rfl
        | some primary => exact congrArg some (s4Run_swap positional primary)
      · rfl

theorem judgeViews_of_undefined {angles : List AngleResult}
    (ran : s1Run vlm promptUrl left right seed = some angles) (undefined : Undefined compensated angles) :
    judgeViews vlm compensated assets promptUrl left right seed = some (some .b) := by
  rw [judgeViews_eq]
  unfold s1Choice
  rw [ran, Option.bind_some, s1Aggregate_of_undefined undefined]
  rfl

/-- A duel with the models exchanged has the mirrored winner, unless the averages of Stage 1 have no
difference and nothing else makes Stage 1 a draw. -/
theorem evaluateDuel_swap_iff (positional : vlm.Positional) (leftViews rightViews : Option String) :
    evaluateDuel vlm compensated assets promptUrl rightViews leftViews seed =
        (evaluateDuel vlm compensated assets promptUrl leftViews rightViews seed).map DuelWinner.mirror ↔
      ∀ left right, leftViews = some left → rightViews = some right → left ≠ "" → right ≠ "" →
        ∀ angles, s1Run vlm promptUrl left right seed = some angles → ¬ Undefined compensated angles := by
  constructor
  · rintro mirrored left right rfl rfl leftSome rightSome angles ran undefined
    rw [evaluateDuel_of_views leftSome rightSome, evaluateDuel_of_views rightSome leftSome,
      judgeViews_of_undefined ran undefined] at mirrored
    have swapped := undefined.swap (s1Run_finite ran)
    have ran' : s1Run vlm promptUrl right left seed = some (angles.map AngleResult.swap) := by
      rw [s1Run_swap positional, ran, Option.map_some]
    rw [judgeViews_of_undefined ran' swapped] at mirrored
    cases mirrored
  · intro defined
    unfold evaluateDuel
    cases leftIs : leftViews.filter (· ≠ "") with
    | none => cases rightViews.filter (· ≠ "") <;> rfl
    | some left =>
        cases rightIs : rightViews.filter (· ≠ "") with
        | none => rfl
        | some right =>
            obtain ⟨rfl, leftSome⟩ := Option.filter_eq_some_iff.mp leftIs
            obtain ⟨rfl, rightSome⟩ := Option.filter_eq_some_iff.mp rightIs
            rw [decide_eq_true_eq] at leftSome rightSome
            change Option.map choiceToWinner _ = Option.map _ (Option.map choiceToWinner _)
            rw [judgeViews_swap positional (defined left right rfl rfl leftSome rightSome), Option.map_map,
              Option.map_map]
            congr 1
            funext choice
            exact choiceToWinner_other choice

/-! ## Penalties that overflow -/

/-- The same enormous penalty for every model. -/
def enormousVlm : Vlm where
  penalties _ := some ⟨10 ^ 308, 10 ^ 308, ""⟩
  checklist _ := none
  verification _ := none
  sideGuard _ := some .ok

theorem enormousVlm_positional : enormousVlm.Positional := fun _ _ _ _ _ => ⟨rfl, rfl, rfl, rfl⟩

theorem evaluateDuel_swap_iff_enormous :
    evaluateDuel enormousVlm true noAssets "prompt" (some "right") (some "left") 0 =
        (evaluateDuel enormousVlm true noAssets "prompt" (some "left") (some "right") 0).map
          DuelWinner.mirror ↔
      ∀ left right, some "left" = some left → some "right" = some right → left ≠ "" → right ≠ "" →
        ∀ angles, s1Run enormousVlm "prompt" left right 0 = some angles → ¬ Undefined true angles :=
  evaluateDuel_swap_iff enormousVlm_positional (some "left") (some "right")

/-- The right model wins, wherever it is. -/
theorem enormous_not_mirrored : ¬ ∀ (vlm : Vlm) (compensated : Bool) (assets : Assets Unit)
    (promptUrl : String) (leftViews rightViews : Option String) (seed : Int), vlm.Positional →
    evaluateDuel vlm compensated assets promptUrl rightViews leftViews seed =
      (evaluateDuel vlm compensated assets promptUrl leftViews rightViews seed).map DuelWinner.mirror := by
  intro claim
  have mirrored := claim enormousVlm true noAssets "prompt" (some "left") (some "right") 0
    enormousVlm_positional
  have first : evaluateDuel enormousVlm true noAssets "prompt" (some "left") (some "right") 0 =
      some .right := by decide +kernel
  have second : evaluateDuel enormousVlm true noAssets "prompt" (some "right") (some "left") 0 =
      some .right := by decide +kernel
  rw [first, second] at mirrored
  cases mirrored

end GenSubnet.Judge
