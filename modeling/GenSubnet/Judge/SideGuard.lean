import GenSubnet.Judge.Duel

/-!
# The side guard

Stage 4 looks at the sides of both models and takes the win from one that has none. It comes after
every stage but the first: a winner of Stage 1 is not looked at.
-/

namespace GenSubnet.Judge
open Library

def Side.other : Side → Side
  | .a => .b
  | .b => .a

def Side.views (left right : String) : Side → String
  | .a => left
  | .b => right

/-- The seeds of the guard's calls start here. -/
def Side.guardSeed (seed : Int) : Side → Int
  | .a => seed + 5000
  | .b => seed + 6000

variable (vlm : Vlm) (compensated : Bool) {V : Type} (assets : Assets V) (promptUrl left right : String)
  (seed : Int)

/-- At least three of the four side angles are garbage. -/
def Flagged (side : Side) : Prop :=
  3 ≤ (s4Angles vlm (side.views left right) (side.guardSeed seed)).count .garbage

instance (side : Side) : Decidable (Flagged vlm left right seed side) :=
  inferInstanceAs (Decidable (_ ≤ _))

/-- What Stage 1 decides. -/
def s1Choice : Option (Option Side) :=
  (s1Run vlm promptUrl left right seed).bind (s1Aggregate compensated)

variable {vlm compensated assets promptUrl left right seed}

theorem s4AggregateSide_eq_garbage_iff {verdicts : List SideVerdict} {k : Nat} :
    s4AggregateSide verdicts k = .garbage ↔ k ≤ verdicts.count .garbage := by
  unfold s4AggregateSide
  split
  · rename_i flagged
    exact ⟨fun _ => flagged, fun _ => rfl⟩
  · rename_i clean
    exact ⟨nofun, fun flagged => absurd flagged clean⟩

theorem s4StepDown_ne {primary : Option Side} {sideA sideB : SideVerdict} :
    (sideA = .garbage → sideB ≠ .garbage → s4StepDown primary sideA sideB ≠ some .a) ∧
      (sideB = .garbage → sideA ≠ .garbage → s4StepDown primary sideA sideB ≠ some .b) := by
  cases sideA <;> cases sideB <;> rcases primary with _ | (_ | _) <;> decide

theorem s4Run_ne {side : Side} (flagged : Flagged vlm left right seed side)
    (clean : ¬ Flagged vlm left right seed side.other) (primary : Option Side) :
    s4Run vlm left right primary seed ≠ some side := by
  cases side with
  | a =>
      refine s4StepDown_ne.1 (s4AggregateSide_eq_garbage_iff.mpr flagged) ?_
      exact fun garbage => clean (s4AggregateSide_eq_garbage_iff.mp garbage)
  | b =>
      refine s4StepDown_ne.2 (s4AggregateSide_eq_garbage_iff.mpr flagged) ?_
      exact fun garbage => clean (s4AggregateSide_eq_garbage_iff.mp garbage)

theorem judgeViews_eq : judgeViews vlm compensated assets promptUrl left right seed =
    (s1Choice vlm compensated promptUrl left right seed).bind fun choice =>
      match choice with
      | some side => some (some side)
      | none => (primaryChoice vlm assets promptUrl left right seed).map fun primary =>
          s4Run vlm left right primary seed := by
  unfold judgeViews s1Choice
  cases s1Run vlm promptUrl left right seed with
  | none => rfl
  | some angles =>
      change (s1Aggregate compensated angles >>= _) = (s1Aggregate compensated angles).bind _
      cases s1Aggregate compensated angles with
      | none => rfl
      | some choice =>
          cases choice with
          | some side => rfl
          | none => cases primaryChoice vlm assets promptUrl left right seed <;> rfl

theorem choiceToWinner_injective : Function.Injective choiceToWinner := by
  rintro (_ | (_ | _)) (_ | (_ | _)) same <;> first | rfl | cases same

theorem evaluateDuel_of_views (leftViews : left ≠ "") (rightViews : right ≠ "") :
    evaluateDuel vlm compensated assets promptUrl (some left) (some right) seed =
      (judgeViews vlm compensated assets promptUrl left right seed).map choiceToWinner := by
  simp only [evaluateDuel, Option.filter_some, leftViews, rightViews, ne_eq, not_false_eq_true,
    decide_true, if_true]
  rfl

/-- The only side that is garbage does not win, unless Stage 1 lets it. -/
theorem garbage_side_wins_iff (leftViews : left ≠ "") (rightViews : right ≠ "") {side : Side}
    (flagged : Flagged vlm left right seed side) (clean : ¬ Flagged vlm left right seed side.other) :
    evaluateDuel vlm compensated assets promptUrl (some left) (some right) seed ≠
        some (choiceToWinner (some side)) ↔
      s1Choice vlm compensated promptUrl left right seed ≠ some (some side) := by
  rw [evaluateDuel_of_views leftViews rightViews, judgeViews_eq]
  rw [not_iff_not, Option.map_eq_some_iff]
  constructor
  · rintro ⟨choice, judged, won⟩
    obtain rfl := choiceToWinner_injective won
    obtain ⟨first, decided, judged⟩ := Option.bind_eq_some_iff.mp judged
    cases first with
    | some winner =>
        obtain rfl := Option.some.inj (Option.some.inj judged)
        exact decided
    | none =>
        obtain ⟨primary, -, guarded⟩ := Option.map_eq_some_iff.mp judged
        exact absurd guarded (s4Run_ne flagged clean primary)
  · intro decided
    rw [decided]
    exact ⟨some side, rfl, rfl⟩

/-! ## A front without sides -/

/-- The left model is the better one from the front, and each of its sides is garbage. -/
def facadeVlm : Vlm where
  penalties call := some (if call.mirrored then ⟨10, 0, ""⟩ else ⟨0, 10, ""⟩)
  checklist _ := none
  verification _ := none
  sideGuard call :=
    some (if call.images.head? = some (whiteUrl "left" "front_left") then .garbage else .ok)

def noAssets : Assets Unit where
  embeddings _ := none
  dot _ _ := none
  gray _ := none

theorem facade_flagged : Flagged facadeVlm "left" "right" 0 .a ∧ ¬ Flagged facadeVlm "left" "right" 0 .b := by
  decide +kernel

theorem garbage_side_wins_iff_facade :
    evaluateDuel facadeVlm true noAssets "prompt" (some "left") (some "right") 0 ≠ some .left ↔
      s1Choice facadeVlm true "prompt" "left" "right" 0 ≠ some (some .a) :=
  garbage_side_wins_iff (by decide) (by decide) facade_flagged.1 facade_flagged.2

/-- Without sides it wins. -/
theorem facade_wins : ¬ ∀ (vlm : Vlm) (compensated : Bool) (assets : Assets Unit)
    (promptUrl left right : String) (seed : Int) (side : Side), left ≠ "" → right ≠ "" →
    Flagged vlm left right seed side → ¬ Flagged vlm left right seed side.other →
    evaluateDuel vlm compensated assets promptUrl (some left) (some right) seed ≠
      some (choiceToWinner (some side)) := by
  intro claim
  refine claim facadeVlm true noAssets "prompt" "left" "right" 0 .a (by decide) (by decide)
    facade_flagged.1 facade_flagged.2 ?_
  decide +kernel

end GenSubnet.Judge
