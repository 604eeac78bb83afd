import GenSubnet.Library.Binary64
import GenSubnet.Library.Dict
import Mathlib

/-!
# A duel of two models

`judges/multi_stage.py`: the stages that compare two models with the pictures that were rendered of
them. What the vision model replies, the embeddings and the pixels are taken as they come; `none`
is an exception that leaves the function.
-/

namespace GenSubnet.Judge
open Library Float.Model Float.Model.UnpackedFloat

/-! ## Python's numbers -/

def exactly (n : Int) : UnpackedFloat :=
  if positive : 0 < n.natAbs then .finite (if n < 0 then .negative else .positive) n.natAbs 0 positive
  else .zero .positive

/-- `m / n` of two integers; it raises when the quotient is no finite float. -/
def trueDiv (m n : Int) : Option Float :=
  if n = 0 then none
  else
    let quotient : Float :=
      ⟨Float.Model.pack (UnpackedFloat.div Format.binary64 (exactly m) (exactly n))⟩
    if quotient.isFinite then some quotient else none

/-- `x / y` of two floats. -/
def floatDiv (x y : Float) : Option Float := if y == 0 then none else some (x / y)

/-- One term of a compensated sum, with the compensation. -/
def compensate (sum : Float × Float) (x : Float) : Float × Float :=
  let total := sum.1 + x
  (total, sum.2 + if x.abs ≤ sum.1.abs then sum.1 - total + x else x - total + sum.1)

/-- `sum` of floats, which compensates for what is rounded since Python 3.12. -/
def floatSum (compensated : Bool) (terms : List Float) : Float :=
  if compensated then
    let sum := terms.foldl compensate (0, 0)
    if sum.2 != 0 && sum.2.isFinite then sum.1 + sum.2 else sum.1
  else terms.foldl (· + ·) 0

/-! ## What is asked -/

structure PenaltyResponse where
  penalty1 : Int
  penalty2 : Int
  issues : String
deriving DecidableEq

inductive Category | count | shape | presence | materialColor
deriving DecidableEq

structure ChecklistItem where
  description : String
  category : Category
deriving DecidableEq

structure PromptChecklist where
  mainObject : String
  features : List ChecklistItem
  enough : 4 ≤ features.length
  notMany : features.length ≤ 7
deriving DecidableEq

inductive MatchLevel | yes | partly | no
deriving DecidableEq

structure VerificationResult where
  checks : List MatchLevel
  mainObjectCorrect : Bool

inductive SideVerdict | ok | garbage
deriving DecidableEq

/-- The text of a request, by what it is made of. -/
inductive Prompt
  | promptMatch (angleDesc : String)
  | bestView
  | artifacts
  | decompose
  | verify (checklist : PromptChecklist)
  | perAngle (angleDesc : String)
deriving DecidableEq

structure Call where
  label : String
  prompt : Prompt
  /-- The pictures, in their order. -/
  images : List String
  seed : Int
  /-- Tells the two calls of a pair apart. -/
  mirrored : Bool := false
  /-- What a retry changes. -/
  attempt : Nat := 0
deriving DecidableEq

/-- The replies that were parsed; `none` is an error or a text that is not of the schema. -/
structure Vlm where
  penalties : Call → Option PenaltyResponse
  checklist : Call → Option PromptChecklist
  verification : Call → Option VerificationResult
  sideGuard : Call → Option SideVerdict

/-- `_safe_chat_json` -/
def safeChatJson {α : Type} (ask : Call → Option α) (call : Call) (maxRetries : Nat) : Option α :=
  (List.range maxRetries).findSome? fun attempt => ask { call with attempt }

def jsonFailedMarker : String := "JSON_PARSE_FAILED"

def neutralPenalty : PenaltyResponse := ⟨5, 5, jsonFailedMarker⟩

/-- What a comparison gets; without a reply it gets the neutral one. -/
def askPenalty (vlm : Vlm) (call : Call) : PenaltyResponse :=
  (safeChatJson vlm.penalties call 5).getD neutralPenalty

/-! ## Pictures -/

def whiteUrl (views name : String) : String := views ++ "/white/" ++ name ++ ".png"

def grayUrl (views name : String) : String := views ++ "/gray/" ++ name ++ ".png"

def gridUrl (views : String) : String := views ++ "/grid.png"

/-- The rows of a decoded picture. -/
structure Png where
  width : Nat
  height : Nat
  bytesPerPixel : Nat
  rows : List (List Nat)

/-- What is fetched of the views of a model. -/
structure Assets (V : Type) where
  /-- `_load_embeddings` -/
  embeddings : String → Option (Dict String V)
  /-- `np.dot` -/
  dot : V → V → Option Float
  /-- `_fetch_bytes`, and what `_read_png_rgb` makes of it. -/
  gray : String → Option (Option Png)

/-- A side of a duel. Where a side is optional, `none` is `"draw"`, or no vote. -/
inductive Side | a | b
deriving DecidableEq

/-- The side of a difference of penalties. -/
def Side.ofDiff (diff : Float) : Side := if diff < 0 then .a else .b

/-- Two calls with the models in both orders. -/
structure Calls where
  ab : Call
  ba : Call

structure Pair where
  ab : PenaltyResponse
  ba : PenaltyResponse

def Calls.ask (vlm : Vlm) (calls : Calls) : Pair := ⟨askPenalty vlm calls.ab, askPenalty vlm calls.ba⟩

def Pair.penaltyA (pair : Pair) : Option Float := trueDiv (pair.ab.penalty1 + pair.ba.penalty2) 2

def Pair.penaltyB (pair : Pair) : Option Float := trueDiv (pair.ab.penalty2 + pair.ba.penalty1) 2

def Pair.diffAb (pair : Pair) : Int := pair.ab.penalty1 - pair.ab.penalty2

def Pair.diffBa (pair : Pair) : Int := pair.ba.penalty2 - pair.ba.penalty1

/-- The two calls point in different directions. -/
def Pair.contradictory (pair : Pair) : Bool :=
  (0 < pair.diffAb && pair.diffBa < 0) || (pair.diffAb < 0 && 0 < pair.diffBa)

def Pair.jsonFailed (pair : Pair) : Bool :=
  pair.ab.issues = jsonFailedMarker || pair.ba.issues = jsonFailedMarker

variable (vlm : Vlm)

/-! ## Stage 1 -/

structure Angle where
  weight : Float
  label : String
  desc : String

def s1Angles : List Angle :=
  [⟨1.0, "front_left", "slightly left of the front"⟩,
    ⟨1.0, "front_right", "slightly right of the front"⟩,
    ⟨1.0, "front_below", "the front, from slightly below"⟩,
    ⟨1.0, "front_above", "the front, from slightly above"⟩]

/-- What is kept of one angle. -/
structure AngleResult where
  weight : Float
  penA : Float
  penB : Float
  contradictory : Bool

def s1Call (promptUrl leftUrl rightUrl desc : String) (seed : Int) (mirrored : Bool) : Call where
  label := "s1_prompt_match"
  prompt := .promptMatch desc
  images := [promptUrl, leftUrl, rightUrl]
  seed := seed
  mirrored := mirrored

def s1Calls (promptUrl left right : String) (seed : Int) (angle : Angle) : Calls where
  ab := s1Call promptUrl (whiteUrl left angle.label) (whiteUrl right angle.label) angle.desc seed false
  ba := s1Call promptUrl (whiteUrl right angle.label) (whiteUrl left angle.label) angle.desc seed true

def s1Angle (weight : Float) (pair : Pair) : Option AngleResult := do
  let penA ← pair.penaltyA
  let penB ← pair.penaltyB
  return { weight, penA, penB, contradictory := pair.jsonFailed || pair.contradictory }

def s1Run (promptUrl left right : String) (seed : Int) : Option (List AngleResult) :=
  s1Angles.mapM fun angle => s1Angle angle.weight ((s1Calls promptUrl left right seed angle).ask vlm)

/-- What one angle adds to `w_a`, `w_b` and `n_signed`. -/
def s1Sign (sums : Float × Float × Nat) (angle : AngleResult) : Float × Float × Nat :=
  if angle.penA == angle.penB then sums
  else if angle.penB < angle.penA then (sums.1, sums.2.1 + angle.weight, sums.2.2 + 1)
  else (sums.1 + angle.weight, sums.2.1, sums.2.2 + 1)

def s1Signs (angles : List AngleResult) : Float × Float × Nat := angles.foldl s1Sign (0, 0, 0)

def s1DirectionConsistency (angles : List AngleResult) : Option (Float × Nat) :=
  let (wA, wB, signed) := s1Signs angles
  let total := wA + wB
  if total == 0 then some (1.0, 0)
  else (floatDiv (wA - wB).abs total).map fun consistency => (consistency, signed)

variable (compensated : Bool)

/-- A weighted average of the angles. -/
def weighted (penalty : AngleResult → Float) (angles : List AngleResult) : Option Float :=
  floatDiv (floatSum compensated (angles.map fun a => a.weight * penalty a))
    (floatSum compensated (angles.map AngleResult.weight))

def s1DrawThreshold : Float := 0.7

def s1BothBadMaxDiff : Float := max 1.5 s1DrawThreshold

/-- The angles go both ways. -/
def s1Split (angles : List AngleResult) : Option Bool :=
  (s1DirectionConsistency angles).map fun (consistency, signed) => 3 ≤ signed && consistency < 0.65

def s1Aggregate (angles : List AngleResult) : Option (Option Side) :=
  let consistent := angles.filter fun angle => !angle.contradictory
  if consistent.isEmpty then some none
  else do
    let wpA ← weighted compensated AngleResult.penA consistent
    let wpB ← weighted compensated AngleResult.penB consistent
    let diff := wpA - wpB
    let avg := (wpA + wpB) / 2.0
    if (8.0 : Float) ≤ avg ∧ diff.abs ≤ s1BothBadMaxDiff then return none
    else if diff.abs ≤ s1DrawThreshold then return none
    else do
      let split ← s1Split consistent
      if split = true then return none else return some (Side.ofDiff diff)

/-! ## Stage 2 -/

/-- The averages of a pair. -/
structure PenaltyPair where
  penaltyA : Float
  penaltyB : Float

def Pair.average (pair : Pair) : Option PenaltyPair := do
  let penaltyA ← pair.penaltyA
  let penaltyB ← pair.penaltyB
  return { penaltyA, penaltyB }

/-- `max`, the first of several. -/
def firstMax {α : Type} (key : α → Float) : α → List α → α
  | best, [] => best
  | best, x :: rest => firstMax key (if key best < key x then x else best) rest

variable {V : Type} (assets : Assets V)

/-- `_pick_best_view` -/
def pickBestView (embeds : Dict String V) : Option (Option String) :=
  match Dict.get embeds "prompt" with
  | none => some none
  | some promptVec => do
      let candidates := (Dict.items embeds).filter fun item => "view_".toList.isPrefixOf item.1.toList
      let scored ← candidates.mapM fun item => (assets.dot item.2 promptVec).map fun score =>
        (item.1, score)
      match scored with
      | [] => return none
      | first :: rest => return some (String.ofList ((firstMax Prod.snd first rest).1.toList.drop 5))

def s2Call (label : String) (prompt : Prompt) (promptUrl leftUrl rightUrl : String) (seed : Int) :
    Call where
  label := label
  prompt := prompt
  images := [promptUrl, leftUrl, rightUrl]
  seed := seed

def s2bvCalls (promptUrl aUrl bUrl : String) (seed : Int) : Calls where
  ab := s2Call "s2bv_ab" .bestView promptUrl aUrl bUrl seed
  ba := s2Call "s2bv_ba" .bestView promptUrl bUrl aUrl seed

/-- The urls of the best views, with the embeddings loaded. -/
def bestViews (left right : String) : Option (Option (String × String)) :=
  match assets.embeddings left, assets.embeddings right with
  | some leftEmbeds, some rightEmbeds => do
      let pickA ← pickBestView assets leftEmbeds
      let pickB ← pickBestView assets rightEmbeds
      match pickA, pickB with
      | some nameA, some nameB => return some (whiteUrl left nameA, whiteUrl right nameB)
      | _, _ => return none
  | _, _ => some none

/-- `_s2bv_run` -/
def s2bvRun (promptUrl left right : String) (seed : Int) : Option (Option PenaltyPair) := do
  match ← bestViews assets left right with
  | none => return none
  | some (aUrl, bUrl) => some <$> ((s2bvCalls promptUrl aUrl bUrl seed).ask vlm).average

def s2acCalls (promptUrl left right : String) (seed : Int) : Calls where
  ab := s2Call "s2ac_ab" .artifacts promptUrl (gridUrl left) (gridUrl right) seed
  ba := s2Call "s2ac_ba" .artifacts promptUrl (gridUrl right) (gridUrl left) seed

def s2acRun (promptUrl left right : String) (seed : Int) : Option PenaltyPair :=
  ((s2acCalls promptUrl left right seed).ask vlm).average

def MatchLevel.score : MatchLevel → Int
  | .yes => 2
  | .partly => 1
  | .no => 0

def s2clScore (result : VerificationResult) : Int :=
  (result.checks.map MatchLevel.score).sum + if result.mainObjectCorrect then 3 else 0

def s2clDecompose (promptUrl : String) (seed : Int) : Option PromptChecklist :=
  safeChatJson vlm.checklist
    { label := "s2cl_decompose", prompt := .decompose, images := [promptUrl], seed } 5

def s2clVerify (promptUrl gridUrl : String) (checklist : PromptChecklist) (seed : Int) :
    Option VerificationResult :=
  safeChatJson vlm.verification
    { label := "s2cl_verify", prompt := .verify checklist, images := [promptUrl, gridUrl], seed } 5

/-- The `gap` of `_s2cl_run`; without a checklist or a verification it is zero. -/
def s2clRun (promptUrl left right : String) (seed : Int) : Int :=
  match s2clDecompose vlm promptUrl seed with
  | none => 0
  | some checklist =>
      match s2clVerify vlm promptUrl (gridUrl left) checklist (seed + 100),
          s2clVerify vlm promptUrl (gridUrl right) checklist (seed + 200) with
      | some verifyA, some verifyB => s2clScore verifyA - s2clScore verifyB
      | _, _ => 0

/-- `_s2_penalty_vote`: the vote and the difference. -/
def s2PenaltyVote (raw : Option PenaltyPair) (minGap : Float) : Option Side × Option Float :=
  match raw with
  | none => (none, none)
  | some pair =>
      let diff := pair.penaltyA - pair.penaltyB
      if diff.abs < minGap then (none, some diff) else (some (Side.ofDiff diff), some diff)

def Side.ofGap (gap : Int) : Side := if 0 < gap then .a else .b

def s2ChecklistVote (gap : Int) (minGap : Nat) : Option Side × Int :=
  if gap.natAbs < minGap then (none, gap) else (some (Side.ofGap gap), gap)

/-- `_s2_strong_voter_choice` -/
def s2StrongVoterChoice (bvDiff : Option Float) (clGap : Option Int) : Option Side :=
  let candidates :=
    ((bvDiff.filter fun diff => (2.0 : Float) ≤ diff.abs).map Side.ofDiff).toList ++
      ((clGap.filter fun gap => 6 ≤ gap.natAbs).map Side.ofGap).toList
  match candidates with
  | [] => none
  | first :: rest => if rest.all (· = first) then some first else none

/-- `_s2_consensus` -/
def s2Consensus (votes : List (Option Side)) (minAgree : Nat) : Option Side :=
  let given := votes.filterMap id
  match given with
  | [] => none
  | first :: _ =>
      -- the first of two sides that are counted equally often
      let other := if first = .a then Side.b else .a
      let top := if given.count first < given.count other then other else first
      if given.count top < minAgree then none
      else if given.length - given.count top < given.count top then some top
      else none

/-! ## Stage 3 -/

/-- What is counted of the samples of a picture. -/
structure Samples where
  foreground : Nat := 0
  pale : Nat := 0
  grayish : Nat := 0

def saturation (maxC minC : Nat) : Option Float :=
  if maxC = 0 then some 0.0 else trueDiv ((maxC : Int) - minC) maxC

def luma (red green blue : Nat) : Float :=
  0.2126 * Float.ofNat red + 0.7152 * Float.ofNat green + 0.0722 * Float.ofNat blue

def Samples.add (samples : Samples) (red green blue : Nat) : Option Samples := do
  let distance := max (max ((red : Int) - 128).natAbs ((green : Int) - 128).natAbs)
    ((blue : Int) - 128).natAbs
  if distance ≤ 18 then return samples
  else do
    let sat ← saturation (max (max red green) blue) (min (min red green) blue)
    return {
      foreground := samples.foreground + 1
      grayish := samples.grayish + if sat < 0.28 then 1 else 0
      pale := samples.pale + if 175.0 < luma red green blue ∧ sat < 0.35 then 1 else 0 }

/-- The samples of one row, every fourth pixel. -/
def Samples.addRow (bytesPerPixel : Nat) (row : List Nat) (samples : Samples) (x : Nat) :
    Option Samples := do
  let red ← row[x * bytesPerPixel]?
  let green ← row[x * bytesPerPixel + 1]?
  let blue ← row[x * bytesPerPixel + 2]?
  samples.add red green blue

/-- `range(0, n, S3_SAMPLE_STEP)` -/
def sampled (n : Nat) : List Nat := (List.range n).filter fun i => i % 4 = 0

def Samples.addPng (samples : Samples) (png : Png) : Option Samples :=
  (sampled png.height).foldlM (fun samples y => do
    let row ← png.rows[y]?
    (sampled png.width).foldlM (Samples.addRow png.bytesPerPixel row) samples) samples

/-- `_foreground_stats`, of the two fractions. -/
def foregroundStats (pngs : List Png) : Option (Float × Float) := do
  let samples ← pngs.foldlM Samples.addPng {}
  if samples.foreground = 0 then return (0.0, 0.0)
  else do
    let pale ← trueDiv samples.pale samples.foreground
    let grayish ← trueDiv samples.grayish samples.foreground
    return (pale, grayish)

def whiteUnsafe (stats : Float × Float) : Bool := (0.10 : Float) ≤ stats.1 && (0.60 : Float) ≤ stats.2

def s3Call (label promptUrl leftUrl rightUrl : String) (seed : Int) : Call where
  label := label
  prompt := .promptMatch "slightly left of the front"
  images := [promptUrl, leftUrl, rightUrl]
  seed := seed

def s3Calls (promptUrl left right : String) (seed : Int) : Calls where
  ab := s3Call "s3_gray_ab" promptUrl (grayUrl left "front_left") (grayUrl right "front_left") seed
  ba := s3Call "s3_gray_ba" promptUrl (grayUrl right "front_left") (grayUrl left "front_left") (seed + 7)

def s3Choice (pair : Pair) : Option (Option Side) := do
  let penA ← pair.penaltyA
  let penB ← pair.penaltyB
  let diff := penA - penB
  if pair.jsonFailed && pair.contradictory then return none
  else if pair.contradictory then return none
  else if diff.abs < 2.0 then return none
  else return some (Side.ofDiff diff)

/-- The gate of Stage 3: the front views on gray look pale. -/
def s3Fires (left right : String) : Bool :=
  match assets.gray (grayUrl left "front_left"), assets.gray (grayUrl right "front_left") with
  | some (some pngA), some (some pngB) =>
      match foregroundStats [pngA, pngB] with
      | some stats => whiteUnsafe stats
      | none => false
  | _, _ => false

def s3Run (promptUrl left right : String) (seed : Int) : Option (Option Side) :=
  if s3Fires assets left right then
    s3Choice ((s3Calls promptUrl left right seed).ask vlm)
  else some none

/-! ## Stage 4 -/

def s4SideAngles : List (String × String) :=
  [("right", "the right side"), ("back", "the back"), ("left", "the left side"),
    ("top_down", "directly above (top-down)")]

/-- `_s4_ask_per_angle`; a reply that is not parsed does not demote the side. -/
def s4AskPerAngle (frontUrl angleUrl desc : String) (seed : Int) : SideVerdict :=
  (safeChatJson vlm.sideGuard
    { label := "s4_per_angle", prompt := .perAngle desc, images := [frontUrl, angleUrl], seed }
    4).getD .ok

/-- The verdicts of the side angles of one model. -/
def s4Angles (views : String) (seed : Int) : List SideVerdict :=
  s4SideAngles.zipIdx.map fun (angle, i) =>
    s4AskPerAngle vlm (whiteUrl views "front_left") (whiteUrl views angle.1) angle.2 (seed + i * 100)

def s4AggregateSide (verdicts : List SideVerdict) (k : Nat) : SideVerdict :=
  if k ≤ verdicts.count .garbage then .garbage else .ok

def s4StepDown (primary : Option Side) (sideA sideB : SideVerdict) : Option Side :=
  if (sideA = .garbage) = (sideB = .garbage) then primary
  else if sideA = .garbage then
    if primary = some .a then none
    else if primary = none then some .b
    else primary
  else if primary = some .b then none
  else if primary = none then some .a
  else primary

def s4Run (left right : String) (primary : Option Side) (seed : Int) : Option Side :=
  s4StepDown primary (s4AggregateSide (s4Angles vlm left (seed + 5000)) 3)
    (s4AggregateSide (s4Angles vlm right (seed + 6000)) 3)

/-! ## The duel -/

inductive DuelWinner | left | right | draw
deriving DecidableEq

/-- `CHOICE_TO_WINNER` -/
def choiceToWinner : Option Side → DuelWinner
  | some .a => .left
  | some .b => .right
  | none => .draw

/-- What Stages 2 and 3 make of a duel that Stage 1 leaves open. -/
def primaryChoice (promptUrl left right : String) (seed : Int) : Option (Option Side) := do
  let bv ← s2bvRun vlm assets promptUrl left right seed
  let ac ← s2acRun vlm promptUrl left right seed
  let cl := s2clRun vlm promptUrl left right seed
  let (bvVote, bvDiff) := s2PenaltyVote bv 1.0
  let (acVote, _) := s2PenaltyVote (some ac) 1.0
  let (clVote, clGap) := s2ChecklistVote cl 2
  match s2StrongVoterChoice bvDiff (some clGap) with
  | some side => return some side
  | none =>
      match s2Consensus [bvVote, acVote, clVote] 2 with
      | some side => return some side
      | none => s3Run vlm assets promptUrl left right seed

/-- The duel of two models that both have views. -/
def judgeViews (promptUrl left right : String) (seed : Int) : Option (Option Side) := do
  let angles ← s1Run vlm promptUrl left right seed
  match ← s1Aggregate compensated angles with
  | some side => return some side
  | none => do
      let primary ← primaryChoice vlm assets promptUrl left right seed
      return s4Run vlm left right primary seed

/-- `evaluate_duel` -/
def evaluateDuel (promptUrl : String) (leftViews rightViews : Option String) (seed : Int) :
    Option DuelWinner :=
  match leftViews.filter (· ≠ ""), rightViews.filter (· ≠ "") with
  | none, none => some .draw
  | none, some _ => some .right
  | some _, none => some .left
  | some left, some right =>
      choiceToWinner <$> judgeViews vlm compensated assets promptUrl left right seed

end GenSubnet.Judge
