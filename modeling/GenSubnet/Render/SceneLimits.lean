import GenSubnet.Library.JsNumber
import GenSubnet.Render.ValidatorAgreement
import Mathlib

/-!
# The limits of a scene that passes

What a scene holds that `postValidate` of the render service has passed, where its counts and
coordinates are any numbers. A count that is negative or `NaN` defeats the sum it is added to, `NaN`
the comparisons with the box; what the walk does not look at is not in the sums.
-/

namespace GenSubnet.Render
open Library

/-- What JavaScript computes with values of type number. -/
def jsArithmetic : Arithmetic JsNumber where
  zero := .finite 0
  add x y := some (x.add y)
  exceeds x limit := (JsNumber.ofNat limit).less x
  isNumber _ := true
  truthy := JsNumber.truthy
  belowMin x := x.less (.finite (-1 / 2))
  aboveMax x := (JsNumber.finite (1 / 2)).less x

structure Point where
  x : JsNumber
  y : JsNumber
  z : JsNumber

/-- What the renderer reads of a scene beyond what is validated. -/
structure Rendering (O : Type) where
  /-- `geometry.instanceCount`, where the geometry is instanced. -/
  geometryInstances : O → Option JsNumber
  /-- The vertices, as `setFromObject` sees them. -/
  vertices : O → List Point
  /-- The properties of materials that hold textures. -/
  slots : List String

/-- The bounds of a box on an axis: `Math.min` and `Math.max` of the coordinates, or more. -/
structure Encloses (low high : JsNumber) (coordinates : List JsNumber) : Prop where
  undefined : .nan ∈ coordinates → low = .nan ∧ high = .nan
  bounds : .nan ∉ coordinates → ∀ c ∈ coordinates, low.atMost c ∧ c.atMost high

section
variable {O T : Type} [DecidableEq O] [DecidableEq T] (scene : Scene O T JsNumber)
  (rendering : Rendering O)

/-- The objects below the root. -/
def Scene.objects : List O :=
  (preorder (scene.children scene.wraps) (depthLimit + 1) (scene.walkRoot scene.wraps)).filterMap id

def Scene.drawnObjects : List O := scene.objects.filter fun o => (scene.heap o).any SceneNode.draws

def Scene.points : List Point := scene.objects.flatMap rendering.vertices

/-- `new Box3().setFromObject(…)` -/
structure SetFromObject : Prop where
  x : ∀ box, scene.box scene.wraps = some box →
    Encloses box.minX box.maxX ((scene.points rendering).map Point.x)
  y : ∀ box, scene.box scene.wraps = some box →
    Encloses box.minY box.maxY ((scene.points rendering).map Point.y)
  z : ∀ box, scene.box scene.wraps = some box →
    Encloses box.minZ box.maxZ ((scene.points rendering).map Point.z)

def Scene.vertexCounts : List JsNumber := scene.drawn.filterMap SceneNode.position

def Scene.instanceCounts : List JsNumber :=
  (scene.drawn.filter SceneNode.isInstancedMesh).filterMap SceneNode.count

/-- The instances of geometries, which are drawn where the object is no `InstancedMesh`. -/
def Scene.geometryInstances : List JsNumber :=
  (scene.drawnObjects.filter fun o => !(scene.heap o).any SceneNode.isInstancedMesh).filterMap
    rendering.geometryInstances

/-- The data textures in these slots of the materials, each once. -/
def Scene.texturesIn (slots : List String) : List T :=
  dataTextures scene.textures []
    (inSlots slots (scene.drawn.flatMap fun node => node.material.items.getD []))

/-- The whole units of a list of amounts. -/
def held (amounts : List JsNumber) : ℕ∞ := (amounts.map JsNumber.whole).sum

def Scene.bytesOf (textures : List T) : List JsNumber :=
  textures.filterMap fun tex => (scene.textures tex).byteLength

/-- The limits on the shape of a scene. -/
structure Shaped : Prop where
  tree : scene.IsTree scene.wraps
  reached : ∀ o, Relation.ReflTransGen (fun parent child => child ∈ scene.children scene.wraps parent)
      (scene.walkRoot scene.wraps) o →
    o ∈ preorder (scene.children scene.wraps) (depthLimit + 1) (scene.walkRoot scene.wraps)
  drawCalls : scene.drawn.length ≤ drawCallLimit

/-- The limits on what a scene holds. -/
structure Limited : Prop where
  vertices : held scene.vertexCounts ≤ vertexLimit
  instances : held (scene.instanceCounts ++ scene.geometryInstances rendering) ≤ instanceLimit
  textures : held (scene.bytesOf (scene.texturesIn rendering.slots)) ≤ textureByteLimit
  coordinates : ∀ point ∈ scene.points rendering, ∀ c ∈ [point.x, point.y, point.z],
    (JsNumber.finite (-1 / 2)).atMost c ∧ c.atMost (.finite (1 / 2))

/-- What the sums and the comparisons leave out is within the limits. -/
structure Measured : Prop where
  vertices : (∃ count ∈ scene.vertexCounts, count.deficient) → held scene.vertexCounts ≤ vertexLimit
  instances : (∃ count ∈ scene.instanceCounts, count.deficient) ∨ scene.geometryInstances rendering ≠ [] →
    held (scene.instanceCounts ++ scene.geometryInstances rendering) ≤ instanceLimit
  textures :
    (∃ bytes ∈ scene.textureBytes jsArithmetic, bytes.deficient) ∨
        (∃ tex ∈ scene.texturesIn rendering.slots, tex ∉ scene.texturesIn materialTextureKeys) →
      held (scene.bytesOf (scene.texturesIn rendering.slots)) ≤ textureByteLimit
  coordinates : ∀ point ∈ scene.points rendering, .nan ∉ [point.x, point.y, point.z]

end

/-! ## Sums -/

section
variable {O T : Type} [DecidableEq O] [DecidableEq T] {scene : Scene O T JsNumber}
  {rendering : Rendering O}

theorem foldlM_jsArithmetic (amounts : List JsNumber) (sum : JsNumber) :
    amounts.foldlM jsArithmetic.add sum = some (amounts.foldl JsNumber.add sum) := by
  induction amounts generalizing sum with
  | nil => rfl
  | cons amount rest ih =>
      rw [List.foldlM_cons, List.foldl_cons]
      exact ih (sum.add amount)

theorem foldlM_addVertices {N : Type} (arith : Arithmetic N) (drawn : List (SceneNode O T N)) (sum : N) :
    drawn.foldlM (fun n node => addVertices arith node n) sum =
      (drawn.filterMap SceneNode.position).foldlM arith.add sum := by
  induction drawn generalizing sum with
  | nil => rfl
  | cons node rest ih =>
      rw [List.foldlM_cons]
      cases position : node.position with
      | none =>
          rw [List.filterMap_cons_none position]
          simpa [addVertices, position] using ih sum
      | some count =>
          rw [List.filterMap_cons_some position, List.foldlM_cons]
          simp only [addVertices, position]
          exact congrArg _ (funext ih)

theorem mem_dataTextures {textures : T → Texture JsNumber} {tex : T} :
    ∀ {slots seen : List T}, tex ∈ dataTextures textures seen slots →
      (textures tex).isDataTexture = true ∧ tex ∈ slots ∧ tex ∉ seen
  | [], _, member => absurd member List.not_mem_nil
  | first :: rest, seen, member => by
      rw [dataTextures] at member
      split at member
      · obtain ⟨data, inside, fresh⟩ := mem_dataTextures member
        exact ⟨data, List.mem_cons_of_mem _ inside, fresh⟩
      · rename_i counted
        simp only [Bool.or_eq_true, Bool.not_eq_true', decide_eq_true_eq, not_or,
          Bool.not_eq_false] at counted
        rcases List.mem_cons.mp member with rfl | later
        · exact ⟨counted.1, List.mem_cons_self, counted.2⟩
        · obtain ⟨data, inside, fresh⟩ := mem_dataTextures later
          exact ⟨data, List.mem_cons_of_mem _ inside, fun old => fresh (List.mem_cons_of_mem _ old)⟩

theorem nodup_dataTextures (textures : T → Texture JsNumber) :
    ∀ slots seen : List T, (dataTextures textures seen slots).Nodup
  | [], _ => List.nodup_nil
  | first :: rest, seen => by
      rw [dataTextures]
      split
      · exact nodup_dataTextures textures rest seen
      · apply List.nodup_cons.mpr
        refine ⟨?_, nodup_dataTextures textures rest (first :: seen)⟩
        intro again
        exact (mem_dataTextures again).2.2 List.mem_cons_self

theorem held_bytesOf (textures : List T) :
    held (scene.bytesOf textures) =
      (textures.map fun tex => ((scene.textures tex).byteLength.map JsNumber.whole).getD 0).sum := by
  induction textures with
  | nil => rfl
  | cons tex rest ih =>
      cases length : (scene.textures tex).byteLength with
      | none =>
          have skipped : scene.bytesOf (tex :: rest) = scene.bytesOf rest := by
            simp [Scene.bytesOf, length]
          rw [skipped, List.map_cons, List.sum_cons, length]
          exact ih.trans (zero_add _).symm
      | some bytes =>
          have counted : scene.bytesOf (tex :: rest) = bytes :: scene.bytesOf rest := by
            simp [Scene.bytesOf, length]
          rw [counted, List.map_cons, List.sum_cons, length]
          exact congrArg (bytes.whole + ·) ih

theorem held_mono {fewer more : List T} (nodup : fewer.Nodup) (inside : fewer ⊆ more) :
    held (scene.bytesOf fewer) ≤ held (scene.bytesOf more) := by
  rw [held_bytesOf, held_bytesOf]
  obtain ⟨part, permuted, sublist⟩ := nodup.subperm inside
  rw [← (permuted.map _).sum_eq]
  exact (sublist.map _).sum_le_sum (fun _ _ => zero_le)

theorem held_truthy (amounts : List JsNumber) : held (amounts.filter JsNumber.truthy) = held amounts := by
  induction amounts with
  | nil => rfl
  | cons amount rest ih =>
      cases counted : amount.truthy with
      | true =>
          rw [List.filter_cons_of_pos counted]
          exact congrArg (amount.whole + ·) ih
      | false =>
          rw [List.filter_cons_of_neg (by simp [counted])]
          have nothing : amount.whole = 0 := by
            cases amount with
            | nan => rfl
            | negInfinity => rfl
            | posInfinity => cases counted
            | finite x =>
                have zero : x = 0 := by simpa [JsNumber.truthy] using counted
                simp [JsNumber.whole, zero]
          rw [ih, held, held, List.map_cons, List.sum_cons, nothing, zero_add]

end


/-! ## What a scene that passes holds -/

section
variable {O T : Type} [DecidableEq O] [DecidableEq T] {scene : Scene O T JsNumber}
  {rendering : Rendering O}

/-- The sums that `postValidate` compares with the limits. -/
structure Summed (scene : Scene O T JsNumber) : Prop where
  vertices : (JsNumber.ofNat vertexLimit).less (scene.vertexCounts.foldl JsNumber.add (.finite 0)) = false
  drawCalls : scene.drawn.length ≤ drawCallLimit
  instances :
    (JsNumber.ofNat instanceLimit).less (scene.instanceCounts.foldl JsNumber.add (.finite 0)) = false
  textures : (JsNumber.ofNat textureByteLimit).less
    ((scene.textureBytes jsArithmetic).foldl JsNumber.add (.finite 0)) = false

theorem Fits.summed {totals : Totals T JsNumber}
    (fits : Fits jsArithmetic scene (serviceVisit jsArithmetic scene) scene.wraps totals) :
    Summed scene := by
  obtain ⟨-, visits⟩ := foldlM_visit.mp fits.folds
  have counts : Counts jsArithmetic (serviceInstances jsArithmetic) (serviceTextures jsArithmetic scene)
      invalidIndex scene.drawn (Totals.initial jsArithmetic) totals := foldlM_visitDrawn.mp visits
  refine ⟨?_, ?_, ?_, ?_⟩
  · have vertices := counts.vertices
    rw [foldlM_addVertices, foldlM_jsArithmetic, Option.some.injEq] at vertices
    have within := fits.vertices
    rwa [← vertices] at within
  · have drawCalls := counts.drawCalls
    have within := fits.drawCalls
    rw [drawCalls] at within
    simpa [Totals.initial] using within
  · have instances := counts.instances
    rw [foldlM_serviceInstances, foldlM_jsArithmetic, Option.some.injEq] at instances
    have within := fits.instances
    rwa [← instances] at within
  · obtain ⟨-, textures⟩ := foldlM_serviceTextures.mp counts.textures
    have bytes := foldlM_countTexture jsArithmetic scene.textures jsArithmetic.truthy
      (inSlots materialTextureKeys (scene.drawn.flatMap fun node => node.material.items.getD [])) []
      jsArithmetic.zero
    have start : (Totals.initial jsArithmetic : Totals T JsNumber).textures = ([], jsArithmetic.zero) := rfl
    rw [start] at textures
    rw [textures, Option.map_some, foldlM_jsArithmetic, Option.some.injEq] at bytes
    have within := fits.textures
    rwa [bytes] at within

theorem vertexLimit_small : vertexLimit + 1 < 2 ^ 53 := by decide

theorem instanceLimit_small : instanceLimit + 1 < 2 ^ 53 := by decide

theorem textureByteLimit_small : textureByteLimit + 1 < 2 ^ 53 := by decide

theorem sound_of_not_exists {amounts : List JsNumber}
    (none : ¬ ∃ amount ∈ amounts, amount.deficient = true) :
    ∀ amount ∈ amounts, amount.deficient = false := by
  intro amount member
  by_contra deficient
  exact none ⟨amount, member, by simpa using deficient⟩

theorem Summed.vertices_le (summed : Summed scene) (measured : Measured scene rendering) :
    held scene.vertexCounts ≤ vertexLimit := by
  by_cases deficient : ∃ count ∈ scene.vertexCounts, count.deficient = true
  · exact measured.vertices deficient
  · exact JsNumber.whole_le_of_sum vertexLimit_small (sound_of_not_exists deficient) summed.vertices

theorem Summed.instances_le (summed : Summed scene) (measured : Measured scene rendering) :
    held (scene.instanceCounts ++ scene.geometryInstances rendering) ≤ instanceLimit := by
  by_cases uncounted : (∃ count ∈ scene.instanceCounts, count.deficient = true) ∨
      scene.geometryInstances rendering ≠ []
  · exact measured.instances uncounted
  · obtain ⟨sound, none⟩ := not_or.mp uncounted
    rw [not_not.mp none, List.append_nil]
    exact JsNumber.whole_le_of_sum instanceLimit_small (sound_of_not_exists sound) summed.instances

theorem Summed.textures_le (summed : Summed scene) (measured : Measured scene rendering) :
    held (scene.bytesOf (scene.texturesIn rendering.slots)) ≤ textureByteLimit := by
  by_cases uncounted : (∃ bytes ∈ scene.textureBytes jsArithmetic, bytes.deficient = true) ∨
      ∃ tex ∈ scene.texturesIn rendering.slots, tex ∉ scene.texturesIn materialTextureKeys
  · exact measured.textures uncounted
  · obtain ⟨sound, listed⟩ := not_or.mp uncounted
    have inside : scene.texturesIn rendering.slots ⊆ scene.texturesIn materialTextureKeys := by
      intro tex member
      by_contra other
      exact listed ⟨tex, member, other⟩
    have fewer : held (scene.bytesOf (scene.texturesIn rendering.slots)) ≤
        held (scene.bytesOf (scene.texturesIn materialTextureKeys)) :=
      held_mono (nodup_dataTextures scene.textures _ _) inside
    have counted : held (scene.bytesOf (scene.texturesIn materialTextureKeys)) ≤ textureByteLimit := by
      rw [← held_truthy]
      exact JsNumber.whole_le_of_sum textureByteLimit_small (sound_of_not_exists sound) summed.textures
    exact fewer.trans counted

theorem Encloses.inRange {low high : JsNumber} {coordinates : List JsNumber}
    (encloses : Encloses low high coordinates) (numbers : .nan ∉ coordinates)
    (above : low.less (.finite (-1 / 2)) = false) (below : (JsNumber.finite (1 / 2)).less high = false) :
    ∀ c ∈ coordinates, (JsNumber.finite (-1 / 2)).atMost c ∧ c.atMost (.finite (1 / 2)) := by
  intro c member
  obtain ⟨lower, upper⟩ := encloses.bounds numbers c member
  have number : c ≠ .nan := fun is => numbers (is ▸ member)
  cases c with
  | nan => exact absurd rfl number
  | negInfinity => cases low <;> simp_all [JsNumber.atMost, JsNumber.less]
  | posInfinity => cases high <;> simp_all [JsNumber.atMost, JsNumber.less]
  | finite x =>
      constructor
      · cases low with
        | nan => simp [JsNumber.atMost] at lower
        | posInfinity => simp [JsNumber.atMost, JsNumber.less] at lower
        | negInfinity => simp [JsNumber.less] at above
        | finite l =>
            simp only [JsNumber.less, decide_eq_false_iff_not, not_lt] at above
            have le : l ≤ x := by simpa [JsNumber.atMost, JsNumber.less] using lower
            simpa [JsNumber.atMost, JsNumber.less] using above.trans le
      · cases high with
        | nan => simp [JsNumber.atMost] at upper
        | negInfinity => simp [JsNumber.atMost, JsNumber.less] at upper
        | posInfinity => simp [JsNumber.less] at below
        | finite h =>
            simp only [JsNumber.less, decide_eq_false_iff_not, not_lt] at below
            have le : x ≤ h := by simpa [JsNumber.atMost, JsNumber.less] using upper
            simpa [JsNumber.atMost, JsNumber.less] using le.trans below

theorem coordinates_inRange (documented : SetFromObject scene rendering) {box : Box3 JsNumber}
    (is : scene.box scene.wraps = some box) (inRange : serviceOutOfRange jsArithmetic box = false)
    (numbers : ∀ point ∈ scene.points rendering, .nan ∉ [point.x, point.y, point.z]) :
    ∀ point ∈ scene.points rendering, ∀ c ∈ [point.x, point.y, point.z],
      (JsNumber.finite (-1 / 2)).atMost c ∧ c.atMost (.finite (1 / 2)) := by
  simp only [serviceOutOfRange, Bool.or_eq_false_iff] at inRange
  obtain ⟨⟨⟨⟨⟨lowX, lowY⟩, lowZ⟩, highX⟩, highY⟩, highZ⟩ := inRange
  have axis {coordinate : Point → JsNumber}
      (part : ∀ point, coordinate point ∈ [point.x, point.y, point.z]) :
      JsNumber.nan ∉ (scene.points rendering).map coordinate := by
    intro member
    obtain ⟨point, inside, undefined⟩ := List.mem_map.mp member
    exact numbers point inside (undefined ▸ part point)
  have x := (documented.x box is).inRange (axis fun _ => by simp) lowX highX
  have y := (documented.y box is).inRange (axis fun _ => by simp) lowY highY
  have z := (documented.z box is).inRange (axis fun _ => by simp) lowZ highZ
  intro point inside c member
  simp only [List.mem_cons, List.not_mem_nil, or_false] at member
  rcases member with rfl | rfl | rfl
  · exact x _ (List.mem_map_of_mem inside)
  · exact y _ (List.mem_map_of_mem inside)
  · exact z _ (List.mem_map_of_mem inside)

end

/-- The walk of a scene enters each node once and ends at the last level. A scene that passes is a tree
of the levels and draw calls that it may have, and it is within the other limits exactly when what
the sums and the comparisons leave out is. -/
theorem scene_limits {O T : Type} [DecidableEq O] [DecidableEq T] (scene : Scene O T JsNumber)
    (rendering : Rendering O) (documented : SetFromObject scene rendering) :
    (∀ s, walk (scene.children scene.wraps) (scene.visit (serviceVisit jsArithmetic scene)) true
        (depthLimit + 1) 0 (scene.walkRoot scene.wraps) { totals := .initial jsArithmetic } = some s →
      s.visited.Nodup ∧ s.maxDepth ≤ depthLimit) ∧
    (passes (servicePostValidate jsArithmetic scene) = true →
      Shaped scene ∧ (Limited scene rendering ↔ Measured scene rendering)) := by
  constructor
  · intro s walked
    exact walk_enters_once walked (by omega) ⟨List.nodup_nil, Nat.zero_le _⟩
  · intro passed
    obtain ⟨root, -, -, -, totals, fits⟩ := service_passes_iff.mp passed
    obtain ⟨box, is, -, inRange⟩ := fits.box
    have summed := fits.summed
    refine ⟨⟨fits.tree, fun _ below => fits.tree.reaches below, summed.drawCalls⟩, ?_, ?_⟩
    · intro limited
      refine ⟨fun _ => limited.vertices, fun _ => limited.instances, fun _ => limited.textures, ?_⟩
      intro point member undefined
      exact absurd (limited.coordinates point member .nan undefined).2 (by decide)
    · intro measured
      exact ⟨summed.vertices_le measured, summed.instances_le measured, summed.textures_le measured,
        coordinates_inRange documented is inRange measured.coordinates⟩


/-! ## Scenes of two meshes -/

/-- A group of two meshes with one vertex each and these counts. -/
def twoMeshes (first second : JsNumber) : Scene Nat Empty JsNumber where
  heap o :=
    match o with
    | 0 => some { isObject3D := true, isGroup := true, type := "Group", children := [1, 2] }
    | 1 => some { isObject3D := true, isMesh := true, type := "Mesh", parent := some 0, position := some first }
    | 2 => some { isObject3D := true, isMesh := true, type := "Mesh", parent := some 0, position := some second }
    | _ => none
  textures tex := tex.elim
  root := 0
  box _ := some ⟨.finite 0, .finite 0, .finite 0, .finite 0, .finite 0, .finite 0, false⟩

def atOrigin : Rendering Nat where
  geometryInstances _ := none
  vertices o := if o = 0 then [] else [⟨.finite 0, .finite 0, .finite 0⟩]
  slots := ["map", "envMap"]

theorem vertices_atOrigin {scene : Scene Nat Empty JsNumber} {point : Point}
    (member : point ∈ scene.points atOrigin) : point = ⟨.finite 0, .finite 0, .finite 0⟩ := by
  obtain ⟨o, -, inside⟩ := List.mem_flatMap.mp member
  by_cases root : o = 0
  · simp [atOrigin, root] at inside
  · simpa [atOrigin, root] using inside

theorem documented_atOrigin (first second : JsNumber) : SetFromObject (twoMeshes first second) atOrigin := by
  have origin : ∀ coordinates : List JsNumber, (∀ c ∈ coordinates, c = .finite 0) →
      Encloses (.finite 0) (.finite 0) coordinates := by
    intro coordinates zero
    constructor
    · intro undefined
      cases zero _ undefined
    · intro _ c member
      rw [zero c member]
      decide
  constructor
  all_goals
    rintro box ⟨⟩
    apply origin
    intro c member
    obtain ⟨point, inside, rfl⟩ := List.mem_map.mp member
    rw [vertices_atOrigin inside]

theorem two_vertices_limited : Limited (twoMeshes (.finite 1) (.finite 1)) atOrigin := by
  have passed : passes (servicePostValidate jsArithmetic (twoMeshes (.finite 1) (.finite 1))) = true := by
    decide +kernel
  apply ((scene_limits _ atOrigin (documented_atOrigin _ _)).2 passed).2.mpr
  constructor
  · intro deficient
    exact absurd deficient (by decide +kernel)
  · rintro (deficient | instanced)
    · exact absurd deficient (by decide +kernel)
    · exact absurd rfl instanced
  · rintro (deficient | ⟨tex, -⟩)
    · exact absurd deficient (by decide +kernel)
    · exact tex.elim
  · intro point member
    rw [vertices_atOrigin member]
    decide

/-- A negative count takes away from the sum of the vertices. -/
theorem negative_count_passes :
    ¬ ∀ (scene : Scene Nat Empty JsNumber) (rendering : Rendering Nat), SetFromObject scene rendering →
      passes (servicePostValidate jsArithmetic scene) = true → Limited scene rendering := by
  intro limits
  have passed : passes (servicePostValidate jsArithmetic (twoMeshes (.finite 300000) (.finite (-100000)))) =
      true := by
    decide +kernel
  have limited := limits _ atOrigin (documented_atOrigin _ _) passed
  have many : held (twoMeshes (.finite 300000) (.finite (-100000))).vertexCounts = 300000 := by
    have counts : (twoMeshes (.finite 300000) (.finite (-100000))).vertexCounts =
        [.finite 300000, .finite (-100000)] := by
      decide +kernel
    rw [counts]
    norm_num [held, JsNumber.whole]
    rfl
  have bound := limited.vertices
  rw [many] at bound
  exact absurd bound (by decide)

end GenSubnet.Render
