import GenSubnet.Library.Traversal

/-!
# The limits of a scene

`postValidate` of the published validator and of the render service: each walks the graph below the
returned root once and holds what it has counted against the limits.
-/

namespace GenSubnet.Render
open Library

/-! ## What is returned -/

/-- What JavaScript computes with the values that counts have: `+`, which can throw, `>` with a
limit, `typeof … === 'number'`, the truth of a value, and the comparisons with -0.5 and 0.5. -/
structure Arithmetic (N : Type) where
  zero : N
  add : N → N → Option N
  exceeds : N → Nat → Bool
  isNumber : N → Bool
  truthy : N → Bool
  belowMin : N → Bool
  aboveMax : N → Bool

structure Texture (N : Type) where
  isDataTexture : Bool
  /-- `image.data.byteLength` -/
  byteLength : Option N

inductive GeometryIndex
  | absent
  /-- A `BufferAttribute` or an `InterleavedBufferAttribute`. -/
  | attribute
  | other
deriving DecidableEq

/-- The textures in the slots of a material. -/
abbrev Material (T : Type) := String → Option T

inductive MaterialValue (T : Type)
  | falsy
  | single (material : Material T)
  /-- An item that is null or undefined is `none`. -/
  | array (materials : List (Option (Material T)))

structure SceneNode (O T N : Type) where
  isObject3D : Bool := false
  isGroup : Bool := false
  isMesh : Bool := false
  isLine : Bool := false
  isLineSegments : Bool := false
  isPoints : Bool := false
  isInstancedMesh : Bool := false
  type : String := ""
  parent : Option O := none
  children : List O := []
  /-- `geometry.attributes.position.count`, where there are positions. -/
  position : Option N := none
  index : GeometryIndex := .absent
  /-- `none` where it is null or undefined. -/
  count : Option N := none
  material : MaterialValue T := .falsy

structure Box3 (N : Type) where
  minX : N
  minY : N
  minZ : N
  maxX : N
  maxY : N
  maxZ : N
  isEmpty : Bool

/-- What a module has returned. A value without node is null or undefined. -/
structure Scene (O T N : Type) where
  heap : O → Option (SceneNode O T N)
  textures : T → Texture N
  root : O
  /-- `new Box3().setFromObject(…)` of the root, or of the group that wraps it. -/
  box : Bool → Option (Box3 N)

def SceneNode.draws {O T N : Type} (node : SceneNode O T N) : Bool :=
  node.isMesh || node.isLine || node.isPoints

variable {O T N : Type} [DecidableEq O] [DecidableEq T]

namespace Scene
variable (scene : Scene O T N)

/-- A node of the graph, or the group that wraps the root. -/
def node : Option O → Option (SceneNode O T N)
  | none => some { isObject3D := true, isGroup := true, type := "Group" }
  | some o => scene.heap o

/-- `add` takes the root from the children of its parent. -/
def childrenOf (wraps : Bool) (o : O) : List O :=
  match scene.heap o with
  | none => []
  | some node =>
      if wraps ∧ (scene.heap scene.root).bind SceneNode.parent = some o then
        node.children.erase scene.root
      else node.children

def children (wraps : Bool) : Option O → List (Option O)
  | none => [some scene.root]
  | some o => (scene.childrenOf wraps o).map some

def walkRoot (wraps : Bool) : Option O := if wraps then none else some scene.root

end Scene

/-! ## What a walk counts -/

structure Totals (T N : Type) where
  vertices : N
  drawCalls : Nat
  instances : N
  /-- The textures that are counted, and their bytes. -/
  textures : List T × N
  invalidIndices : Nat

variable (arith : Arithmetic N)

def Totals.initial : Totals T N := ⟨arith.zero, 0, arith.zero, ([], arith.zero), 0⟩

def countTexture (textures : T → Texture N) (counts : N → Bool) (counted : List T × N) (tex : T) :
    Option (List T × N) :=
  if !(textures tex).isDataTexture || tex ∈ counted.1 then some counted
  else
    match (textures tex).byteLength with
    | none => some (tex :: counted.1, counted.2)
    | some bytes =>
        if counts bytes then (arith.add counted.2 bytes).map (tex :: counted.1, ·)
        else some (tex :: counted.1, counted.2)

/-- The textures in the slots of the materials. -/
def inSlots (keys : List String) (materials : List (Material T)) : List T :=
  materials.flatMap fun material => keys.filterMap material

def addVertices (node : SceneNode O T N) (vertices : N) : Option N :=
  match node.position with
  | some count => arith.add vertices count
  | none => some vertices

/-- One drawn node, with what the validators do differently. -/
def visitDrawn (addInstances : SceneNode O T N → N → Option N)
    (addTextures : SceneNode O T N → List T × N → Option (List T × N))
    (invalidIndex : SceneNode O T N → Bool) (node : SceneNode O T N) (totals : Totals T N) :
    Option (Totals T N) :=
  if !node.draws then some totals
  else do
    let vertices ← addVertices arith node totals.vertices
    let instances ← addInstances node totals.instances
    let textures ← addTextures node totals.textures
    some {
      vertices
      drawCalls := totals.drawCalls + 1
      instances
      textures
      invalidIndices := if invalidIndex node then totals.invalidIndices + 1 else totals.invalidIndices }

/-- A walk reads nothing of null. -/
def Scene.visit (scene : Scene O T N)
    (visitNode : SceneNode O T N → Totals T N → Option (Totals T N)) (o : Option O)
    (totals : Totals T N) : Option (Totals T N) :=
  (scene.node o).bind fun node => visitNode node totals

/-! ## Reports -/

inductive SceneRule
  | invalidReturnType
  | cycleDetected
  | depthLimitExceeded
  | invalidGeometryIndex
  | vertexLimitExceeded
  | drawCallLimitExceeded
  | instanceLimitExceeded
  | textureDataExceeded
  | emptyScene
  | boundingBoxOutOfRange
deriving DecidableEq

def vertexLimit : Nat := 250000

def drawCallLimit : Nat := 200

def depthLimit : Nat := 32

def instanceLimit : Nat := 50000

def textureByteLimit : Nat := 4 * 1048576

structure SceneMetrics (N : Type) where
  vertices : N
  drawCalls : Nat
  depth : Nat
  instances : N
  textureBytes : N
  bbox : Option (Box3 N)

structure Report (N : Type) where
  failures : List SceneRule
  metrics : Option (SceneMetrics N) := none

def sceneMetrics (s : Walked (Option O) (Totals T N)) (bbox : Option (Box3 N)) : SceneMetrics N :=
  ⟨s.totals.vertices, s.totals.drawCalls, s.maxDepth, s.totals.instances, s.totals.textures.2, bbox⟩

/-- The failure of a rule, where its check fails. -/
def SceneRule.onlyIf (rule : SceneRule) (fails : Bool) : List SceneRule := if fails then [rule] else []

/-- A scene passes where the validation ends without failures. -/
def passes (report : Option (Report N)) : Bool := report.any (·.failures.isEmpty)

/-! ## The published validator -/

def allowedRootTypes : List String := ["Group", "Mesh", "LineSegments", "Points"]

def mapProps : List String :=
  ["map", "normalMap", "roughnessMap", "metalnessMap", "aoMap", "emissiveMap", "displacementMap",
    "bumpMap", "alphaMap", "envMap", "lightMap", "specularIntensityMap", "specularColorMap",
    "sheenRoughnessMap", "sheenColorMap", "transmissionMap", "thicknessMap", "clearcoatMap",
    "clearcoatNormalMap", "clearcoatRoughnessMap", "iridescenceMap", "iridescenceThicknessMap"]

/-- An item of an array that is null is skipped. -/
def MaterialValue.truthy : MaterialValue T → List (Material T)
  | .falsy => []
  | .single material => [material]
  | .array materials => materials.filterMap id

def minerInstances (node : SceneNode O T N) (instances : N) : Option N :=
  if node.isInstancedMesh then arith.add instances (node.count.getD arith.zero) else some instances

def minerTextures (scene : Scene O T N) (node : SceneNode O T N) (counted : List T × N) :
    Option (List T × N) :=
  (inSlots mapProps node.material.truthy).foldlM (countTexture arith scene.textures arith.isNumber) counted

def minerVisit (scene : Scene O T N) : SceneNode O T N → Totals T N → Option (Totals T N) :=
  visitDrawn arith (minerInstances arith) (minerTextures arith scene) fun _ => false

def minerOutOfRange (box : Box3 N) : Bool :=
  arith.belowMin box.minX || arith.aboveMax box.maxX || arith.belowMin box.minY ||
    arith.aboveMax box.maxY || arith.belowMin box.minZ || arith.aboveMax box.maxZ

/-- `postValidate` of the published validator. -/
def minerPostValidate (scene : Scene O T N) : Option (Report N) :=
  match scene.heap scene.root with
  | none => some ⟨[.invalidReturnType], none⟩
  | some root =>
      if !root.isObject3D then some ⟨[.invalidReturnType], none⟩
      else if root.type ∉ allowedRootTypes then some ⟨[.invalidReturnType], none⟩
      else do
        let wraps := root.type != "Group"
        -- the walk fails where `depth > LIMITS.depth + 1`
        let s ← walk (scene.children wraps) (scene.visit (minerVisit arith scene)) false (depthLimit + 2)
          0 (scene.walkRoot wraps) { totals := .initial arith }
        if s.cycle then some ⟨[.cycleDetected], some (sceneMetrics s none)⟩
        else do
          let box ← scene.box wraps
          let failures :=
            SceneRule.depthLimitExceeded.onlyIf s.tooDeep ++
            SceneRule.vertexLimitExceeded.onlyIf (arith.exceeds s.totals.vertices vertexLimit) ++
            SceneRule.drawCallLimitExceeded.onlyIf (s.totals.drawCalls > drawCallLimit) ++
            SceneRule.depthLimitExceeded.onlyIf (s.maxDepth > depthLimit) ++
            SceneRule.instanceLimitExceeded.onlyIf (arith.exceeds s.totals.instances instanceLimit) ++
            SceneRule.textureDataExceeded.onlyIf
              (arith.exceeds s.totals.textures.2 textureByteLimit) ++
            (if box.isEmpty then [.emptyScene]
            else SceneRule.boundingBoxOutOfRange.onlyIf (minerOutOfRange arith box))
          some ⟨failures, some (sceneMetrics s (if box.isEmpty then none else some box))⟩

/-! ## The render service -/

def materialTextureKeys : List String :=
  ["map", "normalMap", "roughnessMap", "metalnessMap", "emissiveMap", "aoMap", "bumpMap",
    "displacementMap", "alphaMap", "lightMap", "clearcoatMap", "clearcoatNormalMap",
    "clearcoatRoughnessMap", "sheenColorMap", "sheenRoughnessMap", "transmissionMap",
    "thicknessMap", "specularIntensityMap", "specularColorMap", "iridescenceMap",
    "iridescenceThicknessMap", "anisotropyMap"]

/-- A slot of null cannot be read. -/
def MaterialValue.items : MaterialValue T → Option (List (Material T))
  | .falsy => some []
  | .single material => some [material]
  | .array materials => materials.mapM id

def serviceInstances (node : SceneNode O T N) (instances : N) : Option N :=
  match node.isInstancedMesh, node.count with
  | true, some count => arith.add instances count
  | _, _ => some instances

/-- `collectTextureBytes` -/
def serviceTextures (scene : Scene O T N) (node : SceneNode O T N) (counted : List T × N) :
    Option (List T × N) :=
  node.material.items.bind fun materials =>
    (inSlots materialTextureKeys materials).foldlM (countTexture arith scene.textures arith.truthy) counted

def invalidIndex (node : SceneNode O T N) : Bool := node.index = .other

def serviceVisit (scene : Scene O T N) : SceneNode O T N → Totals T N → Option (Totals T N) :=
  visitDrawn arith (serviceInstances arith) (serviceTextures arith scene) invalidIndex

def serviceOutOfRange (box : Box3 N) : Bool :=
  arith.belowMin box.minX || arith.belowMin box.minY || arith.belowMin box.minZ ||
    arith.aboveMax box.maxX || arith.aboveMax box.maxY || arith.aboveMax box.maxZ

def validRoot (root : SceneNode O T N) : Bool :=
  root.isGroup || root.isMesh || root.isLineSegments || root.isPoints

/-- `postValidate` of the render service. -/
def servicePostValidate (scene : Scene O T N) : Option (Report N) :=
  match scene.heap scene.root with
  | none => some ⟨[.invalidReturnType], none⟩
  | some root =>
      if !root.isObject3D then some ⟨[.invalidReturnType], none⟩
      else if !validRoot root then some ⟨[.invalidReturnType], none⟩
      else do
        let wraps := !root.isGroup
        let s ← walk (scene.children wraps) (scene.visit (serviceVisit arith scene)) true (depthLimit + 1)
          0 (scene.walkRoot wraps) { totals := .initial arith }
        let indices := List.replicate s.totals.invalidIndices SceneRule.invalidGeometryIndex
        if s.flagged then
          some ⟨indices ++ SceneRule.cycleDetected.onlyIf s.cycle ++
            SceneRule.depthLimitExceeded.onlyIf s.tooDeep, none⟩
        else do
          let box ← scene.box wraps
          let failures :=
            indices ++
            (if box.isEmpty then [.emptyScene]
            else SceneRule.boundingBoxOutOfRange.onlyIf (serviceOutOfRange arith box)) ++
            SceneRule.vertexLimitExceeded.onlyIf (arith.exceeds s.totals.vertices vertexLimit) ++
            SceneRule.drawCallLimitExceeded.onlyIf (s.totals.drawCalls > drawCallLimit) ++
            SceneRule.instanceLimitExceeded.onlyIf (arith.exceeds s.totals.instances instanceLimit) ++
            SceneRule.textureDataExceeded.onlyIf (arith.exceeds s.totals.textures.2 textureByteLimit)
          some ⟨failures, some (sceneMetrics s (if box.isEmpty then none else some box))⟩

end GenSubnet.Render
