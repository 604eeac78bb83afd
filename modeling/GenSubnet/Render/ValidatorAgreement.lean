import GenSubnet.Render.StaticAnalysis
import GenSubnet.Render.SceneValidation

/-!
# The published validator and the render service

What the render service rejects of what the published validator passes: the names of properties that
only the service forbids, and what only the service reads of a scene.
-/

namespace GenSubnet.Render
open Library

/-! ## Static analysis -/

/-- Both throw, or both return failures or none. -/
def SameOutcome : Except String (List StaticFailure) → Except String (List StaticFailure) → Prop
  | .error _, .error _ => True
  | .ok failures, .ok others => failures = [] ↔ others = []
  | _, _ => False

/-- A member of a forbidden name, as `x.constructor` has. -/
def ReadsForbidden (path : Path) : Prop :=
  path.node.type = "MemberExpression" ∧
    ∃ name ∈ forbiddenPropertyNames, propertyName path.node = some name

section
variable (babel : Babel)

/-- Two results that differ at most by failures of the service. -/
inductive Widens (clean : Prop) :
    Except String (List StaticFailure) → Except String (List StaticFailure) → Prop
  | thrown (error : String) : Widens clean (.error error) (.error error)
  | returned {failures others : List StaticFailure} (same : others = [] ↔ failures = [] ∧ clean) :
      Widens clean (.ok failures) (.ok others)

theorem propertyAccess_eq_nil_iff {path : Path} :
    propertyAccess forbiddenPropertyNames path = [] ↔
      ¬∃ name ∈ forbiddenPropertyNames, propertyName path.node = some name := by
  unfold propertyAccess
  cases propertyName path.node with
  | none => simp
  | some name => by_cases member : name ∈ forbiddenPropertyNames <;> simp [member]

theorem propertyAccess_nil (path : Path) : propertyAccess [] path = [] := by
  unfold propertyAccess
  cases propertyName path.node <;> simp

theorem enter_widens (path : Path) :
    Widens (¬ReadsForbidden path) (enter babel [] path) (enter babel forbiddenPropertyNames path) := by
  by_cases member : path.node.type = "MemberExpression"
  · have reads : ¬ReadsForbidden path ↔ propertyAccess forbiddenPropertyNames path = [] := by
      rw [propertyAccess_eq_nil_iff]
      simp [ReadsForbidden, member]
    simp only [enter, member]
    cases visitMember babel path with
    | error thrown => exact .thrown thrown
    | ok failures =>
        refine .returned ?_
        rw [reads, propertyAccess_nil]
        simp only [List.nil_append, List.append_eq_nil_iff]
        tauto
  · have reads : ¬ReadsForbidden path := fun reads => member reads.1
    have same : enter babel forbiddenPropertyNames path = enter babel [] path := by
      unfold enter
      split <;> first | rfl | contradiction
    rw [same]
    cases enter babel [] path with
    | error thrown => exact .thrown thrown
    | ok failures => exact .returned (by simp [reads])

theorem visits_widens (paths : List Path) :
    Widens (∀ path ∈ paths, ¬ReadsForbidden path)
      ((paths.mapM (enter babel [])).map List.flatten)
      ((paths.mapM (enter babel forbiddenPropertyNames)).map List.flatten) := by
  induction paths with
  | nil => exact .returned (by simp)
  | cons path rest ih =>
      have here := enter_widens babel path
      simp only [List.mapM_cons]
      generalize enter babel [] path = miner at here ⊢
      generalize enter babel forbiddenPropertyNames path = service at here ⊢
      generalize rest.mapM (enter babel []) = minerRest at ih ⊢
      generalize rest.mapM (enter babel forbiddenPropertyNames) = serviceRest at ih ⊢
      cases here with
      | thrown error => exact .thrown error
      | @returned failures others same =>
          cases minerRest with
          | error thrown =>
              cases serviceRest with
              | error thrown =>
                  cases ih
                  exact .thrown thrown
              | ok _ => cases ih
          | ok minerRest =>
              cases serviceRest with
              | error thrown => cases ih
              | ok serviceRest =>
                  obtain ⟨sameRest⟩ := ih
                  refine .returned ?_
                  simp only [List.flatten_cons, List.append_eq_nil_iff, List.forall_mem_cons]
                  tauto

theorem walkAst_widens (ast : Ast) (failures : List StaticFailure) :
    Widens (∀ path ∈ ast.paths [], ¬ReadsForbidden path) (walkAst babel [] ast failures)
      (walkAst babel forbiddenPropertyNames ast failures) := by
  have visits := visits_widens babel (ast.paths [])
  simp only [walkAst]
  generalize (ast.paths []).mapM (enter babel []) = miner at visits ⊢
  generalize (ast.paths []).mapM (enter babel forbiddenPropertyNames) = service at visits ⊢
  cases miner with
  | error thrown =>
      cases service with
      | error thrown =>
          cases visits
          exact .thrown thrown
      | ok _ => cases visits
  | ok pushed =>
      cases service with
      | error thrown => cases visits
      | ok others =>
          obtain ⟨same⟩ := visits
          refine .returned ?_
          simp only [List.append_eq_nil_iff]
          tauto

theorem staticAnalyze_widens (ast : Ast) :
    Widens (∀ path ∈ ast.paths [], ¬ReadsForbidden path) (minerStaticAnalyze babel ast)
      (serviceStaticAnalyze babel ast) := by
  simp only [minerStaticAnalyze, serviceStaticAnalyze, staticAnalyze]
  split
  · exact .returned (by simp)
  · split_ifs
    all_goals first | exact walkAst_widens babel ast _ | exact .returned (by simp)

/-- The two analyses differ exactly where the published one returns no failures for a module that
has a member of a forbidden name. -/
theorem sameOutcome_iff (ast : Ast) :
    SameOutcome (minerStaticAnalyze babel ast) (serviceStaticAnalyze babel ast) ↔
      (minerStaticAnalyze babel ast = .ok [] → ∀ path ∈ ast.paths [], ¬ReadsForbidden path) := by
  have widens := staticAnalyze_widens babel ast
  generalize minerStaticAnalyze babel ast = miner at widens ⊢
  generalize serviceStaticAnalyze babel ast = service at widens ⊢
  cases widens with
  | thrown error => simp [SameOutcome]
  | returned same =>
      simp only [SameOutcome, Except.ok.injEq]
      tauto

end

/-! ## Scenes -/

section
variable {O T N : Type} [DecidableEq O] [DecidableEq T] (arith : Arithmetic N) (scene : Scene O T N)

/-- The service wraps a root that is not a group. -/
def Scene.wraps : Bool := ((scene.heap scene.root).map fun root => !root.isGroup).getD false

/-- The published validator wraps a root whose type is not that of a group. -/
def Scene.minerWraps : Bool := ((scene.heap scene.root).map fun root => root.type != "Group").getD false

/-- The nodes of the levels that a scene may have. -/
def Scene.nodes (wraps : Bool) : List (SceneNode O T N) :=
  (preorder (scene.children wraps) (depthLimit + 1) (scene.walkRoot wraps)).filterMap scene.node

/-- The nodes that the validators count. -/
def Scene.drawn : List (SceneNode O T N) := (scene.nodes scene.wraps).filter SceneNode.draws

def Scene.IsTree (wraps : Bool) : Prop :=
  Tree (scene.children wraps) (depthLimit + 1) (scene.walkRoot wraps)

/-- The textures, each once, where it comes first. -/
def dataTextures (textures : T → Texture N) (seen : List T) : List T → List T
  | [] => []
  | tex :: rest =>
      if !(textures tex).isDataTexture || tex ∈ seen then dataTextures textures seen rest
      else tex :: dataTextures textures (tex :: seen) rest

/-- The sum of the values is computed and does not exceed a limit. -/
def Within (limit : Nat) (values : List N) : Prop :=
  ∃ total, values.foldlM arith.add arith.zero = some total ∧ arith.exceeds total limit = false

/-- The bytes of the data textures in the slots that the service reads. -/
def Scene.textureBytes : List N :=
  let materials := scene.drawn.flatMap fun node => (node.material.items).getD []
  ((dataTextures scene.textures [] (inSlots materialTextureKeys materials)).filterMap fun tex =>
    (scene.textures tex).byteLength).filter arith.truthy

/-- What the service asks of a scene that the published validator passes. -/
structure Keeps : Prop where
  root : ∃ root, scene.heap scene.root = some root ∧ validRoot root
  /-- Where only one of the two wraps the root in a group. -/
  wrapping : scene.wraps ≠ scene.minerWraps →
    scene.IsTree scene.wraps ∧
      ∃ box, scene.box scene.wraps = some box ∧ box.isEmpty = false ∧ serviceOutOfRange arith box = false
  indices : ∀ node ∈ scene.drawn, node.index ≠ .other
  materials : ∀ node ∈ scene.drawn, node.material.items.isSome
  textures : Within arith textureByteLimit (scene.textureBytes arith)
  instances : (∃ node ∈ scene.drawn, node.isInstancedMesh ∧ node.count = none) →
    Within arith instanceLimit
      ((scene.drawn.filter SceneNode.isInstancedMesh).filterMap SceneNode.count)

/-- What a validation that passes has walked and counted. -/
structure Fits (visitNode : SceneNode O T N → Totals T N → Option (Totals T N)) (wraps : Bool)
    (totals : Totals T N) : Prop where
  tree : scene.IsTree wraps
  folds : (preorder (scene.children wraps) (depthLimit + 1) (scene.walkRoot wraps)).foldlM
    (fun totals o => scene.visit visitNode o totals) (Totals.initial arith) = some totals
  indices : totals.invalidIndices = 0
  vertices : arith.exceeds totals.vertices vertexLimit = false
  drawCalls : totals.drawCalls ≤ drawCallLimit
  instances : arith.exceeds totals.instances instanceLimit = false
  textures : arith.exceeds totals.textures.2 textureByteLimit = false
  box : ∃ box, scene.box wraps = some box ∧ box.isEmpty = false ∧ serviceOutOfRange arith box = false

variable {arith scene}

/-! ### What a walk has counted -/

theorem foldlM_visit {visitNode : SceneNode O T N → Totals T N → Option (Totals T N)}
    {nodes : List (Option O)} {before after : Totals T N} :
    nodes.foldlM (fun totals o => scene.visit visitNode o totals) before = some after ↔
      (∀ o ∈ nodes, (scene.node o).isSome) ∧
        (nodes.filterMap scene.node).foldlM (fun totals node => visitNode node totals) before =
          some after := by
  induction nodes generalizing before with
  | nil => simp
  | cons o rest ih =>
      cases is : scene.node o with
      | none => simp [List.foldlM_cons, Scene.visit, is]
      | some node =>
          simp only [List.foldlM_cons, Scene.visit, is, Option.bind_some, List.filterMap_cons,
            List.forall_mem_cons, Option.isSome_some, true_and]
          cases visitNode node before with
          | none => simp
          | some totals => exact ih

variable (arith) in
/-- What the visits of nodes count, each count on its own. -/
structure Counts (addInstances : SceneNode O T N → N → Option N)
    (addTextures : SceneNode O T N → List T × N → Option (List T × N))
    (invalidIndex : SceneNode O T N → Bool) (drawn : List (SceneNode O T N))
    (before after : Totals T N) : Prop where
  vertices : drawn.foldlM (fun n node => addVertices arith node n) before.vertices = some after.vertices
  drawCalls : after.drawCalls = before.drawCalls + drawn.length
  instances : drawn.foldlM (fun n node => addInstances node n) before.instances = some after.instances
  textures : drawn.foldlM (fun counted node => addTextures node counted) before.textures =
    some after.textures
  invalidIndices : after.invalidIndices = before.invalidIndices + drawn.countP invalidIndex

theorem foldlM_visitDrawn {addInstances : SceneNode O T N → N → Option N}
    {addTextures : SceneNode O T N → List T × N → Option (List T × N)}
    {invalidIndex : SceneNode O T N → Bool} {nodes : List (SceneNode O T N)}
    {before after : Totals T N} :
    nodes.foldlM (fun totals node => visitDrawn arith addInstances addTextures invalidIndex node totals)
        before = some after ↔
      Counts arith addInstances addTextures invalidIndex (nodes.filter SceneNode.draws)
        before after := by
  induction nodes generalizing before with
  | nil =>
      constructor
      · rintro ⟨⟩
        exact ⟨rfl, rfl, rfl, rfl, rfl⟩
      · intro counts
        obtain ⟨vertices, drawCalls, instances, textures, invalidIndices⟩ := after
        obtain ⟨v, d, i, t, n⟩ := counts
        cases before
        simp_all
  | cons node rest ih =>
      rw [List.foldlM_cons]
      by_cases draws : node.draws
      · have kept : (node :: rest).filter SceneNode.draws = node :: rest.filter SceneNode.draws := by
          simp [draws]
        rw [kept]
        have step (vertices instances : N) (textures : List T × N)
            (vertexSum : addVertices arith node before.vertices = some vertices)
            (instanceSum : addInstances node before.instances = some instances)
            (textureSum : addTextures node before.textures = some textures) :
            visitDrawn arith addInstances addTextures invalidIndex node before =
              some ⟨vertices, before.drawCalls + 1, instances, textures,
                if invalidIndex node then before.invalidIndices + 1 else before.invalidIndices⟩ := by
          simp [visitDrawn, draws, vertexSum, instanceSum, textureSum]
        constructor
        · intro folds
          obtain ⟨middle, visits, folds⟩ := Option.bind_eq_some_iff.mp folds
          have visited := visits
          simp only [visitDrawn, draws, Bool.not_true, Bool.false_eq_true, if_false] at visited
          obtain ⟨vertices, vertexSum, visited⟩ := Option.bind_eq_some_iff.mp visited
          obtain ⟨instances, instanceSum, visited⟩ := Option.bind_eq_some_iff.mp visited
          obtain ⟨textures, textureSum, -⟩ := Option.bind_eq_some_iff.mp visited
          rw [step vertices instances textures vertexSum instanceSum textureSum, Option.some.injEq] at visits
          subst visits
          obtain ⟨v, d, i, t, n⟩ := ih.mp folds
          refine ⟨?_, ?_, ?_, ?_, ?_⟩
          · rw [List.foldlM_cons, vertexSum]
            exact v
          · simp only [d, List.length_cons]
            omega
          · rw [List.foldlM_cons, instanceSum]
            exact i
          · rw [List.foldlM_cons, textureSum]
            exact t
          · simp only [n, List.countP_cons]
            split <;> omega
        · rintro ⟨v, d, i, t, n⟩
          rw [List.foldlM_cons] at v i t
          obtain ⟨vertices, vertexSum, v⟩ := Option.bind_eq_some_iff.mp v
          obtain ⟨instances, instanceSum, i⟩ := Option.bind_eq_some_iff.mp i
          obtain ⟨textures, textureSum, t⟩ := Option.bind_eq_some_iff.mp t
          rw [step vertices instances textures vertexSum instanceSum textureSum]
          refine ih.mpr ⟨v, ?_, i, t, ?_⟩
          · simp only [d, List.length_cons]
            omega
          · simp only [n, List.countP_cons]
            split <;> omega
      · have dropped : (node :: rest).filter SceneNode.draws = rest.filter SceneNode.draws := by
          simp [draws]
        rw [dropped]
        simpa [visitDrawn, draws] using ih

theorem foldlM_serviceTextures {drawn : List (SceneNode O T N)} {before after : List T × N} :
    drawn.foldlM (fun counted node => serviceTextures arith scene node counted) before = some after ↔
      (∀ node ∈ drawn, node.material.items.isSome) ∧
        (inSlots materialTextureKeys (drawn.flatMap fun node => node.material.items.getD [])).foldlM
          (countTexture arith scene.textures arith.truthy) before = some after := by
  induction drawn generalizing before with
  | nil => simp [inSlots]
  | cons node rest ih =>
      rw [List.foldlM_cons]
      cases items : node.material.items with
      | none => simp [serviceTextures, items]
      | some materials =>
          simp only [serviceTextures, items, Option.bind_some, List.forall_mem_cons, Option.isSome_some,
            true_and, List.flatMap_cons, Option.getD_some, inSlots, List.flatMap_append,
            List.foldlM_append]
          cases (materials.flatMap fun material => materialTextureKeys.filterMap material).foldlM
              (countTexture arith scene.textures arith.truthy) before with
          | none => simp
          | some counted => exact ih

variable (arith) in
theorem foldlM_countTexture (textures : T → Texture N) (counts : N → Bool) (slots : List T)
    (seen : List T) (bytes : N) :
    (slots.foldlM (countTexture arith textures counts) (seen, bytes)).map Prod.snd =
      (((dataTextures textures seen slots).filterMap fun tex => (textures tex).byteLength).filter
        counts).foldlM arith.add bytes := by
  induction slots generalizing seen bytes with
  | nil => rfl
  | cons tex rest ih =>
      rw [List.foldlM_cons]
      by_cases skips : !(textures tex).isDataTexture || tex ∈ seen
      · simp only [countTexture, dataTextures, skips, if_true]
        exact ih seen bytes
      · simp only [countTexture, dataTextures, skips, Bool.false_eq_true, if_false]
        cases length : (textures tex).byteLength with
        | none => simpa [length] using ih (tex :: seen) bytes
        | some n =>
            by_cases counted : counts n
            · cases sum : arith.add bytes n with
              | none => simp [length, counted, sum]
              | some total => simpa [length, counted, sum] using ih (tex :: seen) total
            · simpa [length, counted] using ih (tex :: seen) bytes

theorem foldlM_serviceInstances (drawn : List (SceneNode O T N)) (instances : N) :
    drawn.foldlM (fun n node => serviceInstances arith node n) instances =
      ((drawn.filter SceneNode.isInstancedMesh).filterMap SceneNode.count).foldlM arith.add instances := by
  induction drawn generalizing instances with
  | nil => rfl
  | cons node rest ih =>
      cases instanced : node.isInstancedMesh with
      | false => simpa [List.foldlM_cons, serviceInstances, instanced] using ih instances
      | true =>
          cases count : node.count with
          | none => simpa [List.foldlM_cons, serviceInstances, instanced, count] using ih instances
          | some n =>
              simp only [List.foldlM_cons, serviceInstances, instanced, count, List.filter_cons, if_true,
                List.filterMap_cons]
              exact congrArg _ (funext ih)

theorem foldlM_minerInstances {drawn : List (SceneNode O T N)}
    (counted : ∀ node ∈ drawn, node.isInstancedMesh = true → node.count ≠ none) (instances : N) :
    drawn.foldlM (fun n node => minerInstances arith node n) instances =
      drawn.foldlM (fun n node => serviceInstances arith node n) instances := by
  induction drawn generalizing instances with
  | nil => rfl
  | cons node rest ih =>
      have same : minerInstances arith node instances = serviceInstances arith node instances := by
        cases instanced : node.isInstancedMesh with
        | false => simp [minerInstances, serviceInstances, instanced]
        | true =>
            obtain ⟨count, is⟩ :=
              Option.ne_none_iff_exists'.mp (counted node List.mem_cons_self instanced)
            simp [minerInstances, serviceInstances, instanced, is]
      rw [List.foldlM_cons, List.foldlM_cons, same]
      exact congrArg _ (funext (ih fun node member => counted node (List.mem_cons_of_mem _ member)))

/-! ### What the two validators ask -/

theorem onlyIf_eq_nil_iff {rule : SceneRule} {fails : Bool} : rule.onlyIf fails = [] ↔ fails = false := by
  cases fails <;> simp [SceneRule.onlyIf]

theorem minerOutOfRange_eq (box : Box3 N) : minerOutOfRange arith box = serviceOutOfRange arith box := by
  simp only [minerOutOfRange, serviceOutOfRange]
  ac_rfl

theorem service_passes_iff :
    passes (servicePostValidate arith scene) = true ↔
      ∃ root, scene.heap scene.root = some root ∧ root.isObject3D = true ∧ validRoot root = true ∧
        ∃ totals, Fits arith scene (serviceVisit arith scene) scene.wraps totals := by
  constructor
  · intro passed
    simp only [servicePostValidate] at passed
    split at passed
    · simp [passes] at passed
    · rename_i root is
      refine ⟨root, is, ?_⟩
      split at passed
      · simp [passes] at passed
      · rename_i isObject
        split at passed
        · simp [passes] at passed
        · rename_i valid
          obtain ⟨report, reports, clean⟩ := (Option.any_eq_true _ _).mp passed
          obtain ⟨s, walked, reports⟩ := Option.bind_eq_some_iff.mp reports
          refine ⟨by simpa using isObject, by simpa using valid, s.totals, ?_⟩
          have wraps : scene.wraps = !root.isGroup := by simp [Scene.wraps, is]
          rw [← wraps] at walked reports
          split at reports
          · rename_i flagged
            cases reports
            simp only [Walked.flagged, Bool.or_eq_true] at flagged
            rcases flagged with flagged | flagged <;>
              simp [SceneRule.onlyIf, flagged] at clean
          · rename_i clear
            obtain ⟨box, boxIs, reports⟩ := Option.bind_eq_some_iff.mp reports
            cases reports
            obtain ⟨tree, folds⟩ := walk_clear_iff.mp ⟨s, walked, by simpa using clear, rfl⟩
            simp only [List.isEmpty_iff, List.append_eq_nil_iff, onlyIf_eq_nil_iff,
              List.replicate_eq_nil_iff, decide_eq_false_iff_not, Nat.not_lt] at clean
            obtain ⟨⟨⟨⟨⟨indices, inBox⟩, vertices⟩, drawCalls⟩, instances⟩, textures⟩ := clean
            refine ⟨tree, folds, indices, vertices, drawCalls, instances, textures, box, boxIs, ?_⟩
            by_cases empty : box.isEmpty
            · simp [empty] at inBox
            · simpa [empty, onlyIf_eq_nil_iff] using inBox
  · rintro ⟨root, is, isObject, valid, totals, fits⟩
    have walks : ∃ s, walk (scene.children scene.wraps) (scene.visit (serviceVisit arith scene)) true
        (depthLimit + 1) 0 (scene.walkRoot scene.wraps) { totals := .initial arith } = some s ∧
          s.flagged = false ∧ s.totals = totals := walk_clear_iff.mpr ⟨fits.tree, fits.folds⟩
    obtain ⟨s, walked, clear, rfl⟩ := walks
    obtain ⟨box, boxIs, nonempty, inBox⟩ := fits.box
    have wraps : scene.wraps = !root.isGroup := by simp [Scene.wraps, is]
    rw [wraps] at walked boxIs
    simp [servicePostValidate, is, isObject, valid, walked, clear, boxIs, nonempty, inBox, passes,
      fits.indices, fits.vertices, fits.instances, fits.textures, Nat.not_lt.mpr fits.drawCalls,
      SceneRule.onlyIf]

theorem miner_passes (passed : passes (minerPostValidate arith scene) = true) :
    ∃ root, scene.heap scene.root = some root ∧ root.isObject3D = true ∧
      ∃ totals, Fits arith scene (minerVisit arith scene) scene.minerWraps totals := by
  simp only [minerPostValidate] at passed
  split at passed
  · simp [passes] at passed
  · rename_i root is
    refine ⟨root, is, ?_⟩
    split at passed
    · simp [passes] at passed
    · rename_i isObject
      split at passed
      · simp [passes] at passed
      · obtain ⟨report, reports, clean⟩ := (Option.any_eq_true _ _).mp passed
        obtain ⟨s, walked, reports⟩ := Option.bind_eq_some_iff.mp reports
        refine ⟨by simpa using isObject, s.totals, ?_⟩
        have wraps : scene.minerWraps = (root.type != "Group") := by simp [Scene.minerWraps, is]
        rw [← wraps] at walked reports
        split at reports
        · cases reports
          simp at clean
        · rename_i acyclic
          obtain ⟨box, boxIs, reports⟩ := Option.bind_eq_some_iff.mp reports
          cases reports
          simp only [List.isEmpty_iff, List.append_eq_nil_iff, onlyIf_eq_nil_iff,
            decide_eq_false_iff_not, Nat.not_lt] at clean
          obtain ⟨⟨⟨⟨⟨⟨shallow, vertices⟩, drawCalls⟩, depth⟩, instances⟩, textures⟩, inBox⟩ := clean
          have clear : s.flagged = false := by simp [Walked.flagged, acyclic, shallow]
          obtain ⟨deeper, covers, -, above⟩ := walk_covers walked clear
          have levels : Shallow (scene.children scene.minerWraps) (depthLimit + 1)
              (scene.walkRoot scene.minerWraps) := above (depthLimit + 1) (by omega)
          have same : preorder (scene.children scene.minerWraps) (depthLimit + 2)
                (scene.walkRoot scene.minerWraps) =
              preorder (scene.children scene.minerWraps) (depthLimit + 1)
                (scene.walkRoot scene.minerWraps) := levels.preorder_eq (by omega)
          rw [same] at covers
          have counts := foldlM_visitDrawn.mp (foldlM_visit.mp covers.totals).2
          have indices : s.totals.invalidIndices = 0 := by simp [counts.invalidIndices, Totals.initial]
          refine ⟨⟨levels, covers.nodup⟩, covers.totals, indices, vertices, drawCalls, instances, textures,
            box, boxIs, ?_⟩
          by_cases empty : box.isEmpty
          · simp [empty] at inBox
          · simpa [empty, onlyIf_eq_nil_iff, minerOutOfRange_eq] using inBox

/-! ### The wrapped and the unwrapped scene -/

theorem Scene.preorder_wrapped (unwrapped : scene.IsTree false) (wrapped : scene.IsTree true) :
    preorder (scene.children true) (depthLimit + 1) none =
      none :: preorder (scene.children false) (depthLimit + 1) (some scene.root) := by
  have same (p : Option O)
      (member : p ∈ preorder (scene.children false) (depthLimit + 1) (some scene.root)) :
      scene.children true p = scene.children false p := by
    cases p with
    | none => rfl
    | some o =>
        have apart : some scene.root ∉ scene.children false (some o) :=
          unwrapped.root_not_child member
        simp only [Scene.children, Scene.childrenOf, Bool.false_eq_true, false_and, if_false] at apart ⊢
        cases is : scene.heap o with
        | none => rfl
        | some node =>
            simp only [is, List.mem_map, Option.some.injEq, exists_eq_right] at apart
            simp only [List.erase_of_not_mem apart, ite_self]
  have below : Shallow (scene.children true) depthLimit (some scene.root) :=
    wrapped.shallow (some scene.root) (List.mem_singleton.mpr rfl)
  have levels : preorder (scene.children true) depthLimit (some scene.root) =
      preorder (scene.children false) (depthLimit + 1) (some scene.root) := by
    rw [← below.preorder_eq (Nat.le_succ depthLimit)]
    exact preorder_congr same
  rw [preorder]
  simp [Scene.children, levels]

theorem Scene.nodes_same (unwrapped : scene.IsTree false) (wrapped : scene.IsTree true) :
    ((scene.nodes true).filter SceneNode.draws = (scene.nodes false).filter SceneNode.draws) ∧
      ((∀ o ∈ preorder (scene.children true) (depthLimit + 1) (scene.walkRoot true),
          (scene.node o).isSome) ↔
        ∀ o ∈ preorder (scene.children false) (depthLimit + 1) (scene.walkRoot false),
          (scene.node o).isSome) := by
  have walks := scene.preorder_wrapped unwrapped wrapped
  simp only [Scene.nodes, Scene.walkRoot, if_true, Bool.false_eq_true, if_false, walks]
  constructor
  · simp [Scene.node, SceneNode.draws]
  · simp [Scene.node]

theorem Scene.drawn_same {wraps others : Bool} (tree : scene.IsTree wraps) (other : scene.IsTree others) :
    ((scene.nodes wraps).filter SceneNode.draws = (scene.nodes others).filter SceneNode.draws) ∧
      ((∀ o ∈ preorder (scene.children wraps) (depthLimit + 1) (scene.walkRoot wraps),
          (scene.node o).isSome) →
        ∀ o ∈ preorder (scene.children others) (depthLimit + 1) (scene.walkRoot others),
          (scene.node o).isSome) := by
  cases wraps <;> cases others
  · exact ⟨rfl, id⟩
  · obtain ⟨same, nodes⟩ := scene.nodes_same tree other
    exact ⟨same.symm, nodes.mpr⟩
  · obtain ⟨same, nodes⟩ := scene.nodes_same other tree
    exact ⟨same, nodes.mp⟩
  · exact ⟨rfl, id⟩

/-! ### What the service adds -/

theorem Fits.keeps {totals : Totals T N} {root : SceneNode O T N}
    (is : scene.heap scene.root = some root) (valid : validRoot root = true)
    (fits : Fits arith scene (serviceVisit arith scene) scene.wraps totals) : Keeps arith scene := by
  have counts := foldlM_visitDrawn.mp (foldlM_visit.mp fits.folds).2
  have indices : scene.drawn.countP invalidIndex = 0 := by
    have total : totals.invalidIndices = 0 + scene.drawn.countP invalidIndex := counts.invalidIndices
    rw [fits.indices] at total
    omega
  obtain ⟨materials, textures⟩ := foldlM_serviceTextures.mp counts.textures
  refine ⟨⟨root, is, valid⟩, fun _ => ⟨fits.tree, fits.box⟩, ?_, materials, ?_, fun _ => ?_⟩
  · intro node member
    simpa [invalidIndex] using List.countP_eq_zero.mp indices node member
  · have sum := congrArg (Option.map Prod.snd) textures
    rw [Totals.initial, foldlM_countTexture arith] at sum
    exact ⟨totals.textures.2, sum, fits.textures⟩
  · have sum := counts.instances
    rw [foldlM_serviceInstances] at sum
    exact ⟨totals.instances, sum, fits.instances⟩

theorem Keeps.fits {totals : Totals T N} (keeps : Keeps arith scene)
    (fits : Fits arith scene (minerVisit arith scene) scene.minerWraps totals) :
    ∃ totals, Fits arith scene (serviceVisit arith scene) scene.wraps totals := by
  have inPlace : scene.IsTree scene.wraps ∧
      ∃ box, scene.box scene.wraps = some box ∧ box.isEmpty = false ∧
        serviceOutOfRange arith box = false := by
    by_cases same : scene.wraps = scene.minerWraps
    · rw [same]
      exact ⟨fits.tree, fits.box⟩
    · exact keeps.wrapping same
  obtain ⟨tree, box⟩ := inPlace
  obtain ⟨drawn, nodes⟩ := scene.drawn_same fits.tree tree
  obtain ⟨present, folds⟩ := foldlM_visit.mp fits.folds
  have counts := foldlM_visitDrawn.mp folds
  change Counts arith _ _ _ ((scene.nodes scene.minerWraps).filter SceneNode.draws) _ _ at counts
  rw [drawn] at counts
  change Counts arith _ _ _ scene.drawn _ _ at counts
  obtain ⟨bytes, byteSum, bytesWithin⟩ := keeps.textures
  have textures : ∃ seen,
      (inSlots materialTextureKeys (scene.drawn.flatMap fun node => node.material.items.getD [])).foldlM
        (countTexture arith scene.textures arith.truthy) ([], arith.zero) = some (seen, bytes) := by
    have counted := foldlM_countTexture arith scene.textures arith.truthy
      (inSlots materialTextureKeys (scene.drawn.flatMap fun node => node.material.items.getD []))
      [] arith.zero
    rw [Scene.textureBytes] at byteSum
    rw [byteSum] at counted
    obtain ⟨⟨seen, total⟩, folds, rfl⟩ := Option.map_eq_some_iff.mp counted
    exact ⟨seen, folds⟩
  obtain ⟨seen, textures⟩ := textures
  have instances : ∃ instances,
      scene.drawn.foldlM (fun n node => serviceInstances arith node n) arith.zero = some instances ∧
        arith.exceeds instances instanceLimit = false := by
    by_cases missing : ∃ node ∈ scene.drawn, node.isInstancedMesh ∧ node.count = none
    · obtain ⟨total, sum, within⟩ := keeps.instances missing
      rw [← foldlM_serviceInstances] at sum
      exact ⟨total, sum, within⟩
    · have counted (node : SceneNode O T N) (member : node ∈ scene.drawn)
          (instanced : node.isInstancedMesh = true) : node.count ≠ none :=
        fun none => missing ⟨node, member, instanced, none⟩
      have sum := counts.instances
      rw [foldlM_minerInstances counted] at sum
      exact ⟨totals.instances, sum, fits.instances⟩
  obtain ⟨instances, instanceSum, instancesWithin⟩ := instances
  have indices : scene.drawn.countP invalidIndex = 0 := by
    rw [List.countP_eq_zero]
    intro node member
    simpa [invalidIndex] using keeps.indices node member
  have service : Counts arith (serviceInstances arith) (serviceTextures arith scene) invalidIndex
      scene.drawn (Totals.initial arith) ⟨totals.vertices, totals.drawCalls, instances, (seen, bytes), 0⟩ :=
    ⟨counts.vertices, counts.drawCalls, instanceSum,
      foldlM_serviceTextures.mpr ⟨keeps.materials, textures⟩, by simp [indices, Totals.initial]⟩
  have folds := foldlM_visit.mpr ⟨nodes present, foldlM_visitDrawn.mpr service⟩
  exact ⟨_, tree, folds, rfl, fits.vertices, fits.drawCalls, instancesWithin, bytesWithin, box⟩

/-- A scene that the published validator passes is passed by the service exactly where it keeps to
what only the service reads. -/
theorem service_passes_iff_keeps (passed : passes (minerPostValidate arith scene) = true) :
    passes (servicePostValidate arith scene) = true ↔ Keeps arith scene := by
  obtain ⟨root, is, isObject, totals, fits⟩ := miner_passes passed
  rw [service_passes_iff]
  constructor
  · rintro ⟨root, is, -, valid, totals, fits⟩
    exact fits.keeps is valid
  · intro keeps
    obtain ⟨found, foundIs, valid⟩ := keeps.root
    rw [is, Option.some.injEq] at foundIs
    subst foundIs
    exact ⟨root, is, isObject, valid, keeps.fits fits⟩

end

/-- The service agrees with the published validator on a module exactly where the published analysis
does not accept a member of a forbidden name, and on a scene that the published validator passes
exactly where the scene keeps to what only the service reads. -/
theorem validators_agree (babel : Babel) (ast : Ast) {O T N : Type} [DecidableEq O] [DecidableEq T]
    (arith : Arithmetic N) (scene : Scene O T N) :
    (SameOutcome (minerStaticAnalyze babel ast) (serviceStaticAnalyze babel ast) ↔
      (minerStaticAnalyze babel ast = .ok [] → ∀ path ∈ ast.paths [], ¬ReadsForbidden path)) ∧
      ((passes (minerPostValidate arith scene) = true → passes (servicePostValidate arith scene) = true) ↔
        (passes (minerPostValidate arith scene) = true → Keeps arith scene)) :=
  ⟨sameOutcome_iff babel ast, imp_congr_right fun passed => service_passes_iff_keeps passed⟩

/-- The module `export default function generate() { [].constructor; }`. -/
def constructorModule : Ast :=
  let member := Ast.node "MemberExpression" (some 1) {}
    (.cons "object" (.node "ArrayExpression" (some 1) {} .nil)
      (.cons "property" (.node "Identifier" (some 1) { name := "constructor" } .nil) .nil))
  let body := Ast.node "BlockStatement" (some 1) {}
    (.cons "body" (.node "ExpressionStatement" (some 1) {} (.cons "expression" member .nil)) .nil)
  let generate := Ast.node "FunctionDeclaration" (some 1) {}
    (.cons "id" (.node "Identifier" (some 1) { name := "generate" } .nil) (.cons "body" body .nil))
  let program := Ast.node "Program" (some 1) {}
    (.cons "body" (.node "ExportDefaultDeclaration" (some 1) {} (.cons "declaration" generate .nil)) .nil)
  .node "File" (some 1) {} (.cons "program" program .nil)

/-- What Babel says of that module. -/
def constructorBabel : Babel where
  isFunction type := type == "FunctionDeclaration"
  isReferencedIdentifier path := path.slot != "id" && path.slot != "property"
  hasBinding _ name := name == "generate"
  getBinding _ _ := none

/-- Counts that are whole numbers. -/
def wholeNumbers : Arithmetic Int where
  zero := 0
  add x y := some (x + y)
  exceeds x limit := x > limit
  isNumber _ := true
  truthy x := x != 0
  belowMin x := x < 0
  aboveMax x := x > 0

/-- A group with a mesh whose index is a plain array. -/
def plainIndex : Scene Bool Empty Int where
  heap o := some (
    if o then
      { isObject3D := true, isMesh := true, type := "Mesh", parent := some false, position := some 3,
        index := .other, material := .single fun _ => none }
    else { isObject3D := true, isGroup := true, type := "Group", children := [true] })
  textures tex := tex.elim
  root := false
  box _ := some ⟨0, 0, 0, 0, 0, 0, false⟩

theorem constructor_plainIndex_disagree :
    ¬SameOutcome (minerStaticAnalyze constructorBabel constructorModule)
        (serviceStaticAnalyze constructorBabel constructorModule) ∧
      passes (minerPostValidate wholeNumbers plainIndex) = true ∧
      passes (servicePostValidate wholeNumbers plainIndex) = false := by
  refine ⟨?_, by decide +kernel, by decide +kernel⟩
  have miner : minerStaticAnalyze constructorBabel constructorModule = .ok [] := by decide +kernel
  have service : serviceStaticAnalyze constructorBabel constructorModule =
      .ok [⟨.forbiddenPropertyAccess, ".constructor at line 1"⟩] := by decide +kernel
  rw [miner, service]
  simp [SameOutcome]

end GenSubnet.Render
