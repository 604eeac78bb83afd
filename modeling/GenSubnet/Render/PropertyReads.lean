import GenSubnet.Render.Accepted
import Mathlib

/-!
# Properties that an accepted module reads

A property is read by a member, by an optional chain or by a pattern, under a name that is written
plainly or as a literal. The visitor looks at plain members only.
-/

namespace GenSubnet.Render

/-! ## What the syntax shows -/

/-- The name that a literal gives to a computed key. -/
def literalKey (key : Ast) : Option String :=
  if key.type = "StringLiteral" then some key.attributes.value
  else if key.type = "TemplateLiteral" ∧ (key.all "expressions").isEmpty then
    match key.all "quasis" with
    | [quasi] => quasi.attributes.cooked
    | _ => none
  else none

def isMember (node : Ast) : Bool :=
  node.type == "MemberExpression" || node.type == "OptionalMemberExpression"

/-- The name of the property that a member stands for, where the syntax gives it. -/
def memberName (node : Ast) : Option String :=
  if node.attributes.computed then (node.child "property").bind literalKey else propertyName node

/-- The name of the property that a part of an object pattern reads. -/
def patternKey (prop : Ast) : Option String :=
  if prop.attributes.computed then (prop.child "key").bind literalKey else keyName prop

/-- The objects with properties of their own rule. -/
inductive Source
  | math
  | three
  | mathUtils
  | other
deriving DecidableEq

def source (node : Ast) : Source :=
  if node.isIdentifier "Math" then .math
  else if node.isIdentifier "THREE" then .three
  else if isMember node && (node.child "object").any (·.isIdentifier "THREE") &&
      memberName node == some "MathUtils" then
    .mathUtils
  else .other

def Source.member (source : Source) (name : String) : Source :=
  if source = .three ∧ name = "MathUtils" then .mathUtils else .other

/-- `FORBIDDEN_PROPERTY_NAMES` of any object, `Math.random`, and the blocked names of
`THREE.MathUtils`. -/
def Source.forbids (source : Source) (name : String) : Bool :=
  forbiddenPropertyNames.contains name ||
    match source with
    | .math => name == "random"
    | .mathUtils => name == "seededRandom" || name == "generateUUID"
    | _ => false

mutual
/-- The reads of a pattern that is matched with the value of `source`. -/
def Ast.matched (source : Source) : Ast → List (Source × String)
  | .node type _ _ children =>
      if type = "ObjectPattern" then children.matchedProperties source
      else if type = "ArrayPattern" then children.matchedUnder "elements" .other
      else if type = "AssignmentPattern" then children.matchedUnder "left" source
      else if type = "RestElement" then children.matchedUnder "argument" .other
      else []

def Children.matchedProperties (source : Source) : Children → List (Source × String)
  | .nil => []
  | .cons slot child rest =>
      (if slot = "properties" then child.matchedProperty source else []) ++
        rest.matchedProperties source

def Ast.matchedProperty (source : Source) : Ast → List (Source × String)
  | .node type position attributes children =>
      if type = "ObjectProperty" then
        match patternKey (.node type position attributes children) with
        | some name => (source, name) :: children.matchedUnder "value" (source.member name)
        | none => children.matchedUnder "value" .other
      else []

def Children.matchedUnder (slot : String) (source : Source) : Children → List (Source × String)
  | .nil => []
  | .cons other child rest =>
      (if other = slot then child.matched source else []) ++ rest.matchedUnder slot source
end

/-- The two sides of a declaration, an assignment or a default. -/
def sides (node : Ast) : Option (Ast × Ast) :=
  if node.type = "VariableDeclarator" then
    (node.child "id").bind fun left => (node.child "init").map fun right => (left, right)
  else if node.type = "AssignmentExpression" ∧ node.attributes.operator = "=" ∨
      node.type = "AssignmentPattern" then
    (node.child "left").bind fun left => (node.child "right").map fun right => (left, right)
  else none

/-- A member that is assigned, and not read. -/
def isTarget (path : Path) : Bool :=
  match path.ancestors with
  | [] => false
  | parent :: above =>
      (parent.type == "AssignmentExpression" && path.slot == "left" && parent.attributes.operator == "=") ||
      ((parent.type == "AssignmentPattern" || parent.type == "ForInStatement" ||
        parent.type == "ForOfStatement") && path.slot == "left") ||
      parent.type == "ArrayPattern" || parent.type == "RestElement" ||
      (parent.type == "ObjectProperty" && path.slot == "value" &&
        above.head?.any (·.type == "ObjectPattern"))

/-- The properties that a node reads, each with the object that it is read from. A pattern is read
from the other side of its declaration, assignment or default, and without it from any value. -/
def reads (path : Path) : List (Source × String) :=
  if isMember path.node then
    if isTarget path then []
    else
      match path.node.child "object", memberName path.node with
      | some object, some name => [(source object, name)]
      | _, _ => []
  else if path.node.type = "ObjectPattern" then path.node.matched .other
  else
    match sides path.node with
    | some (left, right) => left.matched (source right)
    | none => []

def isGated (node : Ast) : Bool := node.type == "Identifier" && computedAccessGated.contains node.name

/-- A computed access on a gated global. -/
def gatedAccess (node : Ast) : Bool :=
  if isMember node then node.attributes.computed && (node.child "object").any isGated
  else
    match sides node with
    | some (left, right) =>
        isGated right && left.type == "ObjectPattern" &&
          (left.all "properties").any (·.attributes.computed)
    | none => false

def ForbiddenRead (path : Path) : Prop := ∃ read ∈ reads path, read.1.forbids read.2 = true

instance (path : Path) : Decidable (ForbiddenRead path) :=
  inferInstanceAs (Decidable (∃ read ∈ reads path, read.1.forbids read.2 = true))

/-- A plain member, not on top of an optional chain. -/
def isDotted (node : Ast) : Bool :=
  node.type == "MemberExpression" && !node.attributes.computed &&
    (node.child "object").all (·.type != "OptionalMemberExpression")


/-! ## Children are visited -/

theorem Children.paths_under {ancestors : List Ast} {slot : String} {child : Ast} :
    ∀ {children : Children}, child ∈ children.under slot →
      ⟨child, slot, ancestors⟩ ∈ children.paths ancestors
  | .nil, member => absurd member List.not_mem_nil
  | .cons other first rest, member => by
      rw [Children.paths]
      rw [Children.under] at member
      split at member
      · rename_i same
        rcases List.mem_cons.mp member with is | later
        · rw [is, same]
          exact List.mem_cons_self
        · apply List.mem_cons_of_mem
          exact List.mem_append_right _ (Children.paths_under later)
      · apply List.mem_cons_of_mem
        exact List.mem_append_right _ (Children.paths_under member)

mutual
theorem Ast.paths_below {path : Path} {slot : String} {child : Ast}
    (below : child ∈ path.node.all slot) :
    ∀ {ast : Ast} {ancestors : List Ast}, path ∈ ast.paths ancestors →
      ⟨child, slot, path.node :: path.ancestors⟩ ∈ ast.paths ancestors
  | .node type line attributes children, ancestors, member => by
      rw [Ast.paths] at member ⊢
      exact Children.paths_below below member

theorem Children.paths_below {path : Path} {slot : String} {child : Ast}
    (below : child ∈ path.node.all slot) :
    ∀ {children : Children} {ancestors : List Ast}, path ∈ children.paths ancestors →
      ⟨child, slot, path.node :: path.ancestors⟩ ∈ children.paths ancestors
  | .nil, _, member => absurd member List.not_mem_nil
  | .cons other first rest, ancestors, member => by
      rw [Children.paths] at member ⊢
      rcases List.mem_cons.mp member with here | deeper
      · apply List.mem_cons_of_mem
        apply List.mem_append_left
        subst here
        cases first with
        | node type line attributes children =>
            rw [Ast.paths]
            exact Children.paths_under below
      · apply List.mem_cons_of_mem
        rcases List.mem_append.mp deeper with inside | later
        · exact List.mem_append_left _ (Ast.paths_below below inside)
        · exact List.mem_append_right _ (Children.paths_below below later)
end

theorem visited_child {ast child : Ast} {path : Path} {slot : String} (member : path ∈ ast.paths [])
    (below : path.node.child slot = some child) :
    ∃ inner ∈ ast.paths [], inner.node = child := by
  have inside : child ∈ path.node.all slot := List.mem_of_head? below
  exact ⟨_, Ast.paths_below inside member, rfl⟩

/-! ## What the visitor has checked -/

section
variable {babel : Babel} {ast : Ast}

theorem Accepts.member (accepts : Accepts babel ast) {path : Path} (member : path ∈ ast.paths [])
    (type : path.node.type = "MemberExpression") :
    propertyAccess forbiddenPropertyNames path = [] ∧ visitMember babel path = .ok [] := by
  have visit := accepts.visits.1 path member
  simp only [enter, type] at visit
  split at visit
  · cases visit
  · rename_i failures here
    split at here
    · cases here
    · rename_i found visited
      simp only [Except.ok.injEq] at here visit
      rw [← here, List.append_eq_nil_iff, List.append_eq_nil_iff] at visit
      rw [visit.2.2] at visited
      exact ⟨visit.2.1, visited⟩

theorem visitMember_nil {path : Path} {object : Ast} (below : path.node.child "object" = some object)
    (visit : visitMember babel path = .ok []) :
    (path.node.attributes.computed = true → isGated object = false) ∧
      (object.isIdentifier "Math" = true → propertyName path.node ≠ some "random") ∧
      visitSubmember path object = .ok [] := by
  simp only [visitMember, below] at visit
  split at visit
  · cases visit
  · rename_i submember visited
    simp only [Except.ok.injEq, List.append_eq_nil_iff] at visit
    obtain ⟨⟨⟨gated, random⟩, -⟩, sub⟩ := visit
    rw [sub] at visited
    refine ⟨?_, ?_, visited⟩
    · intro computed
      by_contra global
      simp only [isGated, Bool.and_eq_false_imp, not_forall, Bool.not_eq_false] at global
      obtain ⟨identifier, listed⟩ := global
      rw [if_pos ⟨computed, eq_of_beq identifier, List.contains_iff_mem.mp listed⟩] at gated
      cases gated
    · intro math named
      rw [if_pos ⟨math, named⟩] at random
      cases random

theorem three_gated {node : Ast} (three : node.isIdentifier "THREE" = true) : isGated node = true := by
  simp only [Ast.isIdentifier, Bool.and_eq_true, beq_iff_eq] at three
  simp [isGated, three.1, three.2, computedAccessGated]

theorem Accepts.computed (accepts : Accepts babel ast) {path : Path} (member : path ∈ ast.paths [])
    (type : path.node.type = "MemberExpression") : gatedAccess path.node = false := by
  have isMember : isMember path.node = true := by simp [isMember, type]
  rw [gatedAccess, if_pos isMember]
  cases below : path.node.child "object" with
  | none => exact Bool.and_false _
  | some object =>
      have rules := visitMember_nil below (accepts.member member type).2
      cases computed : path.node.attributes.computed with
      | false => exact Bool.false_and _
      | true =>
          rw [Option.any_some, rules.1 computed]
          exact Bool.and_false _

theorem Accepts.mathUtils (accepts : Accepts babel ast) {path : Path} (member : path ∈ ast.paths [])
    {object : Ast} (below : path.node.child "object" = some object)
    (utils : source object = .mathUtils) (plain : object.type ≠ "OptionalMemberExpression") :
    object.type = "MemberExpression" ∧ propertyName object = some "MathUtils" ∧
      (object.child "object").any (·.isIdentifier "THREE") = true := by
  have shape : isMember object = true ∧ (object.child "object").any (·.isIdentifier "THREE") = true ∧
      memberName object = some "MathUtils" := by
    unfold source at utils
    split at utils
    · cases utils
    · split at utils
      · cases utils
      · split at utils
        · rename_i all
          simp only [Bool.and_eq_true, beq_iff_eq] at all
          exact ⟨all.1.1, all.1.2, all.2⟩
        · cases utils
  obtain ⟨member', three, named⟩ := shape
  have type : object.type = "MemberExpression" := by
    simpa [isMember, plain] using member'
  refine ⟨type, ?_, three⟩
  obtain ⟨inner, inside, is⟩ := visited_child member below
  have gated := accepts.computed inside (is.symm ▸ type)
  rw [is, gatedAccess, if_pos member'] at gated
  have computed : object.attributes.computed = false := by
    by_contra computed
    obtain ⟨global, above, isThree⟩ := (Option.any_eq_true _ _).mp three
    rw [above, Option.any_some, three_gated isThree] at gated
    simp [computed] at gated
  rwa [memberName, if_neg (by simp [computed])] at named

theorem Source.forbids_unlisted {source : Source} {name : String}
    (unlisted : name ∉ forbiddenPropertyNames) (forbidden : source.forbids name = true) :
    source = .math ∧ name = "random" ∨
      source = .mathUtils ∧ name ∈ ["seededRandom", "generateUUID"] := by
  have listed : forbiddenPropertyNames.contains name = false := by simpa using unlisted
  unfold Source.forbids at forbidden
  rw [listed, Bool.false_or] at forbidden
  cases source with
  | math => exact Or.inl ⟨rfl, eq_of_beq forbidden⟩
  | mathUtils => exact Or.inr ⟨rfl, by simpa using forbidden⟩
  | three => cases forbidden
  | other => cases forbidden

theorem source_math {node : Ast} (math : source node = .math) : node.isIdentifier "Math" = true := by
  by_contra other
  unfold source at math
  rw [if_neg other] at math
  split at math
  · cases math
  · split at math <;> cases math

theorem Accepts.dotted (accepts : Accepts babel ast) {path : Path} (member : path ∈ ast.paths [])
    (dotted : isDotted path.node = true) : ¬ ForbiddenRead path := by
  simp only [isDotted, Bool.and_eq_true, beq_iff_eq, Bool.not_eq_true'] at dotted
  obtain ⟨⟨type, plain⟩, chain⟩ := dotted
  rintro ⟨read, found, forbidden⟩
  obtain ⟨access, visit⟩ := accepts.member member type
  have isMember : isMember path.node = true := by simp [isMember, type]
  unfold reads at found
  rw [if_pos isMember] at found
  split at found
  · cases found
  · split at found
    · rename_i object name below named
      rw [List.mem_singleton] at found
      subst found
      rw [memberName, if_neg (by simp [plain])] at named
      obtain ⟨-, math, submember⟩ := visitMember_nil below visit
      have unlisted : name ∉ forbiddenPropertyNames := by
        intro listed
        simp [propertyAccess, named, listed] at access
      rcases Source.forbids_unlisted unlisted forbidden with ⟨global, random⟩ | ⟨utils, blocked⟩
      · exact math (source_math global) (named.trans (congrArg some random))
      · have notChain : object.type ≠ "OptionalMemberExpression" := by
          rw [below, Option.all_some] at chain
          simpa using chain
        obtain ⟨type', utilsName, three⟩ := accepts.mathUtils member below utils notChain
        have table : blockedSubmembers "MathUtils" = some ["seededRandom", "generateUUID"] := rfl
        simp only [visitSubmember, utilsName, named, type', three, table, and_self, if_true,
          if_pos blocked, Except.ok.injEq, List.cons_ne_nil] at submember
    · cases found

end

/-- An accepted module reads no forbidden property, and makes no computed access on a gated global,
exactly when it does neither in the forms that are not a plain member. -/
theorem property_reads_checked (babel : Babel) (ast : Ast) (accepts : Accepts babel ast) :
    (∀ path ∈ ast.paths [], ¬ ForbiddenRead path ∧ gatedAccess path.node = false) ↔
      ∀ path ∈ ast.paths [], (isDotted path.node = false → ¬ ForbiddenRead path) ∧
        (path.node.type ≠ "MemberExpression" → gatedAccess path.node = false) := by
  constructor
  · intro clean path member
    exact ⟨fun _ => (clean path member).1, fun _ => (clean path member).2⟩
  · intro clean path member
    constructor
    · cases dotted : isDotted path.node with
      | true => exact accepts.dotted member dotted
      | false => exact (clean path member).1 dotted
    · by_cases type : path.node.type = "MemberExpression"
      · exact accepts.computed member type
      · exact (clean path member).2 type


/-- `Math.abs` -/
def mathAbs : Ast :=
  .node "MemberExpression" (some 1) {} (.cons "object" (.node "Identifier" (some 1) { name := "Math" } .nil)
    (.cons "property" (.node "Identifier" (some 1) { name := "abs" } .nil) .nil))

/-- `Math.abs["constructor"]` -/
def constructorOfAbs : Ast :=
  .node "MemberExpression" (some 1) { computed := true } (.cons "object" mathAbs
    (.cons "property" (literalNode "StringLiteral" "\"constructor\"" "constructor") .nil))

theorem abs_read :
    Accepts (moduleBabel ["Math"]) (generateModule (expressionStatement mathAbs)) ∧
      ∀ path ∈ (generateModule (expressionStatement mathAbs)).paths [],
        ¬ ForbiddenRead path ∧ gatedAccess path.node = false := by
  have accepts : Accepts (moduleBabel ["Math"]) (generateModule (expressionStatement mathAbs)) := by
    unfold Accepts
    decide +kernel
  exact ⟨accepts, (property_reads_checked (moduleBabel ["Math"]) _ accepts).mpr (by decide +kernel)⟩

/-- The constructor of a function is read under a literal. -/
theorem literal_key_accepted :
    ¬ ∀ babel ast, Accepts babel ast → ∀ path ∈ ast.paths [],
      ¬ ForbiddenRead path ∧ gatedAccess path.node = false := by
  intro checked
  have accepts : Accepts (moduleBabel ["Math"])
      (generateModule (expressionStatement constructorOfAbs)) := by
    unfold Accepts
    decide +kernel
  have clean := checked _ _ accepts
  have read : ∃ path ∈ (generateModule (expressionStatement constructorOfAbs)).paths [],
      ForbiddenRead path := by
    decide +kernel
  obtain ⟨path, member, forbidden⟩ := read
  exact (clean path member).1 forbidden

end GenSubnet.Render
