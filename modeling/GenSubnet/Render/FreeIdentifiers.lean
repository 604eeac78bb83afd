import GenSubnet.Render.Accepted
import Mathlib

/-!
# Free identifiers of an accepted module

`scope.hasBinding` of Babel also answers true for the globals of the language, and
`isReferencedIdentifier` is false for what is assigned. The allowlist holds of all other identifiers;
the list of forbidden names holds of all of them.
-/

namespace GenSubnet.Render

/-- Positions in which an identifier is a name and neither bound nor referred to. -/
def isNameOnly (path : Path) (parent : Ast) : Bool :=
  ((parent.type == "MemberExpression" || parent.type == "OptionalMemberExpression") &&
    path.slot == "property" && !parent.attributes.computed) ||
  ((parent.type == "ObjectProperty" || parent.type == "ObjectMethod" || parent.type == "ClassProperty" ||
      parent.type == "ClassMethod" || parent.type == "ClassPrivateProperty" ||
      parent.type == "ClassPrivateMethod" || parent.type == "ClassAccessorProperty") &&
    path.slot == "key" && !parent.attributes.computed) ||
  ((parent.type == "LabeledStatement" || parent.type == "BreakStatement" ||
      parent.type == "ContinueStatement") && path.slot == "label") ||
  parent.type == "MetaProperty" || parent.type == "PrivateName"

/-- An identifier that binds a name or refers to one. -/
structure Occurs (path : Path) : Prop where
  identifier : path.node.type = "Identifier"
  occurs : ∃ parent, path.parent = some parent ∧ isNameOnly path parent = false

def importSpecifiers : List String :=
  ["ImportSpecifier", "ImportDefaultSpecifier", "ImportNamespaceSpecifier"]

/-- Specifiers stand only in import and export declarations. -/
structure Specified (ast : Ast) : Prop where
  imports : ∀ path ∈ ast.paths [], ∀ parent, path.parent = some parent → parent.type ∈ importSpecifiers →
    ∃ other ∈ ast.paths [], other.node.type = "ImportDeclaration"
  exports : ∀ path ∈ ast.paths [], ∀ parent, path.parent = some parent → parent.type = "ExportSpecifier" →
    ∃ stmt ∈ programBody ast, stmt.type = "ExportNamedDeclaration"

variable {babel : Babel} {ast : Ast}

theorem Accepts.identifier (accepts : Accepts babel ast) {path : Path} (member : path ∈ ast.paths [])
    (identifier : path.node.type = "Identifier") : visitIdentifier babel path = [] := by
  have visit := accepts.visits.1 path member
  simp only [enter, identifier, Except.ok.injEq, List.append_eq_nil_iff] at visit
  exact visit.2

theorem eq_of_length_le_one {α : Type*} {items : List α} (few : items.length ≤ 1) {a b : α}
    (left : a ∈ items) (right : b ∈ items) : a = b := by
  match items, few with
  | [only], _ => rw [List.mem_singleton.mp left, List.mem_singleton.mp right]

theorem Accepts.default (accepts : Accepts babel ast) :
    ∃ stmt ∈ programBody ast, stmt.type = "ExportDefaultDeclaration" := by
  unfold Accepts serviceStaticAnalyze staticAnalyze at accepts
  simp only at accepts
  split at accepts
  · cases accepts
  · rename_i decl found
    obtain ⟨stmt, last, -⟩ := Option.bind_eq_some_iff.mp found
    have present := List.mem_filter.mp (List.mem_of_getLast? last)
    exact ⟨stmt, present.1, of_decide_eq_true present.2⟩

theorem Accepts.specifiers (accepts : Accepts babel ast) (specified : Specified ast) {path : Path}
    (member : path ∈ ast.paths []) {parent : Ast} (above : path.parent = some parent) :
    parent.type ∉ importSpecifiers ∧ parent.type ≠ "ExportSpecifier" := by
  constructor
  · intro specifier
    obtain ⟨other, inside, declaration⟩ := specified.imports path member parent above specifier
    have visit := accepts.visits.1 other inside
    simp [enter, declaration] at visit
  · intro specifier
    obtain ⟨stmt, inside, named⟩ := specified.exports path member parent above specifier
    obtain ⟨other, present, default⟩ := accepts.default
    have few : ((programBody ast).filter isExport).length ≤ 1 :=
      List.countP_eq_length_filter ▸ accepts.exports
    have same : stmt = other := by
      apply eq_of_length_le_one few
      · exact List.mem_filter.mpr ⟨inside, by simp [isExport, named]⟩
      · exact List.mem_filter.mpr ⟨present, by simp [isExport, default]⟩
    rw [same, default] at named
    exact absurd named (by decide)

theorem Accepts.read (accepts : Accepts babel ast) (specified : Specified ast) {path : Path}
    (member : path ∈ ast.paths []) (occurs : Occurs path) :
    ∃ parent, path.parent = some parent ∧ skipsIdentifier path parent = false := by
  obtain ⟨parent, above, notName⟩ := occurs.occurs
  obtain ⟨imports, exports⟩ := accepts.specifiers specified member above
  refine ⟨parent, above, ?_⟩
  simp only [importSpecifiers, List.mem_cons, List.not_mem_nil, or_false, not_or] at imports
  simp only [isNameOnly, Bool.or_eq_false_iff] at notName
  obtain ⟨⟨⟨⟨members, keys⟩, -⟩, -⟩, -⟩ := notName
  simp only [skipsIdentifier, beq_eq_false_iff_ne, Bool.or_eq_false_iff]
  refine ⟨⟨⟨⟨⟨⟨?_, ?_⟩, ?_⟩, imports.1⟩, imports.2.1⟩, imports.2.2⟩, exports⟩
  · cases kind : parent.type == "MemberExpression" <;> simp_all
  · cases kind : (parent.type == "ObjectProperty" || parent.type == "ObjectMethod") <;> simp_all
  · cases computed : parent.attributes.computed with
    | true => exact Bool.and_eq_false_imp.mpr (fun _ => rfl)
    | false =>
      simp only [computed, Bool.not_false, Bool.and_true, Bool.and_eq_false_iff] at keys ⊢
      apply keys.imp_left
      intro keyed
      simp only [Bool.or_eq_false_iff] at keyed ⊢
      obtain ⟨⟨⟨⟨⟨⟨-, -⟩, property⟩, method⟩, privateProperty⟩, privateMethod⟩, -⟩ := keyed
      exact ⟨⟨⟨property, method⟩, privateProperty⟩, privateMethod⟩

theorem Accepts.notForbidden (accepts : Accepts babel ast) (specified : Specified ast) {path : Path}
    (member : path ∈ ast.paths []) (occurs : Occurs path) : path.node.name ∉ forbiddenIdentifiers := by
  obtain ⟨parent, above, reads⟩ := accepts.read specified member occurs
  have visit := accepts.identifier member occurs.identifier
  intro forbidden
  simp [visitIdentifier, above, reads, forbidden] at visit

theorem Accepts.allowed (accepts : Accepts babel ast) (specified : Specified ast) {path : Path}
    (member : path ∈ ast.paths []) (occurs : Occurs path)
    (referenced : babel.isReferencedIdentifier path = true)
    (free : babel.hasBinding path path.node.name = false) : path.node.name ∈ allowedRootIdentifiers := by
  obtain ⟨parent, above, reads⟩ := accepts.read specified member occurs
  have clean := accepts.notForbidden specified member occurs
  have visit := accepts.identifier member occurs.identifier
  by_contra unlisted
  by_cases three : path.node.name = "THREE"
  · have free' : babel.hasBinding path "THREE" = false := three ▸ free
    rw [three] at clean
    simp [visitIdentifier, above, reads, three, clean, referenced, free'] at visit
  · simp [visitIdentifier, above, reads, clean, three, referenced, free, unlisted] at visit

/-- What Babel does not report as a free reference: what it takes for a global of the language, and
what is not read. -/
def Unseen (babel : Babel) (globals : List String) (path : Path) : Prop :=
  path.node.name ∈ globals ∨ babel.isReferencedIdentifier path = false

/-- No accepted module uses a forbidden name. Its free identifiers are on the allowlist exactly when
those are that Babel does not report. -/
theorem free_identifiers_allowed (babel : Babel) (bound : Path → String → Bool) (globals : List String)
    (scopes : ∀ path name, babel.hasBinding path name = (bound path name || globals.contains name))
    (ast : Ast) (specified : Specified ast) (accepts : Accepts babel ast) :
    (∀ path ∈ ast.paths [], Occurs path → path.node.name ∉ forbiddenIdentifiers) ∧
      ((∀ path ∈ ast.paths [], Occurs path → bound path path.node.name = false →
          path.node.name ∈ allowedRootIdentifiers) ↔
        ∀ path ∈ ast.paths [], Occurs path → bound path path.node.name = false →
          Unseen babel globals path → path.node.name ∈ allowedRootIdentifiers) := by
  refine ⟨fun path member occurs => accepts.notForbidden specified member occurs, ?_, ?_⟩
  · intro all path member occurs free _
    exact all path member occurs free
  · intro unseen path member occurs free
    by_cases hidden : Unseen babel globals path
    · exact unseen path member occurs free hidden
    · obtain ⟨notGlobal, referenced⟩ := not_or.mp hidden
      apply accepts.allowed specified member occurs
      · simpa using referenced
      · rw [scopes, free, Bool.false_or]
        simpa using notGlobal


theorem specified_of_plain {ast : Ast}
    (plain : (ast.paths []).all (fun path => !(path.parent.any fun parent =>
      importSpecifiers.contains parent.type || parent.type == "ExportSpecifier")) = true) :
    Specified ast := by
  have specifier : ∀ path ∈ ast.paths [], ∀ parent, path.parent = some parent →
      parent.type ∉ importSpecifiers ∧ parent.type ≠ "ExportSpecifier" := by
    intro path member parent above
    have clean := List.all_eq_true.mp plain path member
    simpa [above] using clean
  constructor
  · intro path member parent above listed
    exact absurd listed (specifier path member parent above).1
  · intro path member parent above named
    exact absurd named (specifier path member parent above).2

def identifierNode (name : String) : Ast := .node "Identifier" (some 1) { name := name } .nil

theorem math_allowed :
    Accepts (moduleBabel ["Math"]) (generateModule (expressionStatement (identifierNode "Math"))) ∧
      ∀ path ∈ (generateModule (expressionStatement (identifierNode "Math"))).paths [], Occurs path →
        path.node.name ∉ forbiddenIdentifiers := by
  have accepts : Accepts (moduleBabel ["Math"])
      (generateModule (expressionStatement (identifierNode "Math"))) := by
    unfold Accepts
    decide +kernel
  have specified : Specified (generateModule (expressionStatement (identifierNode "Math"))) := by
    apply specified_of_plain
    decide +kernel
  exact ⟨accepts, (free_identifiers_allowed (moduleBabel ["Math"])
    (fun _ name => name == "generate") ["Math"] (fun _ _ => rfl) _ specified accepts).1⟩

/-- `Promise` is a global for Babel, and not on the allowlist. -/
theorem promise_accepted :
    ¬ ∀ (babel : Babel) (bound : Path → String → Bool) (globals : List String),
      (∀ path name, babel.hasBinding path name = (bound path name || globals.contains name)) →
      ∀ ast, Specified ast → Accepts babel ast →
        ∀ path ∈ ast.paths [], Occurs path → bound path path.node.name = false →
          path.node.name ∈ allowedRootIdentifiers := by
  intro allowed
  have accepts : Accepts (moduleBabel ["Promise"])
      (generateModule (expressionStatement (identifierNode "Promise"))) := by
    unfold Accepts
    decide +kernel
  have specified : Specified (generateModule (expressionStatement (identifierNode "Promise"))) := by
    apply specified_of_plain
    decide +kernel
  have listed := allowed (moduleBabel ["Promise"]) (fun _ name => name == "generate") ["Promise"]
    (fun _ _ => rfl) _ specified accepts
  have read : ∃ path ∈ (generateModule (expressionStatement (identifierNode "Promise"))).paths [],
      path.node.type = "Identifier" ∧ path.node.name = "Promise" ∧
        path.parent.any (fun parent => !isNameOnly path parent) = true := by
    decide +kernel
  obtain ⟨path, member, identifier, named, stands⟩ := read
  have occurs : Occurs path := by
    obtain ⟨parent, above, name⟩ := (Option.any_eq_true _ _).mp stands
    exact ⟨identifier, parent, above, by simpa using name⟩
  have inside := listed path member occurs (by rw [named]; rfl)
  rw [named] at inside
  exact absurd inside (by decide)

end GenSubnet.Render
