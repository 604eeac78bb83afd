import GenSubnet.Library.UnicodeText
import GenSubnet.Render.StaticAnalysis
import Mathlib

/-!
# Accepted modules

What the render service's `staticAnalyze` has found out about a module that it accepts, and the size
of the literals of such a module in its source.
-/

namespace GenSubnet.Render
open Library

section
variable (babel : Babel)

/-- A module without failures. -/
def Accepts (ast : Ast) : Prop := serviceStaticAnalyze babel ast = .ok []

variable {babel} {ast : Ast}

theorem Accepts.walked (accepts : Accepts babel ast) :
    (programBody ast).countP isExport ≤ 1 ∧ walkAst babel forbiddenPropertyNames ast [] = .ok [] := by
  unfold Accepts serviceStaticAnalyze staticAnalyze at accepts
  simp only at accepts
  split at accepts
  · cases accepts
  · split at accepts
    · simp at accepts
    · split at accepts
      · simp at accepts
      · split at accepts
        · unfold walkAst at accepts
          split at accepts
          · cases accepts
          · simp at accepts
        · rename_i few
          exact ⟨Nat.not_lt.mp few, accepts⟩

theorem Accepts.exports (accepts : Accepts babel ast) : (programBody ast).countP isExport ≤ 1 :=
  accepts.walked.1

theorem mapM_nil {paths : List Path} {visit : Path → Except String (List StaticFailure)}
    {pushed : List (List StaticFailure)} (visited : paths.mapM visit = .ok pushed)
    (none : pushed.flatten = []) : ∀ path ∈ paths, visit path = .ok [] := by
  induction paths generalizing pushed with
  | nil => exact List.forall_mem_nil _
  | cons path rest ih =>
      rw [List.mapM_cons] at visited
      cases here : visit path with
      | error thrown =>
          rw [here] at visited
          cases visited
      | ok failures =>
          cases others : rest.mapM visit with
          | error thrown =>
              rw [here, others] at visited
              cases visited
          | ok more =>
              rw [here, others] at visited
              cases visited
              rw [List.flatten_cons, List.append_eq_nil_iff] at none
              rw [none.1] at here
              exact List.forall_mem_cons.mpr ⟨here, ih others none.2⟩

/-- The literals that the visitors count, on the whole. -/
def countedBytes (ast : Ast) : Nat := ((ast.paths []).map fun path => literalBytes path.node).sum

theorem Accepts.visits (accepts : Accepts babel ast) :
    (∀ path ∈ ast.paths [], enter babel forbiddenPropertyNames path = .ok []) ∧
      countedBytes ast ≤ literalBudget := by
  have walked := accepts.walked.2
  unfold walkAst at walked
  split at walked
  · cases walked
  · rename_i pushed visited
    simp only [List.nil_append, Except.ok.injEq, List.append_eq_nil_iff] at walked
    refine ⟨mapM_nil visited walked.1, ?_⟩
    by_contra large
    have reported := walked.2
    have exceeded : ((ast.paths []).map fun path => literalBytes path.node).sum > literalBudget :=
      not_le.mp large
    rw [if_pos exceeded] at reported
    cases reported

end

/-! ## Literals in the source -/

/-- The text of a literal in the source; a template element is the text between interpolations. -/
def sourceText (node : Ast) : String :=
  match node.type with
  | "StringLiteral" | "NumericLiteral" | "BigIntLiteral" | "RegExpLiteral" | "DirectiveLiteral"
  | "TemplateElement" => node.attributes.raw.getD ""
  | _ => ""

/-- What the text of a literal stands for: a string, the cooked text of a template, a number as it
is written. -/
def literalText (node : Ast) : String :=
  match node.type with
  | "StringLiteral" => node.attributes.value
  | "NumericLiteral" | "BigIntLiteral" => node.attributes.raw.getD ""
  | "TemplateElement" => node.attributes.cooked.getD (node.attributes.raw.getD "")
  | _ => ""

/-- What the source of a literal has beyond that: the quotes and the escapes of a string, the escapes
of a template, all of a regular expression or of a directive. -/
def surplusBytes (node : Ast) : Nat :=
  match node.type with
  | "StringLiteral" | "TemplateElement" =>
      (node.attributes.raw.getD "").utf8ByteSize - (literalText node).utf8ByteSize
  | "RegExpLiteral" | "DirectiveLiteral" => (node.attributes.raw.getD "").utf8ByteSize
  | _ => 0

/-- The sum over all nodes of a tree. -/
def total (ast : Ast) (size : Ast → Nat) : Nat := ((ast.paths []).map fun path => size path.node).sum

/-- What the parser keeps of a literal: its source is not shorter than what it stands for, and a
number is written in ASCII. -/
structure ParsedLiteral (node : Ast) : Prop where
  longer : node.type = "StringLiteral" ∨ node.type = "TemplateElement" →
    (literalText node).utf8ByteSize ≤ (node.attributes.raw.getD "").utf8ByteSize
  number : node.type = "NumericLiteral" ∨ node.type = "BigIntLiteral" →
    ∃ raw, node.attributes.raw = some raw ∧ raw.utf8ByteSize = raw.length

theorem ParsedLiteral.counted {node : Ast} (parsed : ParsedLiteral node) :
    literalBytes node = (literalText node).utf8ByteSize := by
  unfold literalBytes
  split
  · rename_i type
    simp only [literalText, type]
  · rename_i type
    obtain ⟨raw, is, ascii⟩ := parsed.number (Or.inl type)
    simp only [literalText, type, is, Option.getD_some, ascii]
  · rename_i type
    obtain ⟨raw, is, ascii⟩ := parsed.number (Or.inr type)
    simp only [literalText, type, is, Option.getD_some, ascii]
  · rename_i type
    simp only [literalText, type]
  · rename_i string number bigint template
    unfold literalText
    split
    · exact absurd ‹_› string
    · exact absurd ‹_› number
    · exact absurd ‹_› bigint
    · exact absurd ‹_› template
    · rfl

theorem ParsedLiteral.source {node : Ast} (parsed : ParsedLiteral node) :
    (sourceText node).utf8ByteSize = (literalText node).utf8ByteSize + surplusBytes node := by
  by_cases text : node.type = "StringLiteral" ∨ node.type = "TemplateElement"
  · have longer := parsed.longer text
    rcases text with type | type <;> simp only [sourceText, surplusBytes, type] at longer ⊢ <;> omega
  · obtain ⟨string, template⟩ := not_or.mp text
    unfold sourceText surplusBytes literalText
    split <;> simp_all

theorem total_add {ast : Ast} {size left right : Ast → Nat}
    (split : ∀ path ∈ ast.paths [], size path.node = left path.node + right path.node) :
    total ast size = total ast left + total ast right := by
  unfold total
  rw [← List.sum_map_add]
  exact congrArg List.sum (List.map_congr_left split)

/-- `export default function generate() { statement }` -/
def generateModule (statement : Ast) : Ast :=
  let body := Ast.node "BlockStatement" (some 1) {} (.cons "body" statement .nil)
  let generate := Ast.node "FunctionDeclaration" (some 1) {}
    (.cons "id" (.node "Identifier" (some 1) { name := "generate" } .nil) (.cons "body" body .nil))
  let program := Ast.node "Program" (some 1) {}
    (.cons "body" (.node "ExportDefaultDeclaration" (some 1) {} (.cons "declaration" generate .nil)) .nil)
  .node "File" (some 1) {} (.cons "program" program .nil)

/-- `expression;` -/
def expressionStatement (expression : Ast) : Ast :=
  .node "ExpressionStatement" (some 1) {} (.cons "expression" expression .nil)

def literalNode (type raw : String) (value : String) : Ast :=
  .node type (some 1) { raw := some raw, value := value } .nil

/-- Names that are bound, in a module of one function. -/
def moduleBabel (names : List String) : Babel where
  isFunction type := type == "FunctionDeclaration"
  isReferencedIdentifier path := path.slot != "id" && path.slot != "property" && path.slot != "left"
  hasBinding _ name := name == "generate" || names.contains name
  getBinding _ _ := none

/-- A regular expression of `n` characters. -/
def pattern (n : Nat) : String := String.ofList ('/' :: List.replicate n 'a' ++ ['/'])

theorem size_pattern (n : Nat) : (pattern n).utf8ByteSize = n + 2 := by
  have slash : ('/' : Char).utf8Size = 1 := rfl
  have letter : ('a' : Char).utf8Size = 1 := rfl
  rw [pattern, utf8ByteSize_ofList, List.cons_append, utf8Length_cons, utf8Length_append,
    utf8Length_replicate, utf8Length_cons, utf8Length_nil, slash, letter]
  omega

theorem parsed_module {node : Ast} (leaf : ∀ ancestors, node.paths ancestors = [])
    (parsed : ParsedLiteral node) :
    ∀ path ∈ (generateModule (expressionStatement node)).paths [], ParsedLiteral path.node := by
  intro path member
  simp only [generateModule, expressionStatement, Ast.paths, Children.paths, leaf, List.append_nil,
    List.nil_append, List.singleton_append, List.cons_append, List.mem_cons, List.not_mem_nil,
    or_false] at member
  rcases member with rfl | rfl | rfl | rfl | rfl | rfl | rfl
  · exact ⟨by simp [Ast.type], by simp [Ast.type]⟩
  · exact ⟨by simp [Ast.type], by simp [Ast.type]⟩
  · exact ⟨by simp [Ast.type], by simp [Ast.type]⟩
  · exact ⟨by simp [Ast.type], by simp [Ast.type]⟩
  · exact ⟨by simp [Ast.type], by simp [Ast.type]⟩
  · exact ⟨by simp [Ast.type], by simp [Ast.type]⟩
  · exact parsed

theorem pattern_source (text : String) :
    total (generateModule (expressionStatement (literalNode "RegExpLiteral" text "")))
      (fun node => (sourceText node).utf8ByteSize) = text.utf8ByteSize := by
  simp [total, generateModule, expressionStatement, Ast.paths, Children.paths, literalNode,
    sourceText, Ast.type, Ast.attributes]

end GenSubnet.Render
