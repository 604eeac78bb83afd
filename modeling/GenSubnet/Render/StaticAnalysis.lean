import GenSubnet.Render.SafeThree
import Mathlib

/-!
# Static analysis of a module

`staticAnalyze` of the render service and of the published validator. The two files have one text
but for a rule of the service on the names of properties.
-/

namespace GenSubnet.Render

/-! ## `identifiers.js` -/

def allowedRootIdentifiers : List String :=
  ["Math", "Number", "String", "Array", "Object", "Symbol", "JSON", "Map", "Set", "Boolean",
    "Error", "TypeError", "RangeError", "Infinity", "NaN", "undefined", "parseInt", "parseFloat",
    "isFinite", "isNaN", "BigInt", "ArrayBuffer", "DataView", "Int8Array", "Uint8Array",
    "Uint8ClampedArray", "Int16Array", "Uint16Array", "Int32Array", "Uint32Array", "Float32Array",
    "Float64Array", "BigInt64Array", "BigUint64Array"]

def forbiddenIdentifiers : List String :=
  ["eval", "Function", "setTimeout", "setInterval", "setImmediate", "queueMicrotask", "fetch",
    "XMLHttpRequest", "WebSocket", "document", "window", "navigator", "localStorage",
    "sessionStorage", "indexedDB", "OffscreenCanvas", "HTMLCanvasElement", "crypto", "Date",
    "performance", "Proxy", "Reflect", "WeakRef", "FinalizationRegistry", "SharedArrayBuffer",
    "Atomics", "Worker", "process", "module", "global", "globalThis", "self", "require"]

def computedAccessGated : List String := ["THREE", "Math", "Object", "Array", "Symbol"]

def forbiddenPropertyNames : List String :=
  ["constructor", "__proto__", "__defineGetter__", "__defineSetter__", "__lookupGetter__",
    "__lookupSetter__"]

/-! ## Syntax trees -/

/-- What the rules read of a node apart from its children. The text of a literal has a replacement
character for every lone surrogate, as its UTF-8 encoding does. -/
structure Attributes where
  name : String := ""
  operator : String := ""
  kind : String := ""
  computed : Bool := false
  async : Bool := false
  await : Bool := false
  value : String := ""
  raw : Option String := none
  cooked : Option String := none

mutual
/-- A node, with its children in the order in which Babel visits them. -/
inductive Ast
  | node (type : String) (line : Option Nat) (attributes : Attributes) (children : Children)

/-- The children of a node under the properties that hold them; a property that holds a list
occurs once for each of its items. -/
inductive Children
  | nil
  | cons (slot : String) (child : Ast) (rest : Children)
end

def Children.under (slot : String) : Children → List Ast
  | .nil => []
  | .cons other child rest => if other = slot then child :: rest.under slot else rest.under slot

namespace Ast

def type : Ast → String
  | .node type _ _ _ => type

def line : Ast → Option Nat
  | .node _ line _ _ => line

def attributes : Ast → Attributes
  | .node _ _ attributes _ => attributes

def name (node : Ast) : String := node.attributes.name

def all (node : Ast) (slot : String) : List Ast :=
  match node with
  | .node _ _ _ children => children.under slot

def child (node : Ast) (slot : String) : Option Ast := (node.all slot).head?

def isIdentifier (node : Ast) (name : String) : Bool :=
  node.type == "Identifier" && node.name == name

end Ast

/-- A node that the traversal enters: the property of its parent that holds it, and the nodes above
it, the nearest first. -/
structure Path where
  node : Ast
  slot : String
  ancestors : List Ast

def Path.parent (path : Path) : Option Ast := path.ancestors.head?

mutual
/-- The traversal of `traverse(ast, …)`, which enters the nodes below its argument. -/
def Ast.paths (ancestors : List Ast) : Ast → List Path
  | .node type line attributes children =>
      children.paths (.node type line attributes children :: ancestors)

def Children.paths (ancestors : List Ast) : Children → List Path
  | .nil => []
  | .cons slot child rest =>
      ⟨child, slot, ancestors⟩ :: (child.paths ancestors ++ rest.paths ancestors)
end

/-- What the analysis takes from Babel. -/
structure Babel where
  /-- The types of the alias `Function`. -/
  isFunction : String → Bool
  isReferencedIdentifier : Path → Bool
  hasBinding : Path → String → Bool
  /-- The node of the path of a binding. -/
  getBinding : Path → String → Option Ast

/-! ## Failures -/

inductive StaticRule
  | missingDefaultExport
  | multipleTopLevelExports
  | asyncNotAllowed
  | forbiddenIdentifier
  | identifierNotAllowed
  | forbiddenThreeApi
  | unknownThreeApi
  | threeAtTopLevel
  | threeAliasForbidden
  | computedPropertyAccess
  | forbiddenPropertyAccess
  | literalBudgetExceeded
deriving DecidableEq

structure StaticFailure where
  rule : StaticRule
  detail : String
deriving DecidableEq

def literalBudget : Nat := 50 * 1024

/-- `loc` -/
def loc (node : Ast) : String := (node.line.map toString).getD "?"

variable (babel : Babel)

/-! ## Destructuring and aliases of THREE -/

def isThreeReference (node : Ast) (path : Path) : Bool :=
  node.isIdentifier "THREE" && babel.hasBinding path "THREE"

/-- The name of a key that is not computed. -/
def keyName (prop : Ast) : Option String :=
  match prop.child "key" with
  | none => none
  | some key =>
      if key.type = "Identifier" then some key.name
      else if key.type = "StringLiteral" then some key.attributes.value
      else none

/-- The failure of a name that is not on the allowlist, with what its detail says after the name. -/
def threeApi (name access line : String) : StaticFailure :=
  if name ∈ threeDisallowedKnown then
    ⟨.forbiddenThreeApi, "THREE." ++ name ++ access ++ " at line " ++ line⟩
  else
    ⟨.unknownThreeApi, "THREE." ++ name ++ " is not a recognized Three.js API" ++ access ++
      " at line " ++ line⟩

/-- `THREE_BLOCKED_SUBMEMBERS[name]`, as far as it is an entry of the table. -/
def blockedSubmembers (name : String) : Option (List String) :=
  (threeBlockedSubmembers.find? (·.1 = name)).map Prod.snd

/-- What is taken from an allowed member by a pattern inside the pattern. -/
def walkSubPattern (name line : String) (blocked : List String) (sub : Ast) : List StaticFailure :=
  if sub.type = "RestElement" then
    [⟨.forbiddenThreeApi, "THREE." ++ name ++ ".\x7b...\x7d rest-destructure at line " ++ line⟩]
  else if sub.type ≠ "ObjectProperty" ∨ sub.attributes.computed then []
  else
    match keyName sub with
    | none => []
    | some subKey =>
        if subKey ∈ blocked then
          [⟨.forbiddenThreeApi,
            "THREE." ++ name ++ "." ++ subKey ++ " (destructured) at line " ++ line⟩]
        else []

/-- One property of `walkObjectPatternFromThree`. -/
def walkProperty (line : String) (prop : Ast) : List StaticFailure :=
  if prop.type = "RestElement" then
    let rest := match prop.child "argument" with
      | some argument => if argument.type = "Identifier" then argument.name else "?"
      | none => "?"
    [⟨.threeAliasForbidden, "rest-destructure of THREE (..." ++ rest ++ ") at line " ++ line⟩]
  else if prop.type ≠ "ObjectProperty" then []
  else if prop.attributes.computed then
    [⟨.computedPropertyAccess, "computed destructure of THREE at line " ++ line⟩]
  else
    match keyName prop with
    | none => []
    | some name =>
        if name = "" then []
        else if name ∉ threeAllowed then [threeApi name " (destructured)" line]
        else
          let value := prop.child "value"
          let inner := value.bind fun v => if v.type = "AssignmentPattern" then v.child "left" else some v
          match inner, blockedSubmembers name with
          | some pattern, some blocked =>
              if pattern.type = "ObjectPattern" then
                (pattern.all "properties").flatMap (walkSubPattern name line blocked)
              else []
          | _, _ => []

def walkObjectPatternFromThree (pattern : Ast) (line : String) : List StaticFailure :=
  (pattern.all "properties").flatMap (walkProperty line)

mutual
/-- `handleAssignFromThree` -/
def handleAssignFromThree (line : String) : Ast → List StaticFailure
  | .node type position attributes children =>
      let lhs := Ast.node type position attributes children
      if type = "Identifier" then
        [⟨.threeAliasForbidden, "aliasing THREE as `" ++ attributes.name ++ "` at line " ++ line⟩]
      else if type = "ObjectPattern" then walkObjectPatternFromThree lhs line
      else if type = "ArrayPattern" then
        [⟨.threeAliasForbidden, "array-destructuring THREE at line " ++ line⟩]
      else if type = "AssignmentPattern" then handleLeftFromThree line children
      else if type = "MemberExpression" then
        [⟨.threeAliasForbidden, "assigning THREE to a member expression at line " ++ line⟩]
      else [⟨.threeAliasForbidden, "assigning THREE to " ++ type ++ " at line " ++ line⟩]

/-- The left side of a pattern with a default. -/
def handleLeftFromThree (line : String) : Children → List StaticFailure
  | .nil => []
  | .cons slot child rest =>
      if slot = "left" then handleAssignFromThree line child else handleLeftFromThree line rest
end

/-! ## Calls with THREE -/

/-- `findConstructor` -/
def findConstructor (classNode : Ast) : Option Ast :=
  match classNode.child "body" with
  | none => none
  | some body =>
      (body.all "body").find? fun m => m.type = "ClassMethod" ∧ m.attributes.kind = "constructor"

def constructorParams (classNode : Ast) : List Ast :=
  ((findConstructor classNode).map fun ctor => ctor.all "params").getD []

/-- `resolveCallableParams`: the parameters, and the label of the callee. -/
def resolveCallableParams (callee : Ast) (path : Path) : Option (List Ast × String) :=
  if callee.type = "FunctionExpression" ∨ callee.type = "ArrowFunctionExpression" then
    some (callee.all "params", "<inline function>")
  else if callee.type = "ClassExpression" then some (constructorParams callee, "<inline class>")
  else if callee.type = "Identifier" then
    (babel.getBinding path callee.name).bind fun nodeDef =>
      if nodeDef.type = "FunctionDeclaration" ∨ nodeDef.type = "FunctionExpression" ∨
          nodeDef.type = "ArrowFunctionExpression" then
        some (nodeDef.all "params", callee.name)
      else if nodeDef.type = "ClassDeclaration" then some (constructorParams nodeDef, callee.name)
      else if nodeDef.type = "VariableDeclarator" then
        (nodeDef.child "init").bind fun init =>
          if init.type = "FunctionExpression" ∨ init.type = "ArrowFunctionExpression" then
            some (init.all "params", callee.name)
          else if init.type = "ClassExpression" then some (constructorParams init, callee.name)
          else none
      else none
  else none

/-- The formal parameter that an argument falls to. -/
inductive Formal
  | rest
  | param (node : Ast)
  | extra

def formal : List Ast → Nat → Formal
  | [], _ => .extra
  | param :: params, i =>
      if param.type = "RestElement" then .rest
      else
        match i with
        | 0 => .param param
        | i + 1 => formal params i

/-- One argument THREE of `checkCallWithThreeArg`. -/
def checkThreeArg (params : List Ast) (calleeLabel line : String) (i : Nat) : List StaticFailure :=
  match formal params i with
  | .rest =>
      [⟨.threeAliasForbidden,
        "passing THREE into rest parameter of " ++ calleeLabel ++ " at line " ++ line⟩]
  | .extra =>
      [⟨.threeAliasForbidden, "passing THREE as extra argument (past formal params) to " ++
        calleeLabel ++ " at line " ++ line⟩]
  | .param param =>
      let shape := if param.type = "AssignmentPattern" then (param.child "left").getD param else param
      if shape.type = "Identifier" then
        if shape.name ≠ "THREE" then
          [⟨.threeAliasForbidden, "passing THREE to parameter `" ++ shape.name ++ "` of " ++
            calleeLabel ++ " (must be named `THREE`) at line " ++ line⟩]
        else []
      else if shape.type = "ObjectPattern" then walkObjectPatternFromThree shape line
      else if shape.type = "ArrayPattern" then
        [⟨.threeAliasForbidden, "passing THREE to array-pattern parameter of " ++ calleeLabel ++
          " at line " ++ line⟩]
      else
        [⟨.threeAliasForbidden, "passing THREE to " ++ shape.type ++ " parameter of " ++
          calleeLabel ++ " at line " ++ line⟩]

def checkCallWithThreeArg (path : Path) : List StaticFailure :=
  let node := path.node
  let line := loc node
  let arguments := node.all "arguments"
  if !babel.hasBinding path "THREE" ∨ !arguments.any (·.isIdentifier "THREE") then []
  else
    match node.child "callee" with
    | none => []
    | some callee =>
        if node.type = "NewExpression" ∧ callee.type = "MemberExpression" ∧
            (callee.child "object").any (·.isIdentifier "THREE") then
          let property := match callee.child "property" with
            | some property => if property.type = "Identifier" then property.name else "?"
            | none => "?"
          [⟨.threeAliasForbidden,
            "passing THREE to `new THREE." ++ property ++ "(...)` at line " ++ line⟩]
        else
          match resolveCallableParams babel callee path with
          | none =>
              [⟨.threeAliasForbidden, "passing THREE to an unresolvable callee (" ++ callee.type ++
                ") at line " ++ line⟩]
          | some (params, calleeLabel) =>
              arguments.zipIdx.flatMap fun (arg, i) =>
                if arg.isIdentifier "THREE" then checkThreeArg params calleeLabel line i else []

/-! ## The visitor -/

def visitFunction (path : Path) : List StaticFailure :=
  if babel.isFunction path.node.type ∧ path.node.attributes.async then
    [⟨.asyncNotAllowed, "async function at line " ++ loc path.node⟩]
  else []

def visitAwait (path : Path) : List StaticFailure :=
  if path.ancestors.any fun p => babel.isFunction p.type && p.attributes.async then []
  else [⟨.asyncNotAllowed, "top-level await at line " ++ loc path.node⟩]

/-- The identifiers that no rule reads. -/
def skipsIdentifier (path : Path) (parent : Ast) : Bool :=
  (parent.type == "MemberExpression" && path.slot == "property" && !parent.attributes.computed) ||
  ((parent.type == "ObjectProperty" || parent.type == "ObjectMethod") && path.slot == "key" &&
    !parent.attributes.computed) ||
  ((parent.type == "ClassProperty" || parent.type == "ClassMethod" ||
      parent.type == "ClassPrivateProperty" || parent.type == "ClassPrivateMethod") &&
    path.slot == "key" && !parent.attributes.computed) ||
  parent.type == "ImportSpecifier" || parent.type == "ImportDefaultSpecifier" ||
  parent.type == "ImportNamespaceSpecifier" || parent.type == "ExportSpecifier"

/-- The places where THREE may stand. -/
def threeContext (path : Path) (parent : Ast) : Bool :=
  (parent.type == "MemberExpression" && path.slot == "object") ||
  (parent.type == "VariableDeclarator" && path.slot == "init") ||
  (parent.type == "AssignmentExpression" && path.slot == "right") ||
  ((parent.type == "CallExpression" || parent.type == "NewExpression") && path.slot == "arguments") ||
  (parent.type == "SpreadElement" && path.slot == "argument")

def visitIdentifier (path : Path) : List StaticFailure :=
  match path.parent with
  | none => []
  | some parent =>
      let name := path.node.name
      if skipsIdentifier path parent then []
      else if name ∈ forbiddenIdentifiers then
        [⟨.forbiddenIdentifier, name ++ " at line " ++ loc path.node⟩]
      else if name = "THREE" then
        if !babel.isReferencedIdentifier path then []
        else if !babel.hasBinding path "THREE" then
          [⟨.threeAtTopLevel,
            "THREE referenced outside generate function at line " ++ loc path.node⟩]
        else if threeContext path parent then []
        else
          [⟨.threeAliasForbidden, "THREE used in disallowed context (" ++ parent.type ++
            ") at line " ++ loc path.node⟩]
      else if babel.isReferencedIdentifier path && !babel.hasBinding path name &&
          !allowedRootIdentifiers.contains name then
        [⟨.identifierNotAllowed, name ++ " at line " ++ loc path.node⟩]
      else []

def visitAssignment (left right : String) (path : Path) : List StaticFailure :=
  match path.node.child right with
  | none => []
  | some value =>
      if isThreeReference babel value path then
        ((path.node.child left).map (handleAssignFromThree (loc path.node))).getD []
      else []

def visitSpread (path : Path) : List StaticFailure :=
  match path.node.child "argument" with
  | none => []
  | some argument =>
      if isThreeReference babel argument path then
        [⟨.threeAliasForbidden, "spread of THREE at line " ++ loc path.node⟩]
      else []

/-- The names for which `THREE_BLOCKED_SUBMEMBERS[name]` is inherited from `Object.prototype`. -/
def inheritedNames : List String :=
  ["constructor", "__proto__", "__defineGetter__", "__defineSetter__", "__lookupGetter__",
    "__lookupSetter__", "hasOwnProperty", "isPrototypeOf", "propertyIsEnumerable",
    "toLocaleString", "toString", "valueOf"]

/-- The name of a property that is not computed. -/
def propertyName (member : Ast) : Option String :=
  if member.attributes.computed then none
  else ((member.child "property").filter (·.type = "Identifier")).map Ast.name

/-- `FORBIDDEN_PROPERTY_ACCESS`, a rule of the service. -/
def propertyAccess (forbidden : List String) (path : Path) : List StaticFailure :=
  match propertyName path.node with
  | none => []
  | some name =>
      if name ∈ forbidden then
        [⟨.forbiddenPropertyAccess, "." ++ name ++ " at line " ++ loc path.node⟩]
      else []

/-- A submember of a member of THREE. -/
def visitSubmember (path : Path) (obj : Ast) : Except String (List StaticFailure) :=
  match propertyName obj, propertyName path.node with
  | some name, some subName =>
      if obj.type = "MemberExpression" ∧ (obj.child "object").any (·.isIdentifier "THREE") then
        match blockedSubmembers name with
        | some blocked =>
            if subName ∈ blocked then
              .ok [⟨.forbiddenThreeApi,
                "THREE." ++ name ++ "." ++ subName ++ " at line " ++ loc path.node⟩]
            else .ok []
        -- what is inherited has no `has`
        | none =>
            if name ∈ inheritedNames then .error "THREE_BLOCKED_SUBMEMBERS[...].has is not a function"
            else .ok []
      else .ok []
  | _, _ => .ok []

/-- `MemberExpression`, after the rule on the names of properties. -/
def visitMember (path : Path) : Except String (List StaticFailure) :=
  match path.node.child "object" with
  | none => .ok []
  | some obj =>
      let line := loc path.node
      let gated :=
        if path.node.attributes.computed ∧ obj.type = "Identifier" ∧ obj.name ∈ computedAccessGated then
          [⟨.computedPropertyAccess, "computed access on " ++ obj.name ++ " at line " ++ line⟩]
        else []
      let random :=
        if obj.isIdentifier "Math" ∧ propertyName path.node = some "random" then
          [⟨.forbiddenIdentifier, "Math.random at line " ++ line⟩]
        else []
      let api := match propertyName path.node with
        | none => []
        | some propName =>
            if obj.isIdentifier "THREE" ∧ babel.hasBinding path "THREE" ∧ propName ∉ threeAllowed then
              [threeApi propName "" line]
            else []
      match visitSubmember path obj with
      | .error thrown => .error thrown
      | .ok submember => .ok (gated ++ random ++ api ++ submember)

/-- What the visitor pushes when the traversal enters a node. -/
def enter (forbidden : List String) (path : Path) : Except String (List StaticFailure) :=
  let here : Except String (List StaticFailure) :=
    match path.node.type with
    | "AwaitExpression" => .ok (visitAwait babel path)
    | "ForOfStatement" =>
        if path.node.attributes.await then
          .ok [⟨.asyncNotAllowed, "for await loop at line " ++ loc path.node⟩]
        else .ok []
    | "ImportDeclaration" =>
        .ok [⟨.forbiddenIdentifier, "import statement at line " ++ loc path.node⟩]
    | "ImportExpression" | "Import" =>
        .ok [⟨.forbiddenIdentifier, "dynamic import() at line " ++ loc path.node⟩]
    | "MetaProperty" =>
        if (path.node.child "meta").any (·.name = "import") then
          .ok [⟨.forbiddenIdentifier, "import.meta at line " ++ loc path.node⟩]
        else .ok []
    | "Identifier" => .ok (visitIdentifier babel path)
    | "VariableDeclarator" => .ok (visitAssignment babel "id" "init" path)
    | "AssignmentExpression" =>
        if path.node.attributes.operator = "=" then .ok (visitAssignment babel "left" "right" path)
        else .ok []
    | "SpreadElement" => .ok (visitSpread babel path)
    | "CallExpression" | "NewExpression" => .ok (checkCallWithThreeArg babel path)
    | "MemberExpression" =>
        match visitMember babel path with
        | .error thrown => .error thrown
        | .ok failures => .ok (propertyAccess forbidden path ++ failures)
    | _ => .ok []
  match here with
  | .error thrown => .error thrown
  | .ok failures => .ok (visitFunction babel path ++ failures)

/-- What a literal adds to `literalBytes`. -/
def literalBytes (node : Ast) : Nat :=
  match node.type with
  | "StringLiteral" => node.attributes.value.utf8ByteSize
  | "NumericLiteral" | "BigIntLiteral" => (node.attributes.raw.getD node.attributes.value).length
  | "TemplateElement" => (node.attributes.cooked.getD (node.attributes.raw.getD "")).utf8ByteSize
  | _ => 0

/-! ## `staticAnalyze` -/

def isExport (stmt : Ast) : Bool :=
  stmt.type == "ExportDefaultDeclaration" || stmt.type == "ExportNamedDeclaration" ||
    stmt.type == "ExportAllDeclaration"

def isFn (decl : Ast) : Bool :=
  decl.type == "FunctionDeclaration" || decl.type == "FunctionExpression" ||
    decl.type == "ArrowFunctionExpression"

def programBody (ast : Ast) : List Ast := ((ast.child "program").map (·.all "body")).getD []

/-- The second phase, after what the first has pushed. -/
def walkAst (forbidden : List String) (ast : Ast) (failures : List StaticFailure) :
    Except String (List StaticFailure) :=
  match (ast.paths []).mapM (enter babel forbidden) with
  | .error thrown => .error thrown
  | .ok pushed =>
      let total := ((ast.paths []).map fun path => literalBytes path.node).sum
      let budget :=
        if total > literalBudget then
          [⟨.literalBudgetExceeded,
            toString total ++ " bytes (limit " ++ toString literalBudget ++ ")"⟩]
        else []
      .ok (failures ++ pushed.flatten ++ budget)

def staticAnalyze (forbidden : List String) (ast : Ast) : Except String (List StaticFailure) :=
  let body := programBody ast
  let topLevelExports := body.countP isExport
  match ((body.filter (·.type = "ExportDefaultDeclaration")).getLast?).bind (·.child "declaration") with
  | none => .ok [⟨.missingDefaultExport, "no `export default` found"⟩]
  | some decl =>
      let multiple :=
        if topLevelExports > 1 then
          [⟨.multipleTopLevelExports, "found " ++ toString topLevelExports ++
            " top-level exports, expected exactly 1"⟩]
        else []
      if !isFn decl then
        .ok (multiple ++
          [⟨.missingDefaultExport, "default export must be a function, got " ++ decl.type⟩])
      else if decl.attributes.async then
        .ok (multiple ++ [⟨.asyncNotAllowed, "default export is an async function"⟩])
      else walkAst babel forbidden ast multiple

/-- `staticAnalyze` of the published validator. -/
def minerStaticAnalyze (ast : Ast) : Except String (List StaticFailure) := staticAnalyze babel [] ast

/-- `staticAnalyze` of the render service. -/
def serviceStaticAnalyze (ast : Ast) : Except String (List StaticFailure) :=
  staticAnalyze babel forbiddenPropertyNames ast

end GenSubnet.Render
