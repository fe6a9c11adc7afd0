import CMinusAnalysis.Analysis.Basic
import CMinusAnalysis.Proofs.Checking.Step
import CMinusAnalysis.Proofs.Facts.Scopes

namespace CMinusAnalysis

/-! Types without a state. What a node is typed as, and what is wrong with it,
follows from the names that were declared, from the nodes around it and from
the types of the nodes below. -/

def SymbolTable.typeFrom? (table : SymbolTable) (scope : ScopeId)
    (name : String) : Option Ty :=
  match table.lookup scope name with
  | .ok (some symbol) => table.typeOf? symbol
  | _ => none

theorem SymbolTable.typeFrom?_eq {table : SymbolTable}
    (coherent : table.Coherent) {scope : ScopeId} (has : table.Has scope)
    (name : String) :
    table.typeFrom? scope name =
      (table.resolve scope name).bind table.typeOf? := by
  rw [typeFrom?, lookup_eq coherent has]
  cases table.resolve scope name <;> rfl

namespace Analysis

variable (declared : Analysis)

def typeAt (route : Route) (site : Site) (target : Option Ty) : Option Ty :=
  match site.node.kind with
  | .expression (.constant _) | .expression (.binary _) => some .integer
  | .expression (.identifier name) =>
      if declared.facts.unresolved.contains site.id then none
      else
        (declared.facts.scopeAround route.ancestors).bind fun scope =>
          declared.table.typeFrom? scope name
  | .expression (.arrayIdentifier _) =>
      some (if site.node.first.isSome then .integer else .integerArray)
  | .expression .assign => target
  | .expression (.call name) =>
      if declared.facts.unresolved.contains site.id then none
      else (declared.function? name).map Symbol.type
  | .declaration (.variable _ _) => some .integer
  | .declaration (.arrayVariable _ _ _) => some .integerArray
  | .declaration (.function _ spec) => some (Ty.ofReturnSpec spec)
  | .parameter parameter => parameter.name.map fun _ => parameter.type
  | .statement _ => none

/-- The type of the first node of a forest to which the route leads. -/
def infer : Route → Forest → Option Ty
  | route, .cons site first _ _ _ =>
      declared.typeAt route site (infer ((site, .first) :: route) first)
  | _, _ => none

def inferChain : Route → Forest → List (Option Ty)
  | route, .cons site first _ _ rest =>
      declared.typeAt route site
          (declared.infer ((site, .first) :: route) first) ::
        inferChain ((site, .sibling) :: route) rest
  | _, _ => []

/-- What a function declaration stands for: the symbol that it declared, or
else the global function that has its name. -/
def symbolOf? (site : Site) : Option SymbolId :=
  match site.node.kind with
  | .declaration (.function name _) =>
      (declared.facts.functions.get? site.id).orElse fun _ =>
        declared.table.globalFunction? name
  | _ => none

def functionAround (ancestors : List Site) : Option SymbolId :=
  (ancestors.find? fun site => site.node.kind.isFunction).bind
    declared.symbolOf?

open Checking in
def callVerdict (site : Site) (name : String)
    (arguments : List (Option Ty)) : List DiagnosticKind :=
  if declared.facts.unresolved.contains site.id then []
  else
    match callee? declared.table name with
    | none => [.functionNotDeclared]
    | some function =>
        if function.isFunction then
          argumentObjections 1 arguments function.parameters ++
            (countObjection? function.parameters.length
              arguments.length).toList
        else [.notAFunction]

def conditionVerdict (site : Site) (statement : String)
    (condition : Option Ty) : List DiagnosticKind :=
  if site.node.first.isNone then [.missingCondition statement]
  else if condition = some .void then [.voidCondition statement]
  else []

open Checking in
def returnVerdict (route : Route) (site : Site) (value : Option Ty) :
    List Diagnostic :=
  match (declared.functionAround route.ancestors).bind fun id =>
      declared.table.symbols[id.index]? with
  | some function =>
      complaints site.node.line (some function.name)
        (returnObjection? function.type site.node.first.isSome value).toList
  | none => []

open Checking in
/-- What is wrong with a node whose first two slots hold these forests. The use
of a name is never wrong here: whether it is declared has been settled. -/
def verdict (route : Route) (site : Site) (first second : Forest) :
    List Diagnostic :=
  let line := site.node.line
  let left := declared.infer ((site, .first) :: route) first
  let right := declared.infer ((site, .second) :: route) second
  match site.node.kind with
  | .expression (.binary op) =>
      complaints line none (binaryObjection? op left right).toList
  | .expression .assign | .statement .assign =>
      complaints line none (assignmentObjection? left right).toList
  | .expression (.call name) =>
      complaints line (some name) (declared.callVerdict site name
        (declared.inferChain ((site, .first) :: route) first))
  | .statement .conditional | .statement .alternative =>
      complaints line none (conditionVerdict site "if" left)
  | .statement .loop =>
      complaints line none (conditionVerdict site "while" left)
  | .statement .ret => declared.returnVerdict route site left
  | .statement .write =>
      complaints line none (if left = some .void then [.voidWrite] else [])
  | .declaration (.variable name spec)
  | .declaration (.arrayVariable name spec _) =>
      complaints line (some name) (variableObjection? spec).toList
  | _ => []

/-- What is wrong with the nodes of a forest, each after its children. -/
def findings : Route → Forest → List Diagnostic
  | route, .cons site first second third rest =>
      findings ((site, .first) :: route) first ++
        (findings ((site, .second) :: route) second ++
          (findings ((site, .third) :: route) third ++
            (declared.verdict route site first second ++
              findings ((site, .sibling) :: route) rest)))
  | _, _ => []

variable {declared}

theorem head?_inferChain (route : Route) (forest : Forest) :
    (declared.inferChain route forest).head?.join =
      declared.infer route forest := by
  cases forest <;> rfl

theorem function?_eq {name : String}
    (has : declared.table.Has ScopeId.global) :
    declared.function? name =
      (Checking.callee? declared.table name).filter Symbol.isFunction := by
  simp only [function?, SymbolTable.globalFunction?, Checking.callee?,
    SymbolTable.lookupLocal_eq has]
  cases hit : declared.table.find? ScopeId.global name with
  | none => rfl
  | some id =>
      obtain ⟨entry, stored, _⟩ := SymbolTable.name_of_find? hit
      cases function : entry.isFunction <;>
        simp [stored, function, Option.filter]

theorem functionAround_function {site : Site} {link : Link} {route : Route}
    (function : site.node.kind.isFunction = true) (down : link ≠ .sibling) :
    declared.functionAround (Route.ancestors ((site, link) :: route)) =
      declared.symbolOf? site := by
  simp [functionAround, Route.ancestors_child site down, function]

theorem functionAround_other {site : Site} {link : Link} {route : Route}
    (other : site.node.kind.isFunction = false) :
    declared.functionAround (Route.ancestors ((site, link) :: route)) =
      declared.functionAround (Route.ancestors route) := by
  by_cases down : link = .sibling
  · rw [down, Route.ancestors_sibling]
  · simp [functionAround, Route.ancestors_child site down, other]

end Analysis

end CMinusAnalysis
