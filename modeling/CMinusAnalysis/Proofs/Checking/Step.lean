import CMinusAnalysis.Analysis.Checking
import CMinusAnalysis.Proofs.Symbol.Resolution
import CMinusAnalysis.Proofs.Tree.Unfolding

namespace CMinusAnalysis

/-! What one visit of the checking pass does. From a supported state no visit of
a node fails. Leaving a node gives it a type, reports what is wrong with it and
may leave a block or a function; none of these looks at what was reported
before. -/

namespace Checking

/-- Every handle into the table that the state holds is good. -/
structure Supported (table : SymbolTable) (state : Checking) : Prop where
  nested : table.Nested
  current : table.Has state.current
  blocks : ∀ {id : NodeId}, ∀ scope ∈ state.facts.blocks.get? id,
    table.Has scope
  functions : ∀ {id : NodeId}, ∀ function ∈ state.facts.functions.get? id,
    function.index < table.symbols.size
  function : ∀ function ∈ state.function,
    function.index < table.symbols.size
  outer : ∀ {function : SymbolId}, some function ∈ state.outer →
    function.index < table.symbols.size

structure Sound (table : SymbolTable) (state : Checking) : Prop
    extends Supported table state where
  coherent : table.Coherent

end Checking

/-- The children that a check may look at exist. -/
structure Tree.Linked (tree : Tree) (site : Site) : Prop where
  first : ∀ id ∈ site.node.first, id.index < tree.size
  second : ∀ id ∈ site.node.second, id.index < tree.size
  siblings : ∃ ids, tree.siblings site.node.first = .ok ids ∧
    ∀ id ∈ ids, id.index < tree.size

namespace Checking

variable (tree : Tree) (table : SymbolTable) (state : Checking)

def nameType (id : NodeId) (name : String) : Option Ty :=
  if state.facts.unresolved.contains id then none
  else (table.resolve state.current name).bind table.typeOf?

def siteTy (site : Site) : Option Ty :=
  match site.node.kind with
  | .expression (.identifier name) => state.nameType table site.id name
  | .expression (.arrayIdentifier _) =>
      some (if site.node.first.isSome then .integer else .integerArray)
  | _ => state.facts.types.get? site.id

def operand (start : Option NodeId) : Option Ty :=
  start.bind fun id => tree.nodes[id.index]?.bind fun node =>
    state.siteTy table ⟨id, node⟩

def arguments (site : Site) : List NodeId :=
  match tree.siblings site.node.first with
  | .ok ids => ids
  | .error _ => []

def nameObjections (id : NodeId) (name : String) : List DiagnosticKind :=
  if state.facts.unresolved.contains id then []
  else if (table.resolve state.current name).isNone then [.nameLost]
  else []

def argumentObjections (position : Nat) :
    List (Option Ty) → List Ty → List DiagnosticKind
  | found :: operands, expected :: parameters =>
      (argumentObjection? position expected found).toList ++
        argumentObjections (position + 1) operands parameters
  | _, _ => []

def callee? (name : String) : Option Symbol :=
  (table.find? ScopeId.global name).bind fun id => table.symbols[id.index]?

def callObjections (site : Site) (name : String) : List DiagnosticKind :=
  if state.facts.unresolved.contains site.id then []
  else
    match callee? table name with
    | none => [.functionNotDeclared]
    | some function =>
        if function.isFunction then
          argumentObjections 1
              ((arguments tree site).map fun id =>
                state.operand tree table (some id)) function.parameters ++
            (countObjection? function.parameters.length
              (arguments tree site).length).toList
        else [.notAFunction]

def conditionObjections (site : Site) (statement : String) :
    List DiagnosticKind :=
  if site.node.first.isNone then [.missingCondition statement]
  else if state.operand tree table site.node.first = some .void then
    [.voidCondition statement]
  else []

def returnObjections (site : Site) (function : Symbol) : List DiagnosticKind :=
  (returnObjection? function.type site.node.first.isSome
    (if function.type = .void then none
    else state.operand tree table site.node.first)).toList

def enclosing? : Option Symbol :=
  state.function.bind fun id => table.symbols[id.index]?

def complaints (line : Nat) (name : Option String)
    (kinds : List DiagnosticKind) : List Diagnostic :=
  kinds.map fun kind => ⟨kind, line, name⟩

/-- What is reported when a node is left. -/
def objections (site : Site) : List Diagnostic :=
  let line := site.node.line
  let first := state.operand tree table site.node.first
  let second := state.operand tree table site.node.second
  match site.node.kind with
  | .expression (.identifier name)
  | .expression (.arrayIdentifier name) =>
      complaints line (some name) (state.nameObjections table site.id name)
  | .expression (.binary op) =>
      complaints line none (binaryObjection? op first second).toList
  | .expression .assign | .statement .assign =>
      complaints line none (assignmentObjection? first second).toList
  | .expression (.call name) =>
      complaints line (some name) (state.callObjections tree table site name)
  | .statement .conditional | .statement .alternative =>
      complaints line none (state.conditionObjections tree table site "if")
  | .statement .loop =>
      complaints line none (state.conditionObjections tree table site "while")
  | .statement .ret =>
      match state.enclosing? table with
      | some function =>
          complaints line (some function.name)
            (state.returnObjections tree table site function)
      | none => []
  | .statement .write =>
      complaints line none (if first = some .void then [.voidWrite] else [])
  | .declaration (.variable name spec)
  | .declaration (.arrayVariable name spec _) =>
      complaints line (some name) (variableObjection? spec).toList
  | _ => []

def gained (site : Site) : Option Ty :=
  match site.node.kind with
  | .expression (.constant _) | .expression (.binary _) => some .integer
  | .expression (.identifier _) | .expression (.arrayIdentifier _) =>
      state.siteTy table site
  | .expression .assign => state.operand tree table site.node.first
  | .expression (.call name) =>
      if state.facts.unresolved.contains site.id then none
      else
        (callee? table name).bind fun function =>
          if function.isFunction then some function.type else none
  | .declaration (.variable _ _) => some .integer
  | .declaration (.arrayVariable _ _ _) => some .integerArray
  | .declaration (.function _ spec) => some (Ty.ofReturnSpec spec)
  | .parameter parameter => parameter.name.map fun _ => parameter.type
  | .statement _ => none

def reported (diagnostics : List Diagnostic) : Checking :=
  { state with
    diagnostics := diagnostics.foldl Diagnostics.add state.diagnostics }

def typed (id : NodeId) : Option Ty → Checking
  | some type => { state with facts := state.facts.setType id type }
  | none => state

def outside (site : Site) : Checking :=
  match site.node.kind with
  | .statement .compound =>
      match state.facts.blocks.get? site.id with
      | some block =>
          { state with
            current := (table.parent? block).getD ScopeId.global }
      | none => state
  | .declaration (.function _ _) =>
      { state with
        function := state.outer.head?.join
        outer := state.outer.tail }
  | _ => state

def left (site : Site) : Checking :=
  ((state.outside table site).reported (state.objections tree table site)).typed
    site.id (state.gained tree table site)

def entered (site : Site) : Checking :=
  match site.node.kind with
  | .declaration (.function name _) =>
      { state with
        function := state.functionSymbol? table site.id name
        outer := state.function :: state.outer }
  | .statement .compound =>
      match state.facts.blocks.get? site.id with
      | some id => { state with current := id }
      | none => state.reported [⟨.blockScopeLost, site.node.line, none⟩]
  | _ => state

/-- The outcome of one visit. -/
def step (state : Checking) (visit : Visit) : Except Fault Checking :=
  (state.visit tree table visit).result

section Results

variable {tree table state}

theorem lookupType_eq (supported : state.Supported table) (name : String) :
    state.lookupType table name =
      .ok ((table.resolve state.current name).bind table.typeOf?) := by
  simp only [lookupType, supported.nested.lookup_eq supported.current,
    ok_bind]
  cases hit : table.resolve state.current name with
  | none => rfl
  | some id =>
      obtain ⟨symbol, stored⟩ := SymbolTable.exists_of_resolve hit
      simp [SymbolTable.symbol_eq_ok stored, SymbolTable.typeOf?, stored]

theorem siteType_eq (supported : state.Supported table) (site : Site) :
    state.siteType table site = .ok (state.siteTy table site) := by
  unfold siteType
  split
  · next name kind =>
      simp only [siteTy, kind, nameType]
      split
      · rfl
      · exact lookupType_eq supported name
  · next kind => simp only [siteTy, kind]
  · simp only [siteTy]

theorem nodeType_eq (supported : state.Supported table) {id : NodeId}
    (inside : id.index < tree.size) :
    state.nodeType tree table id = .ok (state.operand tree table (some id)) := by
  have stored : tree.nodes[id.index]? = some tree.nodes[id.index] :=
    Array.getElem?_eq_getElem inside
  have found : tree.node id = .ok tree.nodes[id.index] :=
    Tree.node_eq_ok_iff.mpr stored
  simp [nodeType, found, siteType_eq supported, operand, stored]

theorem operandType_eq (supported : state.Supported table) {start : Option NodeId}
    (inside : ∀ id ∈ start, id.index < tree.size) :
    state.operandType tree table start =
      .ok (state.operand tree table start) := by
  cases start with
  | none => rfl
  | some id => exact nodeType_eq supported (inside id rfl)

theorem report_result (diagnostic : Diagnostic) :
    (state.report diagnostic).result = .ok (state.reported [diagnostic]) := by
  simp [report, reported]

theorem reportAny_result (kind : Option DiagnosticKind) (line : Nat)
    (name : Option String) :
    (state.reportAny (kind.map fun kind => ⟨kind, line, name⟩)).result =
      .ok (state.reported (complaints line name kind.toList)) := by
  cases kind with
  | none => rfl
  | some kind => exact report_result _

@[simp] theorem reported_nil : state.reported [] = state := rfl

theorem reported_append (first second : List Diagnostic) :
    state.reported (first ++ second) =
      (state.reported first).reported second := by
  simp [reported]

theorem checkName_result (supported : state.Supported table) (id : NodeId)
    (name : String) (line : Nat) :
    (state.checkName table id name line).result =
      .ok (state.nameType table id name, state.reported
        (complaints line (some name) (state.nameObjections table id name))) := by
  simp only [checkName, nameType, nameObjections]
  split
  · rfl
  · simp only [Run.result_bind, Run.result_monadLift, lookupType_eq supported,
      ok_bind]
    cases hit : table.resolve state.current name with
    | none => simp [report_result, complaints]
    | some found =>
        obtain ⟨symbol, stored⟩ := SymbolTable.exists_of_resolve hit
        simp [SymbolTable.typeOf?, stored, complaints]

theorem checkBinary_result (supported : state.Supported table) {site : Site}
    (linked : tree.Linked site) (op : BinaryOp) :
    (state.checkBinary tree table site op).result =
      .ok (state.reported (complaints site.node.line none
        (binaryObjection? op (state.operand tree table site.node.first)
          (state.operand tree table site.node.second)).toList)) := by
  simp only [checkBinary, Run.result_bind, Run.result_monadLift,
    operandType_eq supported linked.first, operandType_eq supported linked.second,
    ok_bind, reportAny_result]

theorem checkAssignment_result (supported : state.Supported table) {site : Site}
    (linked : tree.Linked site) :
    (state.checkAssignment tree table site).result =
      .ok (state.operand tree table site.node.first,
        state.reported (complaints site.node.line none
          (assignmentObjection? (state.operand tree table site.node.first)
            (state.operand tree table site.node.second)).toList)) := by
  simp only [checkAssignment, Run.result_bind, Run.result_monadLift,
    operandType_eq supported linked.first, operandType_eq supported linked.second,
    ok_bind, reportAny_result, Run.result_pure]

theorem Supported.reported (supported : state.Supported table)
    (diagnostics : List Diagnostic) :
    (state.reported diagnostics).Supported table :=
  { supported with }

theorem operand_reported (diagnostics : List Diagnostic)
    (start : Option NodeId) :
    (state.reported diagnostics).operand tree table start =
      state.operand tree table start := rfl

theorem checkArguments_result (supported : state.Supported table) (name : String)
    (line position : Nat) {ids : List NodeId}
    (inside : ∀ id ∈ ids, id.index < tree.size) (parameters : List Ty) :
    (state.checkArguments tree table name line position ids
        parameters).result =
      .ok (state.reported (complaints line (some name)
        (argumentObjections position
          (ids.map fun id => state.operand tree table (some id))
          parameters))) := by
  induction ids generalizing state position parameters with
  | nil => rfl
  | cons id ids induction =>
      cases parameters with
      | nil => rfl
      | cons expected parameters =>
          rw [List.forall_mem_cons] at inside
          simp only [checkArguments, Run.result_bind, Run.result_monadLift,
            nodeType_eq supported inside.1, ok_bind, reportAny_result,
            induction (supported.reported _) _ inside.2, operand_reported,
            List.map_cons, argumentObjections]
          rw [← reported_append, complaints, complaints, complaints,
            List.map_append]

theorem checkCall_result (supported : state.Supported table) {site : Site}
    (linked : tree.Linked site) (name : String) :
    (state.checkCall tree table site name).result =
      .ok (if state.facts.unresolved.contains site.id then none
          else (callee? table name).bind fun function =>
            if function.isFunction then some function.type else none,
        state.reported (complaints site.node.line (some name)
          (state.callObjections tree table site name))) := by
  have global : table.Has ScopeId.global :=
    Nat.lt_of_le_of_lt (Nat.zero_le _) supported.current
  obtain ⟨ids, chain, inside⟩ := linked.siblings
  have listed : arguments tree site = ids := by
    simp [arguments, chain]
  simp only [checkCall, callObjections]
  split
  · rfl
  · simp only [Run.result_bind, Run.result_monadLift,
      SymbolTable.lookupLocal_eq global, ok_bind]
    cases hit : table.find? ScopeId.global name with
    | none => simp [report_result, callee?, hit, complaints]
    | some id =>
        obtain ⟨function, stored, _⟩ := SymbolTable.name_of_find? hit
        have callee : callee? table name = some function := by
          simp [callee?, hit, stored]
        simp only [SymbolTable.symbol_eq_ok stored, callee, Run.result_bind,
          Run.result_monadLift, ok_bind, Option.bind_some]
        split
        · simp only [chain, listed, Run.result_bind, Run.result_monadLift,
            ok_bind, checkArguments_result supported name _ _ inside,
            reportAny_result, Run.result_pure]
          rw [← reported_append, complaints, complaints, complaints,
            List.map_append]
        · simp [report_result, complaints]

theorem checkCondition_result (supported : state.Supported table) {site : Site}
    (linked : tree.Linked site) (statement : String) :
    (state.checkCondition tree table site statement).result =
      .ok (state.reported (complaints site.node.line none
        (state.conditionObjections tree table site statement))) := by
  simp only [checkCondition, conditionObjections]
  cases condition : site.node.first with
  | none => simp [report_result, complaints]
  | some id =>
      simp only [Run.result_bind, Run.result_monadLift,
        nodeType_eq supported (linked.first id condition), ok_bind]
      by_cases void : state.operand tree table (some id) = some .void
      · simp [void, report_result, complaints]
      · simp [void, complaints]

theorem checkReturn_result (supported : state.Supported table) {site : Site}
    (linked : tree.Linked site) :
    (state.checkReturn tree table site).result =
      .ok (state.reported
        (match state.enclosing? table with
        | some function =>
            complaints site.node.line (some function.name)
              (state.returnObjections tree table site function)
        | none => [])) := by
  simp only [checkReturn, enclosing?]
  cases held : state.function with
  | none => rfl
  | some id =>
      have inside := supported.function id held
      have stored : table.symbols[id.index]? = some table.symbols[id.index] :=
        Array.getElem?_eq_getElem inside
      simp only [Option.bind_some, stored, SymbolTable.symbol_eq_ok stored,
        Run.result_bind, Run.result_monadLift, ok_bind, returnObjections]
      split
      · simp [reportAny_result]
      · simp [operandType_eq supported linked.first, reportAny_result]

theorem checkWrite_result (supported : state.Supported table) {site : Site}
    (linked : tree.Linked site) :
    (state.checkWrite tree table site).result =
      .ok (state.reported (complaints site.node.line none
        (if state.operand tree table site.node.first = some .void then
          [.voidWrite] else []))) := by
  simp only [checkWrite, Run.result_bind, Run.result_monadLift,
    operandType_eq supported linked.first, ok_bind]
  split
  · simp [report_result, complaints]
  · simp [complaints]

theorem leaveBlock_result (supported : state.Supported table) {site : Site}
    (kind : site.node.kind = .statement .compound) :
    (state.leaveBlock table site.id).result =
      .ok (state.outside table site) := by
  simp only [leaveBlock, outside, kind]
  cases recorded : state.facts.blocks.get? site.id with
  | none => rfl
  | some block =>
      obtain ⟨scope, stored⟩ :=
        SymbolTable.exists_scope (supported.blocks block recorded)
      simp [SymbolTable.scope_eq_ok stored, SymbolTable.parent?, stored]

theorem leaveTyped_result (supported : state.Supported table) {site : Site}
    (linked : tree.Linked site) :
    (state.leaveTyped tree table site).result =
      .ok (state.gained tree table site,
        (state.outside table site).reported
          (state.objections tree table site)) := by
  rcases kind : site.node.kind with declaration | statement | expression |
    parameter
  · cases declaration <;>
      simp [leaveTyped, leaveDeclaration, gained, objections, outside, kind,
        checkVariable, reportAny_result]
  · by_cases block : statement = .compound
    · subst block
      simp [leaveTyped, leaveStatement, gained, objections, kind,
        leaveBlock_result supported kind]
    · have stays : state.outside table site = state := by
        simp only [outside, kind]
        cases statement <;> first | rfl | exact absurd rfl block
      rw [stays]
      cases statement <;>
        simp_all [leaveTyped, leaveStatement, gained, objections,
          checkCondition_result supported linked,
          checkReturn_result supported linked,
          checkAssignment_result supported linked,
          checkWrite_result supported linked]
  · cases expression <;>
      simp [leaveTyped, leaveExpression, gained, objections, outside, kind,
        checkName_result supported, checkBinary_result supported linked,
        checkAssignment_result supported linked, checkCall_result supported linked,
        siteTy, siteType_eq (supported.reported _)]
  · simp [leaveTyped, gained, objections, outside, kind]

theorem step_leave (supported : state.Supported table) {site : Site}
    (linked : tree.Linked site) :
    step tree table state (.leave site) =
      .ok (state.left tree table site) := by
  simp only [step, visit, leave, Run.result_bind,
    leaveTyped_result supported linked, ok_bind, left]
  cases state.gained tree table site <;> rfl

theorem step_enter (supported : state.Supported table) (site : Site) :
    step tree table state (.enter site) = .ok (state.entered table site) := by
  simp only [step, visit, enter]
  split
  · next kind => simp [entered, kind]
  · next kind =>
      cases recorded : state.facts.blocks.get? site.id with
      | none => simp [entered, kind, recorded, report_result]
      | some id =>
          obtain ⟨scope, stored⟩ :=
            SymbolTable.exists_scope (supported.blocks id recorded)
          simp [entered, kind, recorded, SymbolTable.scope_eq_ok stored]
  · simp only [entered, Run.result_pure]

theorem functionSymbol?_lt (supported : state.Supported table) {id : NodeId}
    {name : String} {function : SymbolId}
    (found : state.functionSymbol? table id name = some function) :
    function.index < table.symbols.size := by
  unfold functionSymbol? at found
  cases own : state.facts.functions.get? id with
  | some symbol =>
      rw [own] at found
      cases found
      exact supported.functions function own
  | none =>
      rw [own] at found
      change table.globalFunction? name = some function at found
      unfold SymbolTable.globalFunction? at found
      split at found
      · split at found
        · next stored =>
            cases found
            obtain ⟨symbol, held, _⟩ := (Option.any_eq_true _ _).mp stored
            exact (Array.getElem?_eq_some_iff.mp held).1
        · cases found
      · cases found

theorem Supported.entered (supported : state.Supported table) (site : Site) :
    (state.entered table site).Supported table := by
  unfold Checking.entered
  split
  · refine { supported with function := ?_, outer := ?_ }
    · intro function held
      exact functionSymbol?_lt supported held
    · intro function member
      rcases List.mem_cons.mp member with held | member
      · exact supported.function function held.symm
      · exact supported.outer member
  · split
    · next id recorded =>
        exact { supported with current := supported.blocks id recorded }
    · exact supported.reported _
  · exact supported

theorem Supported.typed (supported : state.Supported table) (id : NodeId)
    (type : Option Ty) : (state.typed id type).Supported table := by
  cases type with
  | none => exact supported
  | some type => exact { supported with }

theorem Supported.outside (supported : state.Supported table) (site : Site) :
    (state.outside table site).Supported table := by
  have global : table.Has ScopeId.global :=
    Nat.lt_of_le_of_lt (Nat.zero_le _) supported.current
  unfold Checking.outside
  split
  · split
    · next block _ =>
        refine { supported with current := ?_ }
        cases outer : table.parent? block with
        | none => exact global
        | some parent => exact supported.nested.parent_has outer
    · exact supported
  · refine { supported with function := ?_, outer := ?_ }
    · intro function held
      have first := Option.join_eq_some_iff.mp held
      exact supported.outer (List.mem_of_mem_head? first)
    · intro function member
      exact supported.outer (List.mem_of_mem_tail member)
  · exact supported

theorem Supported.left (supported : state.Supported table) (site : Site) :
    (state.left tree table site).Supported table :=
  ((supported.outside site).reported _).typed _ _

theorem Sound.entered (sound : state.Sound table) (site : Site) :
    (state.entered table site).Sound table :=
  ⟨sound.toSupported.entered site, sound.coherent⟩

theorem Sound.left (sound : state.Sound table) (site : Site) :
    (state.left tree table site).Sound table :=
  ⟨sound.toSupported.left site, sound.coherent⟩

end Results

end Checking

end CMinusAnalysis
