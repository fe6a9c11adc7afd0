import CMinusAnalysis.Proofs.Checking.Standing
import CMinusAnalysis.Proofs.Symbol.Signatures
import CMinusAnalysis.Proofs.Tree.Quiet

namespace CMinusAnalysis

/-! What the checking pass reports. The operands of a node are read off the
chains in its slots, and where all of them have types, each rule objects just
when the types do not fit. -/

def Forest.heads : Forest → List Site
  | .cons site _ _ _ rest => site :: rest.heads
  | _ => []

theorem Forest.map_id_heads (forest : Forest) :
    forest.heads.map Site.id = forest.chain := by
  induction forest with
  | nil => rfl
  | missing fault => rfl
  | cons site first second third rest _ _ _ inRest =>
      simp [Forest.heads, Forest.chain, inRest]

theorem Tree.Unfolds.node_of_mem_heads {tree : Tree} {start : Option NodeId}
    {forest : Forest} (unfolds : tree.Unfolds start forest) :
    ∀ site ∈ forest.heads, tree.nodes[site.id.index]? = some site.node := by
  induction unfolds with
  | none => simp [Forest.heads]
  | missing lost => simp [Forest.heads]
  | node found _ _ _ _ _ _ _ inRest =>
      simp only [Forest.heads, List.mem_cons]
      rintro site (rfl | member)
      · exact Tree.node_eq_ok_iff.mp found
      · exact inRest site member

theorem Tree.Unfolds.isNone_iff {tree : Tree} {start : Option NodeId}
    {forest : Forest} (unfolds : tree.Unfolds start forest) :
    start.isNone = true ↔ forest = .nil := by
  cases unfolds <;> simp

namespace Checking

variable {tree : Tree} {table : SymbolTable} {state : Checking} {site : Site}
  {forest : Forest}

/-- The types of the nodes of a chain, as operands. -/
def reading (table : SymbolTable) (state : Checking) (forest : Forest) :
    List (Option Ty) :=
  forest.heads.map (state.siteTy table)

theorem operand_eq {start : Option NodeId}
    (unfolds : tree.Unfolds start forest) :
    state.operand tree table start =
      (state.reading table forest).head?.join := by
  cases unfolds with
  | none => rfl
  | missing lost =>
      have outside := (Tree.node_eq_error_iff.mp lost).1
      simp [operand, reading, Forest.heads, Array.getElem?_eq_none outside]
  | node found =>
      have stored := Tree.node_eq_ok_iff.mp found
      simp [operand, reading, Forest.heads, stored]

theorem arguments_eq (unfolds : tree.Unfolds site.node.first forest)
    (complete : forest.Complete) (distinct : forest.ids.Nodup) :
    (arguments tree site).map (fun id => state.operand tree table (some id)) =
      state.reading table forest := by
  rw [arguments, unfolds.siblings_eq complete distinct, ← forest.map_id_heads,
    reading, List.map_map]
  apply List.map_congr_left
  intro head member
  simp [operand, unfolds.node_of_mem_heads head member]

theorem reading_congr (table : SymbolTable) (forest : Forest)
    {left right : Checking} (current : left.current = right.current)
    (unresolved : left.facts.unresolved = right.facts.unresolved)
    (types : ∀ id ∈ forest.chain,
      left.facts.types.get? id = right.facts.types.get? id) :
    left.reading table forest = right.reading table forest := by
  apply List.map_congr_left
  intro head member
  have listed : head.id ∈ forest.chain := by
    rw [← forest.map_id_heads]
    exact List.mem_map_of_mem member
  unfold siteTy
  split
  · rw [nameType, nameType, current, unresolved]
  · rfl
  · exact types _ listed

/-- A state that sees the facts from the scope. -/
def viewing (facts : Facts) (scope : ScopeId) : Checking where
  facts := facts
  current := scope

/-- What the pass knows when it leaves a node with these operands, in terms of
what it knows in the end. -/
structure Parting (tree : Tree) (final : Facts) (table : SymbolTable)
    (scope : ScopeId) (state : Checking) (site : Site)
    (first second : Forest) : Prop where
  current : state.current = scope
  unresolved : state.facts.unresolved = final.unresolved
  typed : final.types.get? site.id = state.gained tree table site
  onFirst : state.operand tree table site.node.first =
    ((viewing final scope).reading table first).head?.join
  onSecond : state.operand tree table site.node.second =
    ((viewing final scope).reading table second).head?.join
  arguments : (Checking.arguments tree site).map
      (fun id => state.operand tree table (some id)) =
    (viewing final scope).reading table first
  absent : site.node.first.isNone = true ↔ first = .nil

theorem Ready.parting {facts final : Facts} {route : Route}
    {first second third rest : Forest} (untyped : facts.types = {})
    (kept : final.unresolved = facts.unresolved)
    (ready : Ready tree table facts final state route
      (.cons site first second third rest))
    (slots : tree.Slots (.cons site first second third rest))
    (complete : (Forest.cons site first second third rest).Complete)
    (plain : site.node.kind.isBlock = false) :
    Parting tree final table state.current
      ((((state.entered table site).walked tree table first).walked tree
        table second).walked tree table third) site first second := by
  have standing := ready.standing untyped
  have current : ((((state.entered table site).walked tree table first).walked
      tree table second).walked tree table third).current = state.current :=
    Option.some.inj ((standing.current plain).symm.trans ready.placed.around)
  have unresolved := standing.follows.unresolved.trans kept.symm
  obtain ⟨ofFirst, ofSecond, _⟩ := slots
  have children {id : NodeId} (member : id ∈ first.ids ∨ id ∈ second.ids ∨
      id ∈ third.ids) :=
    (ready.noted.children (recording tree table) member).types
  have readFirst : reading table _ first =
      (viewing final state.current).reading table first :=
    reading_congr table first current unresolved fun id member =>
      (children (.inl (first.chain_sublist_ids.subset member))).symm
  have readSecond : reading table _ second =
      (viewing final state.current).reading table second :=
    reading_congr table second current unresolved fun id member =>
      (children (.inr (.inl (second.chain_sublist_ids.subset member)))).symm
  have distinct := (ready.noted.parts (recording tree table)).1.distinct
  refine ⟨current, unresolved, standing.typed, ?_, ?_, ?_, ofFirst.isNone_iff⟩
  · rw [operand_eq ofFirst, readFirst]
  · rw [operand_eq ofSecond, readSecond]
  · rw [arguments_eq ofFirst complete.1 distinct, readFirst]

theorem complaints_eq_nil {line : Nat} {name : Option String}
    {kinds : List DiagnosticKind} :
    complaints line name kinds = [] ↔ kinds = [] :=
  List.map_eq_nil_iff

theorem binaryObjection?_eq_none {op : BinaryOp} {left right : Ty} :
    binaryObjection? op (some left) (some right) = none ↔
      left = right ∧ left ≠ .void := by
  cases left <;> cases right <;> simp [binaryObjection?]

theorem assignmentObjection?_eq_none {target value : Ty} :
    assignmentObjection? (some target) (some value) = none ↔
      target = value ∧ target ≠ .void := by
  cases target <;> cases value <;> simp [assignmentObjection?]

theorem variableObjection?_eq_none {spec : Option TypeSpec} :
    variableObjection? spec = none ↔ spec = some .int := by
  rcases spec with _ | _ | _ <;> simp [variableObjection?]

theorem argumentObjections_eq_nil {position : Nat} {types parameters : List Ty} :
    argumentObjections position (types.map some) parameters ++
        (countObjection? parameters.length types.length).toList = [] ↔
      types = parameters := by
  induction types generalizing position parameters with
  | nil => cases parameters <;> simp [argumentObjections, countObjection?]
  | cons type types induction =>
      cases parameters with
      | nil => simp [argumentObjections, countObjection?]
      | cons expected parameters =>
          have onward := @induction (position + 1) parameters
          rw [List.append_eq_nil_iff] at onward ⊢
          simp only [List.map_cons, argumentObjections, List.append_eq_nil_iff,
            List.length_cons, List.cons.injEq, ← onward]
          simp only [argumentObjection?, countObjection?]
          by_cases same : type = expected <;> simp [same]

theorem returnObjection?_eq_none {expected : Ty} {hasValue : Bool}
    {found : Option Ty} :
    returnObjection? expected hasValue found = none ↔
      if expected = .void then hasValue = false
      else hasValue = true ∧ ∀ type ∈ found, type = expected := by
  cases expected <;> cases hasValue <;> cases found <;>
    simp [returnObjection?]

theorem callObjections_eq_nil {name : String} {types : List Ty}
    (resolved : state.facts.unresolved.contains site.id = false)
    (read : (arguments tree site).map
      (fun id => state.operand tree table (some id)) = types.map some) :
    state.callObjections tree table site name = [] ↔
      ∃ signature, table.signature? name = some signature ∧
        types = signature.parameters := by
  have length : (arguments tree site).length = types.length := by
    simpa using congrArg List.length read
  simp only [callObjections, resolved, Bool.false_eq_true, if_false, read, length,
    SymbolTable.signature?, callee?]
  cases hit : table.find? ScopeId.global name with
  | none => simp
  | some found =>
      obtain ⟨entry, stored, _⟩ := SymbolTable.name_of_find? hit
      simp only [Option.bind_some, stored, Symbol.signature?]
      cases entry.isFunction with
      | false => simp
      | true => simp [argumentObjections_eq_nil, -List.append_eq_nil_iff]

theorem gained_call {name : String}
    (kind : site.node.kind = .expression (.call name))
    (resolved : state.facts.unresolved.contains site.id = false) :
    state.gained tree table site =
      (table.signature? name).map Signature.result := by
  simp only [gained, kind, resolved, Bool.false_eq_true, if_false, callee?,
    SymbolTable.signature?]
  cases hit : table.find? ScopeId.global name with
  | none => rfl
  | some found =>
      obtain ⟨entry, stored, _⟩ := SymbolTable.name_of_find? hit
      simp only [Option.bind_some, stored, Symbol.signature?]
      cases entry.isFunction <;> rfl

def items (state : Checking) : List Diagnostic :=
  state.diagnostics.items

theorem adds (tree : Tree) (table : SymbolTable) :
    Forest.Adds items (entered table) (left tree table) where
  entering state site := by
    unfold entered
    split
    · exact List.prefix_rfl
    · split
      · exact List.prefix_rfl
      · rw [items, items, items_reported]
        exact List.prefix_append _ _
    · exact List.prefix_rfl
  leaving state site := by
    rw [items, items, items_left]
    exact List.prefix_append _ _

/-- A walk through the forest reports nothing. -/
abbrev Quiet (tree : Tree) (table : SymbolTable) (state : Checking)
    (forest : Forest) : Prop :=
  Forest.Quiet items (entered table) (left tree table) state forest

theorem items_left_eq_iff :
    (state.left tree table site).items = state.items ↔
      state.objections tree table site = [] := by
  rw [items, items, items_left]
  simp

theorem quiet_cons {first second third rest : Forest}
    (entering : (state.entered table site).items = state.items) :
    let inside := state.entered table site
    let afterFirst := inside.walked tree table first
    let afterSecond := afterFirst.walked tree table second
    let afterThird := afterSecond.walked tree table third
    state.Quiet tree table (.cons site first second third rest) ↔
      inside.Quiet tree table first ∧ afterFirst.Quiet tree table second ∧
        afterSecond.Quiet tree table third ∧
        afterThird.objections tree table site = [] ∧
        (afterThird.left tree table site).Quiet tree table rest := by
  intro inside afterFirst afterSecond afterThird
  refine ((adds tree table).quiet_cons state site first second third rest).trans
    ?_
  constructor
  · rintro ⟨_, one, two, three, leaving, last⟩
    exact ⟨one, two, three, items_left_eq_iff.mp leaving, last⟩
  · rintro ⟨one, two, three, leaving, last⟩
    exact ⟨entering, one, two, three, items_left_eq_iff.mpr leaving, last⟩

theorem entered_other (table : SymbolTable) (state : Checking)
    (function : site.node.kind.isFunction = false)
    (block : site.node.kind.isBlock = false) :
    state.entered table site = state := by
  unfold entered
  split
  · next found => simp [found, NodeKind.isFunction] at function
  · next found => simp [found, NodeKind.isBlock] at block
  · rfl

theorem functions_entered (function : site.node.kind.isFunction = false) :
    (state.entered table site).function = state.function ∧
      (state.entered table site).outer = state.outer := by
  unfold entered
  split
  · next found => simp [found, NodeKind.isFunction] at function
  · split <;> exact ⟨rfl, rfl⟩
  · exact ⟨rfl, rfl⟩

theorem functions_outside (table : SymbolTable) (state : Checking)
    (function : site.node.kind.isFunction = false) :
    (state.outside table site).function = state.function ∧
      (state.outside table site).outer = state.outer := by
  unfold outside
  split
  · split <;> exact ⟨rfl, rfl⟩
  · next found => simp [found, NodeKind.isFunction] at function
  · exact ⟨rfl, rfl⟩

theorem functions_left {last : Checking}
    (function : last.function = (state.entered table site).function)
    (outer : last.outer = (state.entered table site).outer) :
    (last.left tree table site).function = state.function ∧
      (last.left tree table site).outer = state.outer := by
  have outside : (last.outside table site).function = state.function ∧
      (last.outside table site).outer = state.outer := by
    cases kind : site.node.kind.isFunction with
    | false =>
        obtain ⟨sameFunction, sameOuter⟩ := functions_outside table last kind
        rw [sameFunction, sameOuter, function, outer]
        exact functions_entered kind
    | true =>
        unfold NodeKind.isFunction at kind
        split at kind
        · next found =>
            simp only [entered, found] at outer
            simp [Checking.outside, found, outer]
        · cases kind
  obtain ⟨toFunction, toOuter⟩ := functions_left_outside tree table last site
  rw [toFunction, toOuter]
  exact outside

theorem functions_walked (tree : Tree) (table : SymbolTable) (state : Checking)
    (forest : Forest) :
    (state.walked tree table forest).function = state.function ∧
      (state.walked tree table forest).outer = state.outer := by
  induction forest generalizing state with
  | nil => exact ⟨rfl, rfl⟩
  | missing fault => exact ⟨rfl, rfl⟩
  | cons site first second third rest inFirst inSecond inThird inRest =>
      rw [walked_cons, (inRest _).1, (inRest _).2]
      apply functions_left
      · rw [(inThird _).1, (inSecond _).1, (inFirst _).1]
      · rw [(inThird _).2, (inSecond _).2, (inFirst _).2]

theorem function_walked (tree : Tree) (table : SymbolTable) (state : Checking)
    (forest : Forest) :
    (state.walked tree table forest).function = state.function :=
  (functions_walked tree table state forest).1

theorem objections_declaration (kind : site.node.kind.isVariable = true ∨
      site.node.kind.isParameter = true) :
    state.objections tree table site = [] ↔ site.node.kind.Specified := by
  rcases found : site.node.kind with declaration | statement | expression |
    parameter
  · cases declaration with
    | function name spec =>
        simp [found, NodeKind.isVariable, NodeKind.isParameter] at kind
    | _ =>
        simp only [objections, found, complaints_eq_nil,
          Option.toList_eq_nil_iff, variableObjection?_eq_none]
        rfl
  · simp [found, NodeKind.isVariable, NodeKind.isParameter] at kind
  · simp [found, NodeKind.isVariable, NodeKind.isParameter] at kind
  · simp [objections, found, NodeKind.Specified]

theorem quiet_leaves {kinds : NodeKind → Bool} (leaves : forest.Leaves kinds)
    (declares : ∀ kind, kinds kind = true →
      kind.isVariable = true ∨ kind.isParameter = true)
    (flat : ∀ kind, kinds kind = true →
      kind.isFunction = false ∧ kind.isBlock = false) :
    state.Quiet tree table forest ↔
      ∀ site ∈ forest.sites, site.node.kind.Specified := by
  induction leaves generalizing state with
  | nil =>
      refine ⟨fun _ => ?_, fun _ => rfl⟩
      simp [Forest.sites]
  | @cons site rest kind tail induction =>
      obtain ⟨function, block⟩ := flat _ kind
      have entering := congrArg items
        (entered_other table state function block)
      refine (quiet_cons entering).trans ?_
      simp only [Forest.sites, List.nil_append, List.forall_mem_cons]
      constructor
      · rintro ⟨_, _, _, silent, last⟩
        exact ⟨(objections_declaration (declares _ kind)).mp silent,
          induction.mp last⟩
      · rintro ⟨specified, others⟩
        exact ⟨rfl, rfl, rfl,
          (objections_declaration (declares _ kind)).mpr specified,
          induction.mpr others⟩

end Checking

end CMinusAnalysis
