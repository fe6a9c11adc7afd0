import CMinusAnalysis.Proofs.Analysis.Compositionality
import CMinusAnalysis.Proofs.Typing.Operands

namespace CMinusAnalysis

/-! What an undeclared name leads to. A use that could not be resolved has been
reported, and as an operand it should have no type that could clash with
another one. An identifier and a call have none; an array identifier has a type
by its form alone, so it clashes whenever the place where it stands wants a
type of the other form. -/

/-- The parent has the node as its operand at the place. -/
inductive Tree.TakesAt (tree : Tree) (parent : Site) (id : NodeId) :
    OperandPlace → Prop
  | left (compares : parent.node.kind.compares = true)
      (first : parent.node.first = some id) : tree.TakesAt parent id .left
  | right (compares : parent.node.kind.compares = true)
      (second : parent.node.second = some id) : tree.TakesAt parent id .right
  | returned (kind : parent.node.kind = .statement .ret)
      (first : parent.node.first = some id) : tree.TakesAt parent id .returned
  | argument {name : String} {ids : List NodeId} {index : Nat}
      (kind : parent.node.kind = .expression (.call name))
      (chain : tree.siblings parent.node.first = .ok ids)
      (here : ids[index]? = some id) :
      tree.TakesAt parent id (.argument (index + 1))

/-- A use that was marked, as an operand. -/
structure UnresolvedAt (declared : Analysis) (tree : Tree)
    (parent operand : Site) (place : OperandPlace) : Prop where
  found : tree.node operand.id = .ok operand.node
  use : operand.node.kind.use?.isSome = true
  marked : declared.facts.unresolved.contains operand.id = true
  takes : tree.TakesAt parent operand.id place

/-- What the checking pass reports when it leaves the node on the route. -/
def Checking.Reports (declared : Analysis) (tree : Tree) (route : Route)
    (site : Site) (reports : List Diagnostic) : Prop :=
  ∃ checking after, (checking, route, Visit.leave site) ∈
      history declared tree ∧
    step tree declared.table checking (.leave site) = .ok after ∧
    after.diagnostics.items = checking.diagnostics.items ++ reports

section

variable {tree : Tree} {builtins : Bool} {route : Route}
  {parent operand : Site} {place : OperandPlace} {reports : List Diagnostic}

theorem Checking.leads_of_reports (single : tree.SinglePath)
    (reported : Reports (Analysis.declared builtins tree) tree route parent
      reports) :
    tree.Leads tree.root route parent.id ∧
      tree.node parent.id = .ok parent.node := by
  obtain ⟨_, _, member, _⟩ := reported
  rw [history_eq] at member
  exact (Tree.mem_stops_iff single).mp
    (Forest.leave_mem_stops_iff.mp (mem_of_mem_trace member))

theorem Checking.step_of_leads (single : tree.SinglePath)
    (complete : tree.forest.Complete) (shaped : tree.forest.FunctionsShaped)
    (leads : tree.Leads tree.root route parent.id)
    (found : tree.node parent.id = .ok parent.node) {checking : Checking}
    (member : (checking, route, Visit.leave parent) ∈
      history (Analysis.declared builtins tree) tree) :
    step tree (Analysis.declared builtins tree).table checking
        (.leave parent) =
      .ok (checking.left tree (Analysis.declared builtins tree).table
        parent) := by
  have listed := Forest.mem_sites_of_mem_stops
    ((Tree.mem_stops_iff single).mpr ⟨leads, found⟩)
  exact step_leave
    (standing builtins single complete shaped member).sound.toSupported
    (Analysis.linked single complete parent listed)

theorem Checking.exists_reports (builtins : Bool) (single : tree.SinglePath)
    (complete : tree.forest.Complete) (shaped : tree.forest.FunctionsShaped)
    (leads : tree.Leads tree.root route parent.id)
    (found : tree.node parent.id = .ok parent.node) :
    ∃ reports, Reports (Analysis.declared builtins tree) tree route parent
      reports := by
  obtain ⟨checking, member⟩ := exists_mem_history builtins single complete
    (Forest.leave_mem_stops_iff.mpr
      ((Tree.mem_stops_iff single).mpr ⟨leads, found⟩))
  exact ⟨_, checking, _, member,
    step_of_leads single complete shaped leads found member,
    items_left _ _ _ _⟩

theorem Checking.reports_eq (single : tree.SinglePath)
    (complete : tree.forest.Complete) (shaped : tree.forest.FunctionsShaped)
    (reported : Reports (Analysis.declared builtins tree) tree route parent
      reports) :
    reports = (Analysis.declared builtins tree).verdict route parent
      (tree.unfold parent.node.first) (tree.unfold parent.node.second) := by
  obtain ⟨leads, found⟩ := leads_of_reports single reported
  obtain ⟨onFirst, onSecond⟩ := single.acyclic.unfolds_slots leads found
  obtain ⟨checking, after, member, stepped, appended⟩ := reported
  cases stepped.symm.trans
    (step_of_leads single complete shaped leads found member)
  -- The walk comes to the node once, so what it has read of the slots is what
  -- the tree unfolds to there.
  rw [history_eq] at member
  obtain ⟨before, first, second, third, rest, reaches, rfl⟩ :=
    (steps (Analysis.linked single complete)).reaches_of_leave complete
      (Analysis.sound_checking builtins tree).toSupported member
  have prepared :=
    (prepared builtins single complete shaped).of_reaches reaches
  have same := (items_left _ _ _ _).symm.trans appended
  rw [onFirst.unique prepared.slots.1, onSecond.unique prepared.slots.2.1]
  exact (List.append_cancel_left same).symm.trans prepared.objections_eq

theorem Analysis.infer_unresolved {declared : Analysis}
    (unresolved : UnresolvedAt declared tree parent operand place)
    {start : Option NodeId} {forest : Forest}
    (unfolds : tree.Unfolds start forest) (here : start = some operand.id)
    (route : Route) :
    declared.infer route forest = operand.node.form? := by
  cases unfolds with
  | none => cases here
  | missing lost =>
      cases here
      cases unresolved.found.symm.trans lost
  | node found =>
      cases here
      cases unresolved.found.symm.trans found
      exact typeAt_unresolved unresolved.use unresolved.marked route _

theorem heads_of_siblings (single : tree.SinglePath)
    (complete : tree.forest.Complete)
    (leads : tree.Leads tree.root route parent.id)
    (found : tree.node parent.id = .ok parent.node) {ids : List NodeId}
    (chain : tree.siblings parent.node.first = .ok ids) {index : Nat}
    (here : ids[index]? = some operand.id)
    (known : tree.node operand.id = .ok operand.node) :
    (tree.unfold parent.node.first).heads[index]? = some operand := by
  obtain ⟨below, _⟩ := single.acyclic.unfolds_slots leads found
  have reached : ∀ id, parent.node.follow .first = some id →
      tree.Leads tree.root ((parent, .first) :: route) id :=
    fun _ => .step leads found
  have inRange := Tree.inRange_of_unfolds single.unfolds complete
  have same := below.siblings_eq (below.complete reached inRange)
    (below.nodup_ids single reached)
  cases chain.symm.trans same
  rw [← Forest.map_id_heads, List.getElem?_map, Option.map_eq_some_iff] at here
  obtain ⟨head, listed, equal⟩ := here
  have stored := below.node_of_mem_heads head (List.mem_of_getElem? listed)
  rw [equal, Tree.node_eq_ok_iff.mp known] at stored
  have same : head = operand := by
    cases head
    cases operand
    exact congrArg₂ Site.mk equal (Option.some.inj stored).symm
  rw [listed, same]

theorem mismatch_iff_clash (single : tree.SinglePath)
    (complete : tree.forest.Complete) (shaped : tree.forest.FunctionsShaped)
    (reported : Checking.Reports (Analysis.declared builtins tree) tree route
      parent reports)
    (unresolved : UnresolvedAt (Analysis.declared builtins tree) tree parent
      operand place) :
    (∃ diagnostic ∈ reports, diagnostic.kind.mismatchAt place = true) ↔
      Clash operand.node.form?
        ((Analysis.declared builtins tree).wanted tree route parent place) := by
  obtain ⟨leads, found⟩ := Checking.leads_of_reports single reported
  obtain ⟨onFirst, onSecond⟩ := single.acyclic.unfolds_slots leads found
  rw [Checking.reports_eq single complete shaped reported]
  cases unresolved.takes with
  | left compares first =>
      have typed := Analysis.infer_unresolved unresolved onFirst first
        ((parent, .first) :: route)
      rw [Analysis.mismatch_of_compares compares (.inl rfl), typed,
        Node.filter_form?]
      rfl
  | right compares second =>
      have typed := Analysis.infer_unresolved unresolved onSecond second
        ((parent, .second) :: route)
      rw [Analysis.mismatch_of_compares compares (.inr rfl), typed,
        Node.filter_form?, clash_comm]
      rfl
  | returned kind first =>
      have typed := Analysis.infer_unresolved unresolved onFirst first
        ((parent, .first) :: route)
      rw [Analysis.mismatch_of_return kind (by simp [first]), typed]
  | argument kind chain here =>
      have head := heads_of_siblings single complete leads found chain here
        unresolved.found
      have typed := Analysis.inferChain_unresolved unresolved.use
        unresolved.marked ((parent, .first) :: route) head
      exact Analysis.mismatch_of_call
        (Analysis.sound_checking builtins tree).current kind typed

end

/-- A node reports that an unresolved use does not fit just if the form of the
use gives it another type than is wanted there. An identifier and a call have
no such type, whatever stands beside them. -/
theorem unresolved_mismatch_iff_clash (config : Config) {tree : Tree}
    (single : tree.SinglePath) (shaped : tree.forest.FunctionsShaped) :
    (tree.InRange → ∃ declared, (declare config tree).result = .ok declared ∧
      ∀ (route : Route) (parent : Site),
        tree.Leads tree.root route parent.id →
        tree.node parent.id = .ok parent.node →
        ∃ reports, Checking.Reports declared tree route parent reports) ∧
    ∀ declared, (declare config tree).result = .ok declared →
      ∀ (route : Route) (parent operand : Site) (place : OperandPlace)
        (reports : List Diagnostic),
        Checking.Reports declared tree route parent reports →
        UnresolvedAt declared tree parent operand place →
        ((∃ diagnostic ∈ reports, diagnostic.kind.mismatchAt place = true) ↔
          Clash operand.node.form?
            (declared.wanted tree route parent place)) := by
  constructor
  · intro inRange
    have complete := Analysis.complete single inRange
    refine ⟨_, Analysis.declare_result config complete, ?_⟩
    intro route parent leads found
    exact Checking.exists_reports config.builtins single complete shaped leads
      found
  · intro declared ran route parent operand place reports reported unresolved
    have complete := Analysis.complete_of_declare ran
    cases ran.symm.trans (Analysis.declare_result config complete)
    exact mismatch_iff_clash single complete shaped reported unresolved

/-- No node reports that an unresolved use does not fit. -/
def NoCascades (config : Config) (tree : Tree) : Prop :=
  ∀ declared, (declare config tree).result = .ok declared →
    ∀ (route : Route) (parent operand : Site) (place : OperandPlace)
      (reports : List Diagnostic),
      Checking.Reports declared tree route parent reports →
      UnresolvedAt declared tree parent operand place →
      ∀ diagnostic ∈ reports, diagnostic.kind.mismatchAt place = false

def ghostArray : Tree where
  nodes := #[
    { kind := .declaration (.function "main" (some .void)), line := 1,
      first := some ⟨1⟩, second := some ⟨2⟩ },
    { kind := .parameter ⟨none, some .void, false⟩, line := 1 },
    { kind := .statement .compound, line := 1,
      first := some ⟨3⟩, second := some ⟨4⟩ },
    { kind := .declaration (.variable "x" (some .int)), line := 2 },
    { kind := .statement .assign, line := 3,
      first := some ⟨5⟩, second := some ⟨6⟩ },
    { kind := .expression (.identifier "x"), line := 3 },
    { kind := .expression (.arrayIdentifier "ghost"), line := 3 }]
  root := some ⟨0⟩

def ghostAssignment : Site where
  id := ⟨4⟩
  node :=
    { kind := .statement .assign, line := 3,
      first := some ⟨5⟩, second := some ⟨6⟩ }

def ghostUse : Site :=
  ⟨⟨6⟩, { kind := .expression (.arrayIdentifier "ghost"), line := 3 }⟩

theorem ghostArray_unfolds :
    ghostArray.Unfolds ghostArray.root ghostArray.forest := by
  repeat constructor

theorem ghostArray_complete : ghostArray.forest.Complete := by
  repeat constructor

theorem ghostArray_single : ghostArray.SinglePath :=
  Tree.singlePath_of_unfolds ghostArray_unfolds ghostArray_complete
    (by decide)

theorem ghostArray_shaped : ghostArray.forest.FunctionsShaped :=
  .function rfl (.cons rfl .nil) rfl (.leaf rfl)
    (.other rfl (.leaf rfl) (.leaf rfl) .nil .nil) .nil .nil .nil

theorem ghostUse_unresolved {declared : Analysis}
    (ran : (declare {} ghostArray).result = .ok declared) :
    UnresolvedAt declared ghostArray ghostAssignment ghostUse .right := by
  have marked : (declare {} ghostArray).result.map (fun declared =>
      declared.facts.unresolved.contains ghostUse.id) = .ok true := by
    decide +kernel
  rw [ran] at marked
  exact ⟨rfl, rfl, by simpa [Except.map] using marked, .right rfl rfl⟩

theorem ghostAssignment_reports {declared : Analysis} {route : Route}
    {reports : List Diagnostic}
    (ran : (declare {} ghostArray).result = .ok declared)
    (reported : Checking.Reports declared ghostArray route ghostAssignment
      reports) :
    reports = [⟨.assignmentTypeMismatch .integer .integerArray, 3, none⟩] := by
  have outcome : (declare {} ghostArray).result.map (fun declared =>
      decide (∀ moment ∈ Checking.history declared ghostArray,
        moment.2.2 = Visit.leave ghostAssignment →
        (Checking.step ghostArray declared.table moment.1 moment.2.2).map
            (fun after => after.diagnostics.items) =
          .ok (moment.1.diagnostics.items ++
            [⟨.assignmentTypeMismatch .integer .integerArray, 3, none⟩]))) =
      .ok true := by
    decide +kernel
  obtain ⟨checking, after, member, stepped, appended⟩ := reported
  rw [ran] at outcome
  have items := of_decide_eq_true (Except.ok.inj outcome) _ member rfl
  rw [stepped] at items
  exact List.append_cancel_left (appended.symm.trans (Except.ok.inj items))

/-- An array that was never declared is reported once more where it is
used. -/
theorem ghost_array_cascades :
    ghostArray.SinglePath ∧ ghostArray.forest.FunctionsShaped ∧
      ¬ NoCascades {} ghostArray := by
  refine ⟨ghostArray_single, ghostArray_shaped, ?_⟩
  intro silent
  have ran := Analysis.declare_result {} ghostArray_complete
  obtain ⟨route, leads, found⟩ :=
    Tree.leads_of_visited ghostArray_single ghostAssignment (by decide)
  obtain ⟨reports, reported⟩ := Checking.exists_reports true ghostArray_single
    ghostArray_complete ghostArray_shaped leads found
  cases ghostAssignment_reports ran reported
  have quiet := silent _ ran _ _ _ _ _ reported (ghostUse_unresolved ran) _
    List.mem_cons_self
  cases quiet

theorem mismatch_at_ghost_array :
    ghostArray.SinglePath ∧ ghostArray.forest.FunctionsShaped ∧
      ghostArray.InRange ∧
      ∃ declared route reports other,
        (declare {} ghostArray).result = .ok declared ∧
        Checking.Reports declared ghostArray route ghostAssignment reports ∧
        UnresolvedAt declared ghostArray ghostAssignment ghostUse .right ∧
        reports =
          [⟨.assignmentTypeMismatch .integer .integerArray, 3, none⟩] ∧
        ghostUse.node.form? = some .integerArray ∧
        declared.wanted ghostArray route ghostAssignment .right =
          some other ∧ other ≠ .integerArray := by
  have inRange :=
    Tree.inRange_of_unfolds ghostArray_unfolds ghostArray_complete
  refine ⟨ghostArray_single, ghostArray_shaped, inRange, ?_⟩
  obtain ⟨visited, mismatches⟩ :=
    unresolved_mismatch_iff_clash {} ghostArray_single ghostArray_shaped
  obtain ⟨declared, ran, visited⟩ := visited inRange
  obtain ⟨route, leads, found⟩ :=
    Tree.leads_of_visited ghostArray_single ghostAssignment (by decide)
  obtain ⟨reports, reported⟩ := visited route ghostAssignment leads found
  have once := ghostAssignment_reports ran reported
  have unresolved := ghostUse_unresolved ran
  obtain ⟨one, other, form, wanted, apart⟩ :=
    (mismatches declared ran route _ _ _ _ reported unresolved).mp
      ⟨_, once ▸ List.mem_cons_self, rfl⟩
  cases form
  exact ⟨declared, route, reports, other, ran, reported, unresolved, once, rfl,
    wanted, apart.symm⟩

end CMinusAnalysis
