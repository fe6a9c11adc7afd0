import CMinusAnalysis.Proofs.Analysis.Safety
import CMinusAnalysis.Proofs.Checking.Reports

namespace CMinusAnalysis

/-! Checking a program twice. The pass reads types off the table in which it
notes them. Where each node stands once, it reads the type of a node only after
it has left the node, so what it reads is what it ends with, and a second pass
over the same tables reads, notes and reports the same. -/

theorem NodeTable.insert_eq_self {table : NodeTable α} {key : NodeId}
    {value : α} (held : table.get? key = some value) :
    table.insert key value = table := by
  apply ext_get?
  intro query
  rw [get?_insert]
  split
  · next same => rw [same, held]
  · rfl

theorem Facts.setType_eq_self {facts : Facts} {id : NodeId} {type : Ty}
    (held : facts.types.get? id = some type) :
    facts.setType id type = facts := by
  rw [setType, NodeTable.insert_eq_self held]

namespace Checking

variable {tree : Tree} {table : SymbolTable} {initial final : Facts}
  {state again : Checking} {site : Site}

/-- What a state knows of the node that is left is what the other knows. -/
structure SameView (tree : Tree) (table : SymbolTable)
    (left right : Checking) (site : Site) : Prop where
  current : left.current = right.current
  function : left.function = right.function
  unresolved : left.facts.unresolved = right.facts.unresolved
  onFirst : left.operand tree table site.node.first =
    right.operand tree table site.node.first
  onSecond : left.operand tree table site.node.second =
    right.operand tree table site.node.second
  arguments : (arguments tree site).map
      (fun id => left.operand tree table (some id)) =
    (Checking.arguments tree site).map
      (fun id => right.operand tree table (some id))

theorem SameView.objections {left right : Checking}
    (same : SameView tree table left right site) :
    left.objections tree table site = right.objections tree table site := by
  simp only [Checking.objections, nameObjections, callObjections,
    conditionObjections, returnObjections, enclosing?, same.current,
    same.function, same.unresolved, same.onFirst, same.onSecond,
    same.arguments]

theorem SameView.gained {left right : Checking}
    (same : SameView tree table left right site) :
    left.gained tree table site = right.gained tree table site := by
  unfold Checking.gained
  split
  · rfl
  · rfl
  · next kind =>
      simp only [siteTy, kind, nameType, same.current, same.unresolved]
  · next kind => simp only [siteTy, kind]
  · exact same.onFirst
  · rw [same.unresolved]
  all_goals rfl

/-- A pass and its repetition are at the same place. The first one has noted
all that it ends with, but for the types; the second one has those as well. -/
structure Alike (final : Facts) (state again : Checking) : Prop where
  blocks : state.facts.blocks = final.blocks
  functions : state.facts.functions = final.functions
  unresolved : state.facts.unresolved = final.unresolved
  facts : again.facts = final
  current : again.current = state.current
  function : again.function = state.function
  outer : again.outer = state.outer

def Repeats (state after again later : Checking) : Prop :=
  ∃ reports, after.items = state.items ++ reports ∧
    later.items = again.items ++ reports

theorem Repeats.refl (state again : Checking) :
    Repeats state state again again :=
  ⟨[], (List.append_nil _).symm, (List.append_nil _).symm⟩

theorem Repeats.trans {after later last final : Checking}
    (first : Repeats state after again later)
    (second : Repeats after last later final) :
    Repeats state last again final := by
  obtain ⟨reports, one, other⟩ := first
  obtain ⟨more, next, another⟩ := second
  refine ⟨reports ++ more, ?_, ?_⟩
  · rw [next, one, List.append_assoc]
  · rw [another, other, List.append_assoc]

namespace Alike

theorem follows (alike : Alike final state again) : Follows final state :=
  ⟨alike.blocks, alike.functions, alike.unresolved⟩

theorem same_blocks (alike : Alike final state again) :
    again.facts.blocks = state.facts.blocks := by
  rw [alike.facts, alike.blocks]

theorem entered (alike : Alike final state again) (table : SymbolTable)
    (site : Site) :
    Alike final (state.entered table site) (again.entered table site) ∧
      Repeats state (state.entered table site) again
        (again.entered table site) := by
  have quiet := Repeats.refl state again
  unfold Checking.entered
  split
  · refine ⟨{ alike with function := ?_, outer := ?_ }, quiet⟩
    · simp only [functionSymbol?, alike.facts, alike.functions]
    · simp only [alike.function, alike.outer]
  · rw [alike.same_blocks]
    split
    · exact ⟨{ alike with current := rfl }, quiet⟩
    · exact ⟨{ alike with }, [⟨.blockScopeLost, site.node.line, none⟩],
        items_reported _, items_reported _⟩
  · exact ⟨alike, quiet⟩

theorem outside (alike : Alike final state again) (table : SymbolTable)
    (site : Site) :
    Alike final (state.outside table site) (again.outside table site) := by
  unfold Checking.outside
  split
  · rw [alike.same_blocks]
    split
    · exact { alike with current := rfl }
    · exact alike
  · refine { alike with function := ?_, outer := ?_ }
    · simp only [alike.outer]
    · simp only [alike.outer]
  · exact alike

theorem left (alike : Alike final state again)
    (same : SameView tree table state again site)
    (noted : final.types.get? site.id =
      (state.left tree table site).facts.types.get? site.id) :
    Alike final (state.left tree table site) (again.left tree table site) ∧
      Repeats state (state.left tree table site) again
        (again.left tree table site) := by
  have outside := alike.outside table site
  obtain ⟨blocks, functions, unresolved⟩ :=
    follows_left tree table alike.follows site
  obtain ⟨function, outer⟩ := functions_left_outside tree table state site
  obtain ⟨function', outer'⟩ := functions_left_outside tree table again site
  refine ⟨⟨blocks, functions, unresolved, ?_, ?_, ?_, ?_⟩,
    _, items_left tree table state site, ?_⟩
  · rw [facts_left, ← same.gained, alike.facts]
    split
    · next type gained =>
        apply Facts.setType_eq_self
        rw [noted, types_left, gained]
        rfl
    · rfl
  · rw [current_left, current_left, outside.current]
  · rw [function, function', outside.function]
  · rw [outer, outer', outside.outer]
  · rw [same.objections]
    exact items_left tree table again site

theorem sameView {first second : Forest} (alike : Alike final state again)
    (table : SymbolTable)
    (ofFirst : tree.Unfolds site.node.first first)
    (ofSecond : tree.Unfolds site.node.second second)
    (complete : first.Complete) (distinct : first.ids.Nodup)
    (children : ∀ id, id ∈ first.ids ∨ id ∈ second.ids →
      final.types.get? id = state.facts.types.get? id) :
    SameView tree table state again site := by
  have current := alike.current.symm
  have unresolved : state.facts.unresolved = again.facts.unresolved := by
    rw [alike.unresolved, alike.facts]
  have types (id : NodeId) (member : id ∈ first.ids ∨ id ∈ second.ids) :
      state.facts.types.get? id = again.facts.types.get? id := by
    rw [alike.facts, children id member]
  have readFirst := reading_congr table first current unresolved
    fun id member => types id (.inl (first.chain_sublist_ids.subset member))
  have readSecond := reading_congr table second current unresolved
    fun id member => types id (.inr (second.chain_sublist_ids.subset member))
  refine ⟨current, alike.function.symm, unresolved, ?_, ?_, ?_⟩
  · rw [operand_eq ofFirst, operand_eq ofFirst, readFirst]
  · rw [operand_eq ofSecond, operand_eq ofSecond, readSecond]
  · rw [arguments_eq ofFirst complete distinct,
      arguments_eq ofFirst complete distinct, readFirst]

theorem walked {forest : Forest} (alike : Alike final state again)
    (noted : Noted tree table initial final state forest)
    (slots : tree.Slots forest) (complete : forest.Complete) :
    Alike final (state.walked tree table forest)
        (again.walked tree table forest) ∧
      Repeats state (state.walked tree table forest) again
        (again.walked tree table forest) := by
  induction forest generalizing state again with
  | nil => exact ⟨alike, .refl _ _⟩
  | missing fault => exact complete.elim
  | cons site first second third rest inFirst inSecond inThird inRest =>
      obtain ⟨ofFirst, ofSecond, slots1, slots2, slots3, slots4⟩ := slots
      obtain ⟨complete1, complete2, complete3, complete4⟩ := complete
      obtain ⟨noted1, noted2, noted3, noted4⟩ :=
        noted.parts (recording tree table)
      obtain ⟨inside, entering⟩ := alike.entered table site
      obtain ⟨afterFirst, one⟩ := inFirst inside noted1 slots1 complete1
      obtain ⟨afterSecond, two⟩ := inSecond afterFirst noted2 slots2 complete2
      obtain ⟨afterThird, three⟩ :=
        inThird afterSecond noted3 slots3 complete3
      -- The first pass has left the children, so it reads what it ends with.
      have same := afterThird.sameView table ofFirst ofSecond complete1
        noted1.distinct fun id member =>
          (noted.children (recording tree table)
            (member.imp_right Or.inl)).types
      obtain ⟨outside, leaving⟩ :=
        afterThird.left same (noted.own (recording tree table)).2.2.types
      obtain ⟨last, four⟩ := inRest outside noted4 slots4 complete4
      exact ⟨last, entering.trans (one.trans (two.trans (three.trans
        (leaving.trans four))))⟩

end Alike

end Checking

namespace Analysis

variable {known : Analysis} {tree : Tree}

theorem check_of_empty (empty : ¬ known.table.Has ScopeId.global)
    (tree : Tree) : (known.check tree).result = .ok known := by
  have nowhere : known.table.scopes = #[] := by
    simpa [SymbolTable.Has, ScopeId.global] using empty
  simp [check, Checking.run, SymbolTable.global?, nowhere]

/-- Whatever was noted or reported, all but the types is as it was. -/
structure TypedOnly (known after : Analysis) : Prop where
  table : after.table = known.table
  blocks : after.facts.blocks = known.facts.blocks
  functions : after.facts.functions = known.facts.functions
  unresolved : after.facts.unresolved = known.facts.unresolved

theorem TypedOnly.trans {middle after : Analysis}
    (first : known.TypedOnly middle) (second : middle.TypedOnly after) :
    known.TypedOnly after :=
  ⟨second.table.trans first.table, second.blocks.trans first.blocks,
    second.functions.trans first.functions,
    second.unresolved.trans first.unresolved⟩

theorem typedOnly_checked (known : Analysis) (tree : Tree) :
    known.TypedOnly (known.checked tree) := by
  have follows : Checking.Follows known.facts
      (known.checking.walked tree known.table tree.forest) := by
    apply Checking.follows_walked
    exact ⟨rfl, rfl, rfl⟩
  exact ⟨rfl, follows.blocks, follows.functions, follows.unresolved⟩

theorem within_checked (within : known.facts.Within known.table)
    (tree : Tree) :
    (known.checked tree).facts.Within (known.checked tree).table where
  blocks scope held :=
    within.blocks scope ((typedOnly_checked known tree).blocks ▸ held)
  functions function held :=
    within.functions function
      ((typedOnly_checked known tree).functions ▸ held)

theorem alike_checked (known : Analysis) (tree : Tree) :
    Checking.Alike (known.checked tree).facts known.checking
      (known.checked tree).checking where
  blocks := (typedOnly_checked known tree).blocks.symm
  functions := (typedOnly_checked known tree).functions.symm
  unresolved := (typedOnly_checked known tree).unresolved.symm
  facts := rfl
  current := rfl
  function := rfl
  outer := rfl

theorem recheck_walked (single : tree.SinglePath)
    (complete : tree.forest.Complete) :
    let first := known.checking.walked tree known.table tree.forest
    let second :=
      (known.checked tree).checking.walked tree known.table tree.forest
    second.facts = first.facts ∧
      Checking.Repeats known.checking first (known.checked tree).checking
        second := by
  have noted : Checking.Noted tree known.table known.facts
      (known.checked tree).facts known.checking tree.forest :=
    { distinct := single.unfolds.nodup_ids single fun _ => .start
      start := fun _ => .refl _ _
      finish := fun _ => .refl _ _ }
  obtain ⟨alike, repeats⟩ := (alike_checked known tree).walked noted
    single.unfolds.slots complete
  exact ⟨alike.facts, repeats⟩

end Analysis

/-- A second check of a program over the tables of the first reports the same
once more and changes nothing else. What is known need not come from this
program, and may hold types already; both checks leave all of it but the types
alone, and none of their lookups feels its bound. -/
theorem recheck_repeats_the_report {known : Analysis} {tree : Tree}
    (single : tree.SinglePath) (inRange : tree.InRange)
    (nested : known.table.Nested) (within : known.facts.Within known.table) :
    ∃ checked again reports, (known.check tree).result = .ok checked ∧
      (checked.check tree).result = .ok again ∧
      checked.diagnostics.items = known.diagnostics.items ++ reports ∧
      again.diagnostics.items =
        known.diagnostics.items ++ reports ++ reports ∧
      again.facts.types = checked.facts.types ∧
      known.TypedOnly checked ∧ known.TypedOnly again ∧
      ∀ (id : ScopeId) (name : String) (steps : Nat), known.table.Has id →
        known.table.scopes.size < steps →
        known.table.lookupWithin name steps id =
          known.table.lookup id name := by
  have unbounded (id : ScopeId) (name : String) (steps : Nat)
      (has : known.table.Has id) (enough : known.table.scopes.size < steps) :=
    nested.unbounded has name enough
  by_cases global : known.table.Has ScopeId.global
  · have complete := single.unfolds.complete (fun _ => .start) inRange
    have first := Analysis.check_of_supported
      (within.supported nested global) single.acyclic complete
    have second := Analysis.check_of_supported
      ((Analysis.within_checked within tree).supported nested global)
      single.acyclic complete
    obtain ⟨facts, reports, one, other⟩ :=
      Analysis.recheck_walked single complete
    have once := Analysis.typedOnly_checked known tree
    refine ⟨_, _, reports, first, second, one, ?_, ?_, once,
      once.trans (Analysis.typedOnly_checked _ tree), unbounded⟩
    · exact other.trans (congrArg (· ++ reports) one)
    · exact congrArg Facts.types facts
  · have nothing := Analysis.check_of_empty global tree
    have same : known.TypedOnly known := ⟨rfl, rfl, rfl, rfl⟩
    exact ⟨known, known, [], nothing, nothing, by simp, by simp, rfl, same,
      same, unbounded⟩

def blockOfVariable : Tree where
  nodes := #[
    { kind := .statement .compound, line := 1, first := some ⟨1⟩ },
    { kind := .declaration (.variable "y" (some .int)), line := 1 }]
  root := some ⟨0⟩

def blockOfAssignment : Tree where
  nodes := #[
    { kind := .statement .compound, line := 1, second := some ⟨1⟩ },
    { kind := .statement .assign, line := 2, first := some ⟨2⟩,
      second := some ⟨3⟩ },
    { kind := .expression (.identifier "y"), line := 2 },
    { kind := .expression (.arrayIdentifier "a"), line := 2 }]
  root := some ⟨0⟩

theorem blockOfAssignment_single : blockOfAssignment.SinglePath := by
  have unfolds : blockOfAssignment.Unfolds blockOfAssignment.root
      blockOfAssignment.forest := by
    repeat constructor
  exact Tree.singlePath_of_unfolds unfolds (by repeat constructor) (by decide)

theorem blockOfAssignment_inRange : blockOfAssignment.InRange :=
  Tree.inRange_of_unfolds blockOfAssignment_single.unfolds
    (by repeat constructor)

theorem recheck_with_foreign_tables :
    let known := Analysis.declared false blockOfVariable
    let reports : List Diagnostic := [⟨.nameLost, 2, some "a"⟩,
      ⟨.assignmentTypeMismatch .integer .integerArray, 2, none⟩]
    blockOfAssignment.SinglePath ∧ blockOfAssignment.InRange ∧
      known.table.Nested ∧ known.facts.Within known.table ∧
      ∃ checked again, (known.check blockOfAssignment).result = .ok checked ∧
        (checked.check blockOfAssignment).result = .ok again ∧
        again.diagnostics.items = reports ++ reports ∧
        again.facts.types = checked.facts.types := by
  intro known reports
  have sound := Analysis.sound_checking false blockOfVariable
  have within : known.facts.Within known.table :=
    ⟨sound.blocks, sound.functions⟩
  refine ⟨blockOfAssignment_single, blockOfAssignment_inRange, sound.nested,
    within, ?_⟩
  obtain ⟨checked, again, added, first, second, one, other, types, _⟩ :=
    recheck_repeats_the_report blockOfAssignment_single
      blockOfAssignment_inRange sound.nested within
  have silent : known.diagnostics.items = [] := by
    decide +kernel
  have outcome : (known.check blockOfAssignment).result.map
      (fun checked => checked.diagnostics.items) = .ok reports := by
    decide +kernel
  rw [first] at outcome
  have same : added = reports := by
    rw [silent, List.nil_append] at one
    exact one.symm.trans (Except.ok.inj outcome)
  rw [silent, List.nil_append, same] at other
  exact ⟨checked, again, first, second, other, types⟩

end CMinusAnalysis
