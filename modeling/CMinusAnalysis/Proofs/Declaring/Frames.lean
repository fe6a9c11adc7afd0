import CMinusAnalysis.Proofs.Declaring.Settling
import CMinusAnalysis.Proofs.Symbol.Frames
import CMinusAnalysis.Proofs.Tree.Grammar
import CMinusAnalysis.Proofs.Tree.Quiet

namespace CMinusAnalysis

/-! What the declaring pass reports. From a state that shows a context, a use
is reported just when its name is not visible, and a declaration just when its
scope has the name; the names that are declared without a report are those that
the context gains. -/

namespace Declaring

open SymbolTable (Settled)

variable {state : Declaring} {site : Site} {forest : Forest} {frame : Frame}
  {context : Context}

def items (state : Declaring) : List Diagnostic :=
  state.diagnostics.items

theorem items_reported (kind : DiagnosticKind) (line : Nat) (name : String) :
    (state.reported kind line name).items =
      state.items ++ [⟨kind, line, some name⟩] := by
  simp [items, reported]

theorem items_withLocal (name : String) (type : Ty) (line : Nat)
    (redeclared : DiagnosticKind) :
    (state.withLocal name type line redeclared).items =
      state.items ++ if (state.table.find? state.current name).isSome then
        [⟨redeclared, line, some name⟩] else [] := by
  unfold withLocal
  split
  · exact items_reported _ _ _
  · exact (List.append_nil _).symm

theorem diagnostics_withSignature (type : Ty) :
    (state.withSignature type).diagnostics = state.diagnostics := by
  unfold withSignature withSigned
  split
  · split <;> rfl
  · rfl

theorem items_withParameter {parameter : Parameter} {name : String}
    (named : parameter.name = some name) (line : Nat) :
    (state.withParameter parameter line).items =
      state.items ++ if (state.table.find? state.current name).isSome then
        [⟨.parameterRedeclared, line, some name⟩] else [] := by
  simp only [withParameter, named]
  split
  · exact items_reported _ _ _
  · rw [List.append_nil, items, diagnostics_withSignature]
    rfl

theorem items_inFunction (id : NodeId) (name : String) (type : Ty)
    (line : Nat) :
    (state.inFunction id name type line).items = state.items ++
      (state.objection? name).toList.map fun kind => ⟨kind, line, some name⟩ := by
  change (state.withFunction id name type line).items = _
  unfold withFunction
  split
  · next kind objected =>
      rw [objected]
      exact items_reported _ _ _
  · next accepted =>
      rw [accepted]
      exact (List.append_nil _).symm

theorem items_withUse (id : NodeId) (name : String) (line : Nat) :
    (state.withUse id name line).items = state.items ++
      if (state.table.resolve state.current name).isNone then
        [⟨.undeclared, line, some name⟩] else [] := by
  unfold withUse
  split
  · next found hit =>
      rw [hit]
      exact (List.append_nil _).symm
  · next missed =>
      rw [missed]
      exact items_reported _ _ _

theorem items_withBlock (id : NodeId) :
    (state.withBlock id).items = state.items := by
  unfold withBlock
  split <;> rfl

theorem items_left (state : Declaring) (site : Site) :
    (state.left site).items = state.items := by
  unfold left withoutFunction
  split
  · rfl
  · split <;> rfl
  · rfl

theorem adds : Forest.Adds items entered left where
  entering state site := by
    unfold entered
    split
    · rw [items_inFunction]
      exact List.prefix_append _ _
    · rw [items_withLocal]
      exact List.prefix_append _ _
    · rw [items_withLocal]
      exact List.prefix_append _ _
    · next parameter _ =>
        cases named : parameter.name with
        | none =>
            simp only [withParameter, named]
            exact List.prefix_rfl
        | some name =>
            rw [items_withParameter named]
            exact List.prefix_append _ _
    · refine ⟨[], ?_⟩
      rw [List.append_nil, items_withBlock]
    · rw [items_withUse]
      exact List.prefix_append _ _
    · rw [items_withUse]
      exact List.prefix_append _ _
    · rw [items_withUse]
      exact List.prefix_append _ _
    · exact List.prefix_rfl
  leaving state site := by
    refine ⟨[], ?_⟩
    rw [List.append_nil, items_left]

/-- A walk through the forest reports nothing. -/
abbrev Quiet (state : Declaring) (forest : Forest) : Prop :=
  Forest.Quiet items entered left state forest

theorem quiet_cons (state : Declaring) (site : Site)
    (first second third rest : Forest) :
    let inside := state.entered site
    let afterFirst := inside.walked first
    let afterSecond := afterFirst.walked second
    let afterThird := afterSecond.walked third
    state.Quiet (.cons site first second third rest) ↔
      inside.items = state.items ∧ inside.Quiet first ∧
        afterFirst.Quiet second ∧ afterSecond.Quiet third ∧
        (afterThird.left site).Quiet rest := by
  intro inside afterFirst afterSecond afterThird
  refine (adds.quiet_cons state site first second third rest).trans ?_
  constructor
  · rintro ⟨entered, one, two, three, _, last⟩
    exact ⟨entered, one, two, three, last⟩
  · rintro ⟨entered, one, two, three, last⟩
    exact ⟨entered, one, two, three, items_left _ _, last⟩

theorem entered_binding (state : Declaring) {name : String} {type : Ty}
    (binds : site.node.kind.binding? = some (name, type)) :
    ((state.entered site).items = state.items ↔
        state.table.find? state.current name = none) ∧
      (state.table.find? state.current name = none → ∀ taking,
        Settled taking (state.table.declared state.current name type
          site.node.line false) (state.entered site).table) := by
  have added {later : List Diagnostic} {diagnostic : Diagnostic}
      (same : later = state.items ++
        if (state.table.find? state.current name).isSome then [diagnostic]
        else []) :
      later = state.items ↔ state.table.find? state.current name = none := by
    rw [same]
    cases state.table.find? state.current name <;> simp
  have locally (type : Ty) (redeclared : DiagnosticKind)
      (free : state.table.find? state.current name = none) :
      (state.withLocal name type site.node.line redeclared).table =
        state.table.declared state.current name type site.node.line false := by
    simp [withLocal, free, declaredIn]
  unfold NodeKind.binding? at binds
  split at binds
  · next found =>
      cases binds
      simp only [entered, found]
      refine ⟨added (items_withLocal _ _ _ _), ?_⟩
      intro free taking
      rw [locally _ _ free]
      exact .refl _ _
  · next found =>
      cases binds
      simp only [entered, found]
      refine ⟨added (items_withLocal _ _ _ _), ?_⟩
      intro free taking
      rw [locally _ _ free]
      exact .refl _ _
  · next parameter found =>
      obtain ⟨_, named, same⟩ := Option.map_eq_some_iff.mp binds
      cases same
      simp only [entered, found]
      refine ⟨added (items_withParameter named _), ?_⟩
      intro free taking
      simp only [withParameter, named, free, Option.isSome_none,
        Bool.false_eq_true, if_false]
      change Settled taking (state.declaredIn state.current name parameter.type
        site.node.line false).table _
      exact settled_withSignature _
  · cases binds

theorem entered_nameless (state : Declaring)
    (kind : site.node.kind.isVariable = true ∨
      site.node.kind.isParameter = true)
    (binds : site.node.kind.binding? = none) : state.entered site = state := by
  unfold entered
  split
  · next found => simp [found, NodeKind.isVariable, NodeKind.isParameter] at kind
  · next found => simp [found, NodeKind.binding?] at binds
  · next found => simp [found, NodeKind.binding?] at binds
  · next parameter found =>
      have unnamed : parameter.name = none := by
        simpa [found, NodeKind.binding?] using binds
      simp only [withParameter, unnamed]
  · next found => simp [found, NodeKind.isVariable, NodeKind.isParameter] at kind
  · next found => simp [found, NodeKind.isVariable, NodeKind.isParameter] at kind
  · next found => simp [found, NodeKind.isVariable, NodeKind.isParameter] at kind
  · next found => simp [found, NodeKind.isVariable, NodeKind.isParameter] at kind
  · rfl

/-- The state can be walked on from, and its current scope shows the context. -/
structure Within (state : Declaring) (context : Context) : Prop where
  sound : state.Sound
  shown : state.table.Shows state.current context

theorem Within.settled {later : Declaring} (within : state.Within context)
    (sound : later.Sound) (current : later.current = state.current)
    (settled : Settled (fun _ => False) state.table later.table) :
    later.Within context := by
  refine ⟨sound, ?_⟩
  rw [current]
  exact within.shown.settled within.sound.coherent settled
    fun _ _ => not_false

theorem Within.entered_binding (within : state.Within (frame :: context))
    (kind : site.node.kind.isVariable = true ∨
      site.node.kind.isParameter = true) {name : String} {type : Ty}
    (binds : site.node.kind.binding? = some (name, type)) :
    ((state.entered site).items = state.items ↔ frame.lookup name = none) ∧
      (frame.lookup name = none →
        (state.entered site).Within (((name, type) :: frame) :: context)) := by
  obtain ⟨sound, shown⟩ := within
  have holds := shown.holds
  obtain ⟨reported, declared⟩ := Declaring.entered_binding state binds
  rw [holds.find?_eq_none_iff] at reported declared
  refine ⟨reported, fun fresh => ⟨(grows_entered sound site).sound, ?_⟩⟩
  have free := (holds.find?_eq_none_iff name).mpr fresh
  have flat : site.node.kind.isFunction = false ∧
      site.node.kind.isBlock = false := by
    rcases kind with kind | kind
    · exact flat_isVariable _ kind
    · exact flat_isParameter _ kind
  rw [(stays_entered state flat.1 flat.2).current]
  exact (shown.declared sound.coherent free type site.node.line false).settled
    (sound.coherent.declared sound.current) (declared fresh (fun _ => False))
    fun _ _ => not_false

theorem Within.declares {kinds : NodeKind → Bool} (declaring : Declares kinds)
    (flat : Flat kinds) (leaves : forest.Leaves kinds)
    (within : state.Within (frame :: context)) {after : Frame}
    (declares : Typing.Declares frame forest after) :
    state.Quiet forest ∧ (state.walked forest).Within (after :: context) := by
  induction leaves generalizing state frame with
  | nil =>
      cases declares
      exact ⟨rfl, within⟩
  | @cons site rest kind tail induction =>
      rw [walked_leaf state flat kind]
      have split := (quiet_cons state site .nil .nil .nil rest).mpr
      obtain ⟨function, block⟩ := flat _ kind
      simp only [walked_nil, left_other function block] at split
      cases declares with
      | name binds specified fresh beside =>
          obtain ⟨reported, onward⟩ :=
            within.entered_binding (declaring _ kind) binds
          obtain ⟨quiet, last⟩ := induction (onward fresh) beside
          exact ⟨split ⟨reported.mpr fresh, rfl, rfl, rfl, quiet⟩, last⟩
      | nameless binds beside =>
          have same := entered_nameless state (declaring _ kind) binds
          rw [same] at split ⊢
          obtain ⟨quiet, last⟩ := induction within beside
          exact ⟨split ⟨rfl, rfl, rfl, rfl, quiet⟩, last⟩

theorem Within.declares_of_quiet {kinds : NodeKind → Bool}
    (declaring : Declares kinds) (flat : Flat kinds)
    (leaves : forest.Leaves kinds) (within : state.Within (frame :: context))
    (quiet : state.Quiet forest)
    (specified : ∀ site ∈ forest.sites, site.node.kind.Specified) :
    ∃ after, Typing.Declares frame forest after := by
  induction leaves generalizing state frame with
  | nil => exact ⟨frame, .nil⟩
  | @cons site rest kind tail induction =>
      obtain ⟨here, _, _, _, onward⟩ :=
        (quiet_cons state site .nil .nil .nil rest).mp quiet
      obtain ⟨function, block⟩ := flat _ kind
      simp only [walked_nil, left_other function block] at onward
      have well := specified site List.mem_cons_self
      have others : ∀ site ∈ rest.sites, site.node.kind.Specified :=
        fun other member => specified other (List.mem_cons_of_mem _ member)
      cases binds : site.node.kind.binding? with
      | some binding =>
          obtain ⟨reported, declared⟩ :=
            within.entered_binding (declaring _ kind) binds
          have fresh := reported.mp here
          obtain ⟨after, beside⟩ := induction (declared fresh) onward others
          exact ⟨after, .name binds well fresh beside⟩
      | none =>
          rw [entered_nameless state (declaring _ kind) binds] at onward
          obtain ⟨after, beside⟩ := induction within onward others
          exact ⟨after, .nameless binds beside⟩

theorem Within.function {globals : Frame} (within : state.Within [globals])
    {name : String} {spec : Option TypeSpec}
    (kind : site.node.kind = .declaration (.function name spec)) :
    ((state.entered site).items = state.items ↔ globals.lookup name = none) ∧
      (globals.lookup name = none → (state.entered site).Within
        [[], (name, Ty.ofReturnSpec spec) :: globals]) := by
  obtain ⟨sound, shown⟩ := within
  have top := shown.eq_global
  rw [top] at shown
  have holds := shown.holds
  have same : state.entered site = state.inFunction site.id name
      (Ty.ofReturnSpec spec) site.node.line := by
    simp [entered, kind]
  constructor
  · rw [same, items_inFunction, objection?, ← holds.find?_eq_none_iff]
    cases state.table.find? ScopeId.global name <;> simp [top]
  · intro fresh
    have free := (holds.find?_eq_none_iff name).mpr fresh
    refine ⟨(grows_entered sound site).sound, ?_⟩
    rw [same]
    simp only [inFunction, withFunction, objection?, free, top, enclosed,
      declaredIn, Option.isSome_none, Bool.false_eq_true, if_false, ne_eq,
      not_true_eq_false]
    exact (shown.declared sound.coherent free _ _ _).opened
      (sound.coherent.declared sound.global) name

theorem Within.use (within : state.Within context) {name : String}
    (use : site.node.kind.use? = some name) :
    (state.entered site).items = state.items ↔
      (context.type? name).isSome = true := by
  rw [entered_use use, items_withUse,
    ← within.shown.resolve_isSome within.sound.coherent]
  cases state.table.resolve state.current name <;> simp

theorem entered_plain (state : Declaring) (kind : site.node.kind.isPlain = true)
    (unused : site.node.kind.use? = none) : state.entered site = state := by
  unfold entered
  split
  · next found => simp [found, NodeKind.isPlain] at kind
  · next found => simp [found, NodeKind.isPlain] at kind
  · next found => simp [found, NodeKind.isPlain] at kind
  · next found => simp [found, NodeKind.isPlain] at kind
  · next found => simp [found, NodeKind.isPlain] at kind
  · next found => simp [found, NodeKind.use?] at unused
  · next found => simp [found, NodeKind.use?] at unused
  · next found => simp [found, NodeKind.use?] at unused
  · rfl

theorem settled_inner (inner : forest.Inner) (sound : state.Sound)
    (idle : state.awaiting = none) :
    Settled (fun _ => False) state.table (state.walked forest).table := by
  induction inner generalizing state with
  | nil => exact .refl _ _
  | @plain site first second third rest kind ofFirst ofSecond ofThird _ inFirst
      inSecond inThird inRest =>
      obtain ⟨function, notVariable, parameter, block⟩ :=
        NodeKind.others_of_isPlain kind
      have zero := returns_plain sound idle function block
      have one := returns_walked ofFirst.tidy.functionsShaped zero.sound
        zero.idle
      have two := returns_walked ofSecond.tidy.functionsShaped one.sound
        one.idle
      have three := returns_walked ofThird.tidy.functionsShaped two.sound
        two.idle
      rw [walked_cons, left_other function block]
      exact ((((settled_entered_other function notVariable parameter).trans
        (inFirst zero.sound zero.idle)).trans
          (inSecond one.sound one.idle)).trans
            (inThird two.sound two.idle)).trans
              (inRest three.sound three.idle)
  | @block site locals body rest kind declared ofBody _ inBody inRest =>
      have entered := (grows_entered sound site).sound
      have ready : (state.entered site).awaiting = none := by
        rw [entered_block kind]
        exact (inside_withBlock idle site.id).idle
      have fresh : ¬ state.table.Has (state.entered site).current := by
        rw [entered_block kind]
        exact fresh_withBlock idle site.id
      have leaves := settled_leaves declared flat_isVariable
        (fun _ fits => .inl fits) entered
      have one := returns_walked (declared.functionsShaped fun _ =>
        NodeKind.isFunction_of_isVariable) entered ready
      have two := one.trans (returns_walked ofBody.tidy.functionsShaped
        one.sound one.idle)
      have back := returns_block sound idle kind two
      have inside : Settled (· = (state.entered site).current) _ _ :=
        (inBody one.sound one.idle).mono fun _ _ never => never.elim
      -- The scope of the block is new, so no scope from before took a name.
      have around : Settled (fun _ => False) _ _ :=
        (((settled_entered_block kind).trans leaves).trans inside).mono
          fun _ has same => fresh (same ▸ has)
      have onward := inRest back.sound back.idle
      rw [table_left] at onward
      exact around.trans onward

theorem Within.inner (within : state.Within context)
    (idle : state.awaiting = none) (inner : forest.Inner) :
    (state.walked forest).Within context ∧
      (state.walked forest).awaiting = none := by
  have back := returns_walked inner.tidy.functionsShaped within.sound idle
  exact ⟨within.settled back.sound back.current
    (settled_inner inner within.sound idle), back.idle⟩

theorem Within.plain (within : state.Within context)
    (idle : state.awaiting = none) (kind : site.node.kind.isPlain = true) :
    (state.entered site).Within context ∧
      (state.entered site).awaiting = none := by
  obtain ⟨function, notVariable, parameter, block⟩ :=
    NodeKind.others_of_isPlain kind
  have entered := returns_plain within.sound idle function block
  exact ⟨within.settled entered.sound entered.current
    (settled_entered_other function notVariable parameter), entered.idle⟩

theorem Within.block (within : state.Within context)
    (idle : state.awaiting = none) (kind : site.node.kind.isBlock = true) :
    (state.entered site).Within ([] :: context) ∧
      (state.entered site).awaiting = none := by
  refine ⟨⟨(grows_entered within.sound site).sound, ?_⟩, ?_⟩
  · rw [entered_block kind]
    simp only [withBlock, idle, enclosed]
    exact within.shown.opened within.sound.coherent _
  · rw [entered_block kind]
    exact (inside_withBlock idle site.id).idle

theorem Within.body (within : state.Within context) {outer : ScopeId}
    (awaits : state.Awaits outer) (kind : site.node.kind.isBlock = true) :
    (state.entered site).Within context ∧
      (state.entered site).awaiting = none := by
  have sound := (grows_entered within.sound site).sound
  have settled : Settled (fun _ => False) state.table
      (state.entered site).table := settled_entered_block kind
  rw [entered_block kind] at sound settled ⊢
  exact ⟨within.settled sound (awaits.current_withBlock site.id) settled,
    (awaits.withBlock site.id).idle⟩

end Declaring

end CMinusAnalysis
