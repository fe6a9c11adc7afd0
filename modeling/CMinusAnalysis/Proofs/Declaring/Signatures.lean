import CMinusAnalysis.Proofs.Declaring.Frames
import CMinusAnalysis.Proofs.Declaring.Standing
import CMinusAnalysis.Proofs.Symbol.Signatures

namespace CMinusAnalysis

/-! The functions of a program in its symbol table. Nothing but a parameter
changes the signature of a function, so after a walk without reports the table
has the functions that the chain declares, each with all of its parameters. -/

namespace Declaring

open SymbolTable (Settled)

variable {state : Declaring} {site : Site} {forest : Forest} {frame : Frame}
  {context : Context} {signatures : Signatures}

theorem keeps_entered (sound : state.Sound)
    (parameter : site.node.kind.isParameter = false) :
    state.table.Keeps (state.entered site).table := by
  have locally (name : String) (type : Ty) (line : Nat)
      (redeclared : DiagnosticKind) :
      state.table.Keeps (state.withLocal name type line redeclared).table := by
    unfold withLocal
    split
    · exact .refl _
    · exact SymbolTable.keeps_declared sound.current type line false
  have used (id : NodeId) (name : String) (line : Nat) :
      state.table.Keeps (state.withUse id name line).table := by
    unfold withUse
    split
    · exact SymbolTable.keeps_addLine _ _ _
    · exact .refl _
  unfold entered
  split
  · next name spec _ =>
      apply SymbolTable.Keeps.trans _ (SymbolTable.keeps_opened _ _ _)
      unfold withFunction
      split
      · exact .refl _
      · exact SymbolTable.keeps_declared sound.global _ _ _
  · exact locally _ _ _ _
  · exact locally _ _ _ _
  · next found => simp [found, NodeKind.isParameter] at parameter
  · unfold withBlock
    split
    · exact .refl _
    · exact SymbolTable.keeps_opened _ _ _
  · exact used _ _ _
  · exact used _ _ _
  · exact used _ _ _
  · exact .refl _

theorem keeps_walked (sound : state.Sound)
    (parameters : ∀ site ∈ forest.sites,
      site.node.kind.isParameter = false) :
    state.table.Keeps (state.walked forest).table := by
  induction forest generalizing state with
  | nil => exact .refl _
  | missing fault => exact .refl _
  | cons site first second third rest inFirst inSecond inThird inRest =>
      simp only [Forest.sites, List.mem_cons, List.mem_append] at parameters
      have entered := keeps_entered sound (parameters site (.inl rfl))
      have inside := (grows_entered sound site).sound
      obtain ⟨one, two, three, outside, _⟩ :=
        grows_parts sound site first second third rest
      have onward := inRest outside.sound fun site member =>
        parameters site (.inr (.inr (.inr (.inr member))))
      rw [table_left] at onward
      exact (((entered.trans (inFirst inside fun site member =>
        parameters site (.inr (.inl member)))).trans
          (inSecond one.sound fun site member =>
            parameters site (.inr (.inr (.inl member))))).trans
              (inThird two.sound fun site member =>
                parameters site (.inr (.inr (.inr (.inl member)))))).trans
                  onward

theorem signature_withParameter (parameter : Parameter) (line : Nat) :
    (state.withParameter parameter line).signature = state.signature := by
  unfold withParameter
  split
  · rfl
  · split
    · rfl
    · unfold withSignature withSigned
      split
      · split <;> rfl
      · rfl

theorem Within.not_global {outer : Frame} {outers : Context}
    (within : state.Within (frame :: outer :: outers)) :
    state.current ≠ ScopeId.global := by
  intro global
  obtain ⟨_, inside, _⟩ := within.shown.outer
  rw [global, within.sound.coherent.global_parent?] at inside
  cases inside

theorem offers_withParameter {name named : String} {parameter : Parameter}
    {parameters : List Ty} {result : Ty} {line : Nat} (sound : state.Sound)
    (inner : state.current ≠ ScopeId.global)
    (signing : state.signature = some name)
    (called : parameter.name = some named)
    (fresh : state.table.find? state.current named = none)
    (free : signatures.lookup name = none)
    (offers : state.table.Offers
      (signatures ++ [(name, ⟨parameters, result⟩)])) :
    (state.withParameter parameter line).table.Offers
      (signatures ++ [(name, ⟨parameters ++ [parameter.type], result⟩)]) := by
  have declared : (state.table.declared state.current named parameter.type line
      false).Offers (signatures ++ [(name, ⟨parameters, result⟩)]) :=
    offers.settled (SymbolTable.keeps_declared sound.current _ _ _)
      (SymbolTable.settled_declared sound.coherent sound.current fresh)
      sound.global inner.symm
  obtain ⟨function, found, extended⟩ :=
    SymbolTable.Offers.parameter parameter.type free declared
  simp only [withParameter, called, fresh, Option.isSome_none,
    Bool.false_eq_true, if_false, withSignature, declaredIn, signing,
    withSigned, found]
  exact extended

theorem offers_parameters {name : String} {parameters : List Ty} {result : Ty}
    {outer : Frame} {outers : Context}
    (leaves : forest.Leaves NodeKind.isParameter)
    (within : state.Within (frame :: outer :: outers))
    (signing : state.signature = some name) (quiet : state.Quiet forest)
    (free : signatures.lookup name = none)
    (offers : state.table.Offers
      (signatures ++ [(name, ⟨parameters, result⟩)])) :
    (state.walked forest).table.Offers (signatures ++
      [(name, ⟨parameters ++ forest.parameterTypes, result⟩)]) := by
  induction leaves generalizing state frame parameters with
  | nil => simpa [Forest.parameterTypes] using offers
  | @cons site rest kind tail induction =>
      obtain ⟨here, _, _, _, onward⟩ :=
        (quiet_cons state site .nil .nil .nil rest).mp quiet
      obtain ⟨function, block⟩ := flat_isParameter _ kind
      simp only [walked_nil, left_other function block] at onward
      rw [walked_leaf state flat_isParameter kind]
      obtain ⟨parameter, found⟩ : ∃ parameter,
          site.node.kind = .parameter parameter := by
        unfold NodeKind.isParameter at kind
        split at kind
        · next parameter found => exact ⟨parameter, found⟩
        · cases kind
      have same : state.entered site =
          state.withParameter parameter site.node.line := by
        simp [entered, found]
      cases called : parameter.name with
      | none =>
          have binds : site.node.kind.binding? = none := by
            simp [found, NodeKind.binding?, called]
          rw [entered_nameless state (.inr kind) binds] at onward ⊢
          have last := induction within signing onward offers
          simpa [Forest.parameterTypes, binds] using last
      | some named =>
          have binds : site.node.kind.binding? =
              some (named, parameter.type) := by
            simp [found, NodeKind.binding?, called]
          obtain ⟨reported, declared⟩ :=
            within.entered_binding (.inr kind) binds
          have fresh := reported.mp here
          have last := induction (declared fresh)
            (by rw [same, signature_withParameter, signing]) onward
            (by
              rw [same]
              exact offers_withParameter within.sound within.not_global signing
                called ((within.shown.holds.find?_eq_none_iff _).mpr fresh)
                free offers)
          simpa [Forest.parameterTypes, binds] using last

theorem settled_body {body : Site} {locals statements : Forest}
    {outer : ScopeId} (sound : state.Sound) (awaits : state.Awaits outer)
    (block : body.node.kind.isBlock = true)
    (declared : locals.Leaves NodeKind.isVariable)
    (inner : statements.Inner) :
    Settled (· = state.current) state.table
      (state.walked (.cons body locals statements .nil .nil)).table := by
  have entered := (grows_entered sound body).sound
  have same : (state.entered body).current = state.current := by
    rw [entered_block block]
    exact awaits.current_withBlock body.id
  have ready : (state.entered body).awaiting = none := by
    rw [entered_block block]
    exact (awaits.withBlock body.id).idle
  have leaves := settled_leaves declared flat_isVariable
    (fun _ fits => .inl fits) entered
  have one := returns_walked (declared.functionsShaped fun _ =>
    NodeKind.isFunction_of_isVariable) entered ready
  have inside := settled_inner inner one.sound one.idle
  rw [same] at leaves
  rw [walked_cons, walked_nil, walked_nil, table_left]
  exact ((settled_entered_block block).trans leaves).trans
    (inside.mono fun _ _ never => never.elim)

theorem table_entered_variable {name : String} {type : Ty}
    (kind : site.node.kind.isVariable = true)
    (binds : site.node.kind.binding? = some (name, type))
    (free : state.table.find? state.current name = none) :
    (state.entered site).table = state.table.declared state.current name type
      site.node.line false := by
  unfold NodeKind.isVariable at kind
  split at kind
  · next found =>
      simp only [found, NodeKind.binding?] at binds
      cases binds
      simp [entered, found, withLocal, free, declaredIn]
  · next found =>
      simp only [found, NodeKind.binding?] at binds
      cases binds
      simp [entered, found, withLocal, free, declaredIn]
  · cases kind

theorem binding?_of_isVariable {kind : NodeKind} (fits : kind.isVariable = true) :
    ∃ name type, kind.binding? = some (name, type) := by
  unfold NodeKind.isVariable at fits
  split at fits
  · exact ⟨_, _, rfl⟩
  · exact ⟨_, _, rfl⟩
  · cases fits

theorem offers_signed {globals : Frame} {parameters : Forest} {name : String}
    {spec : Option TypeSpec} (within : state.Within [globals])
    (kind : site.node.kind = .declaration (.function name spec))
    (accepted : (state.entered site).items = state.items)
    (leaves : parameters.Leaves NodeKind.isParameter)
    (quiet : (state.entered site).Quiet parameters)
    (offers : state.table.Offers signatures) :
    ((state.entered site).walked parameters).table.Offers
      (signatures ++ [(name, ⟨parameters.parameterTypes,
        Ty.ofReturnSpec spec⟩)]) := by
  obtain ⟨reported, declared⟩ := within.function kind
  have fresh := reported.mp accepted
  obtain ⟨sound, shown⟩ := within
  have top := shown.eq_global
  rw [top] at shown
  have free := (shown.holds.find?_eq_none_iff name).mpr fresh
  have unknown : signatures.lookup name = none := by
    rw [← offers name]
    exact SymbolTable.signature?_eq_none free
  have same : state.entered site = state.inFunction site.id name
      (Ty.ofReturnSpec spec) site.node.line := by
    simp [entered, kind]
  have opened : (state.entered site).table.Offers
        (signatures ++ [(name, ⟨[], Ty.ofReturnSpec spec⟩)]) ∧
      (state.entered site).signature = some name := by
    rw [same]
    simp only [inFunction, withFunction, objection?, free, top, enclosed,
      declaredIn, Option.isSome_none, Bool.false_eq_true, if_false, ne_eq,
      not_true_eq_false, and_true]
    have offered := offers.function sound.coherent sound.global free
      (Ty.ofReturnSpec spec) site.node.line
    have settled := SymbolTable.settled_opened (fun _ => False)
      (state.table.declared ScopeId.global name (Ty.ofReturnSpec spec)
        site.node.line true) name ScopeId.global
    refine offered.settled (SymbolTable.keeps_opened _ _ _) settled ?_ not_false
    exact (SymbolTable.extends_declared sound.coherent sound.global free).has
      sound.global
  have last := offers_parameters leaves (declared fresh) opened.2 quiet unknown
    opened.1
  simpa using last

theorem Within.beside {globals : Frame} {later : Declaring}
    (within : state.Within [frame, globals]) (sound : later.Sound)
    (settled : Settled (· = state.current) state.table later.table)
    (current : later.current = ScopeId.global) : later.Within [globals] := by
  obtain ⟨_, _, outer⟩ := within.shown.outer
  have top := outer.eq_global
  rw [top] at outer
  refine ⟨sound, ?_⟩
  rw [current]
  refine outer.settled within.sound.coherent settled ?_
  intro scope below same
  apply within.not_global
  rw [← same]
  exact ScopeId.ext (Nat.le_zero.mp below)

theorem settled_function {parameters : Forest} {body : Site}
    {locals statements : Forest} (sound : state.Sound)
    (kind : site.node.kind.isFunction = true)
    (declared : parameters.Leaves NodeKind.isParameter)
    (block : body.node.kind.isBlock = true)
    (declaredInside : locals.Leaves NodeKind.isVariable)
    (inner : statements.Inner) :
    Settled (· = (state.entered site).current) (state.entered site).table
      (((state.entered site).walked parameters).walked
        (.cons body locals statements .nil .nil)).table := by
  have entered := (grows_entered sound site).sound
  have leaves := settled_leaves declared flat_isParameter
    (fun _ fits => .inr fits) entered
  have inside := settled_body (grows_walked entered parameters).sound
    (awaits_parameters sound kind declared) block declaredInside inner
  rw [(current_leaves _ declared flat_isParameter).1] at inside
  exact leaves.trans inside

theorem Within.past_bodiless {globals : Frame} {parameters : Forest}
    {name : String} {spec : Option TypeSpec} (within : state.Within [globals])
    (kind : site.node.kind = .declaration (.function name spec))
    (fresh : globals.lookup name = none)
    (declared : parameters.Leaves NodeKind.isParameter) :
    let alone := Forest.cons site parameters .nil .nil .nil
    (state.walked alone).Within [(name, Ty.ofReturnSpec spec) :: globals] ∧
      (state.walked alone).awaiting = none := by
  intro alone
  have isFunction : site.node.kind.isFunction = true := by
    rw [kind]
    rfl
  have entered := (within.function kind).2 fresh
  have back := returns_bodiless within.sound isFunction declared
  have settled := settled_leaves declared flat_isParameter
    (fun _ fits => .inr fits) entered.sound
  rw [← table_left ((state.entered site).walked parameters) site] at settled
  have current := back.current.trans within.shown.eq_global
  exact ⟨entered.beside back.sound settled current, back.idle⟩

theorem Within.past_function {globals : Frame} {parameters : Forest}
    {body : Site} {locals statements : Forest} {name : String}
    {spec : Option TypeSpec} (within : state.Within [globals])
    (idle : state.awaiting = none)
    (kind : site.node.kind = .declaration (.function name spec))
    (fresh : globals.lookup name = none)
    (declared : parameters.Leaves NodeKind.isParameter)
    (block : body.node.kind.isBlock = true)
    (declaredInside : locals.Leaves NodeKind.isVariable)
    (inner : statements.Inner) :
    let alone := Forest.cons site parameters
      (.cons body locals statements .nil .nil) .nil .nil
    (state.walked alone).Within [(name, Ty.ofReturnSpec spec) :: globals] ∧
      (state.walked alone).awaiting = none := by
  intro alone
  have isFunction : site.node.kind.isFunction = true := by
    rw [kind]
    rfl
  have entered := (within.function kind).2 fresh
  have shaped : alone.FunctionsShaped :=
    .function isFunction declared block
      (declaredInside.functionsShaped fun _ =>
        NodeKind.isFunction_of_isVariable)
      inner.tidy.functionsShaped .nil .nil .nil
  have back := returns_walked shaped within.sound idle
  have settled := settled_function within.sound isFunction declared block
    declaredInside inner
  rw [← table_left (((state.entered site).walked parameters).walked
    (.cons body locals statements .nil .nil)) site] at settled
  have current := back.current.trans within.shown.eq_global
  exact ⟨entered.beside back.sound settled current, back.idle⟩

theorem Within.recorded {globals : Frame} {name : String}
    {spec : Option TypeSpec} (within : state.Within [globals])
    (kind : site.node.kind = .declaration (.function name spec))
    (fresh : globals.lookup name = none) :
    ∃ symbol, (state.entered site).facts.functions.get? site.id =
        some symbol ∧
      (state.entered site).table.typeOf? symbol =
        some (Ty.ofReturnSpec spec) := by
  obtain ⟨sound, shown⟩ := within
  have top := shown.eq_global
  rw [top] at shown
  have free := (shown.holds.find?_eq_none_iff name).mpr fresh
  obtain ⟨location, pushed⟩ := SymbolTable.symbols_declared sound.global name
    (Ty.ofReturnSpec spec) site.node.line true
  refine ⟨⟨state.table.symbols.size⟩, ?_, ?_⟩
  · simp [entered, kind, inFunction, withFunction, objection?, free, top,
      enclosed, declaredIn, Facts.setFunction, NodeTable.get?_insert]
  · simp [entered, kind, inFunction, withFunction, objection?, free, top,
      enclosed, declaredIn, SymbolTable.opened, SymbolTable.typeOf?, pushed]

theorem offers_walked {globals : Frame} (shaped : forest.Program)
    (within : state.Within [globals]) (idle : state.awaiting = none)
    (quiet : state.Quiet forest) (offers : state.table.Offers signatures) :
    (state.walked forest).table.Offers (signatures ++ forest.signatures) := by
  induction shaped generalizing state globals signatures with
  | nil => simpa [Forest.signatures] using offers
  | @global site rest kind _ induction =>
      obtain ⟨here, _, _, _, onward⟩ :=
        (quiet_cons state site .nil .nil .nil rest).mp quiet
      obtain ⟨function, block⟩ := flat_isVariable _ kind
      simp only [walked_nil, left_other function block] at onward
      rw [walked_leaf state flat_isVariable kind]
      obtain ⟨name, type, binds⟩ := binding?_of_isVariable kind
      obtain ⟨reported, declared⟩ := within.entered_binding (.inl kind) binds
      have fresh := reported.mp here
      have top := within.shown.eq_global
      have free := (within.shown.holds.find?_eq_none_iff name).mpr fresh
      have still : (state.entered site).table.Offers signatures := by
        rw [table_entered_variable kind binds free, top]
        rw [top] at free
        exact offers.global within.sound.coherent within.sound.global free _ _
      have waiting := (stays_entered state function block).awaiting.trans idle
      have last := induction (declared fresh) waiting onward still
      have same : (Forest.cons site .nil .nil .nil rest).signatures =
          rest.signatures := by
        unfold NodeKind.isVariable at kind
        split at kind
        · next found => simp [Forest.signatures, found]
        · next found => simp [Forest.signatures, found]
        · cases kind
      rw [same]
      exact last
  | @bodiless site parameters rest kind declared _ induction =>
      obtain ⟨here, ofParameters, _, _, onward⟩ :=
        (quiet_cons state site parameters .nil .nil rest).mp quiet
      obtain ⟨name, spec, found⟩ := kind_of_isFunction kind
      have signed := offers_signed within found here declared ofParameters
        offers
      rw [← table_left ((state.entered site).walked parameters) site] at signed
      have fresh := (within.function found).1.mp here
      obtain ⟨outside, waiting⟩ := within.past_bodiless found fresh declared
      have last : (state.walked (.cons site parameters .nil .nil
          rest)).table.Offers _ := induction outside waiting onward signed
      simpa [Forest.signatures, found] using last
  | @function site body parameters locals statements rest kind declared block
      declaredInside inside _ induction =>
      obtain ⟨here, ofParameters, ofBody, _, onward⟩ :=
        (quiet_cons state site parameters _ .nil rest).mp quiet
      obtain ⟨name, spec, found⟩ := kind_of_isFunction kind
      have isBlock := NodeKind.isBlock_statement block
      have signed := offers_signed within found here declared ofParameters
        offers
      have fresh := (within.function found).1.mp here
      have entered := (within.function found).2 fresh
      have grown := grows_walked entered.sound parameters
      have awaits := awaits_parameters within.sound kind declared
      have inner : (Forest.cons body locals statements .nil .nil).Inner :=
        .block isBlock declaredInside inside.inner .nil
      have still := signed.settled
        (keeps_walked grown.sound fun site member =>
          (inner.kinds_of_mem_sites site member).2)
        (settled_body grown.sound awaits isBlock declaredInside inside.inner)
        grown.sound.global ?_
      · rw [← table_left (((state.entered site).walked parameters).walked
          (.cons body locals statements .nil .nil)) site] at still
        obtain ⟨outside, waiting⟩ := within.past_function idle found fresh
          declared isBlock declaredInside inside.inner
        have last : (state.walked (.cons site parameters
            (.cons body locals statements .nil .nil) .nil rest)).table.Offers
              _ := induction outside waiting onward still
        simpa [Forest.signatures, found] using last
      · intro global
        apply entered.not_global
        rw [global]
        exact ((current_leaves _ declared flat_isParameter).1).symm

theorem within_bare : bare.Within [[]] := by
  refine ⟨sound_bare, .global sound_bare.global ?_⟩
  intro name
  rw [find?_bare]
  rfl

theorem offers_bare : bare.table.Offers [] := by
  intro name
  exact SymbolTable.signature?_eq_none (find?_bare _ name)

theorem within_origin (builtins : Bool) : (origin builtins).Within
    [(Typing.runtime builtins).map fun (name, signature) =>
      (name, signature.result)] := by
  cases builtins with
  | false => exact within_bare
  | true =>
      refine ⟨(grows_origin true).sound, ?_⟩
      have output := within_bare.shown.declared sound_bare.coherent
        (find?_bare _ "output") .void 0 true
      have coherent : (bare.declaredIn ScopeId.global "output" .void 0
          true).table.Coherent :=
        sound_bare.coherent.declared sound_bare.global
      have signed := output.settled coherent (settled_withSigned "output"
        .integer) fun _ _ => not_false
      exact signed.declared grows_output.sound.coherent find?_input .integer 0
        true

theorem offers_origin (builtins : Bool) :
    (origin builtins).table.Offers (Typing.runtime builtins) := by
  cases builtins with
  | false => exact offers_bare
  | true =>
      have output := offers_bare.function sound_bare.coherent sound_bare.global
        (find?_bare _ "output") .void 0
      obtain ⟨symbol, found, signed⟩ :=
        SymbolTable.Offers.parameter .integer rfl output
      have same : ((bare.declaredIn ScopeId.global "output" .void 0
          true).withSigned "output" .integer).table =
          (bare.table.declared ScopeId.global "output" .void 0
            true).modifySymbol symbol (·.addParameter .integer) := by
        simp only [withSigned, declaredIn, found]
      rw [← same] at signed
      have input := signed.function grows_output.sound.coherent
        grows_output.sound.global find?_input .integer 0
      intro name
      rw [origin, if_pos rfl]
      refine (input name).trans ?_
      simp only [Typing.runtime, if_true, List.nil_append, List.cons_append,
        List.lookup_cons, List.lookup_nil]
      by_cases same : name = "output"
      · subst same
        rfl
      · have other : (name == "output") = false := by simpa using same
        simp only [other]

end Declaring

end CMinusAnalysis
