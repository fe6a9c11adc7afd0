import CMinusAnalysis.Proofs.Declaring.Signatures
import CMinusAnalysis.Proofs.Typing.Statements

namespace CMinusAnalysis

open SymbolTable (Settled)

/-! The analysis reports nothing about a program just when the program is well
formed. The declaring pass decides whether names are in order; once it reports
nothing, the table has the functions of the whole program, and over that table
the checking pass decides the rest. -/

namespace Typing

variable {signatures : Signatures} {globals : Frame} {site body : Site}
  {parameters locals statements rest : Forest} {name : String}
  {spec : Option TypeSpec}

theorem Program.global_iff {type : Ty}
    (kind : site.node.kind.binding? = some (name, type)) :
    Program signatures globals (.cons site .nil .nil .nil rest) ↔
      (∃ after, Declares globals (.cons site .nil .nil .nil .nil) after) ∧
        Program signatures ((name, type) :: globals) rest := by
  constructor
  · intro ordered
    cases ordered with
    | global binds specified fresh beside =>
        cases kind.symm.trans binds
        exact ⟨⟨_, .name kind specified fresh .nil⟩, beside⟩
    | bodiless found =>
        rw [found] at kind
        cases kind
  · intro parts
    obtain ⟨⟨after, declares⟩, beside⟩ := parts
    cases declares with
    | name binds specified fresh _ =>
        cases kind.symm.trans binds
        exact .global kind specified fresh beside
    | nameless binds => cases kind.symm.trans binds

theorem Program.bodiless_iff
    (kind : site.node.kind = .declaration (.function name spec)) :
    Program signatures globals (.cons site parameters .nil .nil rest) ↔
      (globals.lookup name = none ∧
        ∃ inner, Declares [] parameters inner ∧ True) ∧
        Program signatures ((name, Ty.ofReturnSpec spec) :: globals) rest := by
  constructor
  · intro ordered
    cases ordered with
    | global binds =>
        rw [kind] at binds
        cases binds
    | bodiless found fresh declares beside =>
        cases kind.symm.trans found
        exact ⟨⟨fresh, _, declares, trivial⟩, beside⟩
  · intro parts
    obtain ⟨⟨fresh, inner, declares, _⟩, beside⟩ := parts
    exact .bodiless kind fresh declares beside

theorem Program.function_iff
    (kind : site.node.kind = .declaration (.function name spec))
    (block : body.node.kind = .statement .compound) :
    Program signatures globals (.cons site parameters
        (.cons body locals statements .nil .nil) .nil rest) ↔
      (globals.lookup name = none ∧ ∃ inner, Declares [] parameters inner ∧
        ∃ frame, Declares inner locals frame ∧
          Statements signatures (Ty.ofReturnSpec spec)
            [frame, (name, Ty.ofReturnSpec spec) :: globals] statements) ∧
        Program signatures ((name, Ty.ofReturnSpec spec) :: globals) rest := by
  constructor
  · intro ordered
    cases ordered with
    | function found fresh declares _ declaresInside inside beside =>
        cases kind.symm.trans found
        exact ⟨⟨fresh, _, declares, _, declaresInside, inside⟩, beside⟩
  · intro parts
    obtain ⟨⟨fresh, inner, declares, frame, declaresInside, inside⟩, beside⟩ :=
      parts
    exact .function kind fresh declares block declaresInside inside beside

end Typing

variable {tree : Tree} {facts final : Facts} {table : SymbolTable}
  {signatures : Signatures} {declaring : Declaring} {checking : Checking}
  {route : Route} {site : Site} {forest first second third rest : Forest}
  {globals : Frame} {name : String} {spec : Option TypeSpec}

theorem Abreast.enclosing (abreast : Abreast tree facts final table declaring
      checking route (.cons site first second third rest))
    (within : declaring.Within [globals])
    (kind : site.node.kind = .declaration (.function name spec))
    (fresh : globals.lookup name = none) :
    ((checking.entered table site).walked tree table first).function.bind
      table.typeOf? = some (Ty.ofReturnSpec spec) := by
  obtain ⟨symbol, recorded, typed⟩ := within.recorded kind fresh
  have known : checking.facts.functions.get? site.id = some symbol := by
    have agree := (Declaring.noted_entered abreast.noted).functions
    rw [abreast.placed.follows.functions, agree, recorded]
  obtain ⟨toFirst, _⟩ := abreast.onward
  have sound := (Declaring.grows_entered within.sound site).sound
  have grown := (Declaring.grows_walked sound first).table.trans toFirst.grown
  rw [Checking.function_walked]
  simp only [Checking.entered, kind, Checking.functionSymbol?, known,
    Option.orElse_some, Option.bind_some]
  exact grown.typeOf? typed

theorem Abreast.function {onBody : Frame → Prop}
    (abreast : Abreast tree facts final table declaring checking route
      (.cons site first second .nil .nil))
    (within : declaring.Within [globals])
    (kind : site.node.kind = .declaration (.function name spec))
    (declared : first.Leaves NodeKind.isParameter)
    (inBody : globals.lookup name = none → ∀ {inner : Frame},
      ((declaring.entered site).walked first).Within
        [inner, (name, Ty.ofReturnSpec spec) :: globals] →
      Decides (onBody inner) tree table signatures
        ((declaring.entered site).walked first)
        ((checking.entered table site).walked tree table first) second) :
    Decides (globals.lookup name = none ∧
        ∃ inner, Typing.Declares [] first inner ∧ onBody inner)
      tree table signatures declaring checking
      (.cons site first second .nil .nil) := by
  obtain ⟨reported, opened⟩ := within.function kind
  refine abreast.scoped reported opened ?_ (fun _ fits => .inr fits)
    Declaring.flat_isParameter declared inBody
  intro state
  simp only [Checking.objections, kind]

theorem settled_before_program (shaped : forest.Program)
    (within : declaring.Within [globals]) (idle : declaring.awaiting = none)
    (settled : Settled (· = ScopeId.global) (declaring.walked forest).table
      table) :
    Settled (· = ScopeId.global) declaring.table table :=
  (Declaring.settles shaped.tidy within.sound idle fun _ =>
    within.shown.eq_global).trans settled

theorem Forest.Program.decides (shaped : forest.Program)
    (abreast : Abreast tree facts final table declaring checking route forest)
    (idle : declaring.awaiting = none) (within : declaring.Within [globals])
    (settled : Settled (· = ScopeId.global) (declaring.walked forest).table
      table) :
    Decides (Typing.Program signatures globals forest) tree table signatures
      declaring checking forest := by
  induction shaped generalizing declaring checking route globals with
  | nil => exact .nil .nil
  | @global site rest kind _ beside =>
      obtain ⟨name, type, binds⟩ := Declaring.binding?_of_isVariable kind
      have leaves : (Forest.cons site .nil .nil .nil .nil).Leaves
          NodeKind.isVariable := .cons kind .nil
      obtain ⟨_, _, _, toRest⟩ := abreast.onward
      refine .congr (Typing.Program.global_iff binds).symm
        (.beside (within.decides (fun _ fits => .inl fits)
          Declaring.flat_isVariable leaves) ?_)
      intro holds
      obtain ⟨after, declares⟩ := holds
      have outside := (within.declares (fun _ fits => .inl fits)
        Declaring.flat_isVariable leaves declares).2
      cases declares with
      | nameless unbound => cases binds.symm.trans unbound
      | name found _ _ last =>
          cases binds.symm.trans found
          cases last
          have waiting := (Declaring.current_leaves declaring leaves
            Declaring.flat_isVariable).2
          exact beside toRest (waiting.trans idle) outside settled
  | @bodiless site parameters rest kind declared ofRest beside =>
      obtain ⟨name, spec, found⟩ := Declaring.kind_of_isFunction kind
      obtain ⟨_, _, _, toRest⟩ := abreast.onward
      have alone := abreast.alone idle (.bodiless kind declared .nil)
      refine .congr (Typing.Program.bodiless_iff found).symm
        (.beside (alone.function within found declared fun _ _ _ =>
          .nil trivial) ?_)
      intro holds
      obtain ⟨outside, waiting⟩ := within.past_bodiless found holds.1 declared
      exact beside toRest waiting outside settled
  | @function site body parameters locals statements rest kind declared block
      declaredInside inside ofRest beside =>
      obtain ⟨name, spec, found⟩ := Declaring.kind_of_isFunction kind
      have isBlock := NodeKind.isBlock_statement block
      obtain ⟨_, toBody, _, toRest⟩ := abreast.onward
      have shaped : (Forest.cons site parameters
          (.cons body locals statements .nil .nil) .nil .nil).FunctionsShaped :=
        .function kind declared isBlock
          (declaredInside.functionsShaped fun _ =>
            NodeKind.isFunction_of_isVariable)
          inside.inner.tidy.functionsShaped .nil .nil .nil
      have alone := abreast.alone idle shaped
      refine .congr (Typing.Program.function_iff found block).symm
        (.beside (alone.function within found declared ?_) ?_)
      · intro fresh inner known
        obtain ⟨outside, waiting⟩ := within.past_function idle found fresh
          declared isBlock declaredInside inside.inner
        have awaits := Declaring.awaits_parameters within.sound kind declared
        obtain ⟨opened, ready⟩ := known.body awaits isBlock
        have last := settled_before_program ofRest outside waiting settled
        have returns := abreast.enclosing within found fresh
        refine toBody.block block opened ready rfl declaredInside inside.inner
          ?_ (inside.decided returns)
        rw [Declaring.walked_cons, Declaring.walked_nil, Declaring.walked_nil,
          Declaring.table_left] at last
        exact last
      · intro holds
        obtain ⟨outside, waiting⟩ := within.past_function idle found holds.1
          declared isBlock declaredInside inside.inner
        exact beside toRest waiting outside settled

theorem abreast_origin (builtins : Bool) (single : tree.SinglePath)
    (complete : tree.forest.Complete) (shaped : tree.forest.FunctionsShaped) :
    Abreast tree (Analysis.declared builtins tree).facts
      ((Analysis.declared builtins tree).checked tree).facts
      (Analysis.declared builtins tree).table (Declaring.origin builtins)
      (Analysis.declared builtins tree).checking [] tree.forest := by
  have distinct := single.unfolds.nodup_ids single fun _ => .start
  exact
    { untyped := Analysis.untyped builtins tree
      kept := (follows_checked builtins single complete shaped).unresolved
      scene := Declaring.scene_origin builtins shaped
      noted := Declaring.noted_origin builtins distinct
      grown := .refl _
      sound := Analysis.sound_checking builtins tree
      placed := placed builtins single complete shaped
      typed :=
        { distinct := distinct
          start := fun _ => .refl _ _
          finish := fun _ => .refl _ _ }
      slots := single.unfolds.slots
      complete := complete }

theorem diagnostics_eq_nil_iff (builtins : Bool) (tree : Tree) :
    ((Analysis.declared builtins tree).checked tree).diagnostics.items = [] ↔
      (Declaring.origin builtins).Quiet tree.forest ∧
        (Analysis.declared builtins tree).checking.Quiet tree
          (Analysis.declared builtins tree).table tree.forest := by
  have none : (Declaring.origin builtins).items = [] := by
    rw [Declaring.items, (Declaring.origin_fields builtins).2.1]
    rfl
  have early := Declaring.adds.fold (Declaring.origin builtins) tree.forest
  have late := (Checking.adds tree (Analysis.declared builtins tree).table).fold
    (Analysis.declared builtins tree).checking tree.forest
  rw [← none]
  exact Forest.eq_iff_of_prefixes early late

theorem accepted_iff_wellFormed (config : Config) (single : tree.SinglePath)
    (inRange : tree.InRange) (shaped : tree.forest.Program) :
    ∃ analysis, (analyze config tree).result = .ok analysis ∧
      (analysis.diagnostics.items = [] ↔
        Typing.WellFormed config.builtins tree.forest) := by
  have complete := Analysis.complete single inRange
  have abreast := abreast_origin config.builtins single complete
    shaped.tidy.functionsShaped
  obtain ⟨_, _, _, idle⟩ := Declaring.origin_fields config.builtins
  have within := Declaring.within_origin config.builtins
  have decides : Decides (Typing.WellFormed config.builtins tree.forest) _ _ _ _
      _ _ := shaped.decides abreast idle within (.refl _ _)
  have offers (quiet : (Declaring.origin config.builtins).Quiet tree.forest) :
      (Analysis.declared config.builtins tree).table.Offers
        (Typing.runtime config.builtins ++ tree.forest.signatures) :=
    Declaring.offers_walked shaped within idle quiet
      (Declaring.offers_origin config.builtins)
  refine ⟨_, Analysis.analyze_result config single complete, ?_⟩
  rw [diagnostics_eq_nil_iff]
  constructor
  · intro quiet
    obtain ⟨declared, checked⟩ := quiet
    exact decides.judged (offers declared) declared checked
  · intro ordered
    have declared := decides.declared ordered
    exact ⟨declared, decides.checked (offers declared) ordered⟩

/-! A call before the function is declared, in a block that has a variable of
its name. -/

def lateFunction : Tree where
  nodes := #[
    { kind := .declaration (.function "main" (some .void)), line := 1,
      first := some ⟨1⟩, second := some ⟨2⟩, sibling := some ⟨7⟩ },
    { kind := .parameter ⟨none, some .void, false⟩, line := 1 },
    { kind := .statement .compound, line := 1,
      first := some ⟨3⟩, second := some ⟨4⟩ },
    { kind := .declaration (.variable "twice" (some .int)), line := 2 },
    { kind := .statement .write, line := 3,
      first := some ⟨5⟩ },
    { kind := .expression (.call "twice"), line := 3, first := some ⟨6⟩ },
    { kind := .expression (.identifier "twice"), line := 3 },
    { kind := .declaration (.function "twice" (some .int)), line := 5,
      first := some ⟨8⟩, second := some ⟨9⟩ },
    { kind := .parameter ⟨some "x", some .int, false⟩, line := 5 },
    { kind := .statement .compound, line := 5, second := some ⟨10⟩ },
    { kind := .statement .ret, line := 6, first := some ⟨11⟩ },
    { kind := .expression (.binary .add), line := 6,
      first := some ⟨12⟩, second := some ⟨13⟩ },
    { kind := .expression (.identifier "x"), line := 6 },
    { kind := .expression (.identifier "x"), line := 6 }]
  root := some ⟨0⟩

theorem lateFunction_unfolds :
    lateFunction.Unfolds lateFunction.root lateFunction.forest := by
  repeat constructor

theorem lateFunction_complete : lateFunction.forest.Complete := by
  repeat constructor

theorem lateFunction_single : lateFunction.SinglePath :=
  Tree.singlePath_of_unfolds lateFunction_unfolds lateFunction_complete
    (by decide)

theorem lateFunction_inRange : lateFunction.InRange :=
  Tree.inRange_of_unfolds lateFunction_unfolds lateFunction_complete

theorem lateFunction_shaped : lateFunction.forest.Program := by
  have name {site : Site} {name : String}
      (kind : site.node.kind = .expression (.identifier name)) :
      (Forest.cons site .nil .nil .nil .nil).Expressions :=
    .cons kind ⟨rfl, rfl⟩ .nil .nil .nil
  refine .function rfl (.cons rfl .nil) rfl (.cons rfl .nil) ?_
    (.function rfl (.cons rfl .nil) rfl .nil ?_ .nil)
  · refine .command rfl ?_ (.cons rfl ?_ (name rfl) .nil .nil) .nil .nil
    · exact ⟨rfl, rfl⟩
    · exact rfl
  · refine .command rfl ?_ (.cons rfl ?_ (name rfl) (name rfl) .nil) .nil .nil
    · exact ⟨Nat.le_refl 1, rfl⟩
    · exact ⟨rfl, rfl⟩

theorem lateFunction_wellFormed :
    Typing.WellFormed true lateFunction.forest := by
  have name {context : Context} {signatures : Signatures} {site : Site}
      {name : String} {type : Ty}
      (kind : site.node.kind = .expression (.identifier name))
      (visible : context.type? name = some type) :
      Typing.Expressions signatures context (.cons site .nil .nil .nil .nil)
        [type] :=
    .cons kind .nil .nil (.identifier visible) .nil
  have call {context : Context} {signatures : Signatures}
      (visible : (context.type? "twice").isSome = true)
      (found : signatures.lookup "twice" = some ⟨[.integer], .integer⟩) :
      Typing.Rule signatures context (.call "twice") [.integer] [] .integer :=
    @Typing.Rule.call _ _ _ ⟨[.integer], .integer⟩ visible found
  refine .function rfl rfl (.nameless rfl .nil) rfl (.name rfl rfl rfl .nil) ?_
    (.function rfl rfl (.name rfl trivial rfl .nil) rfl .nil ?_ .nil)
  · refine .command rfl (.cons rfl (name rfl rfl) .nil (call rfl rfl) .nil) .nil
      (.write ?_) .nil
    decide
  · refine .command rfl
      (.cons rfl (name rfl rfl) (name rfl rfl) (.binary ?_) .nil) .nil (.give ?_)
      .nil
    · decide
    · decide

theorem accepted_at_late_function :
    lateFunction.SinglePath ∧ lateFunction.InRange ∧
      lateFunction.forest.Program ∧
      Typing.WellFormed true lateFunction.forest ∧
      ∃ analysis, (analyze {} lateFunction).result = .ok analysis ∧
        analysis.diagnostics.items = [] := by
  refine ⟨lateFunction_single, lateFunction_inRange, lateFunction_shaped,
    lateFunction_wellFormed, ?_⟩
  obtain ⟨analysis, ended, accepted⟩ := accepted_iff_wellFormed {}
    lateFunction_single lateFunction_inRange lateFunction_shaped
  exact ⟨analysis, ended, accepted.mpr lateFunction_wellFormed⟩

end CMinusAnalysis
