import CMinusAnalysis.Proofs.Typing.Expressions

namespace CMinusAnalysis

open SymbolTable (Settled)

namespace Typing

variable {frame after : Frame} {forest : Forest}

theorem specified_of_nameless {kind : NodeKind} (nameless : kind.binding? = none) :
    kind.Specified := by
  unfold NodeKind.Specified
  split
  · cases nameless
  · cases nameless
  · exact trivial

theorem Declares.specified (declares : Declares frame forest after) :
    ∀ site ∈ forest.sites, site.node.kind.Specified := by
  induction declares with
  | nil => simp [Forest.sites]
  | name _ specified _ _ beside =>
      simp only [Forest.sites, List.nil_append, List.forall_mem_cons]
      exact ⟨specified, beside⟩
  | nameless binds _ beside =>
      simp only [Forest.sites, List.nil_append, List.forall_mem_cons]
      exact ⟨specified_of_nameless binds, beside⟩

section

variable {signatures : Signatures} {result : Ty} {context : Context}
  {site : Site} {first second third rest : Forest} {statement : Statement}

theorem Statements.expression_iff {expression : Expression}
    (kind : site.node.kind = .expression expression) :
    Statements signatures result context (.cons site first second third rest) ↔
      (∃ types, Expressions signatures context
        (.cons site first second third .nil) types) ∧
        Statements signatures result context rest := by
  constructor
  · intro ordered
    cases ordered with
    | expression alone beside => exact ⟨⟨_, alone⟩, beside⟩
    | _ => simp_all
  · intro parts
    obtain ⟨⟨types, alone⟩, beside⟩ := parts
    obtain ⟨type, rfl⟩ := List.length_eq_one_iff.mp alone.length_eq
    exact .expression alone beside

theorem Statements.block_iff (kind : site.node.kind = .statement .compound) :
    Statements signatures result context (.cons site first second .nil rest) ↔
      (∃ frame, Declares [] first frame ∧
        Statements signatures result (frame :: context) second) ∧
        Statements signatures result context rest := by
  constructor
  · intro ordered
    cases ordered with
    | expression alone =>
        cases alone
        simp_all
    | block _ declares inside beside => exact ⟨⟨_, declares, inside⟩, beside⟩
    | test found tests =>
        cases kind.symm.trans found
        simp at tests
    | command found _ _ command =>
        cases kind.symm.trans found
        cases command
  · intro parts
    obtain ⟨⟨frame, declares, inside⟩, beside⟩ := parts
    exact .block kind declares inside beside

theorem Statements.test_iff (kind : site.node.kind = .statement statement)
    (tests : statement = .conditional ∨ statement = .alternative ∨
      statement = .loop) :
    Statements signatures result context (.cons site first second third rest) ↔
      (∃ type, Expressions signatures context first [type] ∧ type ≠ .void) ∧
        Statements signatures result context second ∧
        Statements signatures result context third ∧
        Statements signatures result context rest := by
  constructor
  · intro ordered
    cases ordered with
    | expression alone =>
        cases alone
        simp_all
    | block found =>
        cases kind.symm.trans found
        simp at tests
    | test _ _ before value taken other beside =>
        exact ⟨⟨_, before, value⟩, taken, other, beside⟩
    | command found _ _ command =>
        cases kind.symm.trans found
        cases command <;> simp at tests
  · intro parts
    obtain ⟨⟨type, before, value⟩, taken, other, beside⟩ := parts
    exact .test kind tests before value taken other beside

theorem Statements.command_iff {firsts seconds : Nat}
    (kind : site.node.kind = .statement statement)
    (takes : statement.Takes firsts seconds) :
    Statements signatures result context (.cons site first second .nil rest) ↔
      ∃ firsts seconds, Expressions signatures context first firsts ∧
        Expressions signatures context second seconds ∧
        Command result statement firsts seconds ∧
        Statements signatures result context rest := by
  constructor
  · intro ordered
    cases ordered with
    | expression alone =>
        cases alone
        simp_all
    | block found =>
        cases kind.symm.trans found
        exact takes.elim
    | test found tests =>
        cases kind.symm.trans found
        rcases tests with rfl | rfl | rfl <;> exact takes.elim
    | command found inFirst inSecond command beside =>
        cases kind.symm.trans found
        exact ⟨_, _, inFirst, inSecond, command, beside⟩
  · intro parts
    obtain ⟨_, _, inFirst, inSecond, command, beside⟩ := parts
    exact .command kind inFirst inSecond command beside

end

end Typing

variable {tree : Tree} {facts final : Facts} {table : SymbolTable}
  {signatures : Signatures} {context : Context} {function : Option SymbolId}
  {declaring : Declaring} {checking state : Checking} {route : Route}
  {site : Site} {scope : ScopeId} {result : Ty}
  {forest first second third rest : Forest} {firsts seconds : List Ty}

namespace Leaving

theorem objections_test {statement : Statement}
    (leaving : Leaving tree final table function scope state site first second)
    (kind : site.node.kind = .statement statement)
    (tests : statement = .conditional ∨ statement = .alternative ∨
      statement = .loop)
    (atMost : firsts.length ≤ 1) (absent : first = .nil ↔ firsts = [])
    (onFirst : (Checking.viewing final scope).reading table first =
      firsts.map some) :
    state.objections tree table site = [] ↔
      ∃ type, firsts = [type] ∧ type ≠ .void := by
  have none := leaving.absent.trans absent
  have readFirst := leaving.onFirst
  rw [onFirst] at readFirst
  have condition (word : String) :
      state.conditionObjections tree table site word = [] ↔
        ∃ type, firsts = [type] ∧ type ≠ .void := by
    rcases firsts with _ | ⟨type, _ | ⟨more, others⟩⟩
    · simp [Checking.conditionObjections, none]
    · simp [Checking.conditionObjections, none, readFirst]
    · simp at atMost
  rcases tests with rfl | rfl | rfl
  · simp only [Checking.objections, kind, Checking.complaints_eq_nil, condition]
  · simp only [Checking.objections, kind, Checking.complaints_eq_nil, condition]
  · simp only [Checking.objections, kind, Checking.complaints_eq_nil, condition]

theorem objections_ret
    (leaving : Leaving tree final table function scope state site first second)
    (returns : function.bind table.typeOf? = some result)
    (kind : site.node.kind = .statement .ret) (atMost : firsts.length ≤ 1)
    (absent : first = .nil ↔ firsts = [])
    (onFirst : (Checking.viewing final scope).reading table first =
      firsts.map some) :
    state.objections tree table site = [] ↔
      Typing.Command result .ret firsts [] := by
  have none := leaving.absent.trans absent
  have readFirst := leaving.onFirst
  rw [onFirst] at readFirst
  obtain ⟨id, found, typed⟩ := Option.bind_eq_some_iff.mp returns
  obtain ⟨symbol, stored, rfl⟩ := Option.map_eq_some_iff.mp typed
  have around : state.enclosing? table = some symbol := by
    rw [Checking.enclosing?, leaving.enclosing, found]
    exact stored
  simp only [Checking.objections, kind, around, Checking.complaints_eq_nil,
    Checking.returnObjections, Option.toList_eq_nil_iff,
    Checking.returnObjection?_eq_none]
  rcases firsts with _ | ⟨type, _ | ⟨more, others⟩⟩
  · have empty := Option.isNone_iff_eq_none.mp (none.mpr rfl)
    constructor
    · intro fits
      by_cases nothing : symbol.type = .void
      · exact .finish nothing
      · simp [nothing, empty] at fits
    · intro command
      cases command with
      | finish nothing => simp [nothing, empty]
  · have held : site.node.first.isSome = true := by
      rw [← Option.not_isNone, Bool.not_eq_true']
      exact Bool.eq_false_iff.mpr fun empty =>
        List.cons_ne_nil _ _ (none.mp empty)
    constructor
    · intro fits
      by_cases nothing : symbol.type = .void
      · simp [nothing, held] at fits
      · simp only [nothing, if_false, readFirst] at fits
        cases fits.2 type rfl
        exact .give nothing
    · intro command
      cases command with
      | give something => simp [something, held, readFirst]
  · simp at atMost

theorem objections_command {statement : Statement}
    (leaving : Leaving tree final table function scope state site first second)
    (returns : function.bind table.typeOf? = some result)
    (kind : site.node.kind = .statement statement)
    (takes : statement.Takes firsts.length seconds.length)
    (absent : first = .nil ↔ firsts = [])
    (onFirst : (Checking.viewing final scope).reading table first =
      firsts.map some)
    (onSecond : (Checking.viewing final scope).reading table second =
      seconds.map some) :
    state.objections tree table site = [] ↔
      Typing.Command result statement firsts seconds := by
  have readFirst := leaving.onFirst
  have readSecond := leaving.onSecond
  rw [onFirst] at readFirst
  rw [onSecond] at readSecond
  cases statement with
  | ret =>
      obtain ⟨atMost, noSecond⟩ := takes
      cases List.eq_nil_of_length_eq_zero noSecond
      exact leaving.objections_ret returns kind atMost absent onFirst
  | assign =>
      obtain ⟨oneFirst, oneSecond⟩ := takes
      obtain ⟨left, rfl⟩ := List.length_eq_one_iff.mp oneFirst
      obtain ⟨right, rfl⟩ := List.length_eq_one_iff.mp oneSecond
      simp only [Checking.objections, kind, Checking.complaints_eq_nil,
        Option.toList_eq_nil_iff, readFirst, readSecond]
      refine Checking.assignmentObjection?_eq_none.trans ⟨?_, ?_⟩
      · intro fits
        obtain ⟨rfl, value⟩ := fits
        exact .assign value
      · intro command
        cases command with
        | assign value => exact ⟨rfl, value⟩
  | write =>
      obtain ⟨oneFirst, noSecond⟩ := takes
      obtain ⟨type, rfl⟩ := List.length_eq_one_iff.mp oneFirst
      cases List.eq_nil_of_length_eq_zero noSecond
      simp only [Checking.objections, kind, Checking.complaints_eq_nil,
        readFirst, List.map_cons, List.head?_cons, Option.join_some,
        Option.some.injEq]
      constructor
      · intro fits
        refine .write ?_
        rintro rfl
        cases fits
      · intro command
        cases command with
        | write value => rw [if_neg value]
  | _ => exact takes.elim

end Leaving

theorem Declaring.Within.decides {frame : Frame} {kinds : NodeKind → Bool}
    (within : declaring.Within (frame :: context))
    (declares : Declaring.Declares kinds) (flat : Declaring.Flat kinds)
    (leaves : forest.Leaves kinds) :
    Decides (∃ after, Typing.Declares frame forest after) tree table signatures
      declaring checking forest := by
  have specified : checking.Quiet tree table forest ↔
      ∀ site ∈ forest.sites, site.node.kind.Specified :=
    Checking.quiet_leaves leaves declares flat
  refine ⟨?_, ?_, ?_⟩
  · intro holds
    obtain ⟨after, ordered⟩ := holds
    exact (within.declares declares flat leaves ordered).1
  · intro _ holds
    obtain ⟨after, ordered⟩ := holds
    exact specified.mpr ordered.specified
  · intro _ quiet quiet'
    exact within.declares_of_quiet declares flat leaves quiet
      (specified.mp quiet')

theorem Abreast.scoped {frame : Frame} {kinds : NodeKind → Bool}
    {leaves second : Forest} {opening : Prop} {onSecond : Frame → Prop}
    (abreast : Abreast tree facts final table declaring checking route
      (.cons site leaves second .nil .nil))
    (opened : (declaring.entered site).items = declaring.items ↔ opening)
    (within : opening → (declaring.entered site).Within (frame :: context))
    (silent : ∀ state : Checking, state.objections tree table site = [])
    (declares : Declaring.Declares kinds) (flat : Declaring.Flat kinds)
    (declared : leaves.Leaves kinds)
    (inSecond : opening → ∀ {after : Frame},
      ((declaring.entered site).walked leaves).Within (after :: context) →
      Decides (onSecond after) tree table signatures
        ((declaring.entered site).walked leaves)
        ((checking.entered table site).walked tree table leaves) second) :
    Decides (opening ∧ ∃ after, Typing.Declares frame leaves after ∧
        onSecond after)
      tree table signatures declaring checking
      (.cons site leaves second .nil .nil) := by
  have entering := congrArg Diagnostics.items abreast.placed.entered_diagnostics
  have split := Declaring.quiet_cons declaring site leaves second .nil .nil
  have inLeaves (opens : opening) :
      Decides (∃ after, Typing.Declares frame leaves after) tree table
        signatures (declaring.entered site) (checking.entered table site)
        leaves :=
    (within opens).decides declares flat declared
  have go (opens : opening) {after : Frame}
      (ordered : Typing.Declares frame leaves after) :=
    inSecond opens ((within opens).declares declares flat declared ordered).2
  refine ⟨?_, ?_, ?_⟩
  · intro holds
    obtain ⟨opens, after, ordered, inside⟩ := holds
    exact split.mpr ⟨opened.mpr opens, (inLeaves opens).declared ⟨_, ordered⟩,
      (go opens ordered).declared inside, rfl, rfl⟩
  · intro offers holds
    obtain ⟨opens, after, ordered, inside⟩ := holds
    exact (Checking.quiet_cons entering).mpr
      ⟨(inLeaves opens).checked offers ⟨_, ordered⟩,
        (go opens ordered).checked offers inside, rfl, silent _, rfl⟩
  · intro offers quiet quiet'
    obtain ⟨reported, ofLeaves, ofSecond, _, _⟩ := split.mp quiet
    obtain ⟨ofLeaves', ofSecond', _, _, _⟩ :=
      (Checking.quiet_cons entering).mp quiet'
    have opens := opened.mp reported
    obtain ⟨after, ordered⟩ := (inLeaves opens).judged offers ofLeaves ofLeaves'
    exact ⟨opens, after, ordered,
      (go opens ordered).judged offers ofSecond ofSecond'⟩

/-- Wherever the passes are before these statements inside a function, they
report something unless the statements are in order. -/
def Decided (tree : Tree) (facts final : Facts) (table : SymbolTable)
    (signatures : Signatures) (result : Ty) (context : Context)
    (function : Option SymbolId) (forest : Forest) : Prop :=
  ∀ {declaring : Declaring} {checking : Checking} {route : Route},
    Poised tree facts final table context function declaring checking route
      forest →
    Decides (Typing.Statements signatures result context forest) tree table
      signatures declaring checking forest

theorem Abreast.block {frame : Frame} {locals body : Forest}
    (abreast : Abreast tree facts final table declaring checking route
      (.cons site locals body .nil .nil))
    (kind : site.node.kind = .statement .compound)
    (within : (declaring.entered site).Within (frame :: context))
    (idle : (declaring.entered site).awaiting = none)
    (enclosing : checking.function = function)
    (declared : locals.Leaves NodeKind.isVariable) (inner : body.Inner)
    (settled : Settled (· = ScopeId.global)
      (declaring.walked (.cons site locals body .nil .nil)).table table)
    (inBody : ∀ {after : Frame}, Decided tree facts final table signatures
      result (after :: context) function body) :
    Decides (∃ after, Typing.Declares frame locals after ∧
        Typing.Statements signatures result (after :: context) body)
      tree table signatures declaring checking
      (.cons site locals body .nil .nil) := by
  have isBlock := NodeKind.isBlock_statement kind
  obtain ⟨_, toBody, _, _⟩ := abreast.onward
  have opened : (declaring.entered site).items = declaring.items := by
    rw [Declaring.entered_block isBlock, Declaring.items_withBlock]
  have silent (state : Checking) : state.objections tree table site = [] := by
    simp only [Checking.objections, kind]
  have flat := declared.functionsShaped fun _ =>
    NodeKind.isFunction_of_isVariable
  have ready := (Declaring.returns_walked flat within.sound idle).idle
  rw [Declaring.walked_cons, Declaring.walked_nil, Declaring.walked_nil,
    Declaring.table_left] at settled
  have still : ((checking.entered table site).walked tree table
      locals).function = function := by
    rw [Checking.function_walked,
      (Checking.functions_entered (NodeKind.isFunction_of_isBlock isBlock)).1,
      enclosing]
  refine (abreast.scoped (iff_true_intro opened) (fun _ => within) silent
    (fun _ fits => .inl fits) Declaring.flat_isVariable declared ?_).congr
    (and_iff_right trivial)
  intro _ after known
  exact inBody ⟨toBody, ready, known, inner, settled, still⟩

namespace Decided

variable {statement : Statement}

theorem nil : Decided tree facts final table signatures result context function
    .nil :=
  fun _ => .nil .nil

theorem expression
    (alone : (Forest.cons site first second third .nil).Expressions)
    (ofRest : rest.Inner)
    (beside : Decided tree facts final table signatures result context function
      rest) :
    Decided tree facts final table signatures result context function
      (.cons site first second third rest) := by
  intro declaring checking route poised
  have inner := alone.inner
  have here := (alone.matches signatures (poised.alone inner ofRest)).decides
  have last := beside (poised.beside inner ofRest)
  cases alone with
  | cons kind =>
      exact (here.beside fun _ => last).congr
        (Typing.Statements.expression_iff kind).symm

theorem block {locals body : Forest}
    (kind : site.node.kind = .statement .compound)
    (declared : locals.Leaves NodeKind.isVariable) (ofBody : body.Inner)
    (ofRest : rest.Inner)
    (inside : ∀ {after : Frame}, Decided tree facts final table signatures result
      (after :: context) function body)
    (beside : Decided tree facts final table signatures result context function
      rest) :
    Decided tree facts final table signatures result context function
      (.cons site locals body .nil rest) := by
  intro declaring checking route poised
  have isBlock := NodeKind.isBlock_statement kind
  have inner : (Forest.cons site locals body .nil .nil).Inner :=
    .block isBlock declared ofBody .nil
  have alone := poised.alone inner ofRest
  obtain ⟨within, idle⟩ := poised.within.block poised.idle isBlock
  have here := alone.toAbreast.block kind within idle poised.enclosing declared
    ofBody alone.settled inside
  have last := beside (poised.beside inner ofRest)
  exact (here.beside fun _ => last).congr
    (Typing.Statements.block_iff kind).symm

theorem test {condition taken other : Forest}
    (kind : site.node.kind = .statement statement)
    (tests : statement = .conditional ∨ statement = .alternative ∨
      statement = .loop)
    (ofCondition : condition.Expressions)
    (atMost : condition.chain.length ≤ 1)
    (inTaken : Decided tree facts final table signatures result context function
      taken)
    (inOther : Decided tree facts final table signatures result context function
      other)
    (beside : Decided tree facts final table signatures result context function
      rest) :
    Decided tree facts final table signatures result context function
      (.cons site condition taken other rest) := by
  intro declaring checking route poised
  have isPlain : site.node.kind.isPlain = true := by
    apply NodeKind.isPlain_statement kind
    rcases tests with rfl | rfl | rfl <;> decide
  have unused : site.node.kind.use? = none := by
    rw [kind]
    rfl
  obtain ⟨toCondition, toTaken, toOther, toRest⟩ := poised.plain isPlain
  obtain ⟨current, _⟩ := poised.currents isPlain
  have leaving := poised.leaving isPlain
  have before := ofCondition.matches signatures toCondition
  rw [current] at before
  have typing : Typing.Statements signatures result context
      (.cons site condition taken other rest) ↔ _ :=
    Typing.Statements.test_iff kind tests
  refine .plain isPlain before.decides (inTaken toTaken) (inOther toOther)
    (beside toRest) ?_ ?_
  · intro ordered
    obtain ⟨⟨type, typed, _⟩, onTaken, onOther, onRest⟩ := typing.mp ordered
    exact ⟨congrArg _ (Declaring.entered_plain declaring isPlain unused),
      ⟨_, typed⟩, onTaken, onOther, onRest⟩
  · intro offers _ typed onTaken onOther onRest
    obtain ⟨types, typed⟩ := typed
    rw [← typed.length_eq] at atMost
    rw [typing, leaving.objections_test kind tests atMost typed.eq_nil_iff
      (before.reads offers _ typed)]
    constructor
    · intro fits
      obtain ⟨type, rfl, value⟩ := fits
      exact ⟨⟨type, typed, value⟩, onTaken, onOther, onRest⟩
    · intro parts
      obtain ⟨⟨type, again, value⟩, _⟩ := parts
      exact ⟨type, before.reads.unique offers typed again, value⟩

theorem command (returns : function.bind table.typeOf? = some result)
    (kind : site.node.kind = .statement statement)
    (takes : statement.Takes first.chain.length second.chain.length)
    (ofFirst : first.Expressions) (ofSecond : second.Expressions)
    (beside : Decided tree facts final table signatures result context function
      rest) :
    Decided tree facts final table signatures result context function
      (.cons site first second .nil rest) := by
  intro declaring checking route poised
  have isPlain : site.node.kind.isPlain = true := by
    apply NodeKind.isPlain_statement kind
    rintro rfl
    exact takes
  have unused : site.node.kind.use? = none := by
    rw [kind]
    rfl
  obtain ⟨toFirst, toSecond, _, toRest⟩ := poised.plain isPlain
  obtain ⟨current1, current2, _⟩ := poised.currents isPlain
  have leaving := poised.leaving isPlain
  have one := ofFirst.matches signatures toFirst
  have two := ofSecond.matches signatures toSecond
  rw [current1] at one
  rw [current2] at two
  have typing : Typing.Statements signatures result context
      (.cons site first second .nil rest) ↔ _ :=
    Typing.Statements.command_iff kind takes
  refine .plain isPlain one.decides two.decides (.nil trivial) (beside toRest)
    ?_ ?_
  · intro ordered
    obtain ⟨_, _, onFirst, onSecond, _, onRest⟩ := typing.mp ordered
    exact ⟨congrArg _ (Declaring.entered_plain declaring isPlain unused),
      ⟨_, onFirst⟩, ⟨_, onSecond⟩, trivial, onRest⟩
  · intro offers _ onFirst onSecond _ onRest
    obtain ⟨firsts, onFirst⟩ := onFirst
    obtain ⟨seconds, onSecond⟩ := onSecond
    rw [← onFirst.length_eq, ← onSecond.length_eq] at takes
    rw [typing, leaving.objections_command returns kind takes
      onFirst.eq_nil_iff (one.reads offers _ onFirst)
      (two.reads offers _ onSecond)]
    constructor
    · intro command
      exact ⟨firsts, seconds, onFirst, onSecond, command, onRest⟩
    · intro parts
      obtain ⟨_, _, again, again', command, _⟩ := parts
      cases one.reads.unique offers onFirst again
      cases two.reads.unique offers onSecond again'
      exact command

end Decided

theorem Forest.Statements.decided (shaped : forest.Statements)
    (returns : function.bind table.typeOf? = some result) :
    Decided tree facts final table signatures result context function
      forest := by
  induction shaped generalizing context with
  | nil => exact Decided.nil
  | expression alone ofRest beside =>
      exact Decided.expression alone ofRest.inner beside
  | block kind declared ofBody ofRest inside beside =>
      exact Decided.block kind declared ofBody.inner ofRest.inner inside beside
  | test kind tests ofCondition atMost _ _ _ _ _ _ inTaken inOther beside =>
      exact Decided.test kind tests ofCondition atMost inTaken inOther beside
  | command kind takes ofFirst ofSecond _ beside =>
      exact Decided.command returns kind takes ofFirst ofSecond beside

end CMinusAnalysis
