import CMinusAnalysis.Proofs.Analysis.Abreast

namespace CMinusAnalysis

/-- Whether the passes report something in the forest hangs on the condition;
of the checking pass this is so where the table has the functions of the
program. -/
structure Decides (condition : Prop) (tree : Tree) (table : SymbolTable)
    (signatures : Signatures) (declaring : Declaring) (checking : Checking)
    (forest : Forest) : Prop where
  declared : condition → declaring.Quiet forest
  checked : table.Offers signatures → condition →
    checking.Quiet tree table forest
  judged : table.Offers signatures → declaring.Quiet forest →
    checking.Quiet tree table forest → condition

section

variable {tree : Tree} {facts final : Facts} {table : SymbolTable}
  {signatures : Signatures} {context : Context} {function : Option SymbolId}
  {declaring : Declaring} {checking : Checking} {route : Route} {site : Site}
  {forest first second third rest : Forest}

theorem Decides.nil {condition : Prop} (holds : condition) :
    Decides condition tree table signatures declaring checking .nil :=
  ⟨fun _ => rfl, fun _ _ => rfl, fun _ _ _ => holds⟩

theorem Decides.congr {condition other : Prop} (same : condition ↔ other)
    (decides : Decides condition tree table signatures declaring checking
      forest) :
    Decides other tree table signatures declaring checking forest where
  declared holds := decides.declared (same.mpr holds)
  checked offers holds := decides.checked offers (same.mpr holds)
  judged offers declared checked :=
    same.mp (decides.judged offers declared checked)

theorem Decides.beside {onFirst onRest : Prop}
    (here : Decides onFirst tree table signatures declaring checking
      (.cons site first second third .nil))
    (inRest : onFirst → Decides onRest tree table signatures
      (declaring.walked (.cons site first second third .nil))
      (checking.walked tree table (.cons site first second third .nil)) rest) :
    Decides (onFirst ∧ onRest) tree table signatures declaring checking
      (.cons site first second third rest) := by
  have declaredSplit := Declaring.adds.quiet_beside declaring site first second
    third rest
  have checkedSplit := (Checking.adds tree table).quiet_beside checking site
    first second third rest
  refine ⟨?_, ?_, ?_⟩
  · intro holds
    obtain ⟨one, last⟩ := holds
    exact declaredSplit.mpr ⟨here.declared one, (inRest one).declared last⟩
  · intro offers holds
    obtain ⟨one, last⟩ := holds
    exact checkedSplit.mpr
      ⟨here.checked offers one, (inRest one).checked offers last⟩
  · intro offers declared checked
    obtain ⟨one, last⟩ := declaredSplit.mp declared
    obtain ⟨one', last'⟩ := checkedSplit.mp checked
    have holds := here.judged offers one one'
    exact ⟨holds, (inRest holds).judged offers last last'⟩

theorem Decides.plain {condition onFirst onSecond onThird onRest : Prop}
    (kind : site.node.kind.isPlain = true)
    (inFirst : Decides onFirst tree table signatures (declaring.entered site)
      (checking.entered table site) first)
    (inSecond : Decides onSecond tree table signatures
      ((declaring.entered site).walked first)
      ((checking.entered table site).walked tree table first) second)
    (inThird : Decides onThird tree table signatures
      (((declaring.entered site).walked first).walked second)
      (((checking.entered table site).walked tree table first).walked tree
        table second) third)
    (inRest : Decides onRest tree table signatures
      (((((declaring.entered site).walked first).walked second).walked
        third).left site)
      (((((checking.entered table site).walked tree table first).walked tree
        table second).walked tree table third).left tree table site) rest)
    (split : condition → (declaring.entered site).items = declaring.items ∧
      onFirst ∧ onSecond ∧ onThird ∧ onRest)
    (fits : table.Offers signatures →
      (declaring.entered site).items = declaring.items →
      onFirst → onSecond → onThird → onRest →
      ((((((checking.entered table site).walked tree table first).walked tree
        table second).walked tree table third).objections tree table site = []) ↔
          condition)) :
    Decides condition tree table signatures declaring checking
      (.cons site first second third rest) := by
  obtain ⟨isFunction, _, _, isBlock⟩ := NodeKind.others_of_isPlain kind
  have entering : (checking.entered table site).items = checking.items := by
    rw [Checking.entered_other table checking isFunction isBlock]
  refine ⟨?_, ?_, ?_⟩
  · intro holds
    obtain ⟨named, one, two, three, last⟩ := split holds
    exact (Declaring.quiet_cons declaring site first second third rest).mpr
      ⟨named, inFirst.declared one, inSecond.declared two,
        inThird.declared three, inRest.declared last⟩
  · intro offers holds
    obtain ⟨named, one, two, three, last⟩ := split holds
    have silent := (fits offers named one two three last).mpr holds
    exact (Checking.quiet_cons entering).mpr
      ⟨inFirst.checked offers one, inSecond.checked offers two,
        inThird.checked offers three, silent, inRest.checked offers last⟩
  · intro offers declared checked
    obtain ⟨named, one, two, three, last⟩ :=
      (Declaring.quiet_cons declaring site first second third rest).mp declared
    obtain ⟨one', two', three', silent, last'⟩ :=
      (Checking.quiet_cons entering).mp checked
    exact (fits offers named (inFirst.judged offers one one')
      (inSecond.judged offers two two') (inThird.judged offers three three')
      (inRest.judged offers last last')).mp silent

end

namespace Typing

variable {signatures : Signatures} {context : Context} {forest : Forest}

theorem Expressions.length_eq {types : List Ty}
    (typed : Expressions signatures context forest types) :
    types.length = forest.chain.length := by
  induction typed with
  | nil => rfl
  | cons _ _ _ _ _ _ _ beside => simp [Forest.chain, beside]

theorem Expressions.eq_nil_iff {types : List Ty}
    (typed : Expressions signatures context forest types) :
    forest = .nil ↔ types = [] := by
  cases typed <;> simp

theorem Rule.visible {expression : Expression} {firsts seconds : List Ty}
    {type : Ty} (rule : Rule signatures context expression firsts seconds type)
    {name : String} (use : NodeKind.use? (.expression expression) = some name) :
    (context.type? name).isSome = true := by
  cases rule with
  | constant => cases use
  | identifier visible =>
      cases use
      rw [visible]
      rfl
  | array visible =>
      cases use
      exact visible
  | element visible =>
      cases use
      exact visible
  | call visible =>
      cases use
      exact visible
  | binary => cases use
  | assign => cases use

end Typing

section

variable {tree : Tree} {facts final : Facts} {table : SymbolTable}
  {signatures : Signatures} {context : Context} {function : Option SymbolId}
  {declaring : Declaring} {checking state : Checking} {route : Route}
  {site : Site} {scope : ScopeId} {forest first second third rest : Forest}
  {expression : Expression} {firsts seconds : List Ty}

theorem Leaving.nameObjections (leaving : Leaving tree final table function scope
      state site first second) {name : String} {type : Ty}
    (resolved : final.unresolved.contains site.id = false)
    (typed : (table.resolve scope name).bind table.typeOf? = some type) :
    state.nameObjections table site.id name = [] := by
  obtain ⟨symbol, hit, _⟩ := Option.bind_eq_some_iff.mp typed
  simp only [Checking.nameObjections, leaving.unresolved, leaving.current,
    resolved, hit, Bool.false_eq_true, if_false, Option.isNone_some]

theorem Poised.objections_eq_nil_iff (poised : Poised tree facts final table
      context function declaring checking route
      (.cons site first second third rest))
    (leaving : Leaving tree final table function checking.current state site
      first second)
    (offers : table.Offers signatures)
    (kind : site.node.kind = .expression expression)
    (takes : expression.Takes firsts.length seconds.length)
    (onFirst : (Checking.viewing final checking.current).reading table first =
      firsts.map some)
    (onSecond : (Checking.viewing final checking.current).reading table second =
      seconds.map some)
    (visible : ∀ name, site.node.kind.use? = some name →
      (context.type? name).isSome = true) :
    state.objections tree table site = [] ↔
      ∃ type, Typing.Rule signatures context expression firsts seconds type := by
  have seen {name : String} (use : site.node.kind.use? = some name) :
      ∃ type, context.type? name = some type :=
    Option.isSome_iff_exists.mp (visible name use)
  have readFirst := leaving.onFirst
  have readSecond := leaving.onSecond
  rw [onFirst] at readFirst
  rw [onSecond] at readSecond
  cases expression with
  | constant value =>
      obtain ⟨noFirst, noSecond⟩ := takes
      cases List.eq_nil_of_length_eq_zero noFirst
      cases List.eq_nil_of_length_eq_zero noSecond
      simp only [Checking.objections, kind, true_iff]
      exact ⟨.integer, .constant⟩
  | identifier name =>
      obtain ⟨noFirst, noSecond⟩ := takes
      cases List.eq_nil_of_length_eq_zero noFirst
      cases List.eq_nil_of_length_eq_zero noSecond
      have use : site.node.kind.use? = some name :=
        congrArg NodeKind.use? kind
      obtain ⟨type, known⟩ := seen use
      obtain ⟨resolved, typed⟩ := poised.visible use known
      simp only [Checking.objections, kind, Checking.complaints_eq_nil,
        leaving.nameObjections resolved typed, true_iff]
      exact ⟨type, .identifier known⟩
  | arrayIdentifier name =>
      obtain ⟨atMost, noSecond⟩ := takes
      cases List.eq_nil_of_length_eq_zero noSecond
      have use : site.node.kind.use? = some name :=
        congrArg NodeKind.use? kind
      obtain ⟨type, known⟩ := seen use
      obtain ⟨resolved, typed⟩ := poised.visible use known
      simp only [Checking.objections, kind, Checking.complaints_eq_nil,
        leaving.nameObjections resolved typed, true_iff]
      rcases firsts with _ | ⟨index, _ | ⟨more, others⟩⟩
      · exact ⟨.integerArray, .array (visible name use)⟩
      · exact ⟨.integer, .element (visible name use)⟩
      · simp at atMost
  | call name =>
      cases List.eq_nil_of_length_eq_zero takes
      have use : site.node.kind.use? = some name :=
        congrArg NodeKind.use? kind
      obtain ⟨type, known⟩ := seen use
      obtain ⟨resolved, _⟩ := poised.visible use known
      rw [← leaving.unresolved] at resolved
      simp only [Checking.objections, kind, Checking.complaints_eq_nil,
        Checking.callObjections_eq_nil resolved (leaving.arguments.trans onFirst),
        offers name]
      constructor
      · rintro ⟨signature, found, rfl⟩
        exact ⟨signature.result, .call (visible name use) found⟩
      · rintro ⟨_, rule⟩
        cases rule with
        | call _ found => exact ⟨_, found, rfl⟩
  | binary op =>
      obtain ⟨oneFirst, oneSecond⟩ := takes
      obtain ⟨left, rfl⟩ := List.length_eq_one_iff.mp oneFirst
      obtain ⟨right, rfl⟩ := List.length_eq_one_iff.mp oneSecond
      simp only [Checking.objections, kind, Checking.complaints_eq_nil,
        Option.toList_eq_nil_iff, readFirst, readSecond]
      refine Checking.binaryObjection?_eq_none.trans ⟨?_, ?_⟩
      · rintro ⟨rfl, value⟩
        exact ⟨.integer, .binary value⟩
      · rintro ⟨_, rule⟩
        cases rule with
        | binary value => exact ⟨rfl, value⟩
  | assign =>
      obtain ⟨oneFirst, oneSecond⟩ := takes
      obtain ⟨left, rfl⟩ := List.length_eq_one_iff.mp oneFirst
      obtain ⟨right, rfl⟩ := List.length_eq_one_iff.mp oneSecond
      simp only [Checking.objections, kind, Checking.complaints_eq_nil,
        Option.toList_eq_nil_iff, readFirst, readSecond]
      refine Checking.assignmentObjection?_eq_none.trans ⟨?_, ?_⟩
      · rintro ⟨rfl, value⟩
        exact ⟨left, .assign value⟩
      · rintro ⟨_, rule⟩
        cases rule with
        | assign value => exact ⟨rfl, value⟩

theorem Poised.siteTy_of_rule (poised : Poised tree facts final table context
      function declaring checking route (.cons site first second third rest))
    (leaving : Leaving tree final table function checking.current state site
      first second)
    (offers : table.Offers signatures)
    (kind : site.node.kind = .expression expression) {type : Ty}
    (onFirst : (Checking.viewing final checking.current).reading table first =
      firsts.map some)
    (absent : first = .nil ↔ firsts = [])
    (rule : Typing.Rule signatures context expression firsts seconds type) :
    (Checking.viewing final checking.current).siteTy table site =
      some type := by
  have typed := leaving.typed
  have readFirst := leaving.onFirst
  rw [onFirst] at readFirst
  have present := leaving.absent.trans absent
  cases rule with
  | constant =>
      simp only [Checking.gained, kind] at typed
      simp only [Checking.siteTy, kind]
      exact typed
  | @identifier name _ visible =>
      have use : site.node.kind.use? = some name :=
        congrArg NodeKind.use? kind
      obtain ⟨resolved, known⟩ := poised.visible use visible
      simp only [Checking.siteTy, kind, Checking.nameType, Checking.viewing,
        resolved, Bool.false_eq_true, if_false, known]
  | array =>
      have empty := Option.isNone_iff_eq_none.mp (present.mpr rfl)
      simp only [Checking.siteTy, kind, empty]
      rfl
  | element =>
      simp only [Checking.siteTy, kind]
      cases slot : site.node.first with
      | none => simp [slot] at present
      | some id => rfl
  | @call name _ visible found =>
      have use : site.node.kind.use? = some name :=
        congrArg NodeKind.use? kind
      obtain ⟨_, known⟩ := Option.isSome_iff_exists.mp visible
      obtain ⟨resolved, _⟩ := poised.visible use known
      rw [← leaving.unresolved] at resolved
      rw [Checking.gained_call kind resolved, offers, found] at typed
      simp only [Checking.siteTy, kind]
      exact typed
  | binary =>
      simp only [Checking.gained, kind] at typed
      simp only [Checking.siteTy, kind]
      exact typed
  | assign =>
      simp only [Checking.gained, kind, readFirst] at typed
      simp only [Checking.siteTy, kind]
      exact typed

/-- The types that the rules give to a chain are those that it is read with. -/
def Reads (final : Facts) (table : SymbolTable) (signatures : Signatures)
    (context : Context) (scope : ScopeId) (forest : Forest) : Prop :=
  table.Offers signatures → ∀ types,
    Typing.Expressions signatures context forest types →
    (Checking.viewing final scope).reading table forest = types.map some

theorem Reads.unique (reads : Reads final table signatures context scope forest)
    (offers : table.Offers signatures) {types others : List Ty}
    (typed : Typing.Expressions signatures context forest types)
    (again : Typing.Expressions signatures context forest others) :
    types = others :=
  (List.map_inj_right fun _ _ => Option.some.inj).mp
    ((reads offers types typed).symm.trans (reads offers others again))

/-- The passes do with a chain of expressions what the rules say. -/
structure Matches (tree : Tree) (final : Facts) (table : SymbolTable)
    (signatures : Signatures) (context : Context) (scope : ScopeId)
    (declaring : Declaring) (checking : Checking) (forest : Forest) :
    Prop where
  decides : Decides
    (∃ types, Typing.Expressions signatures context forest types) tree table
    signatures declaring checking forest
  reads : Reads final table signatures context scope forest

theorem Poised.named_iff (poised : Poised tree facts final table context
      function declaring checking route (.cons site first second third rest))
    (kind : site.node.kind.isPlain = true) :
    (declaring.entered site).items = declaring.items ↔
      ∀ name, site.node.kind.use? = some name →
        (context.type? name).isSome = true := by
  cases use : site.node.kind.use? with
  | none => simp [Declaring.entered_plain declaring kind use]
  | some name =>
      rw [poised.within.use use]
      simp

theorem Forest.Expressions.matches (shaped : forest.Expressions)
    (signatures : Signatures)
    (poised : Poised tree facts final table context function declaring checking
      route forest) :
    Matches tree final table signatures context checking.current declaring
      checking forest := by
  induction shaped generalizing declaring checking route with
  | nil =>
      refine ⟨.nil ⟨[], .nil⟩, ?_⟩
      intro offers types typed
      cases typed
      rfl
  | @cons site first second rest expression kind takes _ _ _ inFirst inSecond
      beside =>
      have isPlain := NodeKind.isPlain_expression kind
      obtain ⟨toFirst, toSecond, _, toRest⟩ := poised.plain isPlain
      obtain ⟨current1, current2, _, _, current4⟩ := poised.currents isPlain
      have leaving := poised.leaving isPlain
      have one := inFirst toFirst
      have two := inSecond toSecond
      have last := beside toRest
      rw [current1] at one
      rw [current2] at two
      rw [current4] at last
      constructor
      · refine .plain isPlain one.decides two.decides (.nil trivial) last.decides
          ?_ ?_
        · rintro ⟨types, typed⟩
          cases typed with
          | cons found onFirst onSecond rule onRest =>
              cases kind.symm.trans found
              refine ⟨(poised.named_iff isPlain).mpr ?_, ⟨_, onFirst⟩,
                ⟨_, onSecond⟩, trivial, ⟨_, onRest⟩⟩
              intro name use
              rw [kind] at use
              exact rule.visible use
        · rintro offers named ⟨firsts, onFirst⟩ ⟨seconds, onSecond⟩ _
            ⟨others, onRest⟩
          rw [← onFirst.length_eq, ← onSecond.length_eq] at takes
          have visible := (poised.named_iff isPlain).mp named
          refine (poised.objections_eq_nil_iff leaving offers kind takes
            (one.reads offers _ onFirst) (two.reads offers _ onSecond)
            visible).trans ⟨?_, ?_⟩
          · rintro ⟨type, rule⟩
            exact ⟨type :: others, .cons kind onFirst onSecond rule onRest⟩
          · rintro ⟨types, typed⟩
            cases typed with
            | cons found onFirst' onSecond' rule onRest' =>
                cases kind.symm.trans found
                cases one.reads.unique offers onFirst onFirst'
                cases two.reads.unique offers onSecond onSecond'
                exact ⟨_, rule⟩
      · intro offers types typed
        cases typed with
        | cons found onFirst onSecond rule onRest =>
            cases kind.symm.trans found
            have here := poised.siteTy_of_rule leaving offers kind
              (one.reads offers _ onFirst) onFirst.eq_nil_iff rule
            exact congrArg₂ List.cons here (last.reads offers _ onRest)

end

end CMinusAnalysis
