import CMinusAnalysis.Proofs.Checking.Reports
import CMinusAnalysis.Proofs.Typing.Inference

namespace CMinusAnalysis

namespace Checking

variable {tree : Tree} {table : SymbolTable} {known : Analysis}
  {state : Checking} {route : Route} {site : Site}

/-- The pass is in the nearest function above, over what was known when it
began. -/
structure Enclosed (known : Analysis) (state : Checking) (route : Route) :
    Prop where
  supported : state.Supported known.table
  follows : Follows known.facts state
  function : state.function = known.functionAround route.ancestors

namespace Enclosed

theorem below (enclosed : Enclosed known state route) (site : Site) :
    (state.entered known.table site).function =
      known.functionAround (site :: route.ancestors) := by
  rw [← Route.ancestors_child site (show Link.first ≠ .sibling by decide)]
  cases function : site.node.kind.isFunction with
  | false =>
      rw [Analysis.functionAround_other function,
        (functions_entered function).1, enclosed.function]
  | true =>
      rw [Analysis.functionAround_function function (by decide)]
      unfold NodeKind.isFunction at function
      split at function
      · next kind =>
          simp only [entered, kind, functionSymbol?, Analysis.symbolOf?,
            enclosed.follows.functions]
      · cases function

theorem entered (enclosed : Enclosed known state route) (site : Site)
    {link : Link} (down : link ≠ .sibling) :
    Enclosed known (state.entered known.table site)
      ((site, link) :: route) where
  supported := enclosed.supported.entered site
  follows := follows_entered known.table enclosed.follows site
  function := by
    rw [Route.ancestors_child site down]
    exact enclosed.below site

theorem walked (tree : Tree) (enclosed : Enclosed known state route)
    (forest : Forest) :
    Enclosed known (state.walked tree known.table forest) route where
  supported := supported_walked tree enclosed.supported forest
  follows := follows_walked enclosed.follows forest
  function := by
    rw [function_walked, enclosed.function]

theorem left (tree : Tree) (enclosed : Enclosed known state route)
    (site : Site) (first second third : Forest) :
    let last := (((state.entered known.table site).walked tree known.table
      first).walked tree known.table second).walked tree known.table third
    Enclosed known (last.left tree known.table site) route := by
  intro last
  have down : Link.first ≠ .sibling := by decide
  have children := (((enclosed.entered site down).walked tree first).walked
    tree second).walked tree third
  have same (state : Checking) (forest : Forest) :=
    functions_walked tree known.table state forest
  refine ⟨children.supported.left site,
    follows_left tree known.table children.follows site, ?_⟩
  rw [← enclosed.function]
  apply (functions_left _ _).1
  · rw [(same _ third).1, (same _ second).1, (same _ first).1]
  · rw [(same _ third).2, (same _ second).2, (same _ first).2]

theorem onward {first second third : Forest}
    (enclosed : Enclosed known state route) :
    let inside := state.entered known.table site
    let afterFirst := inside.walked tree known.table first
    let afterSecond := afterFirst.walked tree known.table second
    let afterThird := afterSecond.walked tree known.table third
    Enclosed known inside ((site, .first) :: route) ∧
      Enclosed known afterFirst ((site, .second) :: route) ∧
      Enclosed known afterSecond ((site, .third) :: route) ∧
      Enclosed known (afterThird.left tree known.table site)
        ((site, .sibling) :: route) := by
  intro inside afterFirst afterSecond afterThird
  refine ⟨enclosed.entered site (by decide),
    (enclosed.entered site (by decide)).walked tree first,
    ((enclosed.entered site (by decide)).walked tree first).walked tree second,
    ?_⟩
  obtain ⟨supported, follows, function⟩ :=
    enclosed.left tree site first second third
  exact ⟨supported, follows, function⟩

theorem of_reaches {forest part : Forest} {found : Checking} {along : Route}
    (enclosed : Enclosed known state route)
    (reaches : Forest.Reaches (Checking.entered known.table)
      (Checking.left tree known.table) state route forest found along part) :
    Enclosed known found along :=
  reaches.invariant (fun state route _ => Enclosed known state route) onward
    enclosed

end Enclosed

/-- What is wrong with a return from a function of the type, given the slot of
the value and the type of the value, if it is known. -/
inductive ReturnFlaw (expected : Ty) (value : Option NodeId)
    (found : Option Ty) : DiagnosticKind → Prop
  | valueInVoid (void : expected = .void) (present : value.isSome = true) :
      ReturnFlaw expected value found .returnValueInVoid
  | missingValue (result : expected ≠ .void) (absent : value = none) :
      ReturnFlaw expected value found .missingReturnValue
  | mismatch {type : Ty} (result : expected ≠ .void)
      (known : found = some type) (differs : type ≠ expected) :
      ReturnFlaw expected value found (.returnTypeMismatch expected type)

/-- Leaving the return answers to the function: the visit does nothing but to
report what is wrong with the value, if anything is. -/
structure AnswersTo (tree : Tree) (table : SymbolTable) (state : Checking)
    (site : Site) (function : Symbol) (found : Option Ty) : Prop where
  flawed : ∀ {kind : DiagnosticKind},
    ReturnFlaw function.type site.node.first found kind →
    state.step tree table (.leave site) = .ok { state with
      diagnostics := state.diagnostics.add
        ⟨kind, site.node.line, some function.name⟩ }
  flawless : (∀ kind, ¬ ReturnFlaw function.type site.node.first found kind) →
    state.step tree table (.leave site) = .ok state

theorem returnObjection?_eq_some_iff {expected : Ty} {value : Option NodeId}
    {found : Option Ty} (absent : value = none → found = none)
    {kind : DiagnosticKind} :
    returnObjection? expected value.isSome found = some kind ↔
      ReturnFlaw expected value found kind := by
  constructor
  · intro objects
    unfold returnObjection? at objects
    split at objects
    · next present =>
        cases objects
        exact .valueInVoid rfl present
    · cases objects
    · next result nothing =>
        cases objects
        exact .missingValue result (by simpa using nothing)
    · next result present =>
        split at objects
        · split at objects
          · next differs =>
              cases objects
              exact .mismatch result rfl differs
          · cases objects
        · cases objects
  · intro flaw
    cases flaw with
    | valueInVoid void present => simp [returnObjection?, void, present]
    | missingValue result nothing =>
        cases expected <;> simp_all [returnObjection?]
    | @mismatch type result known differs =>
        cases value with
        | none => simp [known] at absent
        | some id => cases expected <;> simp_all [returnObjection?]

theorem returnObjection?_of_void (expected : Ty) (hasValue : Bool)
    (found : Option Ty) :
    returnObjection? expected hasValue
        (if expected = .void then none else found) =
      returnObjection? expected hasValue found := by
  cases expected <;> cases hasValue <;> rfl

theorem left_ret (tree : Tree) (table : SymbolTable) (state : Checking)
    (ret : site.node.kind = .statement .ret) :
    state.left tree table site =
      state.reported (state.objections tree table site) := by
  simp only [left, outside, gained, ret, typed]

theorem answersTo (supported : state.Supported table)
    (linked : tree.Linked site) (ret : site.node.kind = .statement .ret)
    {function : Symbol} (enclosing : state.enclosing? table = some function) :
    state.AnswersTo tree table site function
      (state.operand tree table site.node.first) := by
  have leaves := step_leave supported linked
  rw [left_ret tree table state ret] at leaves
  have absent : site.node.first = none →
      state.operand tree table site.node.first = none := by
    intro nothing
    rw [nothing]
    rfl
  have objections : state.objections tree table site =
      complaints site.node.line (some function.name)
        (returnObjection? function.type site.node.first.isSome
          (state.operand tree table site.node.first)).toList := by
    simp only [Checking.objections, ret, enclosing, returnObjections,
      returnObjection?_of_void]
  rw [objections] at leaves
  constructor
  · intro kind flaw
    rw [(returnObjection?_eq_some_iff absent).mpr flaw] at leaves
    exact leaves
  · intro flawless
    have silent : returnObjection? function.type site.node.first.isSome
        (state.operand tree table site.node.first) = none := by
      apply Option.eq_none_iff_forall_ne_some.mpr
      intro kind objects
      exact flawless kind ((returnObjection?_eq_some_iff absent).mp objects)
    rw [silent] at leaves
    exact leaves

end Checking

end CMinusAnalysis
