import CMinusAnalysis.Proofs.Tree.Unfolding

namespace CMinusAnalysis

/-! Shapes of forests. Nodes of any kind may stand anywhere; these predicates
say which forests keep to the places that functions, parameters and variables
have in a program. -/

namespace NodeKind

def isFunction : NodeKind → Bool
  | .declaration (.function _ _) => true
  | _ => false

def isVariable : NodeKind → Bool
  | .declaration (.variable _ _) | .declaration (.arrayVariable _ _ _) => true
  | _ => false

def isParameter : NodeKind → Bool
  | .parameter _ => true
  | _ => false

def isBlock : NodeKind → Bool
  | .statement .compound => true
  | _ => false

def use? : NodeKind → Option String
  | .expression (.identifier name) | .expression (.arrayIdentifier name)
  | .expression (.call name) => some name
  | _ => none

variable {kind : NodeKind}

theorem isFunction_of_isVariable (fits : kind.isVariable = true) :
    kind.isFunction = false := by
  unfold isVariable at fits
  split at fits
  · rfl
  · rfl
  · cases fits

theorem isFunction_of_isParameter (fits : kind.isParameter = true) :
    kind.isFunction = false := by
  unfold isParameter at fits
  split at fits
  · rfl
  · cases fits

theorem isFunction_of_isBlock (fits : kind.isBlock = true) :
    kind.isFunction = false := by
  unfold isBlock at fits
  split at fits
  · rfl
  · cases fits

theorem isBlock_of_isFunction (fits : kind.isFunction = true) :
    kind.isBlock = false := by
  unfold isFunction at fits
  split at fits
  · rfl
  · cases fits

theorem isBlock_of_use? {name : String} (use : kind.use? = some name) :
    kind.isBlock = false := by
  unfold use? at use
  split at use
  · rfl
  · rfl
  · rfl
  · cases use

theorem use?_of_isVariable (fits : kind.isVariable = true) :
    kind.use? = none := by
  unfold isVariable at fits
  split at fits
  · rfl
  · rfl
  · cases fits

theorem use?_of_isParameter (fits : kind.isParameter = true) :
    kind.use? = none := by
  unfold isParameter at fits
  split at fits
  · rfl
  · cases fits

theorem use?_of_isBlock (fits : kind.isBlock = true) : kind.use? = none := by
  unfold isBlock at fits
  split at fits
  · rfl
  · cases fits

end NodeKind

namespace Forest

/-- A chain of nodes without children, each of one of the kinds. -/
inductive Leaves (kinds : NodeKind → Bool) : Forest → Prop
  | nil : Leaves kinds .nil
  | cons {site : Site} {rest : Forest} (kind : kinds site.node.kind = true)
      (tail : Leaves kinds rest) : Leaves kinds (.cons site .nil .nil .nil rest)

/-- Every function has a chain of childless parameters in its first slot,
nothing or a block in its second, and nothing in its third. All other nodes
are as they please. -/
inductive FunctionsShaped : Forest → Prop
  | nil : FunctionsShaped .nil
  | missing {fault : Fault} : FunctionsShaped (.missing fault)
  | other {site : Site} {first second third rest : Forest}
      (kind : site.node.kind.isFunction = false)
      (inFirst : FunctionsShaped first) (inSecond : FunctionsShaped second)
      (inThird : FunctionsShaped third) (inRest : FunctionsShaped rest) :
      FunctionsShaped (.cons site first second third rest)
  | bodiless {site : Site} {parameters rest : Forest}
      (kind : site.node.kind.isFunction = true)
      (declared : parameters.Leaves NodeKind.isParameter)
      (inRest : FunctionsShaped rest) :
      FunctionsShaped (.cons site parameters .nil .nil rest)
  | function {site body : Site}
      {parameters first second third beside rest : Forest}
      (kind : site.node.kind.isFunction = true)
      (declared : parameters.Leaves NodeKind.isParameter)
      (block : body.node.kind.isBlock = true)
      (inFirst : FunctionsShaped first) (inSecond : FunctionsShaped second)
      (inThird : FunctionsShaped third) (inBeside : FunctionsShaped beside)
      (inRest : FunctionsShaped rest) :
      FunctionsShaped (.cons site parameters
        (.cons body first second third beside) .nil rest)

theorem FunctionsShaped.leaf {site : Site}
    (kind : site.node.kind.isFunction = false) :
    (Forest.cons site .nil .nil .nil .nil).FunctionsShaped :=
  .other kind .nil .nil .nil .nil

/-- Parameters stand in the first slots of functions and nowhere else, in
chains of childless ones. -/
inductive ParametersPlaced : Forest → Prop
  | nil : ParametersPlaced .nil
  | missing {fault : Fault} : ParametersPlaced (.missing fault)
  | other {site : Site} {first second third rest : Forest}
      (function : site.node.kind.isFunction = false)
      (parameter : site.node.kind.isParameter = false)
      (inFirst : ParametersPlaced first) (inSecond : ParametersPlaced second)
      (inThird : ParametersPlaced third) (inRest : ParametersPlaced rest) :
      ParametersPlaced (.cons site first second third rest)
  | function {site : Site} {parameters second third rest : Forest}
      (kind : site.node.kind.isFunction = true)
      (declared : parameters.Leaves NodeKind.isParameter)
      (inSecond : ParametersPlaced second) (inThird : ParametersPlaced third)
      (inRest : ParametersPlaced rest) :
      ParametersPlaced (.cons site parameters second third rest)

/-- Where a chain of siblings hangs. -/
inductive Place where
  | chain (outermost : Bool)
  | locals

/-- Functions are well shaped, parameters stand nowhere but in them, and a
variable stands in the outermost chain or in the first slot of a block, where
it is among childless variables only. -/
inductive Tidy : Place → Forest → Prop
  | nil {outermost : Bool} : Tidy (.chain outermost) .nil
  | missing {outermost : Bool} {fault : Fault} :
      Tidy (.chain outermost) (.missing fault)
  | declared {forest : Forest} (leaves : forest.Leaves NodeKind.isVariable) :
      Tidy .locals forest
  | undeclared {forest : Forest} (tidy : Tidy (.chain false) forest) :
      Tidy .locals forest
  | outermost {site : Site} {first second third rest : Forest}
      (kind : site.node.kind.isVariable = true)
      (inFirst : Tidy (.chain false) first)
      (inSecond : Tidy (.chain false) second)
      (inThird : Tidy (.chain false) third)
      (inRest : Tidy (.chain true) rest) :
      Tidy (.chain true) (.cons site first second third rest)
  | block {outermost : Bool} {site : Site} {first second third rest : Forest}
      (kind : site.node.kind.isBlock = true)
      (inFirst : Tidy .locals first) (inSecond : Tidy (.chain false) second)
      (inThird : Tidy (.chain false) third)
      (inRest : Tidy (.chain outermost) rest) :
      Tidy (.chain outermost) (.cons site first second third rest)
  | bodiless {outermost : Bool} {site : Site} {parameters rest : Forest}
      (kind : site.node.kind.isFunction = true)
      (declared : parameters.Leaves NodeKind.isParameter)
      (inRest : Tidy (.chain outermost) rest) :
      Tidy (.chain outermost) (.cons site parameters .nil .nil rest)
  | function {outermost : Bool} {site body : Site}
      {parameters first second third beside rest : Forest}
      (kind : site.node.kind.isFunction = true)
      (declared : parameters.Leaves NodeKind.isParameter)
      (block : body.node.kind.isBlock = true)
      (inFirst : Tidy .locals first) (inSecond : Tidy (.chain false) second)
      (inThird : Tidy (.chain false) third)
      (inBeside : Tidy (.chain false) beside)
      (inRest : Tidy (.chain outermost) rest) :
      Tidy (.chain outermost) (.cons site parameters
        (.cons body first second third beside) .nil rest)
  | other {outermost : Bool} {site : Site}
      {first second third rest : Forest}
      (function : site.node.kind.isFunction = false)
      (variable' : site.node.kind.isVariable = false)
      (parameter : site.node.kind.isParameter = false)
      (block : site.node.kind.isBlock = false)
      (inFirst : Tidy (.chain false) first)
      (inSecond : Tidy (.chain false) second)
      (inThird : Tidy (.chain false) third)
      (inRest : Tidy (.chain outermost) rest) :
      Tidy (.chain outermost) (.cons site first second third rest)

variable {kinds : NodeKind → Bool} {forest : Forest}

theorem Leaves.functionsShaped (leaves : forest.Leaves kinds)
    (apart : ∀ kind, kinds kind = true → kind.isFunction = false) :
    forest.FunctionsShaped := by
  induction leaves with
  | nil => exact .nil
  | cons kind tail induction =>
      exact .other (apart _ kind) .nil .nil .nil induction

theorem Tidy.functionsShaped {place : Place} (tidy : forest.Tidy place) :
    forest.FunctionsShaped := by
  induction tidy with
  | nil => exact .nil
  | missing => exact .missing
  | declared leaves =>
      exact leaves.functionsShaped fun _ => NodeKind.isFunction_of_isVariable
  | undeclared _ induction => exact induction
  | outermost kind _ _ _ _ inFirst inSecond inThird inRest =>
      exact .other (NodeKind.isFunction_of_isVariable kind) inFirst inSecond inThird
        inRest
  | block kind _ _ _ _ inFirst inSecond inThird inRest =>
      exact .other (NodeKind.isFunction_of_isBlock kind) inFirst inSecond inThird inRest
  | bodiless kind declared _ inRest => exact .bodiless kind declared inRest
  | function kind declared block _ _ _ _ _ inFirst inSecond inThird inBeside
      inRest =>
      exact .function kind declared block inFirst inSecond inThird inBeside
        inRest
  | other function _ _ _ _ _ _ _ inFirst inSecond inThird inRest =>
      exact .other function inFirst inSecond inThird inRest

theorem FunctionsShaped.parts {site : Site} {first second third rest : Forest}
    (shaped : (Forest.cons site first second third rest).FunctionsShaped) :
    first.FunctionsShaped ∧ second.FunctionsShaped ∧ third.FunctionsShaped ∧
      rest.FunctionsShaped := by
  cases shaped with
  | other _ inFirst inSecond inThird inRest =>
      exact ⟨inFirst, inSecond, inThird, inRest⟩
  | bodiless _ declared inRest =>
      exact ⟨declared.functionsShaped fun _ =>
        NodeKind.isFunction_of_isParameter, .nil, .nil, inRest⟩
  | function _ declared block inFirst inSecond inThird inBeside inRest =>
      exact ⟨declared.functionsShaped fun _ =>
          NodeKind.isFunction_of_isParameter,
        .other (NodeKind.isFunction_of_isBlock block) inFirst inSecond inThird
          inBeside, .nil, inRest⟩

end Forest

/-- The function whose body the route leads to, with the route to it. -/
def Route.bodyOf? : Route → Option (Route × Site)
  | (site, .second) :: route =>
      if site.node.kind.isFunction then some (route, site) else none
  | _ => none

/-- A function has a scope of its own, and so has a block, unless it is the body
of a function. -/
def opensScope (entry : Route × Site) : Bool :=
  entry.2.node.kind.isFunction ||
    entry.2.node.kind.isBlock && entry.1.bodyOf?.isNone

theorem Route.bodyOf?_eq_some_iff {route above : Route} {function : Site} :
    route.bodyOf? = some (above, function) ↔
      route = (function, .second) :: above ∧
        function.node.kind.isFunction = true := by
  unfold bodyOf?
  split
  · next site below =>
      split
      · next kind =>
          simp only [Option.some.injEq, Prod.mk.injEq, List.cons.injEq,
            and_true]
          constructor
          · rintro ⟨rfl, rfl⟩
            exact ⟨⟨rfl, rfl⟩, kind⟩
          · rintro ⟨⟨rfl, rfl⟩, _⟩
            exact ⟨rfl, rfl⟩
      · next other =>
          simp only [reduceCtorEq, List.cons.injEq, Prod.mk.injEq, and_true,
            false_iff, not_and]
          rintro ⟨rfl, rfl⟩
          exact other
  · next other =>
      simp only [reduceCtorEq, false_iff, not_and]
      rintro rfl
      exact (other _ _ rfl).elim

theorem Route.bodyOf?_other {site : Site} {route : Route}
    (other : site.node.kind.isFunction = false) (link : Link) :
    bodyOf? ((site, link) :: route) = none := by
  cases link <;> simp [bodyOf?, other]

end CMinusAnalysis
