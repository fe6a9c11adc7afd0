import CMinusAnalysis.Proofs.Tree.Shape

namespace CMinusAnalysis

/-! The grammar of programs. A tree may hold nodes of any kind anywhere; these
predicates pick the forests in which every node stands where the grammar has it
and has the children that the grammar gives it. Operands are chains that are to
have one member, or one at most. -/

/-- How many operands an expression takes in its first slot and in its second.
An array has an index or none, and a call any number of arguments. -/
def Expression.Takes : Expression → Nat → Nat → Prop
  | .constant _, first, second => first = 0 ∧ second = 0
  | .identifier _, first, second => first = 0 ∧ second = 0
  | .arrayIdentifier _, first, second => first ≤ 1 ∧ second = 0
  | .call _, _, second => second = 0
  | .binary _, first, second => first = 1 ∧ second = 1
  | .assign, first, second => first = 1 ∧ second = 1

/-- How many operands a statement takes in its first slot and in its second,
where it has no statements inside. -/
def Statement.Takes : Statement → Nat → Nat → Prop
  | .ret, first, second => first ≤ 1 ∧ second = 0
  | .assign, first, second => first = 1 ∧ second = 1
  | .write, first, second => first = 1 ∧ second = 0
  | _, _, _ => False

namespace Forest

inductive Expressions : Forest → Prop
  | nil : Expressions .nil
  | cons {site : Site} {first second rest : Forest} {expression : Expression}
      (kind : site.node.kind = .expression expression)
      (takes : expression.Takes first.chain.length second.chain.length)
      (inFirst : Expressions first) (inSecond : Expressions second)
      (beside : Expressions rest) :
      Expressions (.cons site first second .nil rest)

inductive Statements : Forest → Prop
  | nil : Statements .nil
  | expression {site : Site} {first second third rest : Forest}
      (alone : Expressions (.cons site first second third .nil))
      (beside : Statements rest) :
      Statements (.cons site first second third rest)
  | block {site : Site} {locals body rest : Forest}
      (kind : site.node.kind = .statement .compound)
      (declared : locals.Leaves NodeKind.isVariable)
      (inside : Statements body) (beside : Statements rest) :
      Statements (.cons site locals body .nil rest)
  | test {site : Site} {condition taken other rest : Forest}
      {statement : Statement} (kind : site.node.kind = .statement statement)
      (tests : statement = .conditional ∨ statement = .alternative ∨
        statement = .loop)
      (before : Expressions condition) (atMost : condition.chain.length ≤ 1)
      (first : Statements taken) (oneFirst : taken.chain.length ≤ 1)
      (second : Statements other) (oneSecond : other.chain.length ≤ 1)
      (absent : statement ≠ .alternative → other = .nil)
      (beside : Statements rest) :
      Statements (.cons site condition taken other rest)
  | command {site : Site} {first second rest : Forest} {statement : Statement}
      (kind : site.node.kind = .statement statement)
      (takes : statement.Takes first.chain.length second.chain.length)
      (inFirst : Expressions first) (inSecond : Expressions second)
      (beside : Statements rest) :
      Statements (.cons site first second .nil rest)

/-- The outermost chain of a program. -/
inductive Program : Forest → Prop
  | nil : Program .nil
  | global {site : Site} {rest : Forest}
      (kind : site.node.kind.isVariable = true) (beside : Program rest) :
      Program (.cons site .nil .nil .nil rest)
  | bodiless {site : Site} {parameters rest : Forest}
      (kind : site.node.kind.isFunction = true)
      (declared : parameters.Leaves NodeKind.isParameter)
      (beside : Program rest) : Program (.cons site parameters .nil .nil rest)
  | function {site body : Site} {parameters locals statements rest : Forest}
      (kind : site.node.kind.isFunction = true)
      (declared : parameters.Leaves NodeKind.isParameter)
      (block : body.node.kind = .statement .compound)
      (declaredInside : locals.Leaves NodeKind.isVariable)
      (inside : Statements statements) (beside : Program rest) :
      Program (.cons site parameters (.cons body locals statements .nil .nil)
        .nil rest)

end Forest

namespace NodeKind

/-- Kinds that declare no name and open no scope. -/
def isPlain : NodeKind → Bool
  | .expression _ => true
  | .statement form => form ≠ .compound
  | _ => false

variable {kind : NodeKind}

theorem isPlain_expression {expression : Expression}
    (found : kind = .expression expression) : kind.isPlain = true := by
  rw [found]
  rfl

theorem isPlain_statement {statement : Statement}
    (found : kind = .statement statement) (other : statement ≠ .compound) :
    kind.isPlain = true := by
  rw [found]
  exact decide_eq_true other

theorem isBlock_statement (found : kind = .statement .compound) :
    kind.isBlock = true := by
  rw [found]
  rfl

theorem isParameter_of_isVariable (fits : kind.isVariable = true) :
    kind.isParameter = false := by
  unfold isVariable at fits
  split at fits
  · rfl
  · rfl
  · cases fits

theorem isParameter_of_isBlock (fits : kind.isBlock = true) :
    kind.isParameter = false := by
  unfold isBlock at fits
  split at fits
  · rfl
  · cases fits

theorem others_of_isPlain (plain : kind.isPlain = true) :
    kind.isFunction = false ∧ kind.isVariable = false ∧
      kind.isParameter = false ∧ kind.isBlock = false := by
  rcases kind with declaration | statement | expression | parameter
  · cases plain
  · cases statement with
    | compound => cases plain
    | _ => exact ⟨rfl, rfl, rfl, rfl⟩
  · exact ⟨rfl, rfl, rfl, rfl⟩
  · cases plain

end NodeKind

namespace Forest

/-- Plain nodes and blocks with their variables: what stands inside a
function. -/
inductive Inner : Forest → Prop
  | nil : Inner .nil
  | plain {site : Site} {first second third rest : Forest}
      (kind : site.node.kind.isPlain = true)
      (inFirst : Inner first) (inSecond : Inner second) (inThird : Inner third)
      (inRest : Inner rest) : Inner (.cons site first second third rest)
  | block {site : Site} {locals body rest : Forest}
      (kind : site.node.kind.isBlock = true)
      (declared : locals.Leaves NodeKind.isVariable)
      (inBody : Inner body) (inRest : Inner rest) :
      Inner (.cons site locals body .nil rest)

variable {forest : Forest}

theorem Expressions.inner (shaped : forest.Expressions) : forest.Inner := by
  induction shaped with
  | nil => exact .nil
  | cons kind _ _ _ _ inFirst inSecond beside =>
      exact .plain (NodeKind.isPlain_expression kind) inFirst inSecond .nil
        beside

theorem Statements.inner (shaped : forest.Statements) : forest.Inner := by
  induction shaped with
  | nil => exact .nil
  | expression alone _ beside =>
      cases alone.inner with
      | plain kind inFirst inSecond inThird =>
          exact .plain kind inFirst inSecond inThird beside
      | block kind declared inBody => exact .block kind declared inBody beside
  | block kind declared _ _ inside beside =>
      exact .block (NodeKind.isBlock_statement kind) declared inside beside
  | test kind tests before _ _ _ _ _ _ _ first second beside =>
      refine .plain (NodeKind.isPlain_statement kind ?_) before.inner first
        second beside
      rcases tests with rfl | rfl | rfl <;> decide
  | command kind takes inFirst inSecond _ beside =>
      refine .plain (NodeKind.isPlain_statement kind ?_) inFirst.inner
        inSecond.inner .nil beside
      rintro rfl
      exact takes

theorem Inner.tidy (inner : forest.Inner) : forest.Tidy (.chain false) := by
  induction inner with
  | nil => exact .nil
  | plain kind _ _ _ _ inFirst inSecond inThird inRest =>
      obtain ⟨function, notVariable, parameter, block⟩ :=
        NodeKind.others_of_isPlain kind
      exact .other function notVariable parameter block inFirst inSecond
        inThird inRest
  | block kind declared _ _ inBody inRest =>
      exact .block kind (.declared declared) inBody .nil inRest

theorem Leaves.kinds_of_mem_sites {kinds : NodeKind → Bool}
    (leaves : forest.Leaves kinds) :
    ∀ site ∈ forest.sites, kinds site.node.kind = true := by
  induction leaves with
  | nil => simp [sites]
  | cons kind _ induction =>
      simp only [sites, List.nil_append, List.mem_cons]
      rintro site (rfl | member)
      · exact kind
      · exact induction site member

theorem Inner.kinds_of_mem_sites (inner : forest.Inner) :
    ∀ site ∈ forest.sites, site.node.kind.isFunction = false ∧
      site.node.kind.isParameter = false := by
  induction inner with
  | nil => simp [sites]
  | plain kind _ _ _ _ inFirst inSecond inThird inRest =>
      simp only [sites, List.mem_cons, List.mem_append]
      rintro site (rfl | member | member | member | member)
      · obtain ⟨function, _, parameter, _⟩ := NodeKind.others_of_isPlain kind
        exact ⟨function, parameter⟩
      · exact inFirst site member
      · exact inSecond site member
      · exact inThird site member
      · exact inRest site member
  | block kind declared _ _ inBody inRest =>
      simp only [sites, List.nil_append, List.mem_cons, List.mem_append]
      rintro site (rfl | member | member | member)
      · exact ⟨NodeKind.isFunction_of_isBlock kind,
          NodeKind.isParameter_of_isBlock kind⟩
      · have fits := declared.kinds_of_mem_sites site member
        exact ⟨NodeKind.isFunction_of_isVariable fits,
          NodeKind.isParameter_of_isVariable fits⟩
      · exact inBody site member
      · exact inRest site member

theorem Program.tidy (shaped : forest.Program) : forest.Tidy (.chain true) := by
  induction shaped with
  | nil => exact .nil
  | global kind _ beside => exact .outermost kind .nil .nil .nil beside
  | bodiless kind declared _ beside => exact .bodiless kind declared beside
  | function kind declared block declaredInside inside _ beside =>
      exact .function kind declared (NodeKind.isBlock_statement block)
        (.declared declaredInside) inside.inner.tidy .nil .nil beside

end Forest

end CMinusAnalysis
