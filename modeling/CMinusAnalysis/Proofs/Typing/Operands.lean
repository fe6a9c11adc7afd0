import CMinusAnalysis.Proofs.Checking.Reports
import CMinusAnalysis.Proofs.Typing.Inference

namespace CMinusAnalysis

/-! Operands that do not fit. An operand is held against a type that its place
in the parent determines, and the parent reports it just if both types are
known and differ. A use that could not be resolved has the type that its form
gives it, if any. -/

/-- Where a node takes an operand. Arguments count from one. -/
inductive OperandPlace where
  | left
  | right
  | returned
  | argument (position : Nat)
  deriving DecidableEq, Repr

/-- The operators and both kinds of assignment compare their operands. -/
def NodeKind.compares : NodeKind → Bool
  | .expression (.binary _) | .expression .assign | .statement .assign => true
  | _ => false

/-- The type that the form of a use gives it, whatever its name stands for. -/
def Node.form? (node : Node) : Option Ty :=
  match node.kind with
  | .expression (.arrayIdentifier _) =>
      some (if node.first.isSome then .integer else .integerArray)
  | _ => none

/-- The diagnostic says that the type of the operand at the place does not
fit. -/
def DiagnosticKind.mismatchAt (place : OperandPlace) : DiagnosticKind → Bool
  | .operandTypeMismatch _ _ _ | .assignmentTypeMismatch _ _ =>
      place = .left || place = .right
  | .returnTypeMismatch _ _ => place = .returned
  | .argumentTypeMismatch position _ _ => place = .argument position
  | _ => false

/-- The type, other than void, that an operand is held against: that of
the operand beside it, of the result of the function around it or of the
parameter that it stands for. -/
def Analysis.wanted (declared : Analysis) (tree : Tree) (route : Route)
    (parent : Site) : OperandPlace → Option Ty
  | .left =>
      (declared.infer ((parent, .second) :: route)
        (tree.unfold parent.node.second)).filter (· ≠ .void)
  | .right =>
      (declared.infer ((parent, .first) :: route)
        (tree.unfold parent.node.first)).filter (· ≠ .void)
  | .returned =>
      ((declared.functionAround route.ancestors).bind
        declared.table.typeOf?).filter (· ≠ .void)
  | .argument position =>
      match parent.node.kind with
      | .expression (.call name) =>
          if declared.facts.unresolved.contains parent.id then none
          else
            (declared.function? name).bind fun function =>
              function.parameters[position - 1]?
      | _ => none

def Clash (left right : Option Ty) : Prop :=
  ∃ one other, left = some one ∧ right = some other ∧ one ≠ other

theorem clash_comm {left right : Option Ty} :
    Clash left right ↔ Clash right left := by
  constructor
  · rintro ⟨one, other, here, there, apart⟩
    exact ⟨other, one, there, here, apart.symm⟩
  · rintro ⟨one, other, here, there, apart⟩
    exact ⟨other, one, there, here, apart.symm⟩

theorem Node.filter_form? (node : Node) :
    node.form?.filter (· ≠ .void) = node.form? := by
  unfold form?
  split
  · split <;> rfl
  · rfl

theorem Analysis.typeAt_unresolved {declared : Analysis} {site : Site}
    (use : site.node.kind.use?.isSome = true)
    (marked : declared.facts.unresolved.contains site.id = true)
    (route : Route) (target : Option Ty) :
    declared.typeAt route site target = site.node.form? := by
  obtain ⟨name, used⟩ := Option.isSome_iff_exists.mp use
  unfold NodeKind.use? at used
  split at used
  · next kind => simp [typeAt, Node.form?, kind, marked]
  · next kind => simp [typeAt, Node.form?, kind]
  · next kind => simp [typeAt, Node.form?, kind, marked]
  · cases used

theorem Analysis.inferChain_unresolved {declared : Analysis} {operand : Site}
    (use : operand.node.kind.use?.isSome = true)
    (marked : declared.facts.unresolved.contains operand.id = true)
    {forest : Forest} {index : Nat} (route : Route)
    (here : forest.heads[index]? = some operand) :
    (declared.inferChain route forest)[index]? =
      some operand.node.form? := by
  induction forest generalizing index route with
  | nil => simp [Forest.heads] at here
  | missing fault => simp [Forest.heads] at here
  | cons site first second third rest _ _ _ inRest =>
      cases index with
      | zero =>
          cases here
          rw [inferChain, typeAt_unresolved use marked]
          rfl
      | succ index => exact inRest ((site, .sibling) :: route) here

namespace Checking

theorem mem_binaryObjection?_iff {op : BinaryOp} {left right : Option Ty}
    {place : OperandPlace} :
    (∃ kind ∈ (binaryObjection? op left right).toList,
        kind.mismatchAt place = true) ↔
      (place = .left ∨ place = .right) ∧
        Clash (left.filter (· ≠ .void)) (right.filter (· ≠ .void)) := by
  rcases left with _ | _ | _ | _ <;> rcases right with _ | _ | _ | _ <;>
    simp [binaryObjection?, DiagnosticKind.mismatchAt, Clash, Option.filter]

theorem mem_assignmentObjection?_iff {left right : Option Ty}
    {place : OperandPlace} :
    (∃ kind ∈ (assignmentObjection? left right).toList,
        kind.mismatchAt place = true) ↔
      (place = .left ∨ place = .right) ∧
        Clash (left.filter (· ≠ .void)) (right.filter (· ≠ .void)) := by
  rcases left with _ | _ | _ | _ <;> rcases right with _ | _ | _ | _ <;>
    simp [assignmentObjection?, DiagnosticKind.mismatchAt, Clash, Option.filter]

theorem mem_returnObjection?_iff {expected : Ty} {found : Option Ty} :
    (∃ kind ∈ (returnObjection? expected true found).toList,
        kind.mismatchAt .returned = true) ↔
      Clash found ((some expected).filter (· ≠ .void)) := by
  rcases expected with _ | _ | _ <;> rcases found with _ | _ | _ | _ <;>
    simp [returnObjection?, DiagnosticKind.mismatchAt, Clash, Option.filter]

theorem mem_argumentObjections_iff {start : Nat} {operands : List (Option Ty)}
    {parameters : List Ty} {kind : DiagnosticKind} :
    kind ∈ argumentObjections start operands parameters ↔
      ∃ index found expected, operands[index]? = some (some found) ∧
        parameters[index]? = some expected ∧ found ≠ expected ∧
        kind = .argumentTypeMismatch (start + index) expected found := by
  induction operands generalizing start parameters with
  | nil => simp [argumentObjections]
  | cons operand operands induction =>
      cases parameters with
      | nil => simp [argumentObjections]
      | cons parameter parameters =>
          -- The head of the list stands at index zero; the rest is counted on
          -- from the next position.
          rw [argumentObjections, List.mem_append, ← Nat.or_exists_add_one,
            induction]
          apply or_congr
          · cases operand with
            | none => simp [argumentObjection?]
            | some found =>
                by_cases same : found = parameter
                · simp [argumentObjection?, same]
                · simp [argumentObjection?, same]
          · apply exists_congr
            intro index
            have onward : start + 1 + index = start + (index + 1) := by omega
            simp [onward]

theorem mismatch_argumentObjections_iff {operands : List (Option Ty)}
    {parameters : List Ty} {index : Nat} {found : Option Ty}
    (here : operands[index]? = some found) :
    (∃ kind ∈ argumentObjections 1 operands parameters ++
          (countObjection? parameters.length operands.length).toList,
        kind.mismatchAt (.argument (index + 1)) = true) ↔
      Clash found parameters[index]? := by
  constructor
  · rintro ⟨kind, member, mismatch⟩
    rcases List.mem_append.mp member with listed | counted
    · obtain ⟨there, type, expected, operand, parameter, apart, rfl⟩ :=
        mem_argumentObjections_iff.mp listed
      have same : index = there := by
        simp only [DiagnosticKind.mismatchAt, OperandPlace.argument.injEq,
          decide_eq_true_eq] at mismatch
        omega
      subst same
      cases here.symm.trans operand
      exact ⟨type, expected, rfl, parameter, apart⟩
    · unfold countObjection? at counted
      split at counted
      · cases List.mem_singleton.mp counted
        cases mismatch
      · cases counted
  · rintro ⟨type, expected, rfl, parameter, apart⟩
    refine ⟨_, List.mem_append_left _ (mem_argumentObjections_iff.mpr
      ⟨index, type, expected, here, parameter, apart, rfl⟩), ?_⟩
    simp [DiagnosticKind.mismatchAt, Nat.add_comm]

theorem exists_complaints_iff {line : Nat} {name : Option String}
    {kinds : List DiagnosticKind} {place : OperandPlace} :
    (∃ diagnostic ∈ complaints line name kinds,
        diagnostic.kind.mismatchAt place = true) ↔
      ∃ kind ∈ kinds, kind.mismatchAt place = true := by
  simp [complaints]

end Checking

namespace Analysis

variable {declared : Analysis} {tree : Tree} {route : Route}
  {parent operand : Site} {place : OperandPlace} {first second : Forest}

theorem mismatch_of_compares (compares : parent.node.kind.compares = true)
    (side : place = .left ∨ place = .right) :
    (∃ diagnostic ∈ declared.verdict route parent first second,
        diagnostic.kind.mismatchAt place = true) ↔
      Clash
        ((declared.infer ((parent, .first) :: route) first).filter (· ≠ .void))
        ((declared.infer ((parent, .second) :: route) second).filter
          (· ≠ .void)) := by
  unfold NodeKind.compares at compares
  split at compares
  · next kind =>
      simp only [verdict, kind]
      rw [Checking.exists_complaints_iff, Checking.mem_binaryObjection?_iff,
        and_iff_right side]
  · next kind =>
      simp only [verdict, kind]
      rw [Checking.exists_complaints_iff, Checking.mem_assignmentObjection?_iff,
        and_iff_right side]
  · next kind =>
      simp only [verdict, kind]
      rw [Checking.exists_complaints_iff, Checking.mem_assignmentObjection?_iff,
        and_iff_right side]
  · cases compares

theorem mismatch_of_return (kind : parent.node.kind = .statement .ret)
    (present : parent.node.first.isSome = true) :
    (∃ diagnostic ∈ declared.verdict route parent first second,
        diagnostic.kind.mismatchAt .returned = true) ↔
      Clash (declared.infer ((parent, .first) :: route) first)
        (declared.wanted tree route parent .returned) := by
  simp only [verdict, kind, returnVerdict, wanted, present]
  cases declared.functionAround route.ancestors with
  | none => simp [Clash]
  | some id =>
      simp only [Option.bind_some, SymbolTable.typeOf?]
      cases declared.table.symbols[id.index]? with
      | none => simp [Clash]
      | some function =>
          exact Checking.exists_complaints_iff.trans
            Checking.mem_returnObjection?_iff

theorem mismatch_of_call {name : String} {index : Nat}
    (global : declared.table.Has ScopeId.global)
    (kind : parent.node.kind = .expression (.call name))
    {found : Option Ty}
    (here : (declared.inferChain ((parent, .first) :: route) first)[index]? =
      some found) :
    (∃ diagnostic ∈ declared.verdict route parent first second,
        diagnostic.kind.mismatchAt (.argument (index + 1)) = true) ↔
      Clash found (declared.wanted tree route parent (.argument (index + 1))) := by
  simp only [verdict, kind, callVerdict, wanted, function?_eq global]
  rw [Checking.exists_complaints_iff]
  split
  · simp [Clash]
  · cases Checking.callee? declared.table name with
    | none => simp [DiagnosticKind.mismatchAt, Clash]
    | some function =>
        cases isFunction : function.isFunction with
        | false =>
            simp [isFunction, Option.filter, DiagnosticKind.mismatchAt, Clash]
        | true =>
            simp only [isFunction, if_true, Option.filter, Option.bind_some,
              Nat.add_sub_cancel]
            exact Checking.mismatch_argumentObjections_iff here

end Analysis

end CMinusAnalysis
