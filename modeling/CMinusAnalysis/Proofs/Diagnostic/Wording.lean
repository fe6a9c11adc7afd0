import CMinusAnalysis.Diagnostic.Kind
import CMinusAnalysis.Proofs.Text.Scanning

namespace CMinusAnalysis

/-! The wording of diagnostics. The messages of different kinds begin with leads
that form a prefix code, and what follows a lead are fields between marks, so
that a message can be read back. No message holds a divider, nor does any become
part of one. -/

def Ty.field : Field Ty where
  shown := Ty.name
  read := fun word =>
    [.integer, .void, .integerArray].find? fun type => type.name.toList = word
  read_shown := by
    intro type
    cases type <;> decide
  nonempty := by
    intro type
    cases type <;> decide
  unmarked := by
    intro type
    apply unmarked_of_all
    cases type <;> decide

def BinaryOp.field : Field BinaryOp where
  shown := BinaryOp.symbol
  read := fun word =>
    [.add, .sub, .mul, .div, .lt, .le, .gt, .ge, .eq, .ne].find? fun op =>
      op.symbol.toList = word
  read_shown := by
    intro op
    cases op <;> decide
  nonempty := by
    intro op
    cases op <;> decide
  unmarked := by
    intro op
    apply unmarked_of_all
    cases op <;> decide

theorem read_type (type : Ty) : Ty.field.read type.name.toList = some type :=
  Ty.field.read_shown type

theorem scanTo_type (type : Ty) {stop : String}
    (marked : stop.toList.head?.any isMark = true) (rest : String) :
    Ty.field.scanTo stop (type.name ++ (stop ++ rest)).toList =
      some (type, rest.toList) :=
  Ty.field.scanTo_append type marked rest

theorem scanTo_operator (op : BinaryOp) {stop : String}
    (marked : stop.toList.head?.any isMark = true) (rest : String) :
    BinaryOp.field.scanTo stop (op.symbol ++ (stop ++ rest)).toList =
      some (op, rest.toList) :=
  BinaryOp.field.scanTo_append op marked rest

theorem read_decimal (number : Nat) :
    decimalField.read (toString number).toList = some number :=
  decimalField.read_shown number

theorem scanTo_decimal (number : Nat) {stop : String}
    (marked : stop.toList.head?.any isMark = true) (rest : String) :
    decimalField.scanTo stop (toString number ++ (stop ++ rest)).toList =
      some (number, rest.toList) :=
  decimalField.scanTo_append number marked rest

namespace DiagnosticKind

/-- A condition belongs to one of the two statements that have one. -/
def NamesStatement : DiagnosticKind → Prop
  | .missingCondition statement | .voidCondition statement =>
      statement = "if" ∨ statement = "while"
  | _ => True

def fixedWordings : List (DiagnosticKind × String) :=
  [(.undeclared, "identifier is not declared"),
    (.functionRedeclared, "function redeclared"),
    (.functionNotGlobal, "functions may only be declared at global scope"),
    (.variableRedeclared, "variable redeclared"),
    (.arrayRedeclared, "array redeclared"),
    (.parameterRedeclared, "parameter redeclared"),
    (.voidVariable, "variable cannot be declared void"),
    (.missingTypeSpecifier, "declaration has no type"),
    (.voidAssignment, "cannot assign to or from void"),
    (.functionNotDeclared, "function is not declared"),
    (.notAFunction, "is not a function"),
    (.returnValueInVoid, "function should return nothing"),
    (.missingReturnValue, "function should return something"),
    (.missingCondition "if", "if statement has no test"),
    (.missingCondition "while", "while statement has no test"),
    (.voidCondition "if", "if test is void"),
    (.voidCondition "while", "while test is void"),
    (.voidWrite, "write of void value"),
    (.nameLost, "name resolved while building the symbol table is missing"),
    (.blockScopeLost, "block has no recorded scope")]

def readFixed (kind : DiagnosticKind) (text : List Char) :
    Option DiagnosticKind :=
  if text.isEmpty then some kind else none

def readVoidOperand (text : List Char) : Option DiagnosticKind := do
  let (op, _) ← BinaryOp.field.scanTo "' is void" text
  return .voidOperand op

theorem readVoidOperand_eq (op : BinaryOp) :
    readVoidOperand (op.symbol ++ ("' is void" ++ "")).toList =
      some (.voidOperand op) := by
  simp (disch := decide) only [readVoidOperand, scanTo_operator]
  rfl

def readOperandTypeMismatch (text : List Char) : Option DiagnosticKind := do
  let (left, text) ← Ty.field.scanTo " " text
  let (op, text) ← BinaryOp.field.scanTo " " text
  let right ← Ty.field.read text
  return .operandTypeMismatch op left right

theorem readOperandTypeMismatch_eq (op : BinaryOp) (left right : Ty) :
    readOperandTypeMismatch
      (left.name ++ (" " ++ (op.symbol ++ (" " ++ right.name)))).toList =
        some (.operandTypeMismatch op left right) := by
  simp (disch := decide) only [readOperandTypeMismatch, scanTo_type,
    scanTo_operator, read_type, Option.bind_eq_bind, Option.bind_some]
  rfl

def readAssignmentTypeMismatch (text : List Char) : Option DiagnosticKind := do
  let (target, text) ← Ty.field.scanTo " = " text
  let value ← Ty.field.read text
  return .assignmentTypeMismatch target value

theorem readAssignmentTypeMismatch_eq (target value : Ty) :
    readAssignmentTypeMismatch (target.name ++ (" = " ++ value.name)).toList =
      some (.assignmentTypeMismatch target value) := by
  simp (disch := decide) only [readAssignmentTypeMismatch, scanTo_type,
    read_type, Option.bind_eq_bind, Option.bind_some]
  rfl

def readArgumentCountMismatch (text : List Char) : Option DiagnosticKind := do
  let (expected, text) ← decimalField.scanTo ", found " text
  let found ← decimalField.read text
  return .argumentCountMismatch expected found

theorem readArgumentCountMismatch_eq (expected found : Nat) :
    readArgumentCountMismatch
      (toString expected ++ (", found " ++ toString found)).toList =
        some (.argumentCountMismatch expected found) := by
  simp (disch := decide) only [readArgumentCountMismatch, scanTo_decimal,
    read_decimal, Option.bind_eq_bind, Option.bind_some]
  rfl

def readArgumentTypeMismatch (text : List Char) : Option DiagnosticKind := do
  let (position, text) ← decimalField.scanTo ": expected " text
  let (expected, text) ← Ty.field.scanTo ", found " text
  let found ← Ty.field.read text
  return .argumentTypeMismatch position expected found

theorem readArgumentTypeMismatch_eq (position : Nat) (expected found : Ty) :
    readArgumentTypeMismatch (toString position ++
      (": expected " ++ (expected.name ++ (", found " ++ found.name)))).toList =
        some (.argumentTypeMismatch position expected found) := by
  simp (disch := decide) only [readArgumentTypeMismatch, scanTo_decimal,
    scanTo_type, read_type, Option.bind_eq_bind, Option.bind_some]
  rfl

def readReturnTypeMismatch (text : List Char) : Option DiagnosticKind := do
  let (expected, text) ← Ty.field.scanTo ", found " text
  let found ← Ty.field.read text
  return .returnTypeMismatch expected found

theorem readReturnTypeMismatch_eq (expected found : Ty) :
    readReturnTypeMismatch
      (expected.name ++ (", found " ++ found.name)).toList =
        some (.returnTypeMismatch expected found) := by
  simp (disch := decide) only [readReturnTypeMismatch, scanTo_type, read_type,
    Option.bind_eq_bind, Option.bind_some]
  rfl

def leads : LeadTable DiagnosticKind :=
  fixedWordings.map (fun entry => (entry.2, readFixed entry.1)) ++
    [("operand of '", readVoidOperand),
      ("operand type mismatch: ", readOperandTypeMismatch),
      ("type does not match: ", readAssignmentTypeMismatch),
      ("argument count mismatch: expected ", readArgumentCountMismatch),
      ("argument type mismatch at position ", readArgumentTypeMismatch),
      ("return type mismatch: expected ", readReturnTypeMismatch)]

theorem leads_prefixFree : leads.PrefixFree := by
  simp only [LeadTable.PrefixFree, leads, fixedWordings, List.map_cons,
    List.map_nil, List.cons_append, List.nil_append]
  repeat rw [String.toList_ofList]
  decide

theorem message_voidOperand (op : BinaryOp) :
    message (.voidOperand op) =
      "operand of '" ++ (op.symbol ++ ("' is void" ++ "")) := by
  simp only [← String.append_assoc, String.append_empty]
  rfl

theorem message_operandTypeMismatch (op : BinaryOp) (left right : Ty) :
    message (.operandTypeMismatch op left right) =
      "operand type mismatch: " ++
        (left.name ++ (" " ++ (op.symbol ++ (" " ++ right.name)))) := by
  simp only [← String.append_assoc]
  rfl

theorem message_assignmentTypeMismatch (target value : Ty) :
    message (.assignmentTypeMismatch target value) =
      "type does not match: " ++ (target.name ++ (" = " ++ value.name)) := by
  simp only [← String.append_assoc]
  rfl

theorem message_argumentCountMismatch (expected found : Nat) :
    message (.argumentCountMismatch expected found) =
      "argument count mismatch: expected " ++
        (toString expected ++ (", found " ++ toString found)) := by
  simp only [← String.append_assoc]
  rfl

theorem message_argumentTypeMismatch (position : Nat) (expected found : Ty) :
    message (.argumentTypeMismatch position expected found) =
      "argument type mismatch at position " ++ (toString position ++
        (": expected " ++ (expected.name ++ (", found " ++ found.name)))) := by
  simp only [← String.append_assoc]
  rfl

theorem message_returnTypeMismatch (expected found : Ty) :
    message (.returnTypeMismatch expected found) =
      "return type mismatch: expected " ++
        (expected.name ++ (", found " ++ found.name)) := by
  simp only [← String.append_assoc]
  rfl

theorem mem_fixedWordings {kind : DiagnosticKind} {wording : String}
    (worded : fixedWordings.lookup kind = some wording) :
    (kind, wording) ∈ fixedWordings := by
  obtain ⟨before, after, listed, _⟩ := List.lookup_eq_some_iff.mp worded
  rw [listed]
  exact List.mem_append_right _ List.mem_cons_self

theorem wording_cases
    {motive : ∀ kind : DiagnosticKind, kind.NamesStatement → Prop}
    (fixed : ∀ kind names,
      fixedWordings.lookup kind = some kind.message → motive kind names)
    (voidOperand : ∀ op, motive (.voidOperand op) trivial)
    (operandTypeMismatch : ∀ op left right,
      motive (.operandTypeMismatch op left right) trivial)
    (assignmentTypeMismatch : ∀ target value,
      motive (.assignmentTypeMismatch target value) trivial)
    (argumentCountMismatch : ∀ expected found,
      motive (.argumentCountMismatch expected found) trivial)
    (argumentTypeMismatch : ∀ position expected found,
      motive (.argumentTypeMismatch position expected found) trivial)
    (returnTypeMismatch : ∀ expected found,
      motive (.returnTypeMismatch expected found) trivial)
    (kind : DiagnosticKind) (names : kind.NamesStatement) :
    motive kind names := by
  cases kind with
  | voidOperand op => exact voidOperand op
  | operandTypeMismatch op left right =>
      exact operandTypeMismatch op left right
  | assignmentTypeMismatch target value =>
      exact assignmentTypeMismatch target value
  | argumentCountMismatch expected found =>
      exact argumentCountMismatch expected found
  | argumentTypeMismatch position expected found =>
      exact argumentTypeMismatch position expected found
  | returnTypeMismatch expected found =>
      exact returnTypeMismatch expected found
  | missingCondition statement | voidCondition statement =>
      rcases names with rfl | rfl <;> exact fixed _ _ rfl
  | _ => exact fixed _ _ rfl

theorem read_of_lead {lead rest : String}
    {reader : List Char → Option DiagnosticKind} {kind : DiagnosticKind}
    (listed : (lead, reader) ∈ leads) (split : kind.message = lead ++ rest)
    (reads : reader rest.toList = some kind) :
    leads.read kind.message.toList = some kind := by
  rw [split, String.toList_append]
  exact LeadTable.read_append leads_prefixFree listed reads

theorem read_fixed {kind : DiagnosticKind}
    (worded : fixedWordings.lookup kind = some kind.message) :
    leads.read kind.message.toList = some kind := by
  have lead : (kind.message, readFixed kind) ∈ leads :=
    List.mem_append_left _ (List.mem_map_of_mem (mem_fixedWordings worded))
  exact read_of_lead lead String.append_empty.symm rfl

theorem read_message {kind : DiagnosticKind} (names : kind.NamesStatement) :
    leads.read kind.message.toList = some kind := by
  induction kind, names using wording_cases with
  | fixed kind names worded => exact read_fixed worded
  | voidOperand op =>
      exact read_of_lead (by simp [leads]) (message_voidOperand op)
        (readVoidOperand_eq op)
  | operandTypeMismatch op left right =>
      exact read_of_lead (by simp [leads])
        (message_operandTypeMismatch op left right)
        (readOperandTypeMismatch_eq op left right)
  | assignmentTypeMismatch target value =>
      exact read_of_lead (by simp [leads])
        (message_assignmentTypeMismatch target value)
        (readAssignmentTypeMismatch_eq target value)
  | argumentCountMismatch expected found =>
      exact read_of_lead (by simp [leads])
        (message_argumentCountMismatch expected found)
        (readArgumentCountMismatch_eq expected found)
  | argumentTypeMismatch position expected found =>
      exact read_of_lead (by simp [leads])
        (message_argumentTypeMismatch position expected found)
        (readArgumentTypeMismatch_eq position expected found)
  | returnTypeMismatch expected found =>
      exact read_of_lead (by simp [leads])
        (message_returnTypeMismatch expected found)
        (readReturnTypeMismatch_eq expected found)

theorem plain_lead {lead : String} (listed : lead ∈ leads.map Prod.fst) :
    Plain (':' :: ' ' :: lead.toList) := by
  have all : ∀ lead ∈ leads.map Prod.fst,
      Plain (':' :: ' ' :: lead.toList) := by
    simp only [leads, fixedWordings, List.map_cons, List.map_nil,
      List.cons_append, List.nil_append, List.forall_mem_cons]
    repeat rw [String.toList_ofList]
    decide +kernel
  exact all lead listed

theorem plain_message {kind : DiagnosticKind} (names : kind.NamesStatement) :
    Plain (':' :: ' ' :: kind.message.toList) := by
  induction kind, names using wording_cases with
  | fixed kind names worded =>
      apply plain_lead
      rw [leads, List.map_append, List.map_map]
      exact List.mem_append_left _
        (List.mem_map_of_mem (mem_fixedWordings worded))
  | voidOperand op =>
      rw [message_voidOperand]
      simp only [String.toList_append]
      exact (plain_lead (by simp [leads])).splice (by decide)
        BinaryOp.field op
  | operandTypeMismatch op left right =>
      rw [message_operandTypeMismatch]
      simp only [String.toList_append]
      have blank : Plain " ".toList := by decide
      exact (plain_lead (by simp [leads])).splice
        (blank.splice (blank.append_field Ty.field right)
          BinaryOp.field op)
        Ty.field left
  | assignmentTypeMismatch target value =>
      rw [message_assignmentTypeMismatch]
      simp only [String.toList_append]
      have between : Plain " = ".toList := by decide
      exact (plain_lead (by simp [leads])).splice
        (between.append_field Ty.field value) Ty.field target
  | argumentCountMismatch expected found =>
      rw [message_argumentCountMismatch]
      simp only [String.toList_append]
      have between : Plain ", found ".toList := by decide
      exact (plain_lead (by simp [leads])).splice
        (between.append_field decimalField found) decimalField expected
  | argumentTypeMismatch position expected found =>
      rw [message_argumentTypeMismatch]
      simp only [String.toList_append]
      have first : Plain ": expected ".toList := by decide
      have second : Plain ", found ".toList := by decide
      exact (plain_lead (by simp [leads])).splice
        (first.splice (second.append_field Ty.field found) Ty.field expected)
        decimalField position
  | returnTypeMismatch expected found =>
      rw [message_returnTypeMismatch]
      simp only [String.toList_append]
      have between : Plain ", found ".toList := by decide
      exact (plain_lead (by simp [leads])).splice
        (between.append_field Ty.field found) Ty.field expected

end DiagnosticKind

end CMinusAnalysis
