import CMinusAnalysis.Diagnostic.Basic
import CMinusAnalysis.Proofs.Diagnostic.Wording
import CMinusAnalysis.Proofs.Text.Streams

namespace CMinusAnalysis

/-! Reading records back. The beginning of a record tells its form, the line
number ends at a mark, and the message is what follows the last divider,
whatever the name holds. So a record tells everything about its diagnostic but
the name that a brief one leaves out, and where the name has no line break, it
has none either. -/

namespace Diagnostic

theorem text_of_isBrief {diagnostic : Diagnostic}
    (brief : diagnostic.kind.isBrief = true) :
    diagnostic.text = "Type error at line " ++
      (toString diagnostic.line ++ (": " ++ diagnostic.kind.message)) := by
  simp only [text, brief, ← String.append_assoc]
  rfl

theorem text_of_named {diagnostic : Diagnostic} {name : String}
    (standard : diagnostic.kind.isBrief = false)
    (named : diagnostic.name = some name) :
    diagnostic.text = diagnostic.category.title ++ " at line(" ++
      (toString diagnostic.line ++ (")" ++
        (", name=" ++ (name ++ (" : " ++ diagnostic.kind.message))))) := by
  have mark : "), name=" = ")" ++ ", name=" := by decide
  simp only [text, standard, named, mark, ← String.append_assoc]
  rfl

theorem text_of_nameless {diagnostic : Diagnostic}
    (standard : diagnostic.kind.isBrief = false)
    (nameless : diagnostic.name = none) :
    diagnostic.text = diagnostic.category.title ++ " at line(" ++
      (toString diagnostic.line ++ (")" ++
        (" : " ++ diagnostic.kind.message))) := by
  have mark : ") : " = ")" ++ " : " := by decide
  simp only [text, standard, nameless, mark, ← String.append_assoc]
  rfl

/-- What a record tells of its diagnostic. -/
def recorded (diagnostic : Diagnostic) : Diagnostic :=
  if diagnostic.kind.isBrief then { diagnostic with name := none }
  else diagnostic

def readNamed (line : Nat) (text : List Char) : Option Diagnostic := do
  let (name, message) ← cutLast text
  let kind ← DiagnosticKind.leads.read message
  return ⟨kind, line, some (String.ofList name)⟩

def readNameless (line : Nat) (text : List Char) : Option Diagnostic := do
  let kind ← DiagnosticKind.leads.read text
  return ⟨kind, line, none⟩

def nameLeads (line : Nat) : LeadTable Diagnostic :=
  [(", name=", readNamed line), (" : ", readNameless line)]

def readStandard (text : List Char) : Option Diagnostic := do
  let (line, text) ← decimalField.scanTo ")" text
  (nameLeads line).read text

def readBrief (text : List Char) : Option Diagnostic := do
  let (line, text) ← decimalField.scanTo ": " text
  readNameless line text

def recordLeads : LeadTable Diagnostic :=
  [(Category.scope.title ++ " at line(", readStandard),
    (Category.type.title ++ " at line(", readStandard),
    (Category.internal.title ++ " at line(", readStandard),
    ("Type error at line ", readBrief)]

theorem nameLeads_prefixFree (line : Nat) : (nameLeads line).PrefixFree := by
  simp only [LeadTable.PrefixFree, nameLeads, List.map_cons, List.map_nil]
  decide

theorem recordLeads_prefixFree : recordLeads.PrefixFree := by
  unfold LeadTable.PrefixFree recordLeads
  decide +kernel

theorem mem_recordLeads (category : Category) :
    (category.title ++ " at line(", readStandard) ∈ recordLeads := by
  cases category <;> simp [recordLeads]

theorem readNameless_eq (line : Nat) {kind : DiagnosticKind}
    (names : kind.NamesStatement) :
    readNameless line kind.message.toList = some ⟨kind, line, none⟩ := by
  rw [readNameless, DiagnosticKind.read_message names]
  rfl

theorem readNamed_eq (line : Nat) (name : String) {kind : DiagnosticKind}
    (names : kind.NamesStatement) :
    readNamed line (name ++ (" : " ++ kind.message)).toList =
      some ⟨kind, line, some name⟩ := by
  have cut : cutLast (name ++ (" : " ++ kind.message)).toList =
      some (name.toList, kind.message.toList) := by
    have divided : " : ".toList = divider := by decide
    rw [String.toList_append, String.toList_append, divided]
    exact cutLast_append _ (DiagnosticKind.plain_message names)
  simp only [readNamed, cut, Option.bind_eq_bind, Option.bind_some,
    DiagnosticKind.read_message names, String.ofList_toList]
  rfl

theorem read_text_of_isBrief {diagnostic : Diagnostic}
    (names : diagnostic.kind.NamesStatement)
    (brief : diagnostic.kind.isBrief = true) :
    recordLeads.read diagnostic.text.toList =
      some { diagnostic with name := none } := by
  have listed : ("Type error at line ", readBrief) ∈ recordLeads := by
    simp [recordLeads]
  rw [text_of_isBrief brief, String.toList_append]
  apply LeadTable.read_append recordLeads_prefixFree listed
  simp (disch := decide) only [readBrief, scanTo_decimal, Option.bind_eq_bind,
    Option.bind_some]
  exact readNameless_eq _ names

theorem read_text_of_standard {diagnostic : Diagnostic} {front : String}
    (standard : diagnostic.text =
      diagnostic.category.title ++ " at line(" ++
        (toString diagnostic.line ++ (")" ++ front)))
    (reads : (nameLeads diagnostic.line).read front.toList =
      some diagnostic) :
    recordLeads.read diagnostic.text.toList = some diagnostic := by
  rw [standard, String.toList_append]
  apply LeadTable.read_append recordLeads_prefixFree
    (mem_recordLeads diagnostic.category)
  simp (disch := decide) only [readStandard, scanTo_decimal,
    Option.bind_eq_bind, Option.bind_some]
  exact reads

theorem read_text {diagnostic : Diagnostic}
    (names : diagnostic.kind.NamesStatement) :
    recordLeads.read diagnostic.text.toList = some diagnostic.recorded := by
  cases brief : diagnostic.kind.isBrief with
  | true =>
      rw [recorded, if_pos brief]
      exact read_text_of_isBrief names brief
  | false =>
      rw [recorded, brief, if_neg Bool.false_ne_true]
      rcases diagnostic with ⟨kind, line, name⟩
      cases name with
      | none =>
          have listed : (" : ", readNameless line) ∈ nameLeads line := by
            simp [nameLeads]
          apply read_text_of_standard (text_of_nameless brief rfl)
          rw [String.toList_append]
          exact LeadTable.read_append (nameLeads_prefixFree line) listed
            (readNameless_eq line names)
      | some name =>
          have listed : (", name=", readNamed line) ∈ nameLeads line := by
            simp [nameLeads]
          apply read_text_of_standard (text_of_named brief rfl)
          rw [String.toList_append]
          exact LeadTable.read_append (nameLeads_prefixFree line) listed
            (readNamed_eq line name names)

theorem newline_not_mem_text {diagnostic : Diagnostic}
    (names : diagnostic.kind.NamesStatement)
    (oneLine : ∀ name ∈ diagnostic.name, '\n' ∉ name.toList) :
    '\n' ∉ diagnostic.text.toList := by
  have ofTitle : '\n' ∉ diagnostic.category.title.toList := by
    cases diagnostic.category <;> decide
  have ofLine : '\n' ∉ (toString diagnostic.line).toList := by
    intro member
    exact absurd (decimalField.unmarked diagnostic.line _ member) (by decide)
  have ofMessage : '\n' ∉ diagnostic.kind.message.toList :=
    (DiagnosticKind.plain_message names).tail.tail.oneLine
  cases brief : diagnostic.kind.isBrief with
  | true =>
      rw [text_of_isBrief brief]
      simp only [String.toList_append, List.mem_append, not_or]
      exact ⟨by decide, ofLine, by decide, ofMessage⟩
  | false =>
      cases named : diagnostic.name with
      | none =>
          rw [text_of_nameless brief named]
          simp only [String.toList_append, List.mem_append, not_or]
          exact ⟨⟨ofTitle, by decide⟩, ofLine, by decide, by decide, ofMessage⟩
      | some name =>
          have ofName : '\n' ∉ name.toList := oneLine name named
          rw [text_of_named brief named]
          simp only [String.toList_append, List.mem_append, not_or]
          exact ⟨⟨ofTitle, by decide⟩, ofLine, by decide, by decide, ofName,
            by decide, ofMessage⟩

/-- Diagnostics of which the records tell the same. -/
structure Alike (left right : Diagnostic) : Prop where
  kind : left.kind = right.kind
  line : left.line = right.line
  category : left.category = right.category
  name : (∀ statement, left.kind ≠ .voidCondition statement) →
    left.kind ≠ .voidWrite → left.name = right.name

theorem recorded_kind (diagnostic : Diagnostic) :
    diagnostic.recorded.kind = diagnostic.kind := by
  unfold recorded
  split <;> rfl

theorem recorded_line (diagnostic : Diagnostic) :
    diagnostic.recorded.line = diagnostic.line := by
  unfold recorded
  split <;> rfl

theorem recorded_of_standard {diagnostic : Diagnostic}
    (condition : ∀ statement, diagnostic.kind ≠ .voidCondition statement)
    (write : diagnostic.kind ≠ .voidWrite) :
    diagnostic.recorded = diagnostic := by
  have standard : diagnostic.kind.isBrief ≠ true := by
    unfold DiagnosticKind.isBrief
    split
    · next statement kind => exact absurd kind (condition statement)
    · next kind => exact absurd kind write
    · decide
  rw [recorded, if_neg standard]

theorem alike_of_text {left right : Diagnostic}
    (leftNames : left.kind.NamesStatement)
    (rightNames : right.kind.NamesStatement)
    (same : left.text = right.text) : left.Alike right := by
  have told : left.recorded = right.recorded := by
    apply Option.some.inj
    rw [← read_text leftNames, ← read_text rightNames, same]
  have kinds : left.kind = right.kind := by
    rw [← recorded_kind left, told, recorded_kind]
  refine ⟨kinds, ?_, congrArg DiagnosticKind.category kinds, ?_⟩
  · rw [← recorded_line left, told, recorded_line]
  · intro condition write
    rw [recorded_of_standard condition write] at told
    rw [kinds] at condition write
    rw [recorded_of_standard condition write] at told
    rw [told]

end Diagnostic

end CMinusAnalysis
