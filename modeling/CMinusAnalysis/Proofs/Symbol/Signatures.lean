import CMinusAnalysis.Proofs.Symbol.Growth
import CMinusAnalysis.Proofs.Typing.Judgement

namespace CMinusAnalysis

namespace Symbol

def signature? (symbol : Symbol) : Option Signature :=
  if symbol.isFunction then some ⟨symbol.parameters, symbol.type⟩ else none

end Symbol

namespace SymbolTable

variable {table earlier middle later : SymbolTable} {name : String}

def signature? (table : SymbolTable) (name : String) : Option Signature :=
  (table.find? ScopeId.global name).bind fun id =>
    table.symbols[id.index]?.bind Symbol.signature?

/-- The global functions are these. -/
def Offers (table : SymbolTable) (signatures : Signatures) : Prop :=
  ∀ name, table.signature? name = signatures.lookup name

/-- Symbols change in nothing but the lines of their uses. -/
structure Keeps (earlier later : SymbolTable) : Prop where
  entry : ∀ {index : Nat} {entry : Symbol},
    earlier.symbols[index]? = some entry →
    ∃ lines, later.symbols[index]? = some { entry with latestLines := lines }

theorem Keeps.refl (table : SymbolTable) : table.Keeps table :=
  ⟨fun stored => ⟨_, stored⟩⟩

theorem Keeps.trans (first : earlier.Keeps middle) (second : middle.Keeps later) :
    earlier.Keeps later := by
  constructor
  intro index entry stored
  obtain ⟨_, there⟩ := first.entry stored
  obtain ⟨lines, last⟩ := second.entry there
  exact ⟨lines, last⟩

theorem keeps_opened (table : SymbolTable) (name : String) (parent : ScopeId) :
    table.Keeps (table.opened name parent) :=
  ⟨fun stored => ⟨_, stored⟩⟩

theorem keeps_declared {id : ScopeId} (has : table.Has id) (type : Ty)
    (line : Nat) (isFunction : Bool) :
    table.Keeps (table.declared id name type line isFunction) := by
  constructor
  intro index entry stored
  obtain ⟨location, pushed⟩ := symbols_declared has name type line isFunction
  have inside := (Array.getElem?_eq_some_iff.mp stored).1
  refine ⟨entry.latestLines, ?_⟩
  rw [pushed, Array.getElem?_push, if_neg (Nat.ne_of_lt inside), stored]

theorem keeps_addLine (table : SymbolTable) (target : SymbolId) (line : Nat) :
    table.Keeps (table.modifySymbol target (·.addLine line)) := by
  constructor
  intro index entry stored
  simp only [modifySymbol, Array.getElem?_modify, stored]
  split
  · exact ⟨_, rfl⟩
  · exact ⟨_, rfl⟩

theorem signature?_eq_of_keeps (keeps : earlier.Keeps later)
    (same : later.find? ScopeId.global name =
      earlier.find? ScopeId.global name) :
    later.signature? name = earlier.signature? name := by
  rw [signature?, signature?, same]
  cases hit : earlier.find? ScopeId.global name with
  | none => rfl
  | some found =>
      obtain ⟨entry, stored, _⟩ := name_of_find? hit
      obtain ⟨lines, there⟩ := keeps.entry stored
      simp only [Option.bind_some, stored, there]
      rfl

theorem Offers.settled {signatures : Signatures} {taking : ScopeId → Prop}
    (offers : earlier.Offers signatures) (keeps : earlier.Keeps later)
    (settled : Settled taking earlier later)
    (has : earlier.Has ScopeId.global) (shut : ¬ taking ScopeId.global) :
    later.Offers signatures := by
  intro name
  rw [signature?_eq_of_keeps keeps (settled.closed has shut name)]
  exact offers name

theorem signature?_eq_none
    (free : table.find? ScopeId.global name = none) :
    table.signature? name = none := by
  rw [signature?, free]
  rfl

theorem Offers.global {signatures : Signatures}
    (offers : table.Offers signatures) (coherent : table.Coherent)
    (has : table.Has ScopeId.global)
    (free : table.find? ScopeId.global name = none) (type : Ty) (line : Nat) :
    (table.declared ScopeId.global name type line false).Offers signatures := by
  intro query
  rw [← offers query]
  by_cases same : query = name
  · obtain ⟨location, pushed⟩ := symbols_declared has name type line false
    rw [same, signature?_eq_none free, signature?,
      find?_declared coherent has free]
    simp [pushed, Symbol.signature?]
  · apply signature?_eq_of_keeps (keeps_declared has type line false)
    rw [find?_declared coherent has free]
    simp [same]

theorem Offers.function {signatures : Signatures}
    (offers : table.Offers signatures) (coherent : table.Coherent)
    (has : table.Has ScopeId.global)
    (free : table.find? ScopeId.global name = none) (type : Ty) (line : Nat) :
    (table.declared ScopeId.global name type line true).Offers
      (signatures ++ [(name, ⟨[], type⟩)]) := by
  intro query
  rw [List.lookup_append, ← offers query]
  by_cases same : query = name
  · obtain ⟨location, pushed⟩ := symbols_declared has name type line true
    rw [same, signature?_eq_none free, signature?,
      find?_declared coherent has free]
    simp [pushed, Symbol.signature?]
  · have kept : (table.declared ScopeId.global name type line true).signature?
        query = table.signature? query := by
      apply signature?_eq_of_keeps (keeps_declared has type line true)
      rw [find?_declared coherent has free]
      simp [same]
    have other : (query == name) = false := by simpa using same
    simp [kept, List.lookup_cons, other]

theorem Offers.parameter {signatures : Signatures} {parameters : List Ty}
    {result : Ty} (type : Ty) (free : signatures.lookup name = none)
    (offers : table.Offers (signatures ++ [(name, ⟨parameters, result⟩)])) :
    ∃ function, table.globalFunction? name = some function ∧
      (table.modifySymbol function (·.addParameter type)).Offers
        (signatures ++ [(name, ⟨parameters ++ [type], result⟩)]) := by
  have here := offers name
  rw [List.lookup_append, free, signature?] at here
  simp only [List.lookup_cons, beq_self_eq_true, Option.none_or,
    Option.bind_eq_some_iff] at here
  obtain ⟨function, hit, entry, stored, signed⟩ := here
  have parts : entry.isFunction = true ∧ entry.parameters = parameters ∧
      entry.type = result := by
    simpa [Symbol.signature?] using signed
  obtain ⟨isFunction, rfl, rfl⟩ := parts
  refine ⟨function, globalFunction?_eq_some hit stored isFunction, ?_⟩
  intro query
  rw [signature?, find?_modifySymbol (Symbol.bare_addParameter · type),
    List.lookup_append]
  by_cases same : query = name
  · simp [same, hit, free, modifySymbol, Array.getElem?_modify, stored,
      Symbol.signature?, Symbol.addParameter, isFunction]
  · have other : (query == name) = false := by simpa using same
    have before := offers query
    rw [List.lookup_append] at before
    simp only [List.lookup_cons, other, List.lookup_nil, Option.or_none]
      at before ⊢
    rw [← before, signature?]
    cases there : table.find? ScopeId.global query with
    | none => rfl
    | some found =>
        have apart : function.index ≠ found.index := by
          intro equal
          obtain ⟨symbol, held, named⟩ := name_of_find? there
          obtain ⟨_, kept, called⟩ := name_of_find? hit
          rw [equal, held] at kept
          cases kept
          exact same (named.symm.trans called)
        simp [modifySymbol, Array.getElem?_modify, apart]

end SymbolTable

end CMinusAnalysis
