import Mathlib.Logic.Function.Basic
import CMinusAnalysis.Proofs.Symbol.Buckets

namespace CMinusAnalysis

/-! Renaming what an analysis finds. Symbols and diagnostics have images. A
symbol table has none, because its names are spread over the buckets anew: a
renamed table is one that has the images of the symbols under the same handles,
and whose scopes answer for the image of a name as they did for the name. -/

def Diagnostic.renamed (rename : String → String) (diagnostic : Diagnostic) :
    Diagnostic :=
  { diagnostic with name := diagnostic.name.map rename }

def Diagnostics.renamed (rename : String → String)
    (diagnostics : Diagnostics) : Diagnostics :=
  ⟨diagnostics.latestFirst.map (Diagnostic.renamed rename)⟩

theorem Diagnostics.items_renamed (rename : String → String)
    (diagnostics : Diagnostics) :
    (diagnostics.renamed rename).items =
      diagnostics.items.map (Diagnostic.renamed rename) :=
  List.map_reverse.symm

def Symbol.renamed (rename : String → String) (symbol : Symbol) : Symbol :=
  { symbol with name := rename symbol.name }

namespace SymbolTable

def layout (table : SymbolTable) : List (Option ScopeId × Nat) :=
  table.scopes.toList.map fun scope => (scope.parent, scope.nextLocation)

/-- The second table is the first one with other names. -/
structure Renamed (rename : String → String) (table image : SymbolTable) :
    Prop where
  layout : image.layout = table.layout
  symbols : image.symbols = table.symbols.map (Symbol.renamed rename)
  find? : ∀ (id : ScopeId) (name : String),
    image.find? id (rename name) = table.find? id name

variable {table image : SymbolTable} {rename : String → String}

theorem length_layout (table : SymbolTable) :
    table.layout.length = table.scopes.size := by
  simp [layout]

theorem getElem?_layout (table : SymbolTable) (index : Nat) :
    table.layout[index]? = table.scopes[index]?.map fun scope =>
      (scope.parent, scope.nextLocation) := by
  simp [layout]

theorem parent?_eq (table : SymbolTable) (id : ScopeId) :
    table.parent? id = table.layout[id.index]?.bind Prod.fst := by
  rw [getElem?_layout, parent?]
  cases table.scopes[id.index]? <;> rfl

theorem globalFunction?_eq (table : SymbolTable) (name : String) :
    table.globalFunction? name =
      (table.find? ScopeId.global name).filter fun id =>
        table.symbols[id.index]?.any Symbol.isFunction := by
  by_cases has : table.Has ScopeId.global
  · rw [globalFunction?, lookupLocal_eq has]
    cases table.find? ScopeId.global name with
    | none => rfl
    | some id => simp [Option.filter]
  · have absent : table.scopes[ScopeId.global.index]? = none :=
      Array.getElem?_eq_none (Nat.not_lt.mp has)
    simp [globalFunction?, lookupLocal, scope, fetch, find?, absent]

theorem layout_opened (name : String) (parent : ScopeId) :
    (table.opened name parent).layout =
      table.layout ++ [(some parent, 0)] := by
  simp [layout, opened]

theorem layout_declared (id : ScopeId) (name : String) (type : Ty)
    (line : Nat) (isFunction : Bool) :
    (table.declared id name type line isFunction).layout =
      table.layout.modify id.index fun entry => (entry.1, entry.2 + 1) := by
  unfold declared
  split
  · next absent =>
      have outside : table.layout.length ≤ id.index := by
        rw [length_layout]
        exact Array.getElem?_eq_none_iff.mp absent
      rw [List.modify_eq_set_getElem?, List.getElem?_eq_none outside]
      rfl
  · next scope stored =>
      rw [List.modify_eq_set_getElem?, getElem?_layout, stored]
      simp [layout, List.map_set, Scope.link]

namespace Renamed

theorem size (renamed : Renamed rename table image) :
    image.scopes.size = table.scopes.size := by
  rw [← length_layout, renamed.layout, length_layout]

theorem has (renamed : Renamed rename table image) {id : ScopeId}
    (has : table.Has id) : image.Has id := by
  rw [Has, renamed.size]
  exact has

theorem parent? (renamed : Renamed rename table image) (id : ScopeId) :
    image.parent? id = table.parent? id := by
  rw [parent?_eq, parent?_eq, renamed.layout]

theorem size_symbols (renamed : Renamed rename table image) :
    image.symbols.size = table.symbols.size := by
  rw [renamed.symbols, Array.size_map]

theorem getElem?_symbols (renamed : Renamed rename table image)
    (index : Nat) :
    image.symbols[index]? =
      table.symbols[index]?.map (Symbol.renamed rename) := by
  rw [renamed.symbols, Array.getElem?_map]

theorem typeOf? (renamed : Renamed rename table image) (id : SymbolId) :
    image.typeOf? id = table.typeOf? id := by
  rw [SymbolTable.typeOf?, renamed.getElem?_symbols, Option.map_map]
  rfl

theorem resolve (renamed : Renamed rename table image) (id : ScopeId)
    (name : String) :
    image.resolve id (rename name) = table.resolve id name := by
  have within (steps : Nat) (id : ScopeId) :
      image.outwardWithin steps id = table.outwardWithin steps id := by
    induction steps generalizing id with
    | zero => rfl
    | succ steps induction =>
        simp only [outwardWithin, renamed.parent?, induction]
  simp only [SymbolTable.resolve, renamed.size, within, renamed.find?]

theorem globalFunction? (renamed : Renamed rename table image)
    (name : String) :
    image.globalFunction? (rename name) = table.globalFunction? name := by
  have functions (index : Nat) :
      image.symbols[index]?.any Symbol.isFunction =
        table.symbols[index]?.any Symbol.isFunction := by
    rw [renamed.getElem?_symbols]
    cases table.symbols[index]? <;> rfl
  simp only [globalFunction?_eq, renamed.find?, functions]

theorem opened (renamed : Renamed rename table image) (name other : String)
    (parent : ScopeId) :
    Renamed rename (table.opened name parent)
      (image.opened other parent) where
  layout := by rw [layout_opened, layout_opened, renamed.layout]
  symbols := renamed.symbols
  find? id query := by rw [find?_opened, find?_opened, renamed.find?]

theorem modifySymbol (renamed : Renamed rename table image)
    {change : Symbol → Symbol}
    (same : ∀ symbol, (change symbol).bare = symbol.bare)
    (commutes : ∀ symbol, change (symbol.renamed rename) =
      (change symbol).renamed rename) (target : SymbolId) :
    Renamed rename (table.modifySymbol target change)
      (image.modifySymbol target change) where
  layout := renamed.layout
  symbols := by
    apply Array.ext_getElem?
    intro index
    simp only [SymbolTable.modifySymbol, Array.getElem?_modify,
      Array.getElem?_map, renamed.getElem?_symbols]
    cases table.symbols[index]? with
    | none => simp
    | some symbol => split <;> simp [commutes]
  find? id name := by
    rw [find?_modifySymbol same, find?_modifySymbol same, renamed.find?]

theorem declared (renamed : Renamed rename table image)
    (injective : Function.Injective rename) (coherent : table.Coherent)
    (other : image.Coherent) {id : ScopeId} (has : table.Has id)
    {name : String} (free : table.find? id name = none) (type : Ty)
    (line : Nat) (isFunction : Bool) :
    Renamed rename (table.declared id name type line isFunction)
      (image.declared id (rename name) type line isFunction) where
  layout := by rw [layout_declared, layout_declared, renamed.layout]
  symbols := by
    obtain ⟨scope, stored⟩ := exists_scope has
    obtain ⟨counterpart, there⟩ := exists_scope (renamed.has has)
    have entries := getElem?_layout image id.index
    rw [renamed.layout, getElem?_layout, stored, there] at entries
    have counter := congrArg Prod.snd (Option.some.inj entries)
    simp only at counter
    simp [SymbolTable.declared, stored, there, renamed.symbols, counter,
      Symbol.renamed]
  find? scope query := by
    have unknown : image.find? id (rename name) = none := by
      rw [renamed.find?, free]
    rw [find?_declared other (renamed.has has) unknown,
      find?_declared coherent has free, renamed.find?, renamed.size_symbols]
    simp only [injective.eq_iff]

theorem ownedIds (renamed : Renamed rename table image) (id : ScopeId) :
    image.ownedIds id = table.ownedIds id := by
  have owners (index : Nat) :
      (image.symbols[index]?.any fun symbol => symbol.scope = id) =
        table.symbols[index]?.any fun symbol => symbol.scope = id := by
    rw [renamed.getElem?_symbols]
    cases table.symbols[index]? <;> rfl
  simp only [SymbolTable.ownedIds, owners, renamed.size_symbols]

theorem symbols_perm (renamed : Renamed rename table image)
    (filed : table.Filed) (other : image.Filed) {id : ScopeId}
    {scope counterpart : Scope}
    (stored : table.scopes[id.index]? = some scope)
    (there : image.scopes[id.index]? = some counterpart) :
    counterpart.symbols.Perm scope.symbols := by
  have moved := other.buckets there
  rw [renamed.ownedIds] at moved
  exact moved.trans (filed.buckets stored).symm

end Renamed

end SymbolTable

end CMinusAnalysis
