import Mathlib.Data.List.Perm.Basic
import CMinusAnalysis.Proofs.Symbol.Storage

namespace CMinusAnalysis

/-! Buckets. A scope files a symbol when it comes to own it and moves none
later, so at any time its buckets hold just the symbols that it owns, each
once. In which order depends on how the names are spread. -/

theorem flatten_set_perm {lists : List (List α)} {index : Nat}
    {list : List α} (held : lists[index]? = some list) (last : α) :
    (lists.set index (list ++ [last])).flatten.Perm
      (lists.flatten ++ [last]) := by
  induction lists generalizing index with
  | nil => cases held
  | cons head tail induction =>
      cases index with
      | zero =>
          cases held
          have moved : (last :: tail.flatten).Perm (tail.flatten ++ [last]) :=
            (List.perm_append_singleton last tail.flatten).symm
          simpa using moved.append_left list
      | succ index =>
          simpa using (induction held).append_left head

theorem Scope.symbols_link (scope : Scope) (name : String) (id : SymbolId) :
    (scope.link name id).symbols.Perm (scope.symbols ++ [id]) := by
  have held : scope.buckets.toList[(bucketOf name).val]? =
      some (scope.chain name) := by
    simp [Scope.chain, Vector.get]
  rw [Scope.symbols, Scope.link, Vector.toList_set]
  exact flatten_set_perm held id

theorem Scope.symbols_fresh (name : String) (parent : Option ScopeId) :
    ({ name, parent } : Scope).symbols = [] := by
  simp [Scope.symbols]

namespace SymbolTable

def ownedIds (table : SymbolTable) (id : ScopeId) : List SymbolId :=
  ((List.range table.symbols.size).filter fun index =>
    table.symbols[index]?.any fun symbol => symbol.scope = id).map SymbolId.mk

/-- The buckets of a scope hold the symbols that it owns. -/
structure Filed (table : SymbolTable) : Prop extends table.Dense where
  buckets : ∀ {id : ScopeId} {scope : Scope},
    table.scopes[id.index]? = some scope →
    scope.symbols.Perm (table.ownedIds id)

variable {table : SymbolTable}

theorem lt_of_mem_ownedIds {id : ScopeId} {symbol : SymbolId}
    (member : symbol ∈ table.ownedIds id) :
    symbol.index < table.symbols.size := by
  obtain ⟨index, listed, rfl⟩ := List.mem_map.mp member
  exact List.mem_range.mp (List.mem_filter.mp listed).1

theorem ownedIds_push (scopes : Array Scope) (symbol : Symbol) (id : ScopeId) :
    ownedIds ⟨scopes, table.symbols.push symbol⟩ id =
      table.ownedIds id ++
        if symbol.scope = id then [⟨table.symbols.size⟩] else [] := by
  have earlier : ∀ index ∈ List.range table.symbols.size,
      ((table.symbols.push symbol)[index]?.any fun symbol =>
        symbol.scope = id) =
      table.symbols[index]?.any fun symbol => symbol.scope = id := by
    intro index member
    rw [Array.getElem?_push, if_neg (Nat.ne_of_lt (List.mem_range.mp member))]
  simp only [ownedIds, Array.size_push, List.range_succ, List.filter_append,
    List.filter_congr earlier, List.map_append]
  by_cases same : symbol.scope = id <;> simp [same]

theorem ownedIds_modifySymbol {change : Symbol → Symbol}
    (same : ∀ symbol, (change symbol).bare = symbol.bare) (target : SymbolId)
    (id : ScopeId) :
    (table.modifySymbol target change).ownedIds id = table.ownedIds id := by
  have owners (index : Nat) :
      ((table.modifySymbol target change).symbols[index]?.any fun symbol =>
        symbol.scope = id) =
      table.symbols[index]?.any fun symbol => symbol.scope = id := by
    simp only [modifySymbol, Array.getElem?_modify]
    split
    · cases table.symbols[index]? with
      | none => rfl
      | some symbol => simp [Symbol.scope_eq_of_bare (same symbol)]
    · rfl
  simp only [ownedIds, owners]
  simp [modifySymbol]

namespace Filed

theorem symbol_lt (filed : table.Filed) {id : ScopeId} {scope : Scope}
    (stored : table.scopes[id.index]? = some scope) {symbol : SymbolId}
    (member : symbol ∈ scope.symbols) : symbol.index < table.symbols.size :=
  lt_of_mem_ownedIds ((filed.buckets stored).mem_iff.mp member)

theorem opened (filed : table.Filed) (name : String) (parent : ScopeId) :
    (table.opened name parent).Filed where
  toDense := filed.toDense.opened name parent
  buckets := by
    intro id scope stored
    simp only [SymbolTable.opened, Array.getElem?_push] at stored
    change scope.symbols.Perm (table.ownedIds id)
    split at stored
    · next fresh =>
        cases stored
        -- No symbol can belong to a scope that was not there.
        have none : table.ownedIds id = [] := by
          apply List.map_eq_nil_iff.mpr
          apply List.filter_eq_nil_iff.mpr
          intro index _ owned
          obtain ⟨symbol, held, same⟩ := (Option.any_eq_true _ _).mp owned
          have has := filed.owners symbol (Array.mem_toList_iff.mpr
            (Array.mem_of_getElem? held))
          rw [decide_eq_true_eq.mp same, Has, fresh] at has
          exact Nat.lt_irrefl _ has
        rw [none, Scope.symbols_fresh]
    · exact filed.buckets stored

theorem declared (filed : table.Filed) {id : ScopeId} (has : table.Has id)
    (name : String) (type : Ty) (line : Nat) (isFunction : Bool) :
    (table.declared id name type line isFunction).Filed where
  toDense := filed.toDense.declared has name type line isFunction
  buckets := by
    obtain ⟨scope, stored⟩ := exists_scope has
    have inside := (Array.getElem?_eq_some_iff.mp stored).1
    intro query found held
    simp only [SymbolTable.declared, stored, Array.getElem?_setIfInBounds]
      at held ⊢
    rw [ownedIds_push]
    split at held
    · next same =>
        rw [← ScopeId.ext_iff] at same
        subst same
        cases held
        rw [if_pos rfl]
        exact (Scope.symbols_link _ name _).trans
          ((filed.buckets stored).append_right _)
    · next other =>
        have apart : id ≠ query := fun same => other (congrArg _ same)
        rw [if_neg apart, List.append_nil]
        exact filed.buckets held

theorem modifySymbol (filed : table.Filed) {change : Symbol → Symbol}
    (same : ∀ symbol, (change symbol).bare = symbol.bare)
    (target : SymbolId) : (table.modifySymbol target change).Filed where
  toDense := filed.toDense.modifySymbol same target
  buckets stored := by
    rw [ownedIds_modifySymbol same]
    exact filed.buckets stored

end Filed

end SymbolTable

end CMinusAnalysis
