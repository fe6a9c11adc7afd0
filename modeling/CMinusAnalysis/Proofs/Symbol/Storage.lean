import CMinusAnalysis.Proofs.Symbol.Growth

namespace CMinusAnalysis

/-! Storage slots. A scope hands out its slots one after the other, and only to
symbols that it comes to own, so at any time its symbols have the slots below
its next one, each slot once and in order of creation. -/

namespace SymbolTable

def owned (table : SymbolTable) (id : ScopeId) : List Symbol :=
  table.symbols.toList.filter fun symbol => symbol.scope = id

/-- Every symbol belongs to a scope, and the symbols of a scope have all slots
that it has handed out. -/
structure Dense (table : SymbolTable) : Prop where
  owners : ∀ symbol ∈ table.symbols.toList, table.Has symbol.scope
  slots : ∀ {id : ScopeId} {scope : Scope},
    table.scopes[id.index]? = some scope →
    (table.owned id).map Symbol.location = List.range scope.nextLocation

variable {table : SymbolTable}

theorem Dense.nextLocation_eq (dense : table.Dense) {id : ScopeId}
    {scope : Scope} (stored : table.scopes[id.index]? = some scope) :
    scope.nextLocation = (table.owned id).length := by
  have lengths := congrArg List.length (dense.slots stored)
  rw [List.length_map, List.length_range] at lengths
  exact lengths.symm

theorem owned_push (scopes : Array Scope) (symbol : Symbol) (id : ScopeId) :
    owned ⟨scopes, table.symbols.push symbol⟩ id =
      table.owned id ++ if symbol.scope = id then [symbol] else [] := by
  simp only [owned, Array.toList_push, List.filter_append, List.filter_cons,
    List.filter_nil, decide_eq_true_eq]

theorem Dense.index_unique (dense : table.Dense) {left right : Nat}
    {one other : Symbol} (inLeft : table.symbols[left]? = some one)
    (inRight : table.symbols[right]? = some other)
    (scope : one.scope = other.scope)
    (location : one.location = other.location) : left = right := by
  -- Of two places the later one would repeat a slot of its scope.
  have apart {early late : Nat} {one other : Symbol}
      (before : early < late) (first : table.symbols[early]? = some one)
      (second : table.symbols[late]? = some other)
      (scope : one.scope = other.scope) : one.location ≠ other.location := by
    intro location
    obtain ⟨found, stored⟩ := exists_scope
      (dense.owners other (Array.mem_toList_iff.mpr
        (Array.mem_of_getElem? second)))
    have distinct : ((table.owned other.scope).map Symbol.location).Nodup := by
      rw [dense.slots stored]
      exact List.nodup_range
    rw [← Array.getElem?_toList] at first second
    have split : table.symbols.toList = table.symbols.toList.take late ++
        other :: table.symbols.toList.drop (late + 1) := by
      obtain ⟨inside, rfl⟩ := List.getElem?_eq_some_iff.mp second
      rw [← List.drop_eq_getElem_cons inside, List.take_append_drop]
    have member : one ∈ table.symbols.toList.take late := by
      apply List.mem_of_getElem? (i := early)
      rw [List.getElem?_take_of_lt before, first]
    rw [owned, split, List.filter_append, List.filter_cons_of_pos (by simp),
      List.map_append, List.map_cons, List.nodup_append] at distinct
    have listed : one.location ∈ ((table.symbols.toList.take late).filter
        fun symbol => symbol.scope = other.scope).map Symbol.location :=
      List.mem_map_of_mem (List.mem_filter.mpr ⟨member, by simp [scope]⟩)
    exact distinct.2.2 _ listed _ List.mem_cons_self location
  rcases Nat.lt_trichotomy left right with before | same | after
  · exact absurd location (apart before inLeft inRight scope)
  · exact same
  · exact absurd location.symm (apart after inRight inLeft scope.symm)

theorem Dense.opened (dense : table.Dense) (name : String)
    (parent : ScopeId) : (table.opened name parent).Dense where
  owners symbol member := by
    have has := dense.owners symbol member
    simp only [Has, SymbolTable.opened, Array.size_push] at has ⊢
    omega
  slots := by
    intro id scope stored
    simp only [SymbolTable.opened, Array.getElem?_push] at stored
    split at stored
    · next fresh =>
        cases stored
        -- No symbol can belong to a scope that was not there.
        have none : table.owned id = [] := by
          apply List.filter_eq_nil_iff.mpr
          intro symbol member same
          have has := dense.owners symbol member
          rw [decide_eq_true_eq.mp same, Has, fresh] at has
          exact Nat.lt_irrefl _ has
        change (table.owned id).map _ = _
        rw [none]
        rfl
    · exact dense.slots stored

theorem Dense.declared (dense : table.Dense) {id : ScopeId}
    (has : table.Has id) (name : String) (type : Ty) (line : Nat)
    (isFunction : Bool) :
    (table.declared id name type line isFunction).Dense := by
  obtain ⟨scope, stored⟩ := exists_scope has
  have inside := (Array.getElem?_eq_some_iff.mp stored).1
  constructor
  · intro symbol member
    rw [Has, size_scopes_declared]
    simp only [SymbolTable.declared, stored, Array.toList_push,
      List.mem_append, List.mem_singleton] at member
    rcases member with earlier | rfl
    · exact dense.owners symbol earlier
    · exact has
  · intro query found held
    simp only [SymbolTable.declared, stored, Array.getElem?_setIfInBounds]
      at held ⊢
    rw [owned_push, List.map_append]
    split at held
    · next same =>
        rw [← ScopeId.ext_iff] at same
        subst same
        cases held
        rw [dense.slots stored, if_pos rfl]
        exact List.range_succ.symm
    · next other =>
        have apart : id ≠ query := fun same => other (congrArg _ same)
        rw [dense.slots held, if_neg apart]
        exact List.append_nil _

theorem map_location_owned (table : SymbolTable) (id : ScopeId) :
    (table.owned id).map Symbol.location =
      ((table.symbols.toList.map Symbol.bare).filter
        fun symbol => symbol.scope = id).map Symbol.location := by
  rw [List.filter_map, List.map_map]
  rfl

theorem Dense.modifySymbol (dense : table.Dense) {change : Symbol → Symbol}
    (same : ∀ symbol, (change symbol).bare = symbol.bare)
    (target : SymbolId) : (table.modifySymbol target change).Dense where
  owners symbol member := by
    have listed := List.mem_map_of_mem (f := Symbol.bare) member
    rw [map_modifySymbol _ fun symbol _ => same symbol] at listed
    obtain ⟨before, earlier, alike⟩ := List.mem_map.mp listed
    rw [← Symbol.scope_eq_of_bare alike]
    exact dense.owners before earlier
  slots := by
    intro id scope stored
    rw [map_location_owned, map_modifySymbol _ fun symbol _ => same symbol,
      ← map_location_owned]
    exact dense.slots stored

end SymbolTable

end CMinusAnalysis
