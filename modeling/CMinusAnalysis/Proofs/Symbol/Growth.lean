import Mathlib.Data.List.Find
import CMinusAnalysis.Proofs.Symbol.Resolution

namespace CMinusAnalysis

/-! How a symbol table grows. Whatever is done to a table, scopes stay where
they are and a name that a scope has keeps its symbol. A table has settled but
for some scopes when only these still take names; once only the outermost scope
does, what a name stands for stays as it is. -/

/-- A symbol without what later steps add to it. -/
def Symbol.bare (symbol : Symbol) : Symbol :=
  { symbol with parameters := [], latestLines := [] }

namespace Symbol

@[simp] theorem bare_addLine (symbol : Symbol) (line : Nat) :
    (symbol.addLine line).bare = symbol.bare := rfl

@[simp] theorem bare_addParameter (symbol : Symbol) (type : Ty) :
    (symbol.addParameter type).bare = symbol.bare := rfl

variable {symbol changed : Symbol}

theorem name_eq_of_bare (same : changed.bare = symbol.bare) :
    changed.name = symbol.name := by
  have parts := same
  simp only [bare, Symbol.mk.injEq] at parts
  exact parts.1

theorem type_eq_of_bare (same : changed.bare = symbol.bare) :
    changed.type = symbol.type := by
  have parts := same
  simp only [bare, Symbol.mk.injEq] at parts
  exact parts.2.1

theorem scope_eq_of_bare (same : changed.bare = symbol.bare) :
    changed.scope = symbol.scope := by
  have parts := same
  simp only [bare, Symbol.mk.injEq] at parts
  exact parts.2.2.2.2.2.2

end Symbol

namespace SymbolTable

structure Extends (earlier later : SymbolTable) : Prop where
  size_le : earlier.scopes.size ≤ later.scopes.size
  parent? : ∀ {id : ScopeId}, earlier.Has id →
    later.parent? id = earlier.parent? id
  find? : ∀ {id : ScopeId} {name : String} {symbol : SymbolId},
    earlier.find? id name = some symbol → later.find? id name = some symbol
  symbol : ∀ {index : Nat} {symbol : Symbol},
    earlier.symbols[index]? = some symbol →
    ∃ changed, later.symbols[index]? = some changed ∧
      changed.bare = symbol.bare

/-- Of the scopes that there were, only those in `taking` have taken names. -/
structure Settled (taking : ScopeId → Prop) (earlier later : SymbolTable) :
    Prop extends Extends earlier later where
  closed : ∀ {id : ScopeId}, earlier.Has id → ¬ taking id →
    ∀ name, later.find? id name = earlier.find? id name

variable {table earlier middle later : SymbolTable}

namespace Extends

theorem refl (table : SymbolTable) : Extends table table where
  size_le := Nat.le_refl _
  parent? _ := rfl
  find? hit := hit
  symbol stored := ⟨_, stored, rfl⟩

theorem has (extends' : Extends earlier later) {id : ScopeId}
    (has : earlier.Has id) : later.Has id :=
  Nat.lt_of_lt_of_le has extends'.size_le

theorem trans (first : Extends earlier middle) (second : Extends middle later) :
    Extends earlier later where
  size_le := Nat.le_trans first.size_le second.size_le
  parent? has := (second.parent? (first.has has)).trans (first.parent? has)
  find? hit := second.find? (first.find? hit)
  symbol stored := by
    obtain ⟨_, there, same⟩ := first.symbol stored
    obtain ⟨changed, stored, again⟩ := second.symbol there
    exact ⟨changed, stored, again.trans same⟩

theorem symbol_lt (extends' : Extends earlier later) {index : Nat}
    (inside : index < earlier.symbols.size) : index < later.symbols.size := by
  obtain ⟨_, stored, _⟩ := extends'.symbol (Array.getElem?_eq_getElem inside)
  exact (Array.getElem?_eq_some_iff.mp stored).1

theorem typeOf? (extends' : Extends earlier later) {id : SymbolId} {type : Ty}
    (typed : earlier.typeOf? id = some type) : later.typeOf? id = some type := by
  obtain ⟨symbol, stored, rfl⟩ := Option.map_eq_some_iff.mp typed
  obtain ⟨changed, there, same⟩ := extends'.symbol stored
  simp [SymbolTable.typeOf?, there, Symbol.type_eq_of_bare same]

theorem resolve_isSome (extends' : Extends earlier later)
    (coherent : earlier.Coherent) (finished : later.Coherent) {id : ScopeId}
    (has : earlier.Has id) {name : String}
    (hit : (earlier.resolve id name).isSome = true) :
    (later.resolve id name).isSome = true := by
  revert hit
  apply coherent.scope_induction has
  · rw [resolve_global coherent, resolve_global finished]
    intro hit
    obtain ⟨symbol, found⟩ := Option.isSome_iff_exists.mp hit
    rw [extends'.find? found]
    rfl
  · intro id parent inside induction
    have onward : later.parent? id = some parent := by
      rw [extends'.parent? (has_of_parent? inside), inside]
    rw [resolve_inner coherent inside, resolve_inner finished onward]
    cases found : earlier.find? id name with
    | some symbol => simp [extends'.find? found]
    | none =>
        intro hit
        simp [induction hit]

end Extends

namespace Settled

variable {taking : ScopeId → Prop}

theorem refl (taking : ScopeId → Prop) (table : SymbolTable) :
    Settled taking table table :=
  { Extends.refl table with closed := fun _ _ _ => rfl }

theorem trans (first : Settled taking earlier middle)
    (second : Settled taking middle later) : Settled taking earlier later :=
  { first.toExtends.trans second.toExtends with
    closed := fun has shut name =>
      (second.closed (first.has has) shut name).trans
        (first.closed has shut name) }

theorem mono (settled : Settled taking earlier later)
    {more : ScopeId → Prop}
    (wider : ∀ id, earlier.Has id → taking id → more id) :
    Settled more earlier later :=
  { settled.toExtends with
    closed := fun has shut name =>
      settled.closed has (fun takes => shut (wider _ has takes)) name }

theorem resolve (settled : Settled (· = ScopeId.global) earlier later)
    (coherent : earlier.Coherent) (finished : later.Coherent) {id : ScopeId}
    (has : earlier.Has id) {name : String} {symbol : SymbolId}
    (hit : earlier.resolve id name = some symbol) :
    later.resolve id name = some symbol := by
  revert hit
  apply coherent.scope_induction has
  · rw [resolve_global coherent, resolve_global finished]
    exact settled.find?
  · intro id parent inside induction
    have onward : later.parent? id = some parent := by
      rw [settled.parent? (has_of_parent? inside), inside]
    have inner : id ≠ ScopeId.global := by
      rintro rfl
      rw [coherent.global_parent?] at inside
      cases inside
    rw [resolve_inner coherent inside, resolve_inner finished onward,
      settled.closed (has_of_parent? inside) inner]
    cases earlier.find? id name with
    | some found => exact fun hit => hit
    | none => simpa using induction

end Settled

def opened (table : SymbolTable) (name : String) (parent : ScopeId) :
    SymbolTable :=
  { table with scopes := table.scopes.push { name, parent := some parent } }

theorem createScope_result (table : SymbolTable) (name : String)
    (parent : ScopeId) :
    (table.createScope name (some parent)).result =
      .ok (⟨table.scopes.size⟩, table.opened name parent) := by
  simp [createScope, opened]

theorem parent?_opened (name : String) (parent id : ScopeId) :
    (table.opened name parent).parent? id =
      if id.index = table.scopes.size then some parent
      else table.parent? id := by
  simp only [parent?, opened, Array.getElem?_push]
  split <;> rfl

theorem chain_fresh (name other : String) (parent : Option ScopeId) :
    ({ name, parent } : Scope).chain other = [] := by
  exact Vector.getElem_replicate _

theorem find?_opened (name : String) (parent id : ScopeId) (query : String) :
    (table.opened name parent).find? id query = table.find? id query := by
  simp only [find?, opened, Array.getElem?_push]
  split
  · next fresh =>
      rw [fresh, Array.getElem?_eq_none (Nat.le_refl _)]
      simp [chain_fresh]
  · rfl

theorem scope_opened {name : String} {parent id : ScopeId} {scope : Scope}
    (stored : table.scope id = .ok scope) :
    (table.opened name parent).scope id = .ok scope := by
  have held := fetch_eq_ok_iff.mp stored
  have inside := (Array.getElem?_eq_some_iff.mp held).1
  apply scope_eq_ok
  rw [opened, Array.getElem?_push, if_neg (Nat.ne_of_lt inside), held]

theorem Coherent.opened (coherent : table.Coherent) (name : String)
    {parent : ScopeId} (has : table.Has parent) :
    (table.opened name parent).Coherent where
  older := by
    intro id outer inside
    rw [parent?_opened] at inside
    split at inside
    · next fresh =>
        cases inside
        exact fresh ▸ has
    · exact coherent.older inside
  enclosed := by
    intro id there inner
    rw [parent?_opened]
    split
    · rfl
    · next old =>
        apply coherent.enclosed _ inner
        simp only [Has, SymbolTable.opened, Array.size_push] at there ⊢
        omega
  linked := by
    intro id scope query symbol stored member
    simp only [SymbolTable.opened, Array.getElem?_push] at stored
    split at stored
    · cases stored
      rw [chain_fresh] at member
      cases member
    · exact coherent.linked stored member
  owned := by
    intro id scope query symbol entry stored member held
    simp only [SymbolTable.opened, Array.getElem?_push] at stored
    split at stored
    · cases stored
      rw [chain_fresh] at member
      cases member
    · exact coherent.owned stored member held

theorem settled_opened (taking : ScopeId → Prop) (table : SymbolTable)
    (name : String) (parent : ScopeId) :
    Settled taking table (table.opened name parent) where
  size_le := by simp [opened]
  parent? has := by
    rw [parent?_opened, if_neg (Nat.ne_of_lt has)]
  find? hit := by rw [find?_opened, hit]
  symbol stored := ⟨_, stored, rfl⟩
  closed _ _ query := find?_opened name parent _ query

theorem map_modifySymbol {change : Symbol → Symbol} (view : Symbol → α)
    (blind : ∀ symbol ∈ table.symbols.toList,
      view (change symbol) = view symbol) (target : SymbolId) :
    (table.modifySymbol target change).symbols.toList.map view =
      table.symbols.toList.map view := by
  apply List.ext_getElem?
  intro index
  simp only [modifySymbol, Array.toList_modify, List.getElem?_map,
    List.getElem?_modify]
  cases held : table.symbols.toList[index]? with
  | none => rfl
  | some symbol =>
      simp only [Option.map_eq_map, Option.map_some]
      split
      · rw [blind symbol (List.mem_of_getElem? held)]
      · rfl

theorem hasName_modifySymbol {change : Symbol → Symbol}
    (same : ∀ symbol, (change symbol).bare = symbol.bare) (target : SymbolId)
    (name : String) :
    (table.modifySymbol target change).hasName name = table.hasName name := by
  funext id
  simp only [hasName, modifySymbol, Array.getElem?_modify]
  split
  · cases table.symbols[id.index]? with
    | none => rfl
    | some symbol => simp [Symbol.name_eq_of_bare (same symbol)]
  · rfl

theorem find?_modifySymbol {change : Symbol → Symbol}
    (same : ∀ symbol, (change symbol).bare = symbol.bare) (target : SymbolId)
    (id : ScopeId) (name : String) :
    (table.modifySymbol target change).find? id name = table.find? id name := by
  simp only [find?, hasName_modifySymbol same]
  rfl

theorem Coherent.modifySymbol (coherent : table.Coherent)
    {change : Symbol → Symbol}
    (same : ∀ symbol, (change symbol).bare = symbol.bare)
    (target : SymbolId) : (table.modifySymbol target change).Coherent where
  older := coherent.older
  enclosed := coherent.enclosed
  linked stored member := by
    simpa [SymbolTable.modifySymbol] using coherent.linked stored member
  owned := by
    intro id scope name symbol entry stored member held
    simp only [SymbolTable.modifySymbol, Array.getElem?_modify] at held
    split at held
    · obtain ⟨before, was, rfl⟩ := Option.map_eq_some_iff.mp held
      rw [Symbol.scope_eq_of_bare (same before)]
      exact coherent.owned stored member was
    · exact coherent.owned stored member held

theorem settled_modifySymbol {change : Symbol → Symbol}
    (same : ∀ symbol, (change symbol).bare = symbol.bare)
    (taking : ScopeId → Prop) (target : SymbolId) :
    Settled taking table (table.modifySymbol target change) where
  size_le := Nat.le_refl _
  parent? _ := rfl
  find? hit := by rw [find?_modifySymbol same, hit]
  symbol {index symbol} stored := by
    simp only [modifySymbol, Array.getElem?_modify, stored]
    split
    · exact ⟨change symbol, rfl, same symbol⟩
    · exact ⟨symbol, rfl, rfl⟩
  closed _ _ name := find?_modifySymbol same target _ name

def declared (table : SymbolTable) (id : ScopeId) (name : String) (type : Ty)
    (line : Nat) (isFunction : Bool) : SymbolTable :=
  match table.scopes[id.index]? with
  | none => table
  | some scope =>
      { scopes := table.scopes.setIfInBounds id.index
          (Scope.link { scope with nextLocation := scope.nextLocation + 1 }
            name ⟨table.symbols.size⟩)
        symbols := table.symbols.push
          { name, type, location := scope.nextLocation, isFunction,
            latestLines := [line], scope := id } }

theorem bucket_link (scope : Scope) (name : String) (id : SymbolId)
    (place : Fin bucketCount) :
    (scope.link name id).buckets.get place =
      scope.buckets.get place ++
        if bucketOf name = place then [id] else [] := by
  change (scope.buckets.set (bucketOf name) (scope.chain name ++ [id])
    (bucketOf name).isLt)[place.val] = _
  rw [Vector.getElem_set]
  by_cases same : bucketOf name = place
  · subst same
    simp [Scope.chain]
  · have apart : (bucketOf name).val ≠ place.val :=
      fun equal => same (Fin.ext equal)
    simp [same, apart, Vector.get]

theorem chain_link (scope : Scope) (name other : String) (id : SymbolId) :
    (scope.link name id).chain other =
      if bucketOf other = bucketOf name then scope.chain other ++ [id]
      else scope.chain other := by
  rw [Scope.chain, bucket_link]
  by_cases same : bucketOf other = bucketOf name
  · simp [same, Scope.chain]
  · simp [same, Ne.symm same, Scope.chain]

section Declared

variable {id : ScopeId} {name : String} {type : Ty} {line : Nat}
  {isFunction : Bool}

theorem symbols_declared (has : table.Has id) (name : String) (type : Ty)
    (line : Nat) (isFunction : Bool) :
    ∃ location, (table.declared id name type line isFunction).symbols =
      table.symbols.push
        { name, type, location, isFunction, latestLines := [line],
          scope := id } := by
  obtain ⟨scope, stored⟩ := exists_scope has
  exact ⟨scope.nextLocation, by simp [declared, stored]⟩

theorem parent?_declared (query : ScopeId) :
    (table.declared id name type line isFunction).parent? query =
      table.parent? query := by
  unfold declared
  split
  · rfl
  · next scope stored =>
      simp only [parent?, Array.getElem?_setIfInBounds]
      split
      · next same =>
          have inside := (Array.getElem?_eq_some_iff.mp stored).1
          rw [← same, if_pos inside, stored]
          rfl
      · rfl

theorem size_scopes_declared :
    (table.declared id name type line isFunction).scopes.size =
      table.scopes.size := by
  unfold declared
  split <;> simp

theorem hasName_push {symbol : Symbol} {query : SymbolId}
    (old : query.index < table.symbols.size) (scopes : Array Scope)
    (other : String) :
    hasName ⟨scopes, table.symbols.push symbol⟩ other query =
      table.hasName other query := by
  simp [hasName, Array.getElem?_push, Nat.ne_of_lt old]

theorem find?_declared (coherent : table.Coherent) (has : table.Has id)
    (free : table.find? id name = none) (query : ScopeId) (other : String) :
    (table.declared id name type line isFunction).find? query other =
      if query = id ∧ other = name then some ⟨table.symbols.size⟩
      else table.find? query other := by
  obtain ⟨scope, stored⟩ := exists_scope has
  have old (there : ScopeId) {found : Scope}
      (held : table.scopes[there.index]? = some found) (symbol : Symbol)
      (scopes : Array Scope) :
      (found.chain other).find?
          (hasName ⟨scopes, table.symbols.push symbol⟩ other) =
        (found.chain other).find? (table.hasName other) :=
    List.find?_congr fun symbol member =>
      hasName_push (coherent.linked held member) scopes other
  simp only [find?, declared, stored, Array.getElem?_setIfInBounds]
  by_cases same : query = id
  · subst same
    have fresh (other : String) :
        hasName ⟨table.scopes.setIfInBounds query.index
            (Scope.link { scope with nextLocation := scope.nextLocation + 1 }
              name ⟨table.symbols.size⟩),
          table.symbols.push
            { name, type, location := scope.nextLocation, isFunction,
              latestLines := [line], scope := query }⟩ other
          ⟨table.symbols.size⟩ = (name == other) := by
      simp [hasName]
    have kept : Scope.chain
        { scope with nextLocation := scope.nextLocation + 1 } other =
          scope.chain other := rfl
    have inside := (Array.getElem?_eq_some_iff.mp stored).1
    simp only [inside, if_true, Option.bind_some, chain_link, kept, stored,
      true_and]
    by_cases named : other = name
    · subst named
      simp only [find?, stored, Option.bind_some] at free
      simp [List.find?_append, old query stored, free, fresh]
    · have unlike : (name == other) = false := by
        simpa using Ne.symm named
      split
      · simp [List.find?_append, old query stored, fresh, unlike]
      · simp [old query stored]
  · have apart : id.index ≠ query.index :=
      fun equal => same (ScopeId.ext equal.symm)
    simp only [apart, if_false, same, false_and]
    cases held : table.scopes[query.index]? with
    | none => rfl
    | some found => simp [old query held]

theorem Coherent.declared (coherent : table.Coherent) (has : table.Has id) :
    (table.declared id name type line isFunction).Coherent where
  older inside := coherent.older (parent?_declared _ ▸ inside)
  enclosed there inner := by
    rw [parent?_declared]
    apply coherent.enclosed _ inner
    rwa [Has, size_scopes_declared] at there
  linked := by
    intro query found other symbol held member
    obtain ⟨location, symbols⟩ :=
      symbols_declared has name type line isFunction
    rw [symbols, Array.size_push]
    obtain ⟨scope, stored⟩ := exists_scope has
    simp only [SymbolTable.declared, stored, Array.getElem?_setIfInBounds]
      at held
    split at held
    · have inside := (Array.getElem?_eq_some_iff.mp stored).1
      simp only [inside, if_true, Option.some.injEq] at held
      subst held
      rw [chain_link] at member
      have old : symbol ∈ scope.chain other → symbol.index <
          table.symbols.size + 1 := fun listed =>
        Nat.lt_succ_of_lt (coherent.linked stored listed)
      split at member
      · rcases List.mem_append.mp member with listed | last
        · exact old listed
        · rw [List.mem_singleton.mp last]
          exact Nat.lt_succ_self _
      · exact old member
    · exact Nat.lt_succ_of_lt (coherent.linked held member)
  owned := by
    intro query found other symbol entry held member there
    obtain ⟨location, symbols⟩ :=
      symbols_declared has name type line isFunction
    obtain ⟨scope, stored⟩ := exists_scope has
    rw [symbols] at there
    have old {query : ScopeId} {found : Scope}
        (held : table.scopes[query.index]? = some found)
        (listed : symbol ∈ found.chain other) : entry.scope = query := by
      have inside := coherent.linked held listed
      rw [Array.getElem?_push, if_neg (Nat.ne_of_lt inside)] at there
      exact coherent.owned held listed there
    simp only [SymbolTable.declared, stored, Array.getElem?_setIfInBounds]
      at held
    split at held
    · next same =>
        have inside := (Array.getElem?_eq_some_iff.mp stored).1
        simp only [inside, if_true, Option.some.injEq] at held
        subst held
        rw [← ScopeId.ext_iff] at same
        subst same
        rw [chain_link] at member
        split at member
        · rcases List.mem_append.mp member with listed | last
          · exact old stored listed
          · rw [List.mem_singleton.mp last] at there
            simp at there
            rw [← there]
        · exact old stored member
    · exact old held member

theorem extends_declared (coherent : table.Coherent) (has : table.Has id)
    (free : table.find? id name = none) :
    Extends table (table.declared id name type line isFunction) where
  size_le := Nat.le_of_eq size_scopes_declared.symm
  parent? _ := parent?_declared _
  find? {query other symbol} hit := by
    rw [find?_declared coherent has free]
    split
    · next same =>
        rw [same.1, same.2, free] at hit
        cases hit
    · exact hit
  symbol {index symbol} stored := by
    obtain ⟨location, symbols⟩ :=
      symbols_declared has name type line isFunction
    have inside := (Array.getElem?_eq_some_iff.mp stored).1
    refine ⟨symbol, ?_, rfl⟩
    rw [symbols, Array.getElem?_push, if_neg (Nat.ne_of_lt inside), stored]

theorem settled_declared (coherent : table.Coherent) (has : table.Has id)
    (free : table.find? id name = none) :
    Settled (· = id) table (table.declared id name type line isFunction) :=
  { extends_declared coherent has free with
    closed := by
      intro query _ elsewhere other
      rw [find?_declared coherent has free, if_neg]
      exact fun same => elsewhere same.1 }

end Declared

end SymbolTable

end CMinusAnalysis
