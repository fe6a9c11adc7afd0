import Mathlib.Data.List.Nodup
import Mathlib.Data.List.Perm.Subperm
import CMinusAnalysis.Proofs.Outcome
import CMinusAnalysis.Symbol.Table

namespace CMinusAnalysis

/-! What a symbol table says about names, apart from how it stores them: which
scope encloses which, and which symbol a scope has for a name. On a coherent
table a lookup is the first hit on the way out. -/

namespace SymbolTable

def Has (table : SymbolTable) (id : ScopeId) : Prop :=
  id.index < table.scopes.size

def parent? (table : SymbolTable) (id : ScopeId) : Option ScopeId :=
  table.scopes[id.index]?.bind Scope.parent

def find? (table : SymbolTable) (id : ScopeId) (name : String) :
    Option SymbolId :=
  table.scopes[id.index]?.bind fun scope =>
    (scope.chain name).find? (table.hasName name)

def typeOf? (table : SymbolTable) (id : SymbolId) : Option Ty :=
  table.symbols[id.index]?.map Symbol.type

/-- Scopes lie inside older ones, all but the first, and the chains of a scope
hold symbols that exist and are its own. -/
structure Coherent (table : SymbolTable) : Prop where
  older : ∀ {id parent : ScopeId}, table.parent? id = some parent →
    parent.index < id.index
  enclosed : ∀ {id : ScopeId}, table.Has id → id ≠ ScopeId.global →
    (table.parent? id).isSome = true
  linked : ∀ {id : ScopeId} {scope : Scope} {name : String}
    {symbol : SymbolId}, table.scopes[id.index]? = some scope →
    symbol ∈ scope.chain name → symbol.index < table.symbols.size
  owned : ∀ {id : ScopeId} {scope : Scope} {name : String}
    {symbol : SymbolId} {entry : Symbol},
    table.scopes[id.index]? = some scope → symbol ∈ scope.chain name →
    table.symbols[symbol.index]? = some entry → entry.scope = id

/-- Every scope lies in one that exists or in none, and no way out of a scope
comes back to it. -/
structure Nested (table : SymbolTable) : Prop where
  parent_has : ∀ {id parent : ScopeId}, table.parent? id = some parent →
    table.Has parent
  acyclic : ∀ id : ScopeId, ¬ Relation.TransGen
    (fun inner outer => table.parent? inner = some outer) id id

variable {table : SymbolTable}

theorem exists_scope {id : ScopeId} (has : table.Has id) :
    ∃ scope, table.scopes[id.index]? = some scope :=
  ⟨table.scopes[id.index], Array.getElem?_eq_getElem has⟩

theorem global?_eq_some {id : ScopeId} (has : table.Has id) :
    table.global? = some ScopeId.global := by
  have nonempty : table.scopes ≠ #[] := by
    intro empty
    rw [Has, empty] at has
    exact Nat.not_lt_zero _ has
  simp [global?, nonempty]

theorem scope_eq_ok {id : ScopeId} {scope : Scope}
    (stored : table.scopes[id.index]? = some scope) :
    table.scope id = .ok scope :=
  fetch_eq_ok_iff.mpr stored

theorem symbol_eq_ok {id : SymbolId} {symbol : Symbol}
    (stored : table.symbols[id.index]? = some symbol) :
    table.symbol id = .ok symbol :=
  fetch_eq_ok_iff.mpr stored

theorem lookupLocal_eq {id : ScopeId} (has : table.Has id) (name : String) :
    table.lookupLocal id name = .ok (table.find? id name) := by
  obtain ⟨scope, stored⟩ := exists_scope has
  simp [lookupLocal, scope_eq_ok stored, find?, stored]

theorem name_of_find? {id : ScopeId} {name : String} {found : SymbolId}
    (hit : table.find? id name = some found) :
    ∃ symbol, table.symbols[found.index]? = some symbol ∧
      symbol.name = name := by
  obtain ⟨scope, stored, here⟩ := Option.bind_eq_some_iff.mp hit
  have named := List.find?_some here
  obtain ⟨symbol, there, same⟩ := (Option.any_eq_true _ _).mp named
  exact ⟨symbol, there, beq_iff_eq.mp same⟩

theorem has_of_find? {id : ScopeId} {name : String} {found : SymbolId}
    (hit : table.find? id name = some found) : table.Has id := by
  obtain ⟨scope, stored, _⟩ := Option.bind_eq_some_iff.mp hit
  exact (Array.getElem?_eq_some_iff.mp stored).1

theorem has_of_parent? {id parent : ScopeId}
    (inside : table.parent? id = some parent) : table.Has id := by
  obtain ⟨scope, stored, _⟩ := Option.bind_eq_some_iff.mp inside
  exact (Array.getElem?_eq_some_iff.mp stored).1

theorem nested_of_older
    (older : ∀ {id parent : ScopeId}, table.parent? id = some parent →
      parent.index < id.index) : table.Nested where
  parent_has inside :=
    Nat.lt_trans (older inside) (has_of_parent? inside)
  acyclic := by
    have descends {inner outer : ScopeId} (around : Relation.TransGen
        (fun inner outer => table.parent? inner = some outer) inner outer) :
        outer.index < inner.index := by
      induction around with
      | single inside => exact older inside
      | tail _ inside induction => exact Nat.lt_trans (older inside) induction
    exact fun id cycle => Nat.lt_irrefl _ (descends cycle)

namespace Coherent

theorem nested (coherent : table.Coherent) : table.Nested :=
  nested_of_older coherent.older

theorem parent_has (coherent : table.Coherent) {id parent : ScopeId}
    (inside : table.parent? id = some parent) : table.Has parent :=
  coherent.nested.parent_has inside

theorem global_parent? (coherent : table.Coherent) :
    table.parent? ScopeId.global = none := by
  cases outer : table.parent? ScopeId.global with
  | none => rfl
  | some parent => exact absurd (coherent.older outer) (Nat.not_lt_zero _)

theorem eq_global (coherent : table.Coherent) {id : ScopeId}
    (has : table.Has id) (outermost : table.parent? id = none) :
    id = ScopeId.global := by
  apply Decidable.byContradiction
  intro inner
  have enclosed := coherent.enclosed has inner
  rw [outermost] at enclosed
  cases enclosed

theorem scope_unique (coherent : table.Coherent) {left right : ScopeId}
    {name other : String} {symbol : SymbolId}
    (inLeft : table.find? left name = some symbol)
    (inRight : table.find? right other = some symbol) : left = right := by
  obtain ⟨entry, held, _⟩ := name_of_find? inLeft
  have owner {id : ScopeId} {name : String}
      (hit : table.find? id name = some symbol) : entry.scope = id := by
    obtain ⟨scope, stored, here⟩ := Option.bind_eq_some_iff.mp hit
    exact coherent.owned stored (List.mem_of_find?_eq_some here) held
  exact (owner inLeft).symm.trans (owner inRight)

theorem scope_induction (coherent : table.Coherent)
    {motive : ScopeId → Prop} {id : ScopeId} (has : table.Has id)
    (global : motive ScopeId.global)
    (inner : ∀ id parent, table.parent? id = some parent → motive parent →
      motive id) : motive id := by
  obtain ⟨index⟩ := id
  induction index using Nat.strongRecOn with
  | ind index induction =>
      cases outer : table.parent? ⟨index⟩ with
      | none =>
          rw [coherent.eq_global has outer]
          exact global
      | some parent =>
          exact inner _ parent outer (induction parent.index
            (coherent.older outer) (coherent.parent_has outer))

end Coherent

def outwardWithin (table : SymbolTable) : Nat → ScopeId → List ScopeId
  | 0, _ => []
  | steps + 1, id =>
      id :: match table.parent? id with
        | some parent => table.outwardWithin steps parent
        | none => []

/-- The scope and all scopes around it, innermost first. -/
def outward (table : SymbolTable) (id : ScopeId) : List ScopeId :=
  table.outwardWithin (id.index + 1) id

/-- The symbol that the name stands for, seen from the scope. -/
def resolve (table : SymbolTable) (id : ScopeId) (name : String) :
    Option SymbolId :=
  (table.outwardWithin (table.scopes.size + 1) id).findSome? fun scope =>
    table.find? scope name

theorem outwardWithin_inner {id parent : ScopeId}
    (inside : table.parent? id = some parent) (steps : Nat) :
    table.outwardWithin (steps + 1) id =
      id :: table.outwardWithin steps parent := by
  rw [outwardWithin, inside]

theorem outwardWithin_eq_of_older
    (older : ∀ {id parent : ScopeId}, table.parent? id = some parent →
      parent.index < id.index) {steps : Nat} {id : ScopeId}
    (enough : id.index < steps) :
    table.outwardWithin steps id = table.outward id := by
  have same (left right : Nat) : ∀ {id : ScopeId}, id.index < left →
      id.index < right →
      table.outwardWithin left id = table.outwardWithin right id := by
    induction left generalizing right with
    | zero => intro id impossible; exact absurd impossible (Nat.not_lt_zero _)
    | succ left induction =>
        intro id inLeft inRight
        cases right with
        | zero => exact absurd inRight (Nat.not_lt_zero _)
        | succ right =>
            simp only [outwardWithin]
            cases outer : table.parent? id with
            | none => rfl
            | some parent =>
                have before := older outer
                simp only
                rw [induction right (by omega) (by omega)]
  exact same steps (id.index + 1) enough (Nat.lt_succ_self _)

theorem outward_of_older
    (older : ∀ {id parent : ScopeId}, table.parent? id = some parent →
      parent.index < id.index) {id parent : ScopeId}
    (inside : table.parent? id = some parent) :
    table.outward id = id :: table.outward parent := by
  rw [outward, outwardWithin_inner inside,
    outwardWithin_eq_of_older older (older inside)]

theorem outwardWithin_eq_outward (coherent : table.Coherent) {steps : Nat}
    {id : ScopeId} (enough : id.index < steps) :
    table.outwardWithin steps id = table.outward id :=
  outwardWithin_eq_of_older coherent.older enough

theorem outward_inner (coherent : table.Coherent) {id parent : ScopeId}
    (inside : table.parent? id = some parent) :
    table.outward id = id :: table.outward parent :=
  outward_of_older coherent.older inside

theorem outward_global (coherent : table.Coherent) :
    table.outward ScopeId.global = [ScopeId.global] := by
  rw [outward, outwardWithin, coherent.global_parent?]

theorem resolve_eq_outward (coherent : table.Coherent) {id : ScopeId}
    (near : id.index ≤ table.scopes.size) (name : String) :
    table.resolve id name =
      (table.outward id).findSome? fun scope => table.find? scope name := by
  rw [resolve, outwardWithin_eq_outward coherent (Nat.lt_succ_of_le near)]

theorem resolve_inner (coherent : table.Coherent) {id parent : ScopeId}
    (inside : table.parent? id = some parent) (name : String) :
    table.resolve id name =
      (table.find? id name).or (table.resolve parent name) := by
  rw [resolve_eq_outward coherent (Nat.le_of_lt (has_of_parent? inside)),
    resolve_eq_outward coherent (Nat.le_of_lt (coherent.parent_has inside)),
    outward_inner coherent inside, List.findSome?_cons]
  cases table.find? id name <;> rfl

theorem resolve_global (coherent : table.Coherent) (name : String) :
    table.resolve ScopeId.global name = table.find? ScopeId.global name := by
  have near : ScopeId.global.index ≤ table.scopes.size := Nat.zero_le _
  rw [resolve_eq_outward coherent near, outward_global coherent,
    List.findSome?_cons]
  cases table.find? ScopeId.global name <;> rfl

theorem name_of_resolve {id : ScopeId} {name : String} {found : SymbolId}
    (hit : table.resolve id name = some found) :
    ∃ symbol, table.symbols[found.index]? = some symbol ∧
      symbol.name = name := by
  obtain ⟨scope, _, here⟩ := List.exists_of_findSome?_eq_some hit
  exact name_of_find? here

theorem exists_of_resolve {id : ScopeId} {name : String} {found : SymbolId}
    (hit : table.resolve id name = some found) :
    ∃ symbol, table.symbols[found.index]? = some symbol := by
  obtain ⟨symbol, stored, _⟩ := name_of_resolve hit
  exact ⟨symbol, stored⟩

theorem has_of_mem_outward (coherent : table.Coherent) {id scope : ScopeId}
    (has : table.Has id) (around : scope ∈ table.outward id) :
    table.Has scope := by
  revert around
  apply coherent.scope_induction has
  · intro around
    rw [outward_global coherent, List.mem_singleton] at around
    rw [around]
    exact Nat.zero_lt_of_lt has
  · intro id parent inside induction around
    rw [outward_inner coherent inside, List.mem_cons] at around
    rcases around with rfl | outer
    · exact has_of_parent? inside
    · exact induction outer

theorem resolve_eq_global_iff (coherent : table.Coherent) {id : ScopeId}
    (has : table.Has id) {name : String} {symbol : SymbolId}
    (global : table.find? ScopeId.global name = some symbol) :
    table.resolve id name = some symbol ↔
      ∀ scope ∈ table.outward id, scope ≠ ScopeId.global →
        table.find? scope name = none := by
  apply coherent.scope_induction has
  · simp [resolve_global coherent, outward_global coherent, global]
  · intro id parent inside induction
    have inner : id ≠ ScopeId.global := by
      rintro rfl
      rw [coherent.global_parent?] at inside
      cases inside
    rw [resolve_inner coherent inside, outward_inner coherent inside,
      List.forall_mem_cons]
    cases here : table.find? id name with
    | none => simpa using induction
    | some hidden =>
        constructor
        · intro same
          cases Option.some.inj same
          exact absurd (coherent.scope_unique here global) inner
        · intro free
          exact absurd (free.1 inner) (by simp)

theorem globalFunction?_eq_some {name : String} {symbol : SymbolId}
    {entry : Symbol} (hit : table.find? ScopeId.global name = some symbol)
    (stored : table.symbols[symbol.index]? = some entry)
    (function : entry.isFunction = true) :
    table.globalFunction? name = some symbol := by
  simp [globalFunction?, lookupLocal_eq (has_of_find? hit), hit, stored,
    function]

theorem Nested.lookupWithin_eq (nested : table.Nested) (name : String)
    {steps : Nat} {id : ScopeId} (has : table.Has id) :
    table.lookupWithin name steps id =
      .ok ((table.outwardWithin steps id).findSome? fun scope =>
        table.find? scope name) := by
  induction steps generalizing id with
  | zero => rfl
  | succ steps induction =>
      obtain ⟨scope, stored⟩ := exists_scope has
      have parent_eq : table.parent? id = scope.parent := by
        simp [parent?, stored]
      rw [lookupWithin, lookupLocal_eq has, outwardWithin]
      cases hit : table.find? id name with
      | some found => simp [hit]
      | none =>
          cases outer : scope.parent with
          | none => simp [hit, parent_eq, outer, scope_eq_ok stored]
          | some parent =>
              have inside : table.parent? id = some parent :=
                parent_eq.trans outer
              simp [hit, inside, outer, scope_eq_ok stored,
                induction (nested.parent_has inside)]

theorem Nested.lookup_eq (nested : table.Nested) {id : ScopeId}
    (has : table.Has id) (name : String) :
    table.lookup id name = .ok (table.resolve id name) :=
  nested.lookupWithin_eq name has

theorem reaches_of_mem_outwardWithin {steps : Nat} {id scope : ScopeId}
    (member : scope ∈ table.outwardWithin steps id) :
    Relation.ReflTransGen
      (fun inner outer => table.parent? inner = some outer) id scope := by
  induction steps generalizing id with
  | zero => cases member
  | succ steps induction =>
      rw [outwardWithin, List.mem_cons] at member
      rcases member with rfl | further
      · exact .refl
      · split at further
        · next inside => exact .head inside (induction further)
        · cases further

theorem Nested.nodup_outwardWithin (nested : table.Nested) (steps : Nat)
    (id : ScopeId) : (table.outwardWithin steps id).Nodup := by
  induction steps generalizing id with
  | zero => exact List.nodup_nil
  | succ steps induction =>
      rw [outwardWithin, List.nodup_cons]
      split
      · next parent inside =>
          refine ⟨?_, induction parent⟩
          intro back
          exact nested.acyclic id
            (.head' inside (reaches_of_mem_outwardWithin back))
      · exact ⟨List.not_mem_nil, List.nodup_nil⟩

theorem Nested.has_of_mem_outwardWithin (nested : table.Nested) {steps : Nat}
    {id scope : ScopeId} (has : table.Has id)
    (member : scope ∈ table.outwardWithin steps id) : table.Has scope := by
  induction reaches_of_mem_outwardWithin member with
  | refl => exact has
  | tail _ inside => exact nested.parent_has inside

theorem Nested.length_outwardWithin (nested : table.Nested) (steps : Nat)
    {id : ScopeId} (has : table.Has id) :
    (table.outwardWithin steps id).length ≤ table.scopes.size := by
  have distinct := (nested.nodup_outwardWithin steps id).map
    (f := ScopeId.index) fun _ _ => ScopeId.ext
  have inside : (table.outwardWithin steps id).map ScopeId.index ⊆
      List.range table.scopes.size := by
    intro index member
    obtain ⟨scope, listed, rfl⟩ := List.mem_map.mp member
    exact List.mem_range.mpr (nested.has_of_mem_outwardWithin has listed)
  simpa using (List.subperm_of_subset distinct inside).length_le

theorem outwardWithin_succ {steps : Nat} {id : ScopeId}
    (ends : (table.outwardWithin steps id).length < steps) :
    table.outwardWithin (steps + 1) id = table.outwardWithin steps id := by
  induction steps generalizing id with
  | zero => cases ends
  | succ steps induction =>
      cases outer : table.parent? id with
      | none => simp only [outwardWithin, outer]
      | some parent =>
          rw [outwardWithin_inner outer, List.length_cons] at ends
          rw [outwardWithin_inner outer, outwardWithin_inner outer,
            induction (Nat.lt_of_succ_lt_succ ends)]

theorem Nested.unbounded (nested : table.Nested) {id : ScopeId}
    (has : table.Has id) (name : String) {steps : Nat}
    (enough : table.scopes.size < steps) :
    table.lookupWithin name steps id = table.lookup id name := by
  have same (more : Nat) :
      table.outwardWithin (table.scopes.size + 1 + more) id =
        table.outwardWithin (table.scopes.size + 1) id := by
    induction more with
    | zero => rfl
    | succ more induction =>
        have short := nested.length_outwardWithin
          (table.scopes.size + 1 + more) has
        rw [← Nat.add_assoc, outwardWithin_succ (by omega), induction]
  obtain ⟨more, rfl⟩ := Nat.exists_eq_add_of_le (Nat.succ_le_of_lt enough)
  rw [lookup, nested.lookupWithin_eq name has,
    nested.lookupWithin_eq name has, same]

theorem lookup_eq (coherent : table.Coherent) {id : ScopeId}
    (has : table.Has id) (name : String) :
    table.lookup id name = .ok (table.resolve id name) :=
  coherent.nested.lookup_eq has name

end SymbolTable

end CMinusAnalysis
