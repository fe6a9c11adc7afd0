import CMinusAnalysis.Proofs.Symbol.Index

namespace CMinusAnalysis

namespace SymbolTable

/-- On the way out of the scope `id`, after the nearer ones, there is
`scope`. -/
inductive Around (table : SymbolTable) :
    ScopeId → List ScopeId → ScopeId → Prop
  | here (id : ScopeId) : table.Around id [] id
  | outer {id parent scope : ScopeId} {nearer : List ScopeId}
      (inside : table.parent? id = some parent)
      (onward : table.Around parent nearer scope) :
      table.Around id (id :: nearer) scope

/-- The scope is on the way out, and nothing nearer has the name. -/
def Unhidden (table : SymbolTable) (id : ScopeId) (name : String)
    (scope : ScopeId) : Prop :=
  ∃ nearer, table.Around id nearer scope ∧
    ∀ inner ∈ nearer, ∀ symbol, ¬ table.Owns inner name symbol

variable {table later : SymbolTable}

section Older

variable (older : ∀ {id parent : ScopeId}, table.parent? id = some parent →
  parent.index < id.index)

include older

theorem around_iff {id scope : ScopeId} {nearer : List ScopeId} :
    table.Around id nearer scope ↔
      ∃ beyond, table.outward id = nearer ++ scope :: beyond := by
  constructor
  · intro around
    induction around with
    | here id => exact ⟨_, rfl⟩
    | outer inside _ induction =>
        obtain ⟨beyond, path⟩ := induction
        exact ⟨beyond, by rw [outward_of_older older inside, path]; rfl⟩
  · rintro ⟨beyond, path⟩
    induction nearer generalizing id with
    | nil =>
        cases (List.cons.inj path).1
        exact .here _
    | cons head nearer induction =>
        cases outermost : table.parent? id with
        | none =>
            rw [outward, outwardWithin, outermost] at path
            simp at path
        | some parent =>
            rw [outward_of_older older outermost] at path
            obtain ⟨rfl, onward⟩ := List.cons.inj path
            exact .outer outermost (induction onward)

theorem mem_outward_iff {id scope : ScopeId} :
    scope ∈ table.outward id ↔ ∃ nearer, table.Around id nearer scope := by
  simp only [around_iff older, List.mem_iff_append]

theorem index_lt_of_around {id scope : ScopeId} {nearer : List ScopeId}
    (around : table.Around id nearer scope) :
    scope.index ≤ id.index ∧
      ∀ inner ∈ nearer, scope.index < inner.index := by
  induction around with
  | here id => simp
  | @outer id parent _ _ inside _ induction =>
      obtain ⟨below, before⟩ := induction
      have lower := older inside
      rw [List.forall_mem_cons]
      exact ⟨by omega, by omega, before⟩

theorem lookup_eq_outward {id : ScopeId} (has : table.Has id)
    (name : String) :
    table.lookup id name =
      .ok ((table.outward id).findSome? fun scope =>
        table.find? scope name) := by
  have near : id.index < table.scopes.size + 1 := Nat.lt_succ_of_lt has
  rw [(nested_of_older older).lookup_eq has, resolve,
    outwardWithin_eq_of_older older near]

variable (indexed : table.Indexed)

include indexed

theorem lookup_eq_some_iff {id : ScopeId} (has : table.Has id) {name : String}
    {symbol : SymbolId} :
    table.lookup id name = .ok (some symbol) ↔
      ∃ scope, table.Unhidden id name scope ∧
        table.Owns scope name symbol := by
  simp only [lookup_eq_outward older has, Except.ok.injEq,
    List.findSome?_eq_some_iff, indexed.find?_eq_some_iff,
    indexed.find?_eq_none_iff, Unhidden, around_iff older]
  constructor
  · rintro ⟨nearer, scope, beyond, path, owns, hidden⟩
    exact ⟨scope, ⟨nearer, ⟨beyond, path⟩, hidden⟩, owns⟩
  · rintro ⟨scope, ⟨nearer, ⟨beyond, path⟩, hidden⟩, owns⟩
    exact ⟨nearer, scope, beyond, path, owns, hidden⟩

theorem lookup_eq_none_iff {id : ScopeId} (has : table.Has id)
    {name : String} :
    table.lookup id name = .ok none ↔
      ∀ nearer scope, table.Around id nearer scope →
        ∀ symbol, ¬ table.Owns scope name symbol := by
  simp only [lookup_eq_outward older has, Except.ok.injEq,
    List.findSome?_eq_none_iff, indexed.find?_eq_none_iff,
    mem_outward_iff older]
  constructor
  · exact fun none nearer scope around => none scope ⟨nearer, around⟩
  · exact fun none scope ⟨nearer, around⟩ => none nearer scope around

end Older

theorem Around.of_parents
    (parents : ∀ id, later.parent? id = table.parent? id)
    {id scope : ScopeId} {nearer : List ScopeId}
    (around : table.Around id nearer scope) :
    later.Around id nearer scope := by
  induction around with
  | here id => exact .here id
  | outer inside _ induction => exact .outer (parents _ ▸ inside) induction

theorem Around.to_nearer {id scope inner : ScopeId} {nearer : List ScopeId}
    (around : table.Around id nearer scope) (member : inner ∈ nearer) :
    ∃ before, table.Around id before inner ∧ before ⊆ nearer := by
  induction around with
  | here id => cases member
  | @outer id _ _ nearer inside _ induction =>
      rcases List.mem_cons.mp member with rfl | further
      · exact ⟨[], .here _, List.nil_subset _⟩
      · obtain ⟨before, onward, subset⟩ := induction further
        exact ⟨id :: before, .outer inside onward,
          List.cons_subset_cons id subset⟩

/-- There is one more symbol, and the scopes lie where they lay. -/
structure Receives (table later : SymbolTable) (entry : Symbol) : Prop where
  older : ∀ {id parent : ScopeId}, table.parent? id = some parent →
    parent.index < id.index
  indexed : table.Indexed
  finished : later.Indexed
  pushed : later.symbols = table.symbols.push entry
  size : later.scopes.size = table.scopes.size
  parents : ∀ id, later.parent? id = table.parent? id

namespace Receives

variable {entry : Symbol}

theorem older_later (receives : table.Receives later entry)
    {id parent : ScopeId} (inside : later.parent? id = some parent) :
    parent.index < id.index :=
  receives.older (receives.parents id ▸ inside)

theorem has_later (receives : table.Receives later entry) {id : ScopeId}
    (has : table.Has id) : later.Has id :=
  Nat.lt_of_lt_of_eq has receives.size.symm

theorem lookup_new (receives : table.Receives later entry) {id : ScopeId}
    (has : table.Has id)
    (unhidden : table.Unhidden id entry.name entry.scope) :
    later.lookup id entry.name = .ok (some ⟨table.symbols.size⟩) := by
  obtain ⟨nearer, around, free⟩ := unhidden
  apply (lookup_eq_some_iff receives.older_later receives.finished
    (receives.has_later has)).mpr
  refine ⟨entry.scope, ⟨nearer, around.of_parents receives.parents, ?_⟩,
    (owns_push receives.pushed).mpr (.inr ⟨rfl, rfl, rfl⟩)⟩
  intro inner member symbol owns
  rcases (owns_push receives.pushed).mp owns with old | ⟨_, rfl, _⟩
  · exact free inner member symbol old
  · have before := (index_lt_of_around receives.older around).2 _ member
    exact Nat.lt_irrefl _ before

theorem lookup_other (receives : table.Receives later entry) {id : ScopeId}
    (has : table.Has id) {name : String}
    (apart : ¬ (name = entry.name ∧ table.Unhidden id name entry.scope)) :
    later.lookup id name = table.lookup id name := by
  have found := lookup_eq_outward receives.older has name
  rw [found]
  cases hit : (table.outward id).findSome? fun scope =>
      table.find? scope name with
  | some symbol =>
      rw [hit] at found
      obtain ⟨scope, ⟨nearer, around, free⟩, owns⟩ :=
        (lookup_eq_some_iff receives.older receives.indexed has).mp found
      apply (lookup_eq_some_iff receives.older_later receives.finished
        (receives.has_later has)).mpr
      refine ⟨scope, ⟨nearer, around.of_parents receives.parents, ?_⟩,
        (owns_push receives.pushed).mpr (.inl owns)⟩
      intro inner member other taken
      rcases (owns_push receives.pushed).mp taken with old | ⟨_, rfl, rfl⟩
      · exact free inner member other old
      · -- The new symbol would be nearer than the one that was found.
        obtain ⟨before, there, subset⟩ := around.to_nearer member
        exact apart ⟨rfl, before, there,
          fun inner early => free inner (subset early)⟩
  | none =>
      rw [hit] at found
      have none :=
        (lookup_eq_none_iff receives.older receives.indexed has).mp found
      apply (lookup_eq_none_iff receives.older_later receives.finished
        (receives.has_later has)).mpr
      intro nearer scope around symbol owns
      have around := around.of_parents fun id => (receives.parents id).symm
      rcases (owns_push receives.pushed).mp owns with old | ⟨_, rfl, rfl⟩
      · exact none nearer scope around symbol old
      · refine apart ⟨rfl, nearer, around, ?_⟩
        intro inner member
        obtain ⟨before, there, _⟩ := around.to_nearer member
        exact none before inner there

end Receives

theorem lookupWithin_push (nested : table.Nested) (fresh : Scope)
    (name : String) {steps : Nat} {id : ScopeId} (has : table.Has id) :
    lookupWithin ⟨table.scopes.push fresh, table.symbols⟩ name steps id =
      table.lookupWithin name steps id := by
  have scope_eq {id : ScopeId} (has : table.Has id) :
      scope ⟨table.scopes.push fresh, table.symbols⟩ id = table.scope id := by
    obtain ⟨found, stored⟩ := exists_scope has
    rw [scope_eq_ok stored]
    apply scope_eq_ok
    rw [Array.getElem?_push, if_neg (Nat.ne_of_lt has), stored]
  induction steps generalizing id with
  | zero => rfl
  | succ steps induction =>
      obtain ⟨found, stored⟩ := exists_scope has
      simp only [lookupWithin, lookupLocal, scope_eq has,
        scope_eq_ok stored, ok_bind]
      cases outer : found.parent with
      | none => rfl
      | some parent =>
          have inside : table.parent? id = some parent := by
            simp [parent?, stored, outer]
          simp only [induction (nested.parent_has inside)]
          rfl

theorem lookup_push (nested : table.Nested) (fresh : Scope) {id : ScopeId}
    (has : table.Has id) (name : String) :
    lookup ⟨table.scopes.push fresh, table.symbols⟩ id name =
      table.lookup id name := by
  rw [lookup, lookupWithin_push nested fresh name has]
  apply nested.unbounded has
  rw [Array.size_push]
  omega

end SymbolTable

/-- Where every scope lies in an older one or in none, a lookup gives the symbol
of the nearest scope on the way out that owns one, or nothing when none does. A
name that is new in a scope is seen from just the scopes from where nothing
nearer hides it, and no other lookup changes; a new scope changes none. -/
theorem lookup_respects_shadowing {table : SymbolTable}
    (reached : table.Reached)
    (older : ∀ {id parent : ScopeId}, table.parent? id = some parent →
      parent.index < id.index) :
    (∀ (id : ScopeId) (name : String), table.Has id →
      (∀ symbol, table.lookup id name = .ok (some symbol) ↔
        ∃ scope, table.Unhidden id name scope ∧
          table.Owns scope name symbol) ∧
      (table.lookup id name = .ok none ↔
        ∀ nearer scope, table.Around id nearer scope →
          ∀ symbol, ¬ table.Owns scope name symbol)) ∧
    (∀ (target : ScopeId) (fresh : String) (type : Ty) (line location : Nat)
        (isFunction : Bool), table.Has target →
      (∀ symbol, ¬ table.Owns target fresh symbol) → ∃ symbol later,
        (table.insert target fresh type line location isFunction).result =
          .ok (symbol, later) ∧
        ∀ (id : ScopeId) (name : String), table.Has id →
          (name = fresh ∧ table.Unhidden id name target →
            later.lookup id name = .ok (some symbol)) ∧
          (¬ (name = fresh ∧ table.Unhidden id name target) →
            later.lookup id name = table.lookup id name)) ∧
    ∀ (title : String) (parent : Option ScopeId), ∃ created later,
      (table.createScope title parent).result = .ok (created, later) ∧
      ∀ (id : ScopeId) (name : String), table.Has id →
        later.lookup id name = table.lookup id name := by
  have indexed := reached.indexed
  refine ⟨?_, ?_, ?_⟩
  · intro id name has
    exact ⟨fun _ => SymbolTable.lookup_eq_some_iff older indexed has,
      SymbolTable.lookup_eq_none_iff older indexed has⟩
  · intro target fresh type line location isFunction has free
    obtain ⟨later, made, pushed, size, parents, _⟩ :=
      SymbolTable.insert_new indexed has free type line location isFunction
    have finished :=
      (reached.insert target fresh type line location isFunction made).indexed
    have receives : table.Receives later _ :=
      ⟨older, indexed, finished, pushed, size, parents⟩
    refine ⟨_, later, made, ?_⟩
    intro id name has
    constructor
    · rintro ⟨rfl, unhidden⟩
      exact receives.lookup_new has unhidden
    · intro apart
      exact receives.lookup_other has apart
  · intro title parent
    refine ⟨_, _, rfl, ?_⟩
    intro id name has
    exact SymbolTable.lookup_push (SymbolTable.nested_of_older older) _ has
      name

def branchingScopes : SymbolTable where
  scopes := #[
    Scope.link { name := "global", parent := none } "x" ⟨0⟩,
    { name := "f", parent := some ⟨0⟩ },
    { name := "0", parent := some ⟨1⟩ },
    { name := "g", parent := some ⟨0⟩ }]
  symbols := #[SymbolTable.newSymbol ⟨0⟩ "x" .integer 1 0 false]

theorem branchingScopes_reached : branchingScopes.Reached :=
  have inserted := SymbolTable.Reached.insert (.createScope .empty "global"
    none rfl) ⟨0⟩ "x" .integer 1 0 false rfl
  have opened := SymbolTable.Reached.createScope inserted "f" (some ⟨0⟩) rfl
  .createScope (.createScope opened "0" (some ⟨1⟩) rfl) "g" (some ⟨0⟩) rfl

theorem branchingScopes_older {id parent : ScopeId}
    (inside : branchingScopes.parent? id = some parent) :
    parent.index < id.index := by
  obtain ⟨_ | _ | _ | _ | _⟩ := id <;> cases inside <;> decide

theorem branchingScopes_owns {id : ScopeId} {symbol : SymbolId}
    (owns : branchingScopes.Owns id "x" symbol) : id = ⟨0⟩ := by
  obtain ⟨entry, stored, rfl, _⟩ := owns
  obtain ⟨_ | _⟩ := symbol <;> cases stored
  rfl

/-- A name that one of two scopes beside each other takes is hidden from inside
that scope only. -/
theorem shadowing_in_one_branch :
    branchingScopes.Reached ∧
      (∀ {id parent : ScopeId}, branchingScopes.parent? id = some parent →
        parent.index < id.index) ∧
      ∃ symbol later, (branchingScopes.insert ⟨1⟩ "x" .integerArray 2 0
          false).result = .ok (symbol, later) ∧
        later.lookup ⟨2⟩ "x" = .ok (some symbol) ∧
        later.lookup ⟨3⟩ "x" = .ok (some ⟨0⟩) := by
  refine ⟨branchingScopes_reached, branchingScopes_older, ?_⟩
  obtain ⟨looks, inserts, _⟩ := lookup_respects_shadowing
    branchingScopes_reached branchingScopes_older
  have has {index : Nat} (inside : index < 4) : branchingScopes.Has ⟨index⟩ :=
    inside
  have free {id : ScopeId} (inner : id ≠ ⟨0⟩) (symbol : SymbolId) :
      ¬ branchingScopes.Owns id "x" symbol :=
    fun owns => inner (branchingScopes_owns owns)
  obtain ⟨symbol, later, made, after⟩ := inserts ⟨1⟩ "x" .integerArray 2 0
    false (has (by decide)) (free (by decide))
  refine ⟨symbol, later, made, ?_, ?_⟩
  · apply (after ⟨2⟩ "x" (has (by decide))).1
    refine ⟨rfl, [⟨2⟩], .outer rfl (.here _), ?_⟩
    intro inner member
    rw [List.mem_singleton.mp member]
    exact free (by decide)
  · rw [(after ⟨3⟩ "x" (has (by decide))).2]
    · apply ((looks ⟨3⟩ "x" (has (by decide))).1 ⟨0⟩).mpr
      refine ⟨⟨0⟩, ⟨[⟨3⟩], .outer rfl (.here _), ?_⟩, _, rfl, rfl, rfl⟩
      intro inner member
      rw [List.mem_singleton.mp member]
      exact free (by decide)
    · rintro ⟨_, nearer, around, _⟩
      cases around with
      | outer inside onward =>
          cases inside
          cases onward with
          | outer inside => cases inside

end CMinusAnalysis
