import CMinusAnalysis.Analysis.Declaring
import CMinusAnalysis.Proofs.Symbol.Arrivals

namespace CMinusAnalysis

/-! Chains as an index. All symbols of a table live in one arena, and every
scope lists its own, by name, in chains. Whatever is done to a table, the chains
list each symbol where its scope and its name say, so the search of one chain
is as good as the search of the arena. -/

namespace SymbolTable

/-- The tables that operations make of the empty one, as long as the handles
they are given are good. A scope may be given any parent, there or not. -/
inductive Reached : SymbolTable → Prop
  | empty : Reached {}
  | createScope {table later : SymbolTable} {id : ScopeId}
      (before : Reached table) (name : String) (parent : Option ScopeId)
      (made : (table.createScope name parent).result = .ok (id, later)) :
      Reached later
  | insert {table later : SymbolTable} {symbol : SymbolId}
      (before : Reached table) (id : ScopeId) (name : String) (type : Ty)
      (line location : Nat) (isFunction : Bool)
      (made : (table.insert id name type line location isFunction).result =
        .ok (symbol, later)) : Reached later
  | allocate {table later : SymbolTable} {location : Nat}
      (before : Reached table) (id : ScopeId)
      (made : table.allocate id = .ok (location, later)) : Reached later
  | addReference {table later : SymbolTable} (before : Reached table)
      (symbol : SymbolId) (line : Nat)
      (made : (table.addReference symbol line).result = .ok later) :
      Reached later
  | addParameter {table later : SymbolTable} (before : Reached table)
      (function : String) (type : Ty)
      (made : table.addParameter function type = .ok later) : Reached later

def chainAt (table : SymbolTable) (id : ScopeId) (place : Fin bucketCount) :
    List SymbolId :=
  match table.scopes[id.index]? with
  | some scope => scope.buckets.get place
  | none => []

/-- In the arena, the symbol has the scope and the name. -/
def Owns (table : SymbolTable) (id : ScopeId) (name : String)
    (symbol : SymbolId) : Prop :=
  ∃ entry, table.symbols[symbol.index]? = some entry ∧ entry.scope = id ∧
    entry.name = name

def OwnsFunction (table : SymbolTable) (name : String) (symbol : SymbolId) :
    Prop :=
  ∃ entry, table.symbols[symbol.index]? = some entry ∧
    entry.scope = ScopeId.global ∧ entry.name = name ∧ entry.isFunction = true

/-- The chains list the symbols of the arena by scope and name. -/
structure Indexed (table : SymbolTable) : Prop where
  listed : ∀ {id : ScopeId} {place : Fin bucketCount} {symbol : SymbolId},
    symbol ∈ table.chainAt id place ↔
      ∃ entry, table.symbols[symbol.index]? = some entry ∧
        entry.scope = id ∧ bucketOf entry.name = place
  ascending : ∀ (id : ScopeId) (place : Fin bucketCount),
    (table.chainAt id place).Pairwise fun left right =>
      left.index < right.index
  distinct : ∀ {id : ScopeId} {name : String} {left right : SymbolId},
    table.Owns id name left → table.Owns id name right → left = right
  signed : ∀ {index : Nat} {entry : Symbol},
    table.symbols[index]? = some entry → entry.parameters ≠ [] →
    entry.isFunction = true ∧ entry.scope = ScopeId.global

variable {table later : SymbolTable}

def newSymbol (id : ScopeId) (name : String) (type : Ty) (line location : Nat)
    (isFunction : Bool) : Symbol where
  name := name
  type := type
  location := location
  isFunction := isFunction
  latestLines := [line]
  scope := id

theorem addReference_eq {symbol : SymbolId} {entry : Symbol}
    (stored : table.symbols[symbol.index]? = some entry) (line : Nat) :
    (table.addReference symbol line).result =
      .ok (table.modifySymbol symbol (·.addLine line)) := by
  simp [addReference, symbol_eq_ok stored]

theorem insert_of_some {id : ScopeId} {name : String} {symbol : SymbolId}
    (hit : table.find? id name = some symbol) (type : Ty)
    (line location : Nat) (isFunction : Bool) :
    (table.insert id name type line location isFunction).result =
      .ok (symbol, table.modifySymbol symbol (·.addLine line)) := by
  obtain ⟨entry, stored, _⟩ := name_of_find? hit
  simp [insert, lookupLocal_eq (has_of_find? hit), hit,
    addReference_eq stored]

theorem insert_of_none {id : ScopeId} {name : String} {scope : Scope}
    (stored : table.scopes[id.index]? = some scope)
    (free : table.find? id name = none) (type : Ty) (line location : Nat)
    (isFunction : Bool) :
    (table.insert id name type line location isFunction).result =
      .ok (table.append scope
        (newSymbol id name type line location isFunction)) := by
  have has : table.Has id := (Array.getElem?_eq_some_iff.mp stored).1
  simp [insert, lookupLocal_eq has, free, scope_eq_ok stored, newSymbol]

theorem has_of_insert {id : ScopeId} {name : String} {type : Ty}
    {line location : Nat} {isFunction : Bool} {symbol : SymbolId}
    (made : (table.insert id name type line location isFunction).result =
      .ok (symbol, later)) : table.Has id := by
  obtain ⟨hit, looked, _⟩ := Run.result_bind_eq_ok_iff.mp made
  exact has_of_lookupLocal looked

theorem allocate_eq {id : ScopeId} {location : Nat}
    (made : table.allocate id = .ok (location, later)) :
    ∃ scope, table.scopes[id.index]? = some scope ∧
      later = ⟨table.scopes.setIfInBounds id.index
        { scope with nextLocation := scope.nextLocation + 1 },
        table.symbols⟩ := by
  obtain ⟨scope, stored, rest⟩ := bind_eq_ok_iff.mp made
  cases rest
  exact ⟨scope, fetch_eq_ok_iff.mp stored, rfl⟩

theorem chainAt_push (name : String) (parent : Option ScopeId) (id : ScopeId)
    (place : Fin bucketCount) :
    chainAt ⟨table.scopes.push { name, parent }, table.symbols⟩ id place =
      table.chainAt id place := by
  simp only [chainAt, Array.getElem?_push]
  by_cases fresh : id.index = table.scopes.size
  · rw [if_pos fresh, fresh, Array.getElem?_eq_none (Nat.le_refl _)]
    exact Vector.getElem_replicate _
  · rw [if_neg fresh]

theorem chainAt_set {id : ScopeId} {scope changed : Scope}
    (stored : table.scopes[id.index]? = some scope) (symbols : Array Symbol)
    (query : ScopeId) (place : Fin bucketCount) :
    chainAt ⟨table.scopes.setIfInBounds id.index changed, symbols⟩ query
        place =
      if id = query then changed.buckets.get place
      else table.chainAt query place := by
  have inside := (Array.getElem?_eq_some_iff.mp stored).1
  simp only [chainAt, Array.getElem?_setIfInBounds]
  by_cases same : id = query
  · subst same
    simp [inside]
  · have apart : id.index ≠ query.index :=
      fun equal => same (ScopeId.ext equal)
    simp [same, apart]

theorem chainAt_append {symbol : Symbol} {scope : Scope}
    (stored : table.scopes[symbol.scope.index]? = some scope) (id : ScopeId)
    (place : Fin bucketCount) :
    (table.append scope symbol).2.chainAt id place =
      table.chainAt id place ++
        if symbol.scope = id ∧ bucketOf symbol.name = place then
          [⟨table.symbols.size⟩] else [] := by
  rw [append, chainAt_set stored, bucket_link]
  by_cases same : symbol.scope = id
  · subst same
    simp [chainAt, stored]
  · simp [same]

theorem parent?_append {symbol : Symbol} {scope : Scope}
    (stored : table.scopes[symbol.scope.index]? = some scope) (id : ScopeId) :
    (table.append scope symbol).2.parent? id = table.parent? id := by
  have inside := (Array.getElem?_eq_some_iff.mp stored).1
  simp only [parent?, append, Array.getElem?_setIfInBounds, inside, if_true]
  split
  · next same =>
      rw [← same, stored]
      rfl
  · rfl

theorem chain_eq_chainAt {id : ScopeId} {scope : Scope}
    (stored : table.scopes[id.index]? = some scope) (name : String) :
    scope.chain name = table.chainAt id (bucketOf name) := by
  simp [chainAt, stored, Scope.chain]

theorem owns_push {symbol : Symbol}
    (pushed : later.symbols = table.symbols.push symbol) {id : ScopeId}
    {name : String} {found : SymbolId} :
    later.Owns id name found ↔
      table.Owns id name found ∨
        found = ⟨table.symbols.size⟩ ∧ symbol.scope = id ∧
          symbol.name = name := by
  simp only [Owns, pushed, Array.getElem?_push, SymbolId.ext_iff]
  by_cases last : found.index = table.symbols.size
  · simp [last]
  · simp [last]

theorem owns_modifySymbol {change : Symbol → Symbol}
    (same : ∀ symbol, (change symbol).bare = symbol.bare) (target : SymbolId)
    {id : ScopeId} {name : String} {found : SymbolId} :
    (table.modifySymbol target change).Owns id name found ↔
      table.Owns id name found := by
  simp only [Owns, SymbolTable.modifySymbol, Array.getElem?_modify]
  split
  · cases table.symbols[found.index]? with
    | none => simp
    | some entry =>
        simp [Symbol.scope_eq_of_bare (same entry),
          Symbol.name_eq_of_bare (same entry)]
  · rfl

namespace Indexed

theorem has_of_owns (indexed : table.Indexed) {id : ScopeId} {name : String}
    {symbol : SymbolId} (owns : table.Owns id name symbol) :
    table.Has id := by
  obtain ⟨entry, stored, scope, _⟩ := owns
  have member := indexed.listed.mpr ⟨entry, stored, scope, rfl⟩
  simp only [chainAt] at member
  split at member
  · next held => exact (Array.getElem?_eq_some_iff.mp held).1
  · cases member

theorem find?_eq_some_iff (indexed : table.Indexed) {id : ScopeId}
    {name : String} {symbol : SymbolId} :
    table.find? id name = some symbol ↔ table.Owns id name symbol := by
  have sound {found : SymbolId} (hit : table.find? id name = some found) :
      table.Owns id name found := by
    obtain ⟨named, stored, called⟩ := name_of_find? hit
    obtain ⟨scope, held, here⟩ := Option.bind_eq_some_iff.mp hit
    have member := List.mem_of_find?_eq_some here
    rw [chain_eq_chainAt held] at member
    obtain ⟨entry, again, owner, _⟩ := indexed.listed.mp member
    cases stored.symm.trans again
    exact ⟨named, stored, owner, called⟩
  constructor
  · exact sound
  · intro owns
    obtain ⟨scope, held⟩ := exists_scope (indexed.has_of_owns owns)
    obtain ⟨entry, stored, owner, called⟩ := owns
    have member : symbol ∈ scope.chain name := by
      rw [chain_eq_chainAt held]
      exact indexed.listed.mpr ⟨entry, stored, owner, by rw [called]⟩
    -- The search stops at some symbol of that name, and there is one only.
    have stops : ((scope.chain name).find? (table.hasName name)).isSome :=
      List.find?_isSome.mpr ⟨symbol, member, by simp [hasName, stored, called]⟩
    obtain ⟨found, here⟩ := Option.isSome_iff_exists.mp stops
    have hit : table.find? id name = some found := by
      simp [find?, held, here]
    rw [hit, indexed.distinct (sound hit) ⟨entry, stored, owner, called⟩]

theorem find?_eq_none_iff (indexed : table.Indexed) {id : ScopeId}
    {name : String} :
    table.find? id name = none ↔ ∀ symbol, ¬ table.Owns id name symbol := by
  rw [Option.eq_none_iff_forall_ne_some]
  exact forall_congr' fun symbol => not_congr indexed.find?_eq_some_iff

theorem count_eq (indexed : table.Indexed) {symbol : SymbolId} {entry : Symbol}
    (stored : table.symbols[symbol.index]? = some entry) (id : ScopeId)
    (place : Fin bucketCount) :
    (table.chainAt id place).count symbol =
      if entry.scope = id ∧ bucketOf entry.name = place then 1 else 0 := by
  have once : (table.chainAt id place).Nodup :=
    (indexed.ascending id place).imp fun {left right} before same =>
      Nat.ne_of_lt before (congrArg SymbolId.index same)
  rw [once.count]
  congr 1
  rw [indexed.listed, stored]
  simp

theorem empty : Indexed {} where
  listed := by simp [chainAt]
  ascending := by simp [chainAt]
  distinct := by simp [Owns]
  signed := by simp

theorem of_chains (indexed : table.Indexed)
    (symbols : later.symbols = table.symbols)
    (chains : ∀ id place, later.chainAt id place = table.chainAt id place) :
    later.Indexed where
  listed := by
    intro id place symbol
    rw [chains, symbols]
    exact indexed.listed
  ascending id place := by
    rw [chains]
    exact indexed.ascending id place
  distinct := by
    intro id name left right inLeft inRight
    rw [Owns, symbols] at inLeft inRight
    exact indexed.distinct inLeft inRight
  signed := by
    rw [symbols]
    exact indexed.signed

theorem modifySymbol (indexed : table.Indexed) {change : Symbol → Symbol}
    (same : ∀ symbol, (change symbol).bare = symbol.bare) (target : SymbolId)
    (signed : ∀ entry, table.symbols[target.index]? = some entry →
      (change entry).parameters ≠ [] →
      (change entry).isFunction = true ∧
        (change entry).scope = ScopeId.global) :
    (table.modifySymbol target change).Indexed where
  listed := by
    intro id place symbol
    change symbol ∈ table.chainAt id place ↔ _
    rw [indexed.listed]
    simp only [SymbolTable.modifySymbol, Array.getElem?_modify]
    split
    · cases table.symbols[symbol.index]? with
      | none => simp
      | some entry =>
          simp [Symbol.scope_eq_of_bare (same entry),
            Symbol.name_eq_of_bare (same entry)]
    · rfl
  ascending := indexed.ascending
  distinct inLeft inRight := indexed.distinct
    ((owns_modifySymbol same target).mp inLeft)
    ((owns_modifySymbol same target).mp inRight)
  signed := by
    intro index entry stored parameters
    simp only [SymbolTable.modifySymbol, Array.getElem?_modify] at stored
    split at stored
    · next here =>
        obtain ⟨before, held, rfl⟩ := Option.map_eq_some_iff.mp stored
        rw [← here] at held
        exact signed before held parameters
    · exact indexed.signed stored parameters

theorem addLine (indexed : table.Indexed) (target : SymbolId) (line : Nat) :
    (table.modifySymbol target (·.addLine line)).Indexed := by
  apply indexed.modifySymbol (Symbol.bare_addLine · line)
  intro entry stored signed
  change entry.isFunction = true ∧ entry.scope = ScopeId.global
  exact indexed.signed stored signed

theorem append (indexed : table.Indexed) {symbol : Symbol} {scope : Scope}
    (stored : table.scopes[symbol.scope.index]? = some scope)
    (free : ∀ found, ¬ table.Owns symbol.scope symbol.name found)
    (unsigned : symbol.parameters = []) :
    (table.append scope symbol).2.Indexed where
  listed := by
    intro id place found
    rw [chainAt_append stored, List.mem_append, indexed.listed]
    simp only [SymbolTable.append, Array.getElem?_push]
    by_cases last : found.index = table.symbols.size
    · have fresh : found = ⟨table.symbols.size⟩ := SymbolId.ext last
      simp [fresh]
    · have old : found ≠ ⟨table.symbols.size⟩ :=
        fun same => last (congrArg _ same)
      split <;> simp [old]
  ascending id place := by
    rw [chainAt_append stored, List.pairwise_append]
    refine ⟨indexed.ascending id place, ?_, ?_⟩
    · split <;> simp
    · intro earlier member new added
      obtain ⟨_, held, _⟩ := indexed.listed.mp member
      have inside := (Array.getElem?_eq_some_iff.mp held).1
      split at added
      · rw [List.mem_singleton.mp added]
        exact inside
      · cases added
  distinct := by
    intro id name left right inLeft inRight
    rcases (owns_push rfl).mp inLeft with old | ⟨rfl, rfl, rfl⟩
    · rcases (owns_push rfl).mp inRight with again | ⟨rfl, rfl, rfl⟩
      · exact indexed.distinct old again
      · exact absurd old (free left)
    · rcases (owns_push rfl).mp inRight with old | ⟨rfl, _⟩
      · exact absurd old (free right)
      · rfl
  signed := by
    intro index entry held parameters
    simp only [SymbolTable.append, Array.getElem?_push] at held
    split at held
    · cases held
      exact absurd unsigned parameters
    · exact indexed.signed held parameters

theorem globalFunction?_eq_some_iff (indexed : table.Indexed)
    {name : String} {symbol : SymbolId} :
    table.globalFunction? name = some symbol ↔
      table.OwnsFunction name symbol := by
  constructor
  · intro found
    obtain ⟨hit, entry, stored, function⟩ :=
      (SymbolTable.globalFunction?_eq_some_iff
        (has_of_globalFunction? found)).mp found
    obtain ⟨again, held, owner, called⟩ := indexed.find?_eq_some_iff.mp hit
    cases stored.symm.trans held
    exact ⟨entry, stored, owner, called, function⟩
  · rintro ⟨entry, stored, owner, called, function⟩
    exact globalFunction?_eq_some
      (indexed.find?_eq_some_iff.mpr ⟨entry, stored, owner, called⟩) stored
      function

end Indexed

theorem Reached.indexed (reached : table.Reached) : table.Indexed := by
  induction reached with
  | empty => exact .empty
  | createScope before name parent made indexed =>
      cases made
      exact indexed.of_chains rfl (chainAt_push name parent)
  | @insert table later symbol before id name type line location isFunction
      made indexed =>
      cases hit : table.find? id name with
      | some found =>
          cases (insert_of_some hit type line location isFunction).symm.trans
            made
          exact indexed.addLine symbol line
      | none =>
          obtain ⟨scope, stored⟩ := exists_scope (has_of_insert made)
          have ran := insert_of_none stored hit type line location isFunction
          cases ran.symm.trans made
          exact indexed.append stored (indexed.find?_eq_none_iff.mp hit) rfl
  | allocate before id made indexed =>
      obtain ⟨scope, stored, rfl⟩ := allocate_eq made
      refine indexed.of_chains rfl ?_
      intro query place
      rw [chainAt_set stored]
      split
      · next same =>
          subst same
          simp [chainAt, stored]
      · rfl
  | @addReference table later before symbol line made indexed =>
      obtain ⟨entry, stored, _⟩ := Run.result_bind_eq_ok_iff.mp made
      cases (addReference_eq (fetch_eq_ok_iff.mp stored) line).symm.trans made
      exact indexed.addLine symbol line
  | addParameter before function type made indexed =>
      unfold SymbolTable.addParameter at made
      split at made
      · next symbol found =>
          cases made
          obtain ⟨entry, held, owner, _, isFunction⟩ :=
            indexed.globalFunction?_eq_some_iff.mp found
          refine indexed.modifySymbol (Symbol.bare_addParameter · type) symbol
            ?_
          intro again stored _
          cases held.symm.trans stored
          exact ⟨isFunction, owner⟩
      · cases made

theorem insert_new (indexed : table.Indexed) {id : ScopeId} {name : String}
    (has : table.Has id) (free : ∀ symbol, ¬ table.Owns id name symbol)
    (type : Ty) (line location : Nat) (isFunction : Bool) :
    ∃ later, (table.insert id name type line location isFunction).result =
        .ok (⟨table.symbols.size⟩, later) ∧
      later.symbols = table.symbols.push
        (newSymbol id name type line location isFunction) ∧
      later.scopes.size = table.scopes.size ∧
      (∀ other, later.parent? other = table.parent? other) ∧
      ∀ other place, later.chainAt other place =
        table.chainAt other place ++
          if id = other ∧ bucketOf name = place then
            [⟨table.symbols.size⟩] else [] := by
  obtain ⟨scope, stored⟩ := exists_scope has
  have ran := insert_of_none stored (indexed.find?_eq_none_iff.mpr free) type
    line location isFunction
  exact ⟨_, ran, rfl, Array.size_setIfInBounds, parent?_append stored,
    chainAt_append stored⟩

theorem addParameter_of_owns (indexed : table.Indexed) {function : String}
    {symbol : SymbolId} (owns : table.OwnsFunction function symbol)
    (type : Ty) :
    table.addParameter function type =
      .ok (table.modifySymbol symbol (·.addParameter type)) := by
  rw [addParameter, indexed.globalFunction?_eq_some_iff.mpr owns]

theorem addParameter_eq_error_iff (indexed : table.Indexed)
    {function : String} (type : Ty) {failure : Failure} :
    table.addParameter function type = .error failure ↔
      (∀ symbol, ¬ table.OwnsFunction function symbol) ∧
        failure = .symbolTable
          ("no global function named '" ++ function ++ "'") := by
  cases found : table.globalFunction? function with
  | some symbol =>
      have owns := indexed.globalFunction?_eq_some_iff.mp found
      rw [addParameter_of_owns indexed owns]
      simp only [reduceCtorEq, false_iff, not_and]
      exact fun none => absurd owns (none symbol)
  | none =>
      have none : ∀ symbol, ¬ table.OwnsFunction function symbol := by
        intro symbol owns
        rw [indexed.globalFunction?_eq_some_iff.mpr owns] at found
        cases found
      rw [addParameter, found]
      simp only [Except.error.injEq]
      exact ⟨fun same => ⟨none, same.symm⟩, fun same => same.2.symm⟩

end SymbolTable

/-- In every table that operations can make, a symbol stands once in the chain
that its scope and its name say and in no other, chains ascend, a scope has a
name once, and only global functions have parameters. So the search of one chain
finds what there is in the arena. To insert a name that the scope has only adds
a line to its symbol, to insert another only adds a symbol, and a parameter is
refused just when the first scope has no function of that name. -/
theorem chains_index_the_arena {table : SymbolTable}
    (reached : table.Reached) :
    (∀ (symbol : SymbolId) (entry : Symbol),
      table.symbol symbol = .ok entry → table.Has entry.scope ∧
        (∀ (id : ScopeId) (place : Fin bucketCount),
          (table.chainAt id place).count symbol =
            if entry.scope = id ∧ bucketOf entry.name = place then 1 else 0) ∧
        (entry.parameters ≠ [] →
          entry.isFunction = true ∧ entry.scope = ScopeId.global)) ∧
    (∀ (id : ScopeId) (place : Fin bucketCount),
      (∀ symbol ∈ table.chainAt id place,
        symbol.index < table.symbols.size) ∧
      (table.chainAt id place).Pairwise fun left right =>
        left.index < right.index) ∧
    (∀ (id : ScopeId) (name : String) (left right : SymbolId),
      table.Owns id name left → table.Owns id name right → left = right) ∧
    (∀ (id : ScopeId) (name : String), table.Has id →
      (∀ symbol, table.lookupLocal id name = .ok (some symbol) ↔
        table.Owns id name symbol) ∧
      (table.lookupLocal id name = .ok none ↔
        ∀ symbol, ¬ table.Owns id name symbol)) ∧
    (∀ (id : ScopeId) (name : String) (type : Ty) (line location : Nat)
        (isFunction : Bool), table.Has id →
      (∀ symbol, table.Owns id name symbol →
        (table.insert id name type line location isFunction).result =
          .ok (symbol, table.modifySymbol symbol (·.addLine line))) ∧
      ((∀ symbol, ¬ table.Owns id name symbol) → ∃ later,
        (table.insert id name type line location isFunction).result =
          .ok (⟨table.symbols.size⟩, later) ∧
        later.symbols = table.symbols.push
          (SymbolTable.newSymbol id name type line location isFunction) ∧
        later.scopes.size = table.scopes.size ∧
        (∀ other, later.parent? other = table.parent? other) ∧
        ∀ other place, later.chainAt other place =
          table.chainAt other place ++
            if id = other ∧ bucketOf name = place then
              [⟨table.symbols.size⟩] else [])) ∧
    ∀ (function : String) (type : Ty),
      (∀ symbol, table.OwnsFunction function symbol →
        table.addParameter function type =
          .ok (table.modifySymbol symbol (·.addParameter type))) ∧
      (∀ failure, table.addParameter function type = .error failure ↔
        (∀ symbol, ¬ table.OwnsFunction function symbol) ∧
          failure = .symbolTable
            ("no global function named '" ++ function ++ "'")) ∧
      ∀ state : Declaring, state.table = table →
        (∀ symbol, ¬ table.OwnsFunction function symbol) →
        (state.addParameter function type).result = .ok state := by
  have indexed := reached.indexed
  refine ⟨?_, ?_, ?_, ?_, ?_, ?_⟩
  · intro symbol entry found
    have stored := fetch_eq_ok_iff.mp found
    exact ⟨indexed.has_of_owns ⟨entry, stored, rfl, rfl⟩,
      indexed.count_eq stored, indexed.signed stored⟩
  · intro id place
    refine ⟨?_, indexed.ascending id place⟩
    intro symbol member
    obtain ⟨_, stored, _⟩ := indexed.listed.mp member
    exact (Array.getElem?_eq_some_iff.mp stored).1
  · exact fun _ _ _ _ => indexed.distinct
  · intro id name has
    simp only [SymbolTable.lookupLocal_eq has, Except.ok.injEq]
    exact ⟨fun _ => indexed.find?_eq_some_iff, indexed.find?_eq_none_iff⟩
  · intro id name type line location isFunction has
    constructor
    · intro symbol owns
      exact SymbolTable.insert_of_some (indexed.find?_eq_some_iff.mpr owns)
        type line location isFunction
    · intro free
      exact SymbolTable.insert_new indexed has free type line location
        isFunction
  · intro function type
    refine ⟨fun _ owns => SymbolTable.addParameter_of_owns indexed owns type,
      fun _ => SymbolTable.addParameter_eq_error_iff indexed type, ?_⟩
    rintro state rfl none
    have refused := (SymbolTable.addParameter_eq_error_iff indexed type).mpr
      ⟨none, rfl⟩
    simp [Declaring.addParameter, refused]

def crowdedChain : SymbolTable where
  scopes := #[
    Scope.link (Scope.link { name := "global", parent := none } "a" ⟨0⟩)
      "ii" ⟨1⟩,
    Scope.link { name := "f", parent := some ⟨9⟩ } "a" ⟨2⟩]
  symbols := #[
    SymbolTable.newSymbol ⟨0⟩ "a" .integer 1 0 false,
    SymbolTable.newSymbol ⟨0⟩ "ii" .void 2 1 true,
    SymbolTable.newSymbol ⟨1⟩ "a" .integer 3 0 false]

theorem crowdedChain_reached : crowdedChain.Reached :=
  have opened := SymbolTable.Reached.createScope (.createScope .empty
    "global" none rfl) "f" (some ⟨9⟩) rfl
  have inserted := SymbolTable.Reached.insert (.insert opened ⟨0⟩ "a" .integer
    1 0 false rfl) ⟨0⟩ "ii" .void 2 1 true rfl
  .insert inserted ⟨1⟩ "a" .integer 3 0 false rfl

theorem index_of_colliding_names :
    crowdedChain.Reached ∧ bucketOf "a" = bucketOf "ii" ∧
      crowdedChain.lookupLocal ⟨0⟩ "a" = .ok (some ⟨0⟩) ∧
      crowdedChain.lookupLocal ⟨0⟩ "ii" = .ok (some ⟨1⟩) ∧
      crowdedChain.lookupLocal ⟨1⟩ "a" = .ok (some ⟨2⟩) ∧
      crowdedChain.lookupLocal ⟨1⟩ "ii" = .ok none ∧
      (∃ later, crowdedChain.addParameter "ii" .integer = .ok later) ∧
      ∃ failure, crowdedChain.addParameter "a" .integer =
        .error failure := by
  obtain ⟨_, _, _, searches, _, parameters⟩ :=
    chains_index_the_arena crowdedChain_reached
  have outer : crowdedChain.Has ⟨0⟩ := show 0 < 2 by decide
  have inner : crowdedChain.Has ⟨1⟩ := show 1 < 2 by decide
  refine ⟨crowdedChain_reached, by decide,
    ((searches _ "a" outer).1 ⟨0⟩).mpr ⟨_, rfl, rfl, rfl⟩,
    ((searches _ "ii" outer).1 ⟨1⟩).mpr ⟨_, rfl, rfl, rfl⟩,
    ((searches _ "a" inner).1 ⟨2⟩).mpr ⟨_, rfl, rfl, rfl⟩,
    (searches _ "ii" inner).2.mpr ?_,
    ⟨_, (parameters "ii" .integer).1 ⟨1⟩ ⟨_, rfl, rfl, rfl, rfl⟩⟩,
    ⟨_, ((parameters "a" .integer).2.1 _).mpr ⟨?_, rfl⟩⟩⟩
  · rintro ⟨_ | _ | _ | _⟩ ⟨entry, stored, scope, name⟩ <;> cases stored <;>
      first | exact absurd name (by decide) | cases scope
  · rintro ⟨_ | _ | _ | _⟩ ⟨entry, stored, _, name, function⟩ <;>
      cases stored <;> first | exact absurd name (by decide) | cases function

end CMinusAnalysis
