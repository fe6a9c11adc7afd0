import Mathlib.Data.List.Sigma
import Mathlib.Data.Prod.Lex
import CMinusAnalysis.Proofs.Symbol.Index
import CMinusAnalysis.Symbol.Listing

namespace CMinusAnalysis

/-! The order of a listing. A listing does not look through the arena, but goes
through the scopes, their buckets and the chains in these. Because the chains
index the arena it shows every symbol once, by scope, then by bucket, and then
by age. -/

/-- What orders a listing, for a symbol and its position in the arena. -/
def listingKey (entry : Symbol × Nat) : Nat ×ₗ Nat ×ₗ Nat :=
  toLex (entry.1.scope.index, toLex (bucketHash entry.1.name, entry.2))

def padded (width : Nat) (text : List Char) : List Char :=
  text ++ List.replicate (width - text.length) ' '

def rowText (scopeName : String) (symbol : Symbol) : List Char :=
  padded 15 symbol.name.toList ++ padded 15 symbol.kindLabel.toList ++
    padded 12 scopeName.toList ++ padded 11 (Nat.toDigits 10 symbol.location) ++
    [' '].intercalate (symbol.lines.map (Nat.toDigits 10)) ++ ['\n']

namespace SymbolTable

variable {table : SymbolTable}

theorem toList_row (scopeName : String) (symbol : Symbol) :
    (row scopeName symbol).toList = rowText scopeName symbol := by
  simp [row, rowText, padded, Function.comp_def]

def scopeEntries (table : SymbolTable) (scope : Scope) : List (Symbol × Nat) :=
  scope.symbols.filterMap fun id =>
    table.symbols[id.index]?.map fun symbol => (symbol, id.index)

def entries (table : SymbolTable) : List (Symbol × Nat) :=
  table.scopes.toList.flatMap table.scopeEntries

def ownRow (table : SymbolTable) (symbol : Symbol) : String :=
  row ((table.scopes[symbol.scope.index]?.map Scope.name).getD "") symbol

theorem ownRow_eq {symbol : Symbol} {scope : Scope}
    (stored : table.scopes[symbol.scope.index]? = some scope) :
    table.ownRow symbol = row scope.name symbol := by
  simp [ownRow, stored]

theorem mem_scopeEntries_iff {scope : Scope} {entry : Symbol × Nat} :
    entry ∈ table.scopeEntries scope ↔
      ⟨entry.2⟩ ∈ scope.symbols ∧
        table.symbols[entry.2]? = some entry.1 := by
  simp only [scopeEntries, List.mem_filterMap, Option.map_eq_some_iff]
  constructor
  · rintro ⟨id, listed, symbol, stored, rfl⟩
    exact ⟨listed, stored⟩
  · rintro ⟨listed, stored⟩
    exact ⟨_, listed, _, stored, rfl⟩

theorem mem_entries_iff {entry : Symbol × Nat} :
    entry ∈ table.entries ↔
      ∃ (id : Nat) (scope : Scope), table.scopes[id]? = some scope ∧
        entry ∈ table.scopeEntries scope := by
  simp only [entries, List.mem_flatMap, Array.mem_toList_iff,
    Array.mem_iff_getElem?]
  constructor
  · rintro ⟨scope, ⟨id, stored⟩, listed⟩
    exact ⟨id, scope, stored, listed⟩
  · rintro ⟨id, scope, stored, listed⟩
    exact ⟨scope, ⟨id, stored⟩, listed⟩

theorem chainAt_eq {id index : Nat} {scope : Scope}
    (stored : table.scopes[id]? = some scope) (inside : index < bucketCount) :
    table.chainAt ⟨id⟩ ⟨index, inside⟩ = scope.buckets[index] := by
  simp [chainAt, stored, Vector.get]

namespace Indexed

theorem mem_bucket_iff (indexed : table.Indexed) {id index : Nat}
    {scope : Scope} (stored : table.scopes[id]? = some scope)
    (inside : index < bucketCount) {symbol : SymbolId} :
    symbol ∈ scope.buckets[index] ↔
      ∃ entry, table.symbols[symbol.index]? = some entry ∧
        entry.scope = ⟨id⟩ ∧ bucketHash entry.name = index := by
  rw [← chainAt_eq stored inside, indexed.listed]
  simp [bucketOf]

theorem mem_symbols_iff (indexed : table.Indexed) {id : Nat} {scope : Scope}
    (stored : table.scopes[id]? = some scope) {symbol : SymbolId} :
    symbol ∈ scope.symbols ↔
      ∃ entry, table.symbols[symbol.index]? = some entry ∧
        entry.scope = ⟨id⟩ := by
  simp only [Scope.symbols, List.mem_flatten, Vector.mem_toList_iff,
    Vector.mem_iff_getElem]
  constructor
  · rintro ⟨_, ⟨index, inside, rfl⟩, member⟩
    obtain ⟨entry, held, owner, _⟩ :=
      (indexed.mem_bucket_iff stored inside).mp member
    exact ⟨entry, held, owner⟩
  · rintro ⟨entry, held, owner⟩
    have inside := bucketHash_lt entry.name
    exact ⟨_, ⟨_, inside, rfl⟩,
      (indexed.mem_bucket_iff stored inside).mpr ⟨entry, held, owner, rfl⟩⟩

theorem owner_eq (indexed : table.Indexed) {id : Nat} {scope : Scope}
    (stored : table.scopes[id]? = some scope) {entry : Symbol × Nat}
    (listed : entry ∈ table.scopeEntries scope) : entry.1.scope = ⟨id⟩ := by
  obtain ⟨member, held⟩ := mem_scopeEntries_iff.mp listed
  obtain ⟨symbol, again, owner⟩ := (indexed.mem_symbols_iff stored).mp member
  cases held.symm.trans again
  exact owner

theorem mem_entries_iff (indexed : table.Indexed) {entry : Symbol × Nat} :
    entry ∈ table.entries ↔ table.symbols[entry.2]? = some entry.1 := by
  rw [SymbolTable.mem_entries_iff]
  constructor
  · rintro ⟨id, scope, _, listed⟩
    exact (mem_scopeEntries_iff.mp listed).2
  · intro held
    have owns : table.Owns entry.1.scope entry.1.name ⟨entry.2⟩ :=
      ⟨entry.1, held, rfl, rfl⟩
    obtain ⟨scope, stored⟩ := exists_scope (indexed.has_of_owns owns)
    refine ⟨_, scope, stored, mem_scopeEntries_iff.mpr ⟨?_, held⟩⟩
    exact (indexed.mem_symbols_iff stored).mpr ⟨entry.1, held, rfl⟩

theorem listingKey_eq (indexed : table.Indexed) {id index : Nat}
    {scope : Scope} (stored : table.scopes[id]? = some scope)
    (inside : index < bucketCount) {symbol : SymbolId}
    (member : symbol ∈ scope.buckets[index]) {entry : Symbol × Nat}
    (found : (table.symbols[symbol.index]?.map fun held =>
      (held, symbol.index)) = some entry) :
    listingKey entry = toLex (id, toLex (index, symbol.index)) := by
  obtain ⟨held, known, owner, hash⟩ :=
    (indexed.mem_bucket_iff stored inside).mp member
  rw [known] at found
  cases found
  rw [listingKey, owner, hash]

theorem pairwise_scopeEntries (indexed : table.Indexed) {id : Nat}
    {scope : Scope} (stored : table.scopes[id]? = some scope) :
    (table.scopeEntries scope).Pairwise fun earlier later =>
      listingKey earlier < listingKey later := by
  rw [scopeEntries, List.pairwise_filterMap, Scope.symbols,
    List.pairwise_flatten]
  constructor
  · intro chain listed
    obtain ⟨index, inside, rfl⟩ :=
      Vector.mem_iff_getElem.mp (Vector.mem_toList_iff.mp listed)
    have ascends := indexed.ascending ⟨id⟩ ⟨index, inside⟩
    rw [chainAt_eq stored inside] at ascends
    apply ascends.imp_of_mem
    intro left right inLeft inRight before earlier atLeft later atRight
    rw [indexed.listingKey_eq stored inside inLeft atLeft,
      indexed.listingKey_eq stored inside inRight atRight]
    simp [Prod.Lex.toLex_lt_toLex, before]
  · rw [List.pairwise_iff_getElem]
    intro lower upper belowLower belowUpper before left inLeft right inRight
      earlier atLeft later atRight
    rw [Vector.length_toList] at belowLower belowUpper
    rw [indexed.listingKey_eq stored belowLower (by simpa using inLeft) atLeft,
      indexed.listingKey_eq stored belowUpper (by simpa using inRight) atRight]
    simp [Prod.Lex.toLex_lt_toLex, before]

theorem pairwise_entries (indexed : table.Indexed) :
    table.entries.Pairwise fun earlier later =>
      listingKey earlier < listingKey later := by
  rw [entries, List.pairwise_flatMap]
  constructor
  · intro scope listed
    obtain ⟨id, stored⟩ := Array.mem_iff_getElem?.mp
      (Array.mem_toList_iff.mp listed)
    exact indexed.pairwise_scopeEntries stored
  · rw [List.pairwise_iff_getElem]
    intro lower upper belowLower belowUpper before earlier inLower later inUpper
    have stored {id : Nat} (inside : id < table.scopes.toList.length) :
        table.scopes[id]? = some table.scopes.toList[id] := by
      rw [← Array.getElem?_toList, List.getElem?_eq_getElem inside]
    have atLower := indexed.owner_eq (stored belowLower) inLower
    have atUpper := indexed.owner_eq (stored belowUpper) inUpper
    rw [listingKey, listingKey, atLower, atUpper, Prod.Lex.toLex_lt_toLex]
    exact .inl before

theorem entries_perm (indexed : table.Indexed) :
    table.entries.Perm table.symbols.toList.zipIdx := by
  rw [List.perm_ext_iff_of_nodup]
  · intro entry
    rw [indexed.mem_entries_iff, List.mem_zipIdx_iff_getElem?,
      Array.getElem?_toList]
  · exact indexed.pairwise_entries.imp fun {earlier later} before same =>
      ne_of_lt before (congrArg listingKey same)
  · exact (List.nodup_zipIdx_map_snd _).of_map

theorem rows_eq (indexed : table.Indexed) :
    table.rows = table.entries.map fun entry => table.ownRow entry.1 := by
  rw [rows, entries, List.map_flatMap]
  apply List.flatMap_congr
  intro scope listed
  obtain ⟨id, stored⟩ := Array.mem_iff_getElem?.mp
    (Array.mem_toList_iff.mp listed)
  rw [scopeRows, scopeEntries, List.map_filterMap]
  apply List.filterMap_congr
  intro symbol member
  obtain ⟨entry, held, owner⟩ := (indexed.mem_symbols_iff stored).mp member
  have here : table.scopes[entry.scope.index]? = some scope := by
    rw [owner]
    exact stored
  simp [held, ownRow_eq here]

end Indexed

end SymbolTable

/-- The listing of every table that operations can make has its two heading
lines and then a row for each symbol of the arena, by owning scope, then by
bucket and then by position. A row shows the name, the kind, the owning scope,
the storage slot and the lines of a symbol. -/
theorem listing_sorts_the_arena {table : SymbolTable}
    (reached : table.Reached) :
    ∃ (entries : List (Symbol × Nat)) (line : Symbol → String),
      table.listing =
        "Variable Name  Variable Type  Scope Name  Location   Line Numbers\n" ++
        "-------------  -------------  ----------  --------   ------------\n" ++
        String.join (entries.map fun entry => line entry.1) ∧
      entries.Perm table.symbols.toList.zipIdx ∧
      (entries.Pairwise fun earlier later =>
        listingKey earlier < listingKey later) ∧
      ∀ symbol ∈ table.symbols, ∃ scope,
        table.scope symbol.scope = .ok scope ∧
        (line symbol).toList = rowText scope.name symbol := by
  have indexed := reached.indexed
  refine ⟨table.entries, table.ownRow, ?_, indexed.entries_perm,
    indexed.pairwise_entries, ?_⟩
  · rw [SymbolTable.listing, indexed.rows_eq]
    rfl
  · intro symbol member
    obtain ⟨index, held⟩ := Array.mem_iff_getElem?.mp member
    have owns : table.Owns symbol.scope symbol.name ⟨index⟩ :=
      ⟨symbol, held, rfl, rfl⟩
    obtain ⟨scope, stored⟩ :=
      SymbolTable.exists_scope (indexed.has_of_owns owns)
    refine ⟨scope, SymbolTable.scope_eq_ok stored, ?_⟩
    rw [SymbolTable.ownRow_eq stored, SymbolTable.toList_row]

/-- Names that were declared in the opposite order of their scopes and
buckets. -/
def backwardArena : SymbolTable where
  scopes := #[
    Scope.link (Scope.link { name := "global", parent := none } "b" ⟨1⟩)
      "a" ⟨2⟩,
    Scope.link { name := "main", parent := some ⟨0⟩ } "x" ⟨0⟩]
  symbols := #[
    SymbolTable.newSymbol ⟨1⟩ "x" .integer 1 0 false,
    SymbolTable.newSymbol ⟨0⟩ "b" .void 2 0 true,
    SymbolTable.newSymbol ⟨0⟩ "a" .integer 3 1 false]

theorem backwardArena_reached : backwardArena.Reached :=
  have opened := SymbolTable.Reached.createScope (.createScope .empty
    "global" none rfl) "main" (some ⟨0⟩) rfl
  have inserted := SymbolTable.Reached.insert (.insert opened ⟨1⟩ "x" .integer
    1 0 false rfl) ⟨0⟩ "b" .void 2 0 true rfl
  .insert inserted ⟨0⟩ "a" .integer 3 1 false rfl

theorem listing_of_backward_arena :
    backwardArena.Reached ∧ ∃ line : Symbol → String,
      backwardArena.listing = SymbolTable.heading ++ String.join [
        line (SymbolTable.newSymbol ⟨0⟩ "a" .integer 3 1 false),
        line (SymbolTable.newSymbol ⟨0⟩ "b" .void 2 0 true),
        line (SymbolTable.newSymbol ⟨1⟩ "x" .integer 1 0 false)] := by
  obtain ⟨entries, line, shows, perm, ascends, _⟩ :=
    listing_sorts_the_arena backwardArena_reached
  have sorted : entries = backwardArena.symbols.toList.zipIdx.reverse := by
    apply List.Perm.eq_of_pairwise _ ascends (by decide)
      (perm.trans (List.reverse_perm _).symm)
    exact fun _ _ _ _ before after => absurd after (lt_asymm before)
  refine ⟨backwardArena_reached, line, ?_⟩
  rw [shows, sorted]
  rfl

end CMinusAnalysis
