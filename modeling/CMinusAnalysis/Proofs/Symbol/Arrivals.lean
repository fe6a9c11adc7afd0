import CMinusAnalysis.Proofs.Symbol.Growth

namespace CMinusAnalysis

namespace Symbol

def unsigned (symbol : Symbol) : Symbol :=
  { symbol with parameters := [] }

/-- A symbol with nothing but what its declaration gave it. -/
def asDeclared (symbol : Symbol) : Symbol :=
  { symbol with parameters := [], latestLines := symbol.lines.head?.toList }

variable {symbol : Symbol}

theorem lines_ne_nil (dated : symbol.latestLines ≠ []) : symbol.lines ≠ [] :=
  mt List.reverse_eq_nil_iff.mp dated

theorem asDeclared_addLine (dated : symbol.latestLines ≠ []) (line : Nat) :
    (symbol.addLine line).asDeclared = symbol.asDeclared := by
  have first : (symbol.addLine line).lines.head? = symbol.lines.head? := by
    obtain ⟨first, rest, lines⟩ :=
      List.exists_cons_of_ne_nil (lines_ne_nil dated)
    rw [lines_addLine, lines]
    rfl
  simp only [asDeclared, first]
  rfl

end Symbol

namespace SymbolTable

/-- Every symbol has the line of its declaration. -/
def Dated (table : SymbolTable) : Prop :=
  ∀ symbol ∈ table.symbols.toList, symbol.latestLines ≠ []

variable {table before after : SymbolTable} {symbol : Symbol}

theorem has_of_lookupLocal {id : ScopeId} {name : String}
    {hit : Option SymbolId} (looked : table.lookupLocal id name = .ok hit) :
    table.Has id := by
  obtain ⟨scope, stored, _⟩ := bind_eq_ok_iff.mp looked
  exact (Array.getElem?_eq_some_iff.mp (fetch_eq_ok_iff.mp stored)).1

theorem isFunction_of_globalFunction? {name : String} {id : SymbolId}
    (hit : table.globalFunction? name = some id) :
    ∃ entry, table.symbols[id.index]? = some entry ∧
      entry.isFunction = true := by
  unfold globalFunction? at hit
  split at hit
  · split at hit
    · next function =>
        cases hit
        exact (Option.any_eq_true _ _).mp function
    · cases hit
  · cases hit

theorem has_of_globalFunction? {name : String} {id : SymbolId}
    (hit : table.globalFunction? name = some id) :
    table.Has ScopeId.global := by
  unfold globalFunction? at hit
  split at hit
  · next looked => exact has_of_lookupLocal looked
  · cases hit

theorem globalFunction?_eq_some_iff (has : table.Has ScopeId.global)
    {name : String} {id : SymbolId} :
    table.globalFunction? name = some id ↔
      table.find? ScopeId.global name = some id ∧
        ∃ entry, table.symbols[id.index]? = some entry ∧
          entry.isFunction = true := by
  constructor
  · intro hit
    refine ⟨?_, isFunction_of_globalFunction? hit⟩
    unfold globalFunction? at hit
    rw [lookupLocal_eq has] at hit
    cases found : table.find? ScopeId.global name with
    | none => simp [found] at hit
    | some other =>
        simp only [found, Option.ite_none_right_eq_some] at hit
        exact hit.2
  · rintro ⟨found, entry, stored, function⟩
    exact globalFunction?_eq_some found stored function

/-- There is one more symbol, and its scope has it under its name. The others
are as they were but for their signatures. -/
structure Gains (before after : SymbolTable) (symbol : Symbol) : Prop where
  size : after.symbols.size = before.symbols.size + 1
  last : after.symbol ⟨before.symbols.size⟩ = .ok symbol
  found : after.lookupLocal symbol.scope symbol.name =
    .ok (some ⟨before.symbols.size⟩)
  others : ∀ {id : SymbolId} {entry : Symbol}, before.symbol id = .ok entry →
    ∃ later, after.symbol id = .ok later ∧ later.unsigned = entry.unsigned

theorem gains_declared (coherent : table.Coherent) {id : ScopeId}
    {scope : Scope} {name : String} (stored : table.scope id = .ok scope)
    (free : table.find? id name = none) (type : Ty) (line : Nat)
    (isFunction : Bool) :
    table.Gains (table.declared id name type line isFunction)
      { name, type, location := scope.nextLocation, isFunction,
        latestLines := [line], scope := id } := by
  have held := fetch_eq_ok_iff.mp stored
  have has : table.Has id := (Array.getElem?_eq_some_iff.mp held).1
  have pushed : (table.declared id name type line isFunction).symbols =
      table.symbols.push
        { name, type, location := scope.nextLocation, isFunction,
          latestLines := [line], scope := id } := by
    simp [declared, held]
  refine ⟨?_, ?_, ?_, ?_⟩
  · rw [pushed, Array.size_push]
  · apply symbol_eq_ok
    simp [pushed]
  · rw [lookupLocal_eq (by rw [Has, size_scopes_declared]; exact has),
      find?_declared coherent has free]
    simp
  · intro target entry there
    have found := fetch_eq_ok_iff.mp there
    have inside := (Array.getElem?_eq_some_iff.mp found).1
    refine ⟨entry, symbol_eq_ok ?_, rfl⟩
    rw [pushed, Array.getElem?_push, if_neg (Nat.ne_of_lt inside), found]

theorem Gains.opened (gains : before.Gains after symbol) (name : String)
    (parent : ScopeId) : before.Gains (after.opened name parent) symbol where
  size := gains.size
  last := gains.last
  found := by
    have found := gains.found
    have has := has_of_lookupLocal found
    have still : (after.opened name parent).Has symbol.scope := by
      simp only [Has, SymbolTable.opened, Array.size_push] at has ⊢
      omega
    rw [lookupLocal_eq has] at found
    rw [lookupLocal_eq still, find?_opened, found]
  others := gains.others

theorem Gains.signed (gains : before.Gains after symbol) {target : SymbolId}
    (older : target.index < before.symbols.size) (type : Ty) :
    before.Gains (after.modifySymbol target (·.addParameter type))
      symbol where
  size := by
    simpa [modifySymbol] using gains.size
  last := by
    have last := fetch_eq_ok_iff.mp gains.last
    apply symbol_eq_ok
    simp [modifySymbol, Array.getElem?_modify, Nat.ne_of_lt older, last]
  found := by
    have found := gains.found
    have has := has_of_lookupLocal found
    have still : (after.modifySymbol target
        (·.addParameter type)).Has symbol.scope := has
    rw [lookupLocal_eq has] at found
    rw [lookupLocal_eq still,
      find?_modifySymbol (Symbol.bare_addParameter · type), found]
  others := by
    intro id entry there
    obtain ⟨later, found, same⟩ := gains.others there
    have held := fetch_eq_ok_iff.mp found
    by_cases signed : target.index = id.index
    · refine ⟨later.addParameter type, symbol_eq_ok ?_, same⟩
      simp [modifySymbol, Array.getElem?_modify, signed, held]
    · refine ⟨later, symbol_eq_ok ?_, same⟩
      simp [modifySymbol, Array.getElem?_modify, signed, held]

theorem Gains.symbol_cases (gains : before.Gains after symbol)
    {id : SymbolId} {entry : Symbol} (stored : after.symbol id = .ok entry) :
    (∃ earlier, before.symbol id = .ok earlier ∧
        entry.unsigned = earlier.unsigned) ∨
      id = ⟨before.symbols.size⟩ ∧ entry = symbol := by
  have inside :=
    (Array.getElem?_eq_some_iff.mp (fetch_eq_ok_iff.mp stored)).1
  rw [gains.size] at inside
  rcases Nat.lt_or_eq_of_le (Nat.le_of_lt_succ inside) with older | last
  · left
    have held : before.symbol id = .ok before.symbols[id.index] :=
      symbol_eq_ok (Array.getElem?_eq_getElem older)
    obtain ⟨later, found, same⟩ := gains.others held
    cases stored.symm.trans found
    exact ⟨_, held, same⟩
  · right
    have same : id = ⟨before.symbols.size⟩ := SymbolId.ext last
    subst same
    cases stored.symm.trans gains.last
    exact ⟨rfl, rfl⟩

theorem Gains.map_unsigned (gains : before.Gains after symbol) :
    after.symbols.toList.map Symbol.unsigned =
      before.symbols.toList.map Symbol.unsigned ++ [symbol.unsigned] := by
  apply List.ext_getElem?
  intro index
  have length : (before.symbols.toList.map Symbol.unsigned).length =
      before.symbols.size := by
    simp
  rcases Nat.lt_trichotomy index before.symbols.size with older | rfl | beyond
  · have there : before.symbol ⟨index⟩ = .ok before.symbols[index] :=
      symbol_eq_ok (Array.getElem?_eq_getElem older)
    obtain ⟨later, found, same⟩ := gains.others there
    have held := fetch_eq_ok_iff.mp found
    rw [List.getElem?_append_left (length ▸ older), List.getElem?_map,
      List.getElem?_map, Array.getElem?_toList, Array.getElem?_toList, held,
      Array.getElem?_eq_getElem older]
    exact congrArg some same
  · have last := fetch_eq_ok_iff.mp gains.last
    rw [List.getElem?_append_right (Nat.le_of_eq length), length,
      List.getElem?_map, Array.getElem?_toList, last]
    simp
  · have size := gains.size
    rw [List.getElem?_eq_none (by simp; omega),
      List.getElem?_eq_none (by simp; omega)]

theorem Gains.map (gains : before.Gains after symbol) (view : Symbol → α)
    (blind : ∀ symbol, view symbol.unsigned = view symbol) :
    after.symbols.toList.map view =
      before.symbols.toList.map view ++ [view symbol] := by
  have through (symbols : List Symbol) :
      symbols.map view = (symbols.map Symbol.unsigned).map view := by
    rw [List.map_map]
    exact List.map_congr_left fun symbol _ => (blind symbol).symm
  rw [through, gains.map_unsigned, List.map_append, ← through,
    List.map_singleton, blind]

theorem symbol_modifySymbol {change : Symbol → Symbol}
    {target id : SymbolId} {entry : Symbol}
    (stored : (table.modifySymbol target change).symbol id = .ok entry) :
    ∃ earlier, table.symbol id = .ok earlier ∧
      entry = if target = id then change earlier else earlier := by
  have held := fetch_eq_ok_iff.mp stored
  simp only [modifySymbol, Array.getElem?_modify] at held
  by_cases same : target = id
  · subst same
    rw [if_pos rfl] at held
    obtain ⟨earlier, there, rfl⟩ := Option.map_eq_some_iff.mp held
    exact ⟨earlier, symbol_eq_ok there, (if_pos rfl).symm⟩
  · have apart : target.index ≠ id.index :=
      fun equal => same (SymbolId.ext equal)
    rw [if_neg apart] at held
    exact ⟨entry, symbol_eq_ok held, (if_neg same).symm⟩

theorem dated_declared (dated : table.Dated) (id : ScopeId) (name : String)
    (type : Ty) (line : Nat) (isFunction : Bool) :
    (table.declared id name type line isFunction).Dated := by
  unfold declared
  split
  · exact dated
  · intro symbol member
    simp only [Array.toList_push, List.mem_append, List.mem_singleton]
      at member
    rcases member with earlier | rfl
    · exact dated symbol earlier
    · exact List.cons_ne_nil _ _

theorem dated_modifySymbol (dated : table.Dated) {change : Symbol → Symbol}
    (keeps : ∀ symbol : Symbol, symbol.latestLines ≠ [] →
      (change symbol).latestLines ≠ []) (target : SymbolId) :
    (table.modifySymbol target change).Dated := by
  intro symbol member
  obtain ⟨index, held⟩ := List.mem_iff_getElem?.mp member
  simp only [modifySymbol, Array.toList_modify, List.getElem?_modify] at held
  obtain ⟨earlier, stored, rfl⟩ := Option.map_eq_some_iff.mp held
  have known := dated earlier (List.mem_of_getElem? stored)
  split
  · exact keeps earlier known
  · exact known

end SymbolTable

end CMinusAnalysis
