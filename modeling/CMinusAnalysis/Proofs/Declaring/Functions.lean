import CMinusAnalysis.Proofs.Declaring.Declarations

namespace CMinusAnalysis

/-! Functions and the names of the outermost scope. A function is recorded for
its node when the outermost scope accepts its name, and from then on the name is
taken; so what is recorded, the function symbols and the accepted declarations
determine each other all along a walk. -/

theorem NodeKind.introduces?_function {kind : NodeKind}
    {introduction : Introduction}
    (introduces : kind.introduces? = some introduction)
    (function : introduction.isFunction = true) :
    ∃ name spec, kind = .declaration (.function name spec) ∧
      introduction = ⟨name, Ty.ofReturnSpec spec, true⟩ := by
  unfold introduces? at introduces
  split at introduces
  · cases introduces
    cases function
  · cases introduces
    cases function
  · cases introduces
    exact ⟨_, _, rfl, rfl⟩
  · obtain ⟨_, _, rfl⟩ := Option.map_eq_some_iff.mp introduces
    cases function
  · cases introduces

theorem Symbol.isFunction_eq_of_bare {symbol changed : Symbol}
    (same : changed.bare = symbol.bare) :
    changed.isFunction = symbol.isFunction := by
  have parts := same
  simp only [bare, Symbol.mk.injEq] at parts
  exact parts.2.2.2.1

namespace SymbolTable

variable {table earlier later : SymbolTable} {name : String} {id : SymbolId}

theorem Coherent.scope_of_find? (coherent : table.Coherent) {scope : ScopeId}
    {entry : Symbol} (hit : table.find? scope name = some id)
    (stored : table.symbols[id.index]? = some entry) :
    entry.scope = scope := by
  obtain ⟨_, held, here⟩ := Option.bind_eq_some_iff.mp hit
  exact coherent.owned held (List.mem_of_find?_eq_some here) stored

theorem Extends.globalFunction? (extends' : earlier.Extends later)
    (has : earlier.Has ScopeId.global)
    (known : earlier.globalFunction? name = some id) :
    later.globalFunction? name = some id := by
  obtain ⟨found, entry, stored, function⟩ :=
    (globalFunction?_eq_some_iff has).mp known
  obtain ⟨changed, there, same⟩ := extends'.symbol stored
  exact globalFunction?_eq_some (extends'.find? found) there
    ((Symbol.isFunction_eq_of_bare same).trans function)

end SymbolTable

namespace Declaring

/-- The outermost scope takes the name: it is free there, and the walk is in
that scope. -/
def Accepts (state : Declaring) (name : String) : Prop :=
  state.table.lookupLocal ScopeId.global name = .ok none ∧
    state.current = ScopeId.global

instance (state : Declaring) (name : String) : Decidable (state.Accepts name) :=
  inferInstanceAs (Decidable (_ ∧ _))

/-- The entry that a visit makes for an accepted function. -/
def enrols? : Declaring × Route × Visit → Option (NodeId × SymbolId)
  | (state, _, .enter site) =>
      match site.node.kind with
      | .declaration (.function name _) =>
          if state.Accepts name then
            some (site.id, ⟨state.table.symbols.size⟩)
          else none
      | _ => none
  | _ => none

/-- The node whose visit gives the name to the outermost scope. -/
def globalSite? (name : String) : Declaring × Route × Visit → Option Site
  | (state, _, .enter site) =>
      if site.node.kind.introduces?.map Introduction.name = some name ∧
          state.Accepts name then some site
      else none
  | _ => none

def runtimeNames (builtins : Bool) : List String :=
  (runtime builtins).map Symbol.name

variable {state : Declaring} {site : Site} {route : Route} {name : String}
  {introduction : Introduction}

theorem accepts_iff (sound : state.Sound) :
    state.Accepts name ↔ state.table.find? ScopeId.global name = none ∧
      state.current = ScopeId.global := by
  rw [Accepts, SymbolTable.lookupLocal_eq sound.global, Except.ok.injEq]

theorem objection?_eq_none_iff (sound : state.Sound) :
    state.objection? name = none ↔ state.Accepts name := by
  rw [accepts_iff sound]
  refine ⟨objection?_eq_none, ?_⟩
  rintro ⟨free, here⟩
  simp [objection?, free, here]

theorem enrols?_eq_some_iff {key : NodeId} {function : SymbolId} :
    enrols? (state, route, .enter site) = some (key, function) ↔
      ∃ name spec, site.node.kind = .declaration (.function name spec) ∧
        state.Accepts name ∧ key = site.id ∧
        function = ⟨state.table.symbols.size⟩ := by
  simp only [enrols?]
  constructor
  · intro enrolled
    split at enrolled
    · next name spec kind =>
        obtain ⟨accepted, same⟩ := Option.ite_none_right_eq_some.mp enrolled
        cases same
        exact ⟨name, spec, kind, accepted, rfl, rfl⟩
    · cases enrolled
  · rintro ⟨name, spec, kind, accepted, rfl, rfl⟩
    simp [kind, accepted]

theorem globalSite?_eq_some_iff {found : Site} :
    globalSite? name (state, route, .enter site) = some found ↔
      found = site ∧ state.Accepts name ∧
        ∃ introduction, site.node.kind.introduces? = some introduction ∧
          introduction.name = name := by
  simp only [globalSite?, Option.ite_none_right_eq_some, Option.map_eq_some_iff,
    Option.some.injEq]
  constructor
  · rintro ⟨⟨introduces, accepted⟩, rfl⟩
    exact ⟨rfl, accepted, introduces⟩
  · rintro ⟨rfl, accepted, introduces⟩
    exact ⟨⟨introduces, accepted⟩, rfl⟩

theorem find?_entered (sound : state.Sound)
    (introduces : site.node.kind.introduces? = some introduction)
    (free : state.table.find? (state.taking introduction)
      introduction.name = none)
    (outermost : introduction.isFunction = true →
      state.current = ScopeId.global) (id : ScopeId) (name : String) :
    (state.entered site).table.find? id name =
      if id = state.taking introduction ∧ name = introduction.name then
        some ⟨state.table.symbols.size⟩
      else state.table.find? id name := by
  have found : (state.table.declared (state.taking introduction)
      introduction.name introduction.type site.node.line
        introduction.isFunction).find? id name = _ :=
    SymbolTable.find?_declared sound.coherent (sound.has_taking introduction)
      free id name
  rw [← found]
  unfold NodeKind.introduces? at introduces
  split at introduces
  · next kind =>
      cases introduces
      change state.table.find? state.current _ = none at free
      simp only [entered, kind, withLocal, free, Option.isSome_none,
        Bool.false_eq_true, if_false]
      rfl
  · next kind =>
      cases introduces
      change state.table.find? state.current _ = none at free
      simp only [entered, kind, withLocal, free, Option.isSome_none,
        Bool.false_eq_true, if_false]
      rfl
  · next called spec kind =>
      cases introduces
      have accepted : state.objection? called = none := by
        change state.table.find? ScopeId.global _ = none at free
        simp [objection?, free, outermost]
      simp only [entered, kind, inFunction, withFunction, accepted, enclosed]
      exact SymbolTable.find?_opened _ _ _ _
  · next parameter kind =>
      obtain ⟨called, named, rfl⟩ := Option.map_eq_some_iff.mp introduces
      change state.table.find? state.current _ = none at free
      simp only [entered, kind, withParameter, named, free,
        Option.isSome_none, Bool.false_eq_true, if_false, withSignature]
      split
      · exact find?_withSigned _ _ _ _
      · rfl
  · cases introduces

theorem find?_global_of_size (sound : state.Sound)
    (size : (state.entered site).table.symbols.size =
      state.table.symbols.size) (name : String) :
    (state.entered site).table.find? ScopeId.global name =
      state.table.find? ScopeId.global name := by
  obtain ⟨scope, held⟩ := SymbolTable.exists_scope sound.global
  have later := fetch_eq_ok_iff.mp
    (scope_entered sound size (SymbolTable.scope_eq_ok held))
  have named : (state.entered site).table.hasName name =
      state.table.hasName name := by
    funext id
    simp only [SymbolTable.hasName]
    cases stored : state.table.symbols[id.index]? with
    | none =>
        rw [Array.getElem?_eq_none_iff, ← size] at stored
        rw [Array.getElem?_eq_none stored]
    | some entry =>
        obtain ⟨changed, there, same⟩ :=
          (grows_entered sound site).table.symbol stored
        simp [there, Symbol.name_eq_of_bare same]
  simp only [SymbolTable.find?, later, held, named]

theorem free_of_unrefused (sound : state.Sound)
    (accepted : ∀ kind, ¬ state.Refusal site.node.kind introduction kind) :
    state.table.find? (state.taking introduction) introduction.name = none ∧
      (introduction.isFunction = true → state.current = ScopeId.global) := by
  have looked := SymbolTable.lookupLocal_eq (sound.has_taking introduction)
    introduction.name
  have free : state.table.find? (state.taking introduction)
      introduction.name = none := by
    apply Option.eq_none_iff_forall_ne_some.mpr
    intro symbol hit
    rw [hit] at looked
    exact accepted _ (.taken looked)
  refine ⟨free, fun function => ?_⟩
  apply Decidable.byContradiction
  intro inside
  rw [free, taking, if_pos function] at looked
  exact accepted _ (.inner function looked inside)

theorem accepts_iff_taking (sound : state.Sound)
    (free : state.table.find? (state.taking introduction)
      introduction.name = none)
    (outermost : introduction.isFunction = true →
      state.current = ScopeId.global) :
    state.Accepts introduction.name ↔
      ScopeId.global = state.taking introduction := by
  rw [accepts_iff sound]
  constructor
  · rintro ⟨_, here⟩
    simp [taking, here]
  · intro here
    refine ⟨here ▸ free, ?_⟩
    cases function : introduction.isFunction with
    | true => exact outermost function
    | false => simpa [taking, function, eq_comm] using here

theorem not_accepts_of_refusal {kind : DiagnosticKind}
    (refusal : state.Refusal site.node.kind introduction kind) :
    ¬ state.Accepts introduction.name := by
  rintro ⟨free, here⟩
  cases refusal with
  | taken found =>
      have outer : state.taking introduction = ScopeId.global := by
        simp [taking, here]
      rw [outer, free] at found
      cases found
  | inner _ _ inside => exact inside here

theorem find?_global_entered (sound : state.Sound) (route : Route)
    (site : Site) (name : String) :
    (state.entered site).table.find? ScopeId.global name =
      if (globalSite? name (state, route, .enter site)).isSome then
        some ⟨state.table.symbols.size⟩
      else state.table.find? ScopeId.global name := by
  have given : (globalSite? name (state, route, .enter site)).isSome ↔
      state.Accepts name ∧ ∃ introduction,
        site.node.kind.introduces? = some introduction ∧
          introduction.name = name := by
    simp [Option.isSome_iff_exists, globalSite?_eq_some_iff]
  simp only [given]
  cases introduces : site.node.kind.introduces? with
  | none =>
      have size : (state.entered site).table.symbols.size =
          state.table.symbols.size := by
        rcases size_symbols_entered sound site with ⟨_, introduced, _⟩ | size
        · cases introduces.symm.trans introduced
        · exact size
      simp [find?_global_of_size sound size]
  | some introduction =>
      simp only [Option.some.injEq, exists_eq_left']
      rcases creates_or_refuses sound introduces with
        ⟨_, accepted⟩ | ⟨_, refuses, refusal⟩
      · obtain ⟨free, outermost⟩ := free_of_unrefused sound accepted
        have taken := accepts_iff_taking sound free outermost
        rw [find?_entered sound introduces free outermost]
        congr 1
        rw [eq_iff_iff]
        constructor
        · rintro ⟨here, rfl⟩
          exact ⟨taken.mpr here, rfl⟩
        · rintro ⟨accepted, rfl⟩
          exact ⟨taken.mp accepted, rfl⟩
      · have refused := not_accepts_of_refusal refusal
        rw [find?_global_of_size sound (by rw [refuses.symbols]), if_neg]
        rintro ⟨accepted, rfl⟩
        exact refused accepted

theorem functions_entered (sound : state.Sound) (route : Route) (site : Site)
    (key : NodeId) :
    (state.entered site).facts.functions.get? key =
      match enrols? (state, route, .enter site) with
      | some (node, function) =>
          if key = node then some function
          else state.facts.functions.get? key
      | none => state.facts.functions.get? key := by
  unfold entered
  split
  · next name spec kind =>
      simp only [enrols?, kind, inFunction, enclosed, withFunction]
      by_cases accepted : state.Accepts name
      · simp only [(objection?_eq_none_iff sound).mpr accepted, accepted,
          if_true, Facts.setFunction]
        exact NodeTable.get?_insert _ _ _ _
      · obtain ⟨reason, objected⟩ := Option.ne_none_iff_exists'.mp
          (mt (objection?_eq_none_iff sound).mp accepted)
        simp only [objected, accepted, if_false]
        rfl
  · next kind => simp [enrols?, kind, facts_withLocal]
  · next kind => simp [enrols?, kind, facts_withLocal]
  · next kind => simp [enrols?, kind, facts_withParameter]
  · next kind =>
      simp only [enrols?, kind, withBlock]
      split <;> rfl
  · next kind =>
      simp only [enrols?, kind, withUse]
      split <;> rfl
  · next kind =>
      simp only [enrols?, kind, withUse]
      split <;> rfl
  · next kind =>
      simp only [enrols?, kind, withUse]
      split <;> rfl
  · next kind _ _ _ _ _ _ _ =>
      cases enrolled : enrols? (state, route, .enter site) with
      | none => rfl
      | some entry =>
          obtain ⟨name, spec, function, _⟩ := enrols?_eq_some_iff.mp enrolled
          exact absurd function (kind name spec)

theorem function_entered (sound : state.Sound) (route : Route) {id : SymbolId}
    {entry : Symbol}
    (stored : (state.entered site).table.symbols[id.index]? = some entry)
    (function : entry.isFunction = true) :
    (∃ earlier, state.table.symbols[id.index]? = some earlier ∧
        entry.bare = earlier.bare) ∨
      enrols? (state, route, .enter site) = some (site.id, id) ∧
        globalSite? entry.name (state, route, .enter site) = some site := by
  have older (index : id.index < state.table.symbols.size) :
      ∃ earlier, state.table.symbols[id.index]? = some earlier ∧
        entry.bare = earlier.bare := by
    have held := Array.getElem?_eq_getElem index
    obtain ⟨changed, there, same⟩ :=
      (grows_entered sound site).table.symbol held
    cases stored.symm.trans there
    exact ⟨_, held, same⟩
  have inside := (Array.getElem?_eq_some_iff.mp stored).1
  cases sound.effect site with
  | created introduces creates =>
      have accepted := (creates_iff sound introduces).mp creates
      obtain ⟨_, _, gains, _⟩ := creates
      rcases gains.symbol_cases (SymbolTable.symbol_eq_ok stored) with
        ⟨earlier, held, _⟩ | ⟨rfl, rfl⟩
      · exact .inl (older
          (Array.getElem?_eq_some_iff.mp (fetch_eq_ok_iff.mp held)).1)
      · right
        obtain ⟨free, outermost⟩ := free_of_unrefused sound accepted
        have taken := (accepts_iff_taking sound free outermost).mpr
          (if_pos function).symm
        refine ⟨enrols?_eq_some_iff.mpr ?_,
          globalSite?_eq_some_iff.mpr ⟨rfl, taken, _, introduces, rfl⟩⟩
        obtain ⟨name, spec, kind, rfl⟩ :=
          NodeKind.introduces?_function introduces function
        exact ⟨name, spec, kind, taken, rfl, rfl⟩
  | refused _ refuses =>
      rw [refuses.symbols] at inside
      exact .inl (older inside)
  | spared _ spares =>
      rw [spares.symbols] at inside
      exact .inl (older inside)
  | noted _ _ same =>
      rw [same] at inside
      exact .inl (older (by simpa [SymbolTable.modifySymbol] using inside))
  | missed _ _ same =>
      rw [same] at inside
      exact .inl (older inside)

theorem isFunction_of_origin {builtins : Bool} {index : Nat} {entry : Symbol}
    (stored : (origin builtins).table.symbols[index]? = some entry) :
    entry.isFunction = true := by
  have functions : ∀ symbol ∈ runtime builtins, symbol.isFunction = true := by
    cases builtins <;> decide
  refine functions entry.unsigned ?_
  rw [← unsigned_origin builtins]
  exact List.mem_map_of_mem
    (List.mem_of_getElem? (Array.getElem?_toList.trans stored))

theorem symbols_origin_iff {builtins : Bool} {index : Nat} :
    (runtimeNames builtins)[index]? = some name ↔
      ∃ entry, (origin builtins).table.symbols[index]? = some entry ∧
        entry.name = name := by
  have listed : (runtimeNames builtins)[index]? =
      (origin builtins).table.symbols[index]?.map Symbol.name := by
    rw [runtimeNames, ← unsigned_origin builtins, List.map_map,
      List.getElem?_map, Array.getElem?_toList]
    rfl
  rw [listed, Option.map_eq_some_iff]

theorem find?_withRuntime (id : ScopeId) (name : String) :
    withRuntime.table.find? id name =
      if id = ScopeId.global ∧ name = "input" then some ⟨1⟩
      else if id = ScopeId.global ∧ name = "output" then some ⟨0⟩
      else none := by
  rw [← find?_output id name, withRuntime, declaredIn]
  exact SymbolTable.find?_declared grows_output.sound.coherent
    grows_output.sound.global find?_input id name

theorem find?_origin_of_listed {builtins : Bool} {index : Nat}
    (listed : (runtimeNames builtins)[index]? = some name) :
    (origin builtins).table.find? ScopeId.global name = some ⟨index⟩ := by
  cases builtins with
  | false => cases listed
  | true =>
      rw [origin, if_pos rfl, find?_withRuntime]
      rcases index with _ | _ | index
      · cases listed
        rfl
      · cases listed
        rfl
      · cases listed

theorem listed_of_find?_origin {builtins : Bool} {symbol : SymbolId}
    (found : (origin builtins).table.find? ScopeId.global name =
      some symbol) : name ∈ runtimeNames builtins := by
  cases builtins with
  | false =>
      rw [origin, if_neg Bool.false_ne_true, find?_bare] at found
      cases found
  | true =>
      rw [origin, if_pos rfl, find?_withRuntime] at found
      simp only [true_and] at found
      split at found
      · next input => simp [runtimeNames, runtime, input]
      · split at found
        · next output => simp [runtimeNames, runtime, output]
        · cases found

/-- What the recorded functions, the function symbols and the names of the
outermost scope have to do with the visits made so far. -/
structure Enrolment (builtins : Bool) (tree : Tree) (state : Declaring)
    (past : List (Declaring × Route × Visit)) : Prop where
  runtime : ∀ {name : String}, name ∈ runtimeNames builtins →
    ∃ id entry, state.table.find? ScopeId.global name = some id ∧
      state.table.symbols[id.index]? = some entry ∧ entry.isFunction = true
  recorded : ∀ {key : NodeId} {function : SymbolId},
    state.facts.functions.get? key = some function ↔
      (key, function) ∈ past.filterMap enrols?
  described : ∀ {key : NodeId} {function : SymbolId},
    state.facts.functions.get? key = some function →
    ∃ node name spec entry, tree.node key = .ok node ∧
      node.kind = .declaration (.function name spec) ∧
      name ∉ runtimeNames builtins ∧
      state.table.find? ScopeId.global name = some function ∧
      state.table.symbols[function.index]? = some entry ∧
      entry.isFunction = true ∧ entry.type = Ty.ofReturnSpec spec
  functions : ∀ {id : SymbolId} {entry : Symbol},
    state.table.symbols[id.index]? = some entry → entry.isFunction = true →
    state.table.find? ScopeId.global entry.name = some id ∧
      (entry.name ∈ runtimeNames builtins ∨
        ∃ key, state.facts.functions.get? key = some id)
  given : ∀ {name : String} {id : SymbolId},
    state.table.find? ScopeId.global name = some id →
    name ∈ runtimeNames builtins ∨
      ∃ site, past.findSome? (globalSite? name) = some site ∧
        ∀ key, state.facts.functions.get? key = some id ↔
          key = site.id ∧ site.node.kind.isFunction = true
  free : ∀ {name : String},
    state.table.find? ScopeId.global name = none →
    past.findSome? (globalSite? name) = none

namespace Enrolment

variable {builtins : Bool} {tree : Tree}
  {past : List (Declaring × Route × Visit)}

theorem fresh (enrolment : Enrolment builtins tree state past)
    (sound : state.Sound) (node : tree.node site.id = .ok site.node)
    {key : NodeId} {function : SymbolId}
    (enrols : enrols? (state, route, .enter site) = some (key, function)) :
    state.facts.functions.get? key = none := by
  obtain ⟨name, spec, kind, accepted, rfl, _⟩ := enrols?_eq_some_iff.mp enrols
  obtain ⟨unknown, _⟩ := (accepts_iff sound).mp accepted
  apply Option.eq_none_iff_forall_ne_some.mpr
  intro other recorded
  obtain ⟨_, _, _, _, found, again, _, known, _⟩ :=
    enrolment.described recorded
  cases node.symm.trans found
  cases kind.symm.trans again
  rw [unknown] at known
  cases known

theorem get?_entered (enrolment : Enrolment builtins tree state past)
    (sound : state.Sound) (route : Route)
    (node : tree.node site.id = .ok site.node) (key : NodeId)
    (function : SymbolId) :
    (state.entered site).facts.functions.get? key = some function ↔
      state.facts.functions.get? key = some function ∨
        enrols? (state, route, .enter site) = some (key, function) := by
  rw [functions_entered sound route]
  cases enrols : enrols? (state, route, .enter site) with
  | none => simp
  | some entry =>
      obtain ⟨enrolled, symbol⟩ := entry
      have unknown := enrolment.fresh sound node enrols
      simp only [Option.some.injEq, Prod.mk.injEq]
      split
      · next same =>
          subst same
          simp [unknown]
      · next other => simp [Ne.symm other]

theorem described_entered (enrolment : Enrolment builtins tree state past)
    (sound : state.Sound) (route : Route)
    (node : tree.node site.id = .ok site.node) {key : NodeId}
    {function : SymbolId}
    (recorded : (state.entered site).facts.functions.get? key =
      some function) :
    ∃ node name spec entry, tree.node key = .ok node ∧
      node.kind = .declaration (.function name spec) ∧
      name ∉ runtimeNames builtins ∧
      (state.entered site).table.find? ScopeId.global name = some function ∧
      (state.entered site).table.symbols[function.index]? = some entry ∧
      entry.isFunction = true ∧ entry.type = Ty.ofReturnSpec spec := by
  have grown := grows_entered sound site
  rcases (enrolment.get?_entered sound route node _ _).mp recorded with
    earlier | enrols
  · obtain ⟨node, name, spec, entry, found, kind, ours, hit, stored, signed,
      typed⟩ := enrolment.described earlier
    obtain ⟨changed, later, same⟩ := grown.table.symbol stored
    exact ⟨node, name, spec, changed, found, kind, ours,
      grown.table.find? hit, later,
      (Symbol.isFunction_eq_of_bare same).trans signed,
      (Symbol.type_eq_of_bare same).trans typed⟩
  · obtain ⟨name, spec, kind, accepted, rfl, rfl⟩ :=
      enrols?_eq_some_iff.mp enrols
    have introduces : site.node.kind.introduces? =
        some ⟨name, Ty.ofReturnSpec spec, true⟩ := by
      rw [kind]
      rfl
    obtain ⟨free, here⟩ := (accepts_iff sound).mp accepted
    obtain ⟨_, _, gains, _⟩ :=
      creates_entered sound introduces free fun _ => here
    refine ⟨site.node, name, spec, _, node, kind, ?_, ?_,
      fetch_eq_ok_iff.mp gains.last, rfl, rfl⟩
    · intro taken
      obtain ⟨_, _, found, _⟩ := enrolment.runtime taken
      cases free.symm.trans found
    · rw [find?_entered sound introduces free fun _ => here]
      exact if_pos ⟨rfl, rfl⟩

theorem functions_entered (enrolment : Enrolment builtins tree state past)
    (sound : state.Sound) (route : Route)
    (node : tree.node site.id = .ok site.node) {id : SymbolId}
    {entry : Symbol}
    (stored : (state.entered site).table.symbols[id.index]? = some entry)
    (function : entry.isFunction = true) :
    (state.entered site).table.find? ScopeId.global entry.name = some id ∧
      (entry.name ∈ runtimeNames builtins ∨
        ∃ key, (state.entered site).facts.functions.get? key = some id) := by
  have get? := enrolment.get?_entered sound route node
  rcases function_entered sound route stored function with
    ⟨earlier, held, same⟩ | ⟨enrols, given⟩
  · obtain ⟨found, source⟩ := enrolment.functions held
      ((Symbol.isFunction_eq_of_bare same).symm.trans function)
    rw [Symbol.name_eq_of_bare same]
    exact ⟨(grows_entered sound site).table.find? found,
      source.imp_right fun ⟨key, recorded⟩ =>
        ⟨key, (get? _ _).mpr (.inl recorded)⟩⟩
  · refine ⟨?_, .inr ⟨_, (get? _ _).mpr (.inr enrols)⟩⟩
    obtain ⟨_, _, _, _, _, rfl⟩ := enrols?_eq_some_iff.mp enrols
    rw [find?_global_entered sound route, given]
    rfl

theorem given_entered (enrolment : Enrolment builtins tree state past)
    (sound : state.Sound) (route : Route)
    (node : tree.node site.id = .ok site.node) {name : String} {id : SymbolId}
    (found : (state.entered site).table.find? ScopeId.global name = some id) :
    name ∈ runtimeNames builtins ∨
      ∃ target, (past ++ [(state, route, Visit.enter site)]).findSome?
          (globalSite? name) = some target ∧
        ∀ key, (state.entered site).facts.functions.get? key = some id ↔
          key = target.id ∧ target.node.kind.isFunction = true := by
  have get? := enrolment.get?_entered sound route node
  rw [List.findSome?_append, List.findSome?_singleton]
  rw [find?_global_entered sound route] at found
  cases giving : globalSite? name (state, route, .enter site) with
  | some target =>
      right
      simp only [giving, Option.isSome_some, if_true, Option.some.injEq]
        at found
      subst found
      obtain ⟨rfl, accepted, introduction, introduces, rfl⟩ :=
        globalSite?_eq_some_iff.mp giving
      refine ⟨target, ?_, fun key => ?_⟩
      · rw [enrolment.free ((accepts_iff sound).mp accepted).1]
        rfl
      rw [get?, or_iff_right, enrols?_eq_some_iff]
      · constructor
        · rintro ⟨_, _, kind, _, rfl, _⟩
          exact ⟨rfl, by rw [kind]; rfl⟩
        · rintro ⟨rfl, function⟩
          obtain ⟨called, spec, kind⟩ := kind_of_isFunction function
          rw [kind] at introduces
          cases introduces
          exact ⟨called, spec, kind, accepted, rfl, rfl⟩
      · intro recorded
        exact Nat.lt_irrefl _ (sound.functions _ recorded)
  | none =>
      simp only [giving, Option.isSome_none, Bool.false_eq_true, if_false]
        at found
      refine (enrolment.given found).imp_right ?_
      rintro ⟨target, first, entries⟩
      refine ⟨target, by rw [first]; rfl, fun key => ?_⟩
      rw [get?, or_iff_left, entries]
      -- What the visit enrols comes after everything that was found before it.
      intro enrols
      obtain ⟨_, _, _, _, _, rfl⟩ := enrols?_eq_some_iff.mp enrols
      obtain ⟨_, stored, _⟩ := SymbolTable.name_of_find? found
      exact Nat.lt_irrefl _ (Array.getElem?_eq_some_iff.mp stored).1

theorem entered (enrolment : Enrolment builtins tree state past)
    (sound : state.Sound) (route : Route)
    (node : tree.node site.id = .ok site.node) :
    Enrolment builtins tree (state.entered site)
      (past ++ [(state, route, .enter site)]) where
  runtime taken := by
    have grown := (grows_entered sound site).table
    obtain ⟨id, entry, found, stored, function⟩ := enrolment.runtime taken
    obtain ⟨changed, later, same⟩ := grown.symbol stored
    exact ⟨id, changed, grown.find? found, later,
      (Symbol.isFunction_eq_of_bare same).trans function⟩
  recorded := by
    intro key function
    rw [enrolment.get?_entered sound route node, filterMap_concat,
      List.mem_append, Option.mem_toList, enrolment.recorded]
  described := enrolment.described_entered sound route node
  functions := enrolment.functions_entered sound route node
  given := enrolment.given_entered sound route node
  free := by
    intro name free
    rw [List.findSome?_append, List.findSome?_singleton]
    rw [find?_global_entered sound route] at free
    cases giving : globalSite? name (state, route, .enter site) with
    | some target => simp [giving] at free
    | none =>
        simp only [giving, Option.isSome_none, Bool.false_eq_true,
          if_false] at free
        rw [enrolment.free free]
        rfl

theorem left (enrolment : Enrolment builtins tree state past) (route : Route)
    (site : Site) :
    Enrolment builtins tree (state.left site)
      (past ++ [(state, route, .leave site)]) := by
  have found (name : String) :
      (past ++ [(state, route, Visit.leave site)]).findSome?
          (globalSite? name) = past.findSome? (globalSite? name) := by
    rw [List.findSome?_append]
    exact Option.or_none
  constructor
  all_goals simp only [table_left, facts_left, found,
    filterMap_concat_none (show enrols? (state, route, .leave site) = none
      from rfl)]
  · exact enrolment.runtime
  · exact enrolment.recorded
  · exact enrolment.described
  · exact enrolment.functions
  · exact enrolment.given
  · exact enrolment.free

theorem injective (enrolment : Enrolment builtins tree state past)
    {left right : NodeId} {function : SymbolId}
    (first : state.facts.functions.get? left = some function)
    (second : state.facts.functions.get? right = some function) :
    left = right := by
  obtain ⟨_, name, _, _, _, _, ours, found, _⟩ := enrolment.described first
  rcases enrolment.given found with taken | ⟨site, _, entries⟩
  · exact absurd taken ours
  · exact ((entries left).mp first).1.trans ((entries right).mp second).1.symm

theorem isRecorded_iff (enrolment : Enrolment builtins tree state past)
    (function : SymbolId) :
    (∃ key, state.facts.functions.get? key = some function) ↔
      ∃ symbol, state.table.symbol function = .ok symbol ∧
        symbol.isFunction = true ∧ symbol.name ∉ runtimeNames builtins := by
  constructor
  · rintro ⟨key, recorded⟩
    obtain ⟨_, _, _, symbol, _, _, ours, found, stored, signed, _⟩ :=
      enrolment.described recorded
    obtain ⟨_, there, rfl⟩ := SymbolTable.name_of_find? found
    cases stored.symm.trans there
    exact ⟨symbol, SymbolTable.symbol_eq_ok stored, signed, ours⟩
  · rintro ⟨symbol, stored, signed, ours⟩
    obtain ⟨_, taken | recorded⟩ :=
      enrolment.functions (fetch_eq_ok_iff.mp stored) signed
    · exact absurd taken ours
    · exact recorded

theorem origin (builtins : Bool) (tree : Tree) :
    Enrolment builtins tree (origin builtins) [] := by
  have unrecorded (key : NodeId) :
      (Declaring.origin builtins).facts.functions.get? key = none := by
    rw [(origin_fields builtins).1]
    rfl
  constructor
  case recorded => simp [unrecorded]
  case described => simp [unrecorded]
  case free => simp
  case runtime =>
    intro name taken
    obtain ⟨index, listed⟩ := List.mem_iff_getElem?.mp taken
    obtain ⟨entry, stored, _⟩ := symbols_origin_iff.mp listed
    exact ⟨⟨index⟩, entry, find?_origin_of_listed listed, stored,
      isFunction_of_origin stored⟩
  case functions =>
    intro id entry stored _
    have listed := symbols_origin_iff.mpr ⟨entry, stored, rfl⟩
    exact ⟨find?_origin_of_listed listed, .inl (List.mem_of_getElem? listed)⟩
  case given => exact fun found => .inl (listed_of_find?_origin found)

end Enrolment

end Declaring

end CMinusAnalysis
