import CMinusAnalysis.Proofs.Declaring.Step
import CMinusAnalysis.Proofs.Facts.Records

namespace CMinusAnalysis

/-! The declaring pass only adds to what it has. Every visit keeps the state
sound and says something new about no node but its own, so a whole walk ends
well and says nothing about nodes outside. -/

namespace Declaring

structure Grows (before after : Declaring) : Prop where
  sound : after.Sound
  table : before.table.Extends after.table
  diagnostics : before.diagnostics.items <+: after.diagnostics.items
  types : after.facts.types = before.facts.types

namespace Grows

variable {before middle after : Declaring}

theorem refl (sound : before.Sound) : before.Grows before :=
  ⟨sound, .refl _, List.prefix_rfl, rfl⟩

theorem trans (first : before.Grows middle) (second : middle.Grows after) :
    before.Grows after :=
  ⟨second.sound, first.table.trans second.table,
    first.diagnostics.trans second.diagnostics,
    second.types.trans first.types⟩

end Grows

variable {state : Declaring}

theorem Sound.carry {before after : Declaring} (sound : before.Sound)
    (extended : before.table.Extends after.table)
    (coherent : after.table.Coherent) (current : after.table.Has after.current)
    (awaiting : after.awaiting = before.awaiting)
    (facts : after.facts = before.facts) : after.Sound where
  coherent := coherent
  current := current
  awaiting scope member := extended.has (sound.awaiting scope (awaiting ▸ member))
  blocks scope member := extended.has (sound.blocks scope (facts ▸ member))
  functions function member :=
    extended.symbol_lt (sound.functions function (facts ▸ member))

theorem grows_reported (sound : state.Sound) (kind : DiagnosticKind)
    (line : Nat) (name : String) :
    state.Grows (state.reported kind line name) where
  sound := sound.carry (.refl _) sound.coherent sound.current rfl rfl
  table := .refl _
  diagnostics := by simp [reported]
  types := rfl

theorem grows_declaredIn (sound : state.Sound) {scope : ScopeId}
    {name : String} (has : state.table.Has scope)
    (free : state.table.find? scope name = none) (type : Ty) (line : Nat)
    (isFunction : Bool) :
    state.Grows (state.declaredIn scope name type line isFunction) :=
  have extended := SymbolTable.extends_declared sound.coherent has free
  { sound := sound.carry extended (sound.coherent.declared has)
      (extended.has sound.current) rfl rfl
    table := extended
    diagnostics := List.prefix_rfl
    types := rfl }

theorem grows_enclosed (sound : state.Sound) (name : String) :
    state.Grows (state.enclosed name) :=
  have extended := (SymbolTable.settled_opened (fun _ => False) state.table
    name state.current).toExtends
  { sound := sound.carry extended (sound.coherent.opened name sound.current)
      (by simp [enclosed, SymbolTable.opened, SymbolTable.Has]) rfl rfl
    table := extended
    diagnostics := List.prefix_rfl
    types := rfl }

theorem grows_outside (sound : state.Sound) : state.Grows state.outside where
  sound := by
    refine sound.carry (.refl _) sound.coherent ?_ rfl rfl
    simp only [outside]
    cases outer : state.table.parent? state.current with
    | none => exact sound.global
    | some parent => exact sound.coherent.parent_has outer
  table := .refl _
  diagnostics := List.prefix_rfl
  types := rfl

theorem grows_modifySymbol (sound : state.Sound) {change : Symbol → Symbol}
    (same : ∀ symbol, (change symbol).bare = symbol.bare) (target : SymbolId) :
    state.Grows
      { state with table := state.table.modifySymbol target change } :=
  have extended : state.table.Extends
      (state.table.modifySymbol target change) :=
    (SymbolTable.settled_modifySymbol same (fun _ => False) target).toExtends
  { sound := sound.carry extended
      (sound.coherent.modifySymbol same target) sound.current rfl rfl
    table := extended
    diagnostics := List.prefix_rfl
    types := rfl }

theorem grows_withSigned (sound : state.Sound) (function : String)
    (type : Ty) : state.Grows (state.withSigned function type) := by
  unfold withSigned
  split
  · exact grows_modifySymbol sound (Symbol.bare_addParameter · type) _
  · exact .refl sound

theorem grows_withSignature (sound : state.Sound) (type : Ty) :
    state.Grows (state.withSignature type) := by
  unfold withSignature
  split
  · exact grows_withSigned sound _ type
  · exact .refl sound

theorem grows_withLocal (sound : state.Sound) (name : String) (type : Ty)
    (line : Nat) (redeclared : DiagnosticKind) :
    state.Grows (state.withLocal name type line redeclared) := by
  unfold withLocal
  split
  · exact grows_reported sound _ _ _
  · next free =>
      exact grows_declaredIn sound sound.current (by simpa using free) _ _ _

theorem grows_withParameter (sound : state.Sound) (parameter : Parameter)
    (line : Nat) : state.Grows (state.withParameter parameter line) := by
  unfold withParameter
  split
  · exact .refl sound
  · split
    · exact grows_reported sound _ _ _
    · next free =>
        have declared := grows_declaredIn sound sound.current
          (by simpa using free) parameter.type line false
        exact declared.trans (grows_withSignature declared.sound _)

theorem objection?_eq_none {name : String}
    (accepted : state.objection? name = none) :
    state.table.find? ScopeId.global name = none ∧
      state.current = ScopeId.global := by
  unfold objection? at accepted
  split at accepted
  · cases accepted
  · next free =>
      split at accepted
      · cases accepted
      · next here => exact ⟨by simpa using free, by simpa using here⟩

theorem grows_withFunction (sound : state.Sound) (id : NodeId) (name : String)
    (type : Ty) (line : Nat) :
    state.Grows (state.withFunction id name type line) := by
  unfold withFunction
  split
  · next kind _ =>
      have reported := grows_reported sound kind line name
      exact ⟨{ reported.sound with }, reported.table, reported.diagnostics,
        rfl⟩
  · next accepted =>
      have free := (objection?_eq_none accepted).1
      have declared := grows_declaredIn sound sound.global free type line true
      refine ⟨{ declared.sound with functions := ?_ }, declared.table,
        declared.diagnostics, rfl⟩
      intro key function member
      obtain ⟨location, symbols⟩ := SymbolTable.symbols_declared sound.global
        name type line true
      simp only [Facts.setFunction, NodeTable.get?_insert] at member
      split at member
      · cases member
        simp [declaredIn, symbols]
      · exact declared.sound.functions function member

theorem grows_inFunction (sound : state.Sound) (id : NodeId) (name : String)
    (type : Ty) (line : Nat) :
    state.Grows (state.inFunction id name type line) := by
  have accepted := grows_withFunction sound id name type line
  have opened := accepted.trans (grows_enclosed accepted.sound name)
  refine ⟨{ opened.sound with awaiting := ?_ }, opened.table,
    opened.diagnostics, opened.types⟩
  intro scope member
  cases member
  exact opened.sound.current

theorem grows_withUse (sound : state.Sound) (id : NodeId) (name : String)
    (line : Nat) : state.Grows (state.withUse id name line) := by
  unfold withUse
  split
  · exact grows_modifySymbol sound (Symbol.bare_addLine · line) _
  · have reported := grows_reported sound .undeclared line name
    exact ⟨{ reported.sound with }, reported.table, reported.diagnostics, rfl⟩

theorem Sound.setBlock (sound : state.Sound) (id : NodeId) {scope : ScopeId}
    (has : state.table.Has scope) :
    Sound { state with facts := state.facts.setBlock id scope } where
  coherent := sound.coherent
  current := sound.current
  awaiting := sound.awaiting
  blocks := by
    intro key recorded member
    simp only [Facts.setBlock, NodeTable.get?_insert] at member
    split at member
    · cases member
      exact has
    · exact sound.blocks recorded member
  functions := sound.functions

theorem grows_withBlock (sound : state.Sound) (id : NodeId) :
    state.Grows (state.withBlock id) := by
  unfold withBlock
  split
  · next scope waiting =>
      have recorded := sound.setBlock id (sound.awaiting scope waiting)
      exact ⟨{ recorded with awaiting := by simp }, .refl _, List.prefix_rfl,
        rfl⟩
  · have opened := grows_enclosed sound (toString state.blockCount)
    have recorded := opened.sound.setBlock id opened.sound.current
    exact ⟨{ recorded with }, opened.table, opened.diagnostics, rfl⟩

theorem grows_withoutFunction (sound : state.Sound) :
    state.Grows state.withoutFunction := by
  unfold withoutFunction
  split
  · have closed := grows_outside sound
    exact ⟨{ closed.sound with awaiting := by simp }, closed.table,
      closed.diagnostics, closed.types⟩
  · exact ⟨{ sound with }, .refl _, List.prefix_rfl, rfl⟩

theorem grows_entered (sound : state.Sound) (site : Site) :
    state.Grows (state.entered site) := by
  unfold entered
  split
  · exact grows_inFunction sound _ _ _ _
  · exact grows_withLocal sound _ _ _ _
  · exact grows_withLocal sound _ _ _ _
  · exact grows_withParameter sound _ _
  · exact grows_withBlock sound _
  · exact grows_withUse sound _ _ _
  · exact grows_withUse sound _ _ _
  · exact grows_withUse sound _ _ _
  · exact .refl sound

theorem grows_left (sound : state.Sound) (site : Site) :
    state.Grows (state.left site) := by
  unfold left
  split
  · exact grows_outside sound
  · exact grows_withoutFunction sound
  · exact .refl sound

/-- No diagnostic says that the passes contradict each other. -/
def Consistent (state : Declaring) : Prop :=
  ∀ diagnostic ∈ state.diagnostics.items, diagnostic.isInternal = false

theorem Consistent.reported (consistent : state.Consistent)
    {kind : DiagnosticKind} (scope : kind.category = .scope) (line : Nat)
    (name : String) : (state.reported kind line name).Consistent := by
  intro diagnostic member
  simp only [Declaring.reported, Diagnostics.items_add, List.mem_append,
    List.mem_singleton] at member
  rcases member with earlier | rfl
  · exact consistent diagnostic earlier
  · simp [Diagnostic.isInternal, Diagnostic.category, scope]

theorem Consistent.withLocal (consistent : state.Consistent) (name : String)
    (type : Ty) (line : Nat) {redeclared : DiagnosticKind}
    (scope : redeclared.category = .scope) :
    (state.withLocal name type line redeclared).Consistent := by
  unfold Declaring.withLocal
  split
  · exact consistent.reported scope line name
  · exact consistent

theorem Consistent.withParameter (consistent : state.Consistent)
    (parameter : Parameter) (line : Nat) :
    (state.withParameter parameter line).Consistent := by
  unfold Declaring.withParameter
  split
  · exact consistent
  · split
    · exact consistent.reported rfl line _
    · unfold withSignature withSigned
      split
      · split <;> exact consistent
      · exact consistent

theorem Consistent.inFunction (consistent : state.Consistent) (id : NodeId)
    (name : String) (type : Ty) (line : Nat) :
    (state.inFunction id name type line).Consistent := by
  change (state.withFunction id name type line).Consistent
  unfold withFunction
  split
  · next kind objected =>
      have scope : kind.category = .scope := by
        unfold objection? at objected
        split at objected
        · cases objected
          rfl
        · split at objected
          · cases objected
            rfl
          · cases objected
      exact consistent.reported scope line name
  · exact consistent

theorem Consistent.withUse (consistent : state.Consistent) (id : NodeId)
    (name : String) (line : Nat) :
    (state.withUse id name line).Consistent := by
  unfold Declaring.withUse
  split
  · exact consistent
  · exact consistent.reported rfl line name

theorem Consistent.entered (consistent : state.Consistent) (site : Site) :
    (state.entered site).Consistent := by
  unfold Declaring.entered
  split
  · exact consistent.inFunction _ _ _ _
  · exact consistent.withLocal _ _ _ rfl
  · exact consistent.withLocal _ _ _ rfl
  · exact consistent.withParameter _ _
  · unfold withBlock
    split <;> exact consistent
  · exact consistent.withUse _ _ _
  · exact consistent.withUse _ _ _
  · exact consistent.withUse _ _ _
  · exact consistent

theorem Consistent.left (consistent : state.Consistent) (site : Site) :
    (state.left site).Consistent := by
  unfold Declaring.left withoutFunction
  split
  · exact consistent
  · split <;> exact consistent
  · exact consistent

theorem facts_withUse (id : NodeId) (name : String) (line : Nat) {key : NodeId}
    (other : key ≠ id) :
    state.facts.AgreeAt (state.withUse id name line).facts key := by
  unfold withUse
  split
  · exact .refl _ _
  · exact ⟨rfl, rfl, rfl, by simp [Facts.setUnresolved,
      NodeTable.get?_insert, other]⟩

theorem facts_withBlock (id : NodeId) {key : NodeId} (other : key ≠ id) :
    state.facts.AgreeAt (state.withBlock id).facts key := by
  unfold withBlock
  split <;>
    exact ⟨rfl, by simp [Facts.setBlock, NodeTable.get?_insert, other], rfl,
      rfl⟩

theorem facts_inFunction (id : NodeId) (name : String) (type : Ty)
    (line : Nat) {key : NodeId} (other : key ≠ id) :
    state.facts.AgreeAt (state.inFunction id name type line).facts key := by
  simp only [inFunction, enclosed, withFunction]
  split
  · exact .refl _ _
  · exact ⟨rfl, rfl, by simp [Facts.setFunction, NodeTable.get?_insert, other],
      rfl⟩

theorem facts_withLocal (name : String) (type : Ty) (line : Nat)
    (redeclared : DiagnosticKind) :
    (state.withLocal name type line redeclared).facts = state.facts := by
  unfold withLocal
  split <;> rfl

theorem facts_withParameter (parameter : Parameter) (line : Nat) :
    (state.withParameter parameter line).facts = state.facts := by
  unfold withParameter
  split
  · rfl
  · split
    · rfl
    · unfold withSignature withSigned
      split
      · split <;> rfl
      · rfl

theorem facts_entered (state : Declaring) (site : Site) {key : NodeId}
    (other : key ≠ site.id) :
    state.facts.AgreeAt (state.entered site).facts key := by
  unfold entered
  split
  · exact facts_inFunction _ _ _ _ other
  · rw [facts_withLocal]
    exact .refl _ _
  · rw [facts_withLocal]
    exact .refl _ _
  · rw [facts_withParameter]
    exact .refl _ _
  · exact facts_withBlock _ other
  · exact facts_withUse _ _ _ other
  · exact facts_withUse _ _ _ other
  · exact facts_withUse _ _ _ other
  · exact .refl _ _

theorem facts_left (state : Declaring) (site : Site) :
    (state.left site).facts = state.facts := by
  unfold left withoutFunction
  split
  · rfl
  · split <;> rfl
  · rfl

theorem recording : Recording Declaring.facts entered left where
  entering state site _ other := facts_entered state site other
  leaving state site _ _ := by
    rw [facts_left]
    exact .refl _ _

/-- A marked use has been reported. -/
def Candid (state : Declaring) : Prop :=
  ∀ id, state.facts.unresolved.contains id = true →
    state.diagnostics.items ≠ []

theorem unresolved_entered (state : Declaring) (site : Site) :
    (state.entered site).facts.unresolved = state.facts.unresolved ∨
      (state.entered site).diagnostics.items ≠ [] := by
  have use (name : String) :
      (state.withUse site.id name site.node.line).facts.unresolved =
          state.facts.unresolved ∨
        (state.withUse site.id name site.node.line).diagnostics.items ≠
          [] := by
    unfold withUse
    split
    · exact .inl rfl
    · exact .inr (by simp [reported])
  have function (name : String) (type : Ty) :
      (state.inFunction site.id name type
        site.node.line).facts.unresolved = state.facts.unresolved := by
    simp only [inFunction, enclosed, withFunction]
    split <;> rfl
  unfold entered
  split
  · exact .inl (function _ _)
  · exact .inl (by rw [facts_withLocal])
  · exact .inl (by rw [facts_withLocal])
  · exact .inl (by rw [facts_withParameter])
  · left
    unfold withBlock
    split <;> rfl
  · exact use _
  · exact use _
  · exact use _
  · exact .inl rfl

theorem Candid.entered (candid : state.Candid) (sound : state.Sound)
    (site : Site) : (state.entered site).Candid := by
  intro id marked
  rcases unresolved_entered state site with same | reported
  · rw [same] at marked
    exact (grows_entered sound site).diagnostics.ne_nil (candid id marked)
  · exact reported

def walked (state : Declaring) (forest : Forest) : Declaring :=
  forest.fold entered left state

theorem walked_cons (state : Declaring) (site : Site)
    (first second third rest : Forest) :
    state.walked (.cons site first second third rest) =
      (((((state.entered site).walked first).walked second).walked
        third).left site).walked rest := rfl

@[simp] theorem walked_nil : state.walked .nil = state := rfl

theorem grows_walked (sound : state.Sound) (forest : Forest) :
    state.Grows (state.walked forest) := by
  induction forest generalizing state with
  | nil => exact .refl sound
  | missing fault => exact .refl sound
  | cons site first second third rest inFirst inSecond inThird inRest =>
      have entered := grows_entered sound site
      have first := entered.trans (inFirst entered.sound)
      have second := first.trans (inSecond first.sound)
      have third := second.trans (inThird second.sound)
      have gone := third.trans (grows_left third.sound site)
      exact gone.trans (inRest gone.sound)

theorem grows_parts (sound : state.Sound) (site : Site)
    (first second third rest : Forest) :
    let inside := state.entered site
    let afterFirst := inside.walked first
    let afterSecond := afterFirst.walked second
    let afterThird := afterSecond.walked third
    let outside := afterThird.left site
    inside.Grows afterFirst ∧ afterFirst.Grows afterSecond ∧
      afterSecond.Grows afterThird ∧ afterThird.Grows outside ∧
      outside.Grows (outside.walked rest) := by
  have inside := (grows_entered sound site).sound
  have first := grows_walked inside first
  have second := grows_walked first.sound second
  have third := grows_walked second.sound third
  have outside := grows_left third.sound site
  exact ⟨first, second, third, outside, grows_walked outside.sound rest⟩

theorem Consistent.walked (consistent : state.Consistent) (forest : Forest) :
    (state.walked forest).Consistent := by
  induction forest generalizing state with
  | nil => exact consistent
  | missing fault => exact consistent
  | cons site first second third rest inFirst inSecond inThird inRest =>
      exact inRest ((inThird (inSecond (inFirst
        (consistent.entered site)))).left site)

theorem Candid.walked (candid : state.Candid) (sound : state.Sound)
    (forest : Forest) : (state.walked forest).Candid := by
  induction forest generalizing state with
  | nil => exact candid
  | missing fault => exact candid
  | cons site first second third rest inFirst inSecond inThird inRest =>
      obtain ⟨one, two, three, four, _⟩ :=
        grows_parts sound site first second third rest
      have children := inThird (inSecond (inFirst (candid.entered sound site)
        (grows_entered sound site).sound) one.sound) two.sound
      have leaving : ((((((state.entered site).walked first).walked
          second).walked third).left site)).Candid := by
        intro id marked
        rw [facts_left] at marked
        exact (grows_left three.sound site).diagnostics.ne_nil
          (children id marked)
      exact inRest leaving four.sound

theorem steps (sites : List Site) :
    Forest.Steps step entered left Sound sites where
  entering _ sound := ⟨step_enter sound _, (grows_entered sound _).sound⟩
  leaving _ sound := ⟨step_leave sound _, (grows_left sound _).sound⟩

/-- Induction over the visits of a walk, all of them made in sound states. -/
theorem visits_induction
    {motive : Declaring → List (Declaring × Route × Visit) → Prop}
    {stops : List (Route × Visit)} {final : Declaring} (sound : state.Sound)
    (done : (stops.map Prod.snd).foldlM step state = .ok final)
    (initially : motive state [])
    (entering : ∀ {found : Declaring} {route : Route} {site : Site}
      {past : List (Declaring × Route × Visit)},
      (route, Visit.enter site) ∈ stops → found.Sound → motive found past →
      motive (found.entered site) (past ++ [(found, route, .enter site)]))
    (leaving : ∀ {found : Declaring} {route : Route} {site : Site}
      {past : List (Declaring × Route × Visit)},
      (route, Visit.leave site) ∈ stops → found.Sound → motive found past →
      motive (found.left site) (past ++ [(found, route, .leave site)])) :
    final.Sound ∧ motive final (trace step state stops) := by
  apply trace_induction done (motive := fun state past =>
    state.Sound ∧ motive state past) ⟨sound, initially⟩
  rintro found next ⟨route, visit⟩ past member made ⟨sound, holds⟩
  cases visit with
  | enter site =>
      cases (step_enter sound site).symm.trans made
      exact ⟨(grows_entered sound site).sound, entering member sound holds⟩
  | leave site =>
      cases (step_leave sound site).symm.trans made
      exact ⟨(grows_left sound site).sound, leaving member sound holds⟩
  | missing fault => cases made

theorem find?_withSigned (function : String) (type : Ty) (id : ScopeId)
    (name : String) :
    (state.withSigned function type).table.find? id name =
      state.table.find? id name := by
  unfold withSigned
  split
  · exact SymbolTable.find?_modifySymbol (Symbol.bare_addParameter · type) _ _ _
  · rfl

theorem find?_output (id : ScopeId) (name : String) :
    ((bare.declaredIn ScopeId.global "output" .void 0 true).withSigned "output"
      .integer).table.find? id name =
      if id = ScopeId.global ∧ name = "output" then some ⟨0⟩ else none := by
  rw [find?_withSigned, declaredIn]
  simp only
  rw [SymbolTable.find?_declared sound_bare.coherent sound_bare.global
    (find?_bare _ _), find?_bare]
  rfl

theorem find?_input : ((bare.declaredIn ScopeId.global "output" .void 0
    true).withSigned "output" .integer).table.find? ScopeId.global "input" =
      none := by
  rw [find?_output]
  rfl

theorem grows_output : bare.Grows
    ((bare.declaredIn ScopeId.global "output" .void 0 true).withSigned "output"
      .integer) := by
  have declared := grows_declaredIn sound_bare sound_bare.global
    (find?_bare _ "output") .void 0 true
  exact declared.trans (grows_withSigned declared.sound _ _)

theorem grows_withRuntime : bare.Grows withRuntime := by
  apply grows_output.trans
  exact grows_declaredIn grows_output.sound grows_output.sound.global
    find?_input .integer 0 true

theorem grows_origin (builtins : Bool) : bare.Grows (origin builtins) := by
  cases builtins with
  | false => exact .refl sound_bare
  | true => exact grows_withRuntime

theorem origin_fields (builtins : Bool) :
    (origin builtins).facts = Facts.blank ∧ (origin builtins).diagnostics = {} ∧
      (origin builtins).current = ScopeId.global ∧
      (origin builtins).awaiting = none := by
  cases builtins with
  | false => exact ⟨rfl, rfl, rfl, rfl⟩
  | true =>
      simp only [origin, if_true, withRuntime, declaredIn, withSigned]
      split <;> exact ⟨rfl, rfl, rfl, rfl⟩

theorem start_result (builtins : Bool) :
    (start builtins).result = .ok (origin builtins) := by
  have created : (SymbolTable.createScope {} SymbolTable.globalName
      none).result = .ok (ScopeId.global, bare.table) := by
    simp [SymbolTable.createScope, bare, ScopeId.global]
  cases builtins with
  | false =>
      simp only [start, Run.result_bind, created, ok_bind]
      rfl
  | true =>
      simp only [start, Run.result_bind, created, ok_bind, if_true,
        declareRuntime]
      rw [show ({ table := bare.table, current := ScopeId.global } : Declaring)
        = bare from rfl]
      simp [declareIn_result sound_bare.global (find?_bare _ "output"),
        addParameter_result,
        declareIn_result grows_output.sound.global find?_input, origin,
        withRuntime]

theorem run_result (builtins : Bool) {tree : Tree}
    (complete : tree.forest.Complete) :
    (run builtins tree).result =
      .ok ((origin builtins).walked tree.forest) := by
  simp only [run, Run.result_bind, start_result, Run.result_record, ok_bind]
  rw [Tree.walk_eq_foldlM, result_foldlM]
  exact ((steps _).traverse complete (grows_origin builtins).sound).1

theorem complete_of_run {builtins : Bool} {tree : Tree} {final : Declaring}
    (ran : (run builtins tree).result = .ok final) : tree.forest.Complete := by
  simp only [run, Run.result_bind, start_result, Run.result_record, ok_bind]
    at ran
  rw [Tree.walk_eq_foldlM, result_foldlM] at ran
  exact Forest.complete_of_traverse (fun _ _ => rfl) ran

end Declaring

end CMinusAnalysis
