import CMinusAnalysis.Proofs.Declaring.Growth
import CMinusAnalysis.Proofs.Facts.Scopes

namespace CMinusAnalysis

/-! Scopes follow the nesting of blocks. The one place where the current scope
of the declaring pass runs ahead of the blocks is between entering a function
and entering its body; where functions are well shaped only parameters are met
there, and a walk comes back to the scope it started in. -/

namespace Declaring

variable {state : Declaring} {site : Site}

theorem kind_of_isFunction {kind : NodeKind} (fits : kind.isFunction = true) :
    ∃ name spec, kind = .declaration (.function name spec) := by
  unfold NodeKind.isFunction at fits
  split at fits
  · exact ⟨_, _, rfl⟩
  · cases fits

theorem entered_function (state : Declaring)
    (kind : site.node.kind.isFunction = true) :
    ∃ name type, state.entered site =
      state.inFunction site.id name type site.node.line := by
  obtain ⟨name, spec, found⟩ := kind_of_isFunction kind
  exact ⟨name, Ty.ofReturnSpec spec, by simp [entered, found]⟩

theorem left_function (kind : site.node.kind.isFunction = true) :
    state.left site = state.withoutFunction := by
  obtain ⟨name, spec, found⟩ := kind_of_isFunction kind
  simp [left, found]

theorem entered_block (kind : site.node.kind.isBlock = true) :
    state.entered site = state.withBlock site.id := by
  unfold NodeKind.isBlock at kind
  split at kind
  · next found => simp [entered, found]
  · cases kind

theorem left_block (kind : site.node.kind.isBlock = true) :
    state.left site = state.outside := by
  unfold NodeKind.isBlock at kind
  split at kind
  · next found => simp [left, found]
  · cases kind

theorem left_other (function : site.node.kind.isFunction = false)
    (block : site.node.kind.isBlock = false) : state.left site = state := by
  unfold left
  split
  · next found => simp [found, NodeKind.isBlock] at block
  · next found => simp [found, NodeKind.isFunction] at function
  · rfl

theorem entered_use {name : String} (use : site.node.kind.use? = some name) :
    state.entered site = state.withUse site.id name site.node.line := by
  unfold NodeKind.use? at use
  split at use <;> cases use
  all_goals
    next kind => simp [entered, kind]

/-- The pass is where it was: in the same scope, waiting for the same body, with
as many blocks counted. -/
structure Stays (before after : Declaring) : Prop where
  current : after.current = before.current
  awaiting : after.awaiting = before.awaiting
  blockCount : after.blockCount = before.blockCount

theorem stays_withLocal (name : String) (type : Ty) (line : Nat)
    (redeclared : DiagnosticKind) :
    state.Stays (state.withLocal name type line redeclared) := by
  unfold withLocal
  split <;> exact ⟨rfl, rfl, rfl⟩

theorem stays_withParameter (parameter : Parameter) (line : Nat) :
    state.Stays (state.withParameter parameter line) := by
  unfold withParameter
  split
  · exact ⟨rfl, rfl, rfl⟩
  · split
    · exact ⟨rfl, rfl, rfl⟩
    · unfold withSignature withSigned
      split
      · split <;> exact ⟨rfl, rfl, rfl⟩
      · exact ⟨rfl, rfl, rfl⟩

theorem stays_withUse (id : NodeId) (name : String) (line : Nat) :
    state.Stays (state.withUse id name line) := by
  unfold withUse
  split <;> exact ⟨rfl, rfl, rfl⟩

theorem stays_entered (state : Declaring)
    (function : site.node.kind.isFunction = false)
    (block : site.node.kind.isBlock = false) :
    state.Stays (state.entered site) := by
  unfold entered
  split
  · next found => simp [found, NodeKind.isFunction] at function
  · exact stays_withLocal _ _ _ _
  · exact stays_withLocal _ _ _ _
  · exact stays_withParameter _ _
  · next found => simp [found, NodeKind.isBlock] at block
  · exact stays_withUse _ _ _
  · exact stays_withUse _ _ _
  · exact stays_withUse _ _ _
  · exact ⟨rfl, rfl, rfl⟩

/-- The scope of a function is open, its body has not been met, and `outer` is
the scope around the function. -/
structure Awaits (state : Declaring) (outer : ScopeId) : Prop where
  awaiting : state.awaiting = some state.current
  parent : state.table.parent? state.current = some outer

/-- A scope inside `outer` is open. -/
structure Inside (state : Declaring) (outer : ScopeId) : Prop where
  idle : state.awaiting = none
  parent : state.table.parent? state.current = some outer

theorem current_withFunction (id : NodeId) (name : String) (type : Ty)
    (line : Nat) :
    (state.withFunction id name type line).current = state.current := by
  unfold withFunction
  split <;> rfl

theorem awaits_inFunction (state : Declaring) (id : NodeId) (name : String)
    (type : Ty) (line : Nat) :
    (state.inFunction id name type line).Awaits state.current where
  awaiting := rfl
  parent := by
    simp [inFunction, enclosed, SymbolTable.parent?_opened,
      current_withFunction]

theorem inside_withBlock (idle : state.awaiting = none) (id : NodeId) :
    (state.withBlock id).Inside state.current where
  idle := by simp [withBlock, idle, enclosed]
  parent := by simp [withBlock, idle, enclosed, SymbolTable.parent?_opened]

theorem Awaits.withBlock {outer : ScopeId} (awaits : state.Awaits outer)
    (id : NodeId) : (state.withBlock id).Inside outer where
  idle := by simp [Declaring.withBlock, awaits.awaiting]
  parent := by simp [Declaring.withBlock, awaits.awaiting, awaits.parent]

theorem Awaits.current_withBlock {outer : ScopeId} (awaits : state.Awaits outer)
    (id : NodeId) : (state.withBlock id).current = state.current := by
  simp [Declaring.withBlock, awaits.awaiting]

theorem blocks_withBlock (state : Declaring) (id : NodeId)
    (ready : state.awaiting = none ∨ ∃ outer, state.Awaits outer) :
    (state.withBlock id).facts.blocks.get? id =
      some (state.withBlock id).current := by
  rcases ready with idle | ⟨_, awaits⟩
  · simp [withBlock, idle, enclosed, Facts.setBlock, NodeTable.get?_insert]
  · simp [withBlock, awaits.awaiting, Facts.setBlock, NodeTable.get?_insert]

theorem Inside.later {outer : ScopeId} {later : Declaring}
    (inside : state.Inside outer) (grown : state.Grows later)
    (current : later.current = state.current) (idle : later.awaiting = none) :
    later.Inside outer where
  idle := idle
  parent := by
    rw [current, grown.table.parent? (SymbolTable.has_of_parent? inside.parent)]
    exact inside.parent

theorem Awaits.later {outer : ScopeId} {later : Declaring}
    (awaits : state.Awaits outer) (grown : state.Grows later)
    (current : later.current = state.current)
    (awaiting : later.awaiting = state.awaiting) : later.Awaits outer where
  awaiting := by rw [awaiting, current, awaits.awaiting]
  parent := by
    rw [current, grown.table.parent? (SymbolTable.has_of_parent? awaits.parent)]
    exact awaits.parent

theorem Inside.outside {outer : ScopeId} (inside : state.Inside outer) :
    state.outside.current = outer ∧ state.outside.awaiting = none := by
  simp [Declaring.outside, inside.parent, inside.idle]

/-- Kinds that open no scope. -/
def Flat (kinds : NodeKind → Bool) : Prop :=
  ∀ kind, kinds kind = true → kind.isFunction = false ∧ kind.isBlock = false

theorem flat_isVariable : Flat NodeKind.isVariable := by
  intro kind fits
  unfold NodeKind.isVariable at fits
  split at fits
  · exact ⟨rfl, rfl⟩
  · exact ⟨rfl, rfl⟩
  · cases fits

theorem flat_isParameter : Flat NodeKind.isParameter := by
  intro kind fits
  unfold NodeKind.isParameter at fits
  split at fits
  · exact ⟨rfl, rfl⟩
  · cases fits

variable {kinds : NodeKind → Bool} {forest : Forest}

theorem walked_leaf (state : Declaring) (flat : Flat kinds)
    (kind : kinds site.node.kind = true) (rest : Forest) :
    state.walked (.cons site .nil .nil .nil rest) =
      (state.entered site).walked rest := by
  obtain ⟨function, block⟩ := flat _ kind
  rw [walked_cons, walked_nil, walked_nil, walked_nil, left_other function block]

theorem current_leaves (state : Declaring) (leaves : forest.Leaves kinds)
    (flat : Flat kinds) :
    (state.walked forest).current = state.current ∧
      (state.walked forest).awaiting = state.awaiting := by
  induction leaves generalizing state with
  | nil => exact ⟨rfl, rfl⟩
  | cons kind tail induction =>
      obtain ⟨function, block⟩ := flat _ kind
      obtain ⟨current, awaiting, _⟩ := stays_entered state function block
      rw [walked_leaf state flat kind]
      obtain ⟨onward, still⟩ := induction (state.entered _)
      exact ⟨onward.trans current, still.trans awaiting⟩

/-- The walk is in the scope it started in again, and waits for no body. -/
structure Returns (before after : Declaring) : Prop
    extends Grows before after where
  current : after.current = before.current
  idle : after.awaiting = none

namespace Returns

variable {before middle after : Declaring}

theorem refl (sound : before.Sound) (idle : before.awaiting = none) :
    before.Returns before :=
  { Grows.refl sound with current := rfl, idle }

theorem trans (first : before.Returns middle) (second : middle.Returns after) :
    before.Returns after :=
  { first.toGrows.trans second.toGrows with
    current := second.current.trans first.current
    idle := second.idle }

end Returns

theorem returns_plain (sound : state.Sound) (idle : state.awaiting = none)
    (function : site.node.kind.isFunction = false)
    (block : site.node.kind.isBlock = false) :
    state.Returns (state.entered site) := by
  obtain ⟨current, awaiting, _⟩ := stays_entered state function block
  exact { grows_entered sound site with
    current, idle := awaiting.trans idle }

theorem returns_block (sound : state.Sound) (idle : state.awaiting = none)
    (block : site.node.kind.isBlock = true) {last : Declaring}
    (through : (state.entered site).Returns last) :
    state.Returns (last.left site) := by
  have entered := grows_entered sound site
  have gone := (entered.trans through.toGrows).trans
    (grows_left through.sound site)
  rw [entered_block block] at through
  have inside := (inside_withBlock idle site.id).later through.toGrows
    through.current through.idle
  rw [left_block block] at gone ⊢
  exact { gone with current := inside.outside.1, idle := inside.outside.2 }

theorem Awaits.withoutFunction {outer : ScopeId} (awaits : state.Awaits outer) :
    state.withoutFunction.current = outer ∧
      state.withoutFunction.awaiting = none := by
  simp [Declaring.withoutFunction, awaits.awaiting, Declaring.outside,
    awaits.parent]

theorem current_withoutFunction (idle : state.awaiting = none) :
    state.withoutFunction.current = state.current ∧
      state.withoutFunction.awaiting = none := by
  simp [withoutFunction, idle]

theorem awaits_parameters (sound : state.Sound)
    (kind : site.node.kind.isFunction = true)
    (declared : forest.Leaves NodeKind.isParameter) :
    ((state.entered site).walked forest).Awaits state.current := by
  have entered := (grows_entered sound site).sound
  have grown := grows_walked entered forest
  obtain ⟨current, awaiting⟩ :=
    current_leaves (state.entered site) declared flat_isParameter
  obtain ⟨name, type, same⟩ := entered_function state kind
  have awaits := awaits_inFunction state site.id name type site.node.line
  rw [← same] at awaits
  exact awaits.later grown current awaiting

theorem returns_bodiless (sound : state.Sound)
    (kind : site.node.kind.isFunction = true)
    (declared : forest.Leaves NodeKind.isParameter) :
    state.Returns (((state.entered site).walked forest).left site) := by
  have entered := grows_entered sound site
  have grown := entered.trans (grows_walked entered.sound forest)
  have gone := grown.trans (grows_left grown.sound site)
  have awaits := awaits_parameters sound kind declared
  rw [left_function kind] at gone ⊢
  exact { gone with
    current := awaits.withoutFunction.1, idle := awaits.withoutFunction.2 }

theorem returns_body (sound : state.Sound)
    (kind : site.node.kind.isFunction = true)
    (declared : forest.Leaves NodeKind.isParameter) {body : Site}
    (block : body.node.kind.isBlock = true) {last : Declaring}
    (through :
      (((state.entered site).walked forest).entered body).Returns last) :
    state.Returns (last.left body) := by
  have entered := grows_entered sound site
  have grown := entered.trans (grows_walked entered.sound forest)
  have inBody := grown.trans (grows_entered grown.sound body)
  have gone := (inBody.trans through.toGrows).trans
    (grows_left through.sound body)
  have awaits := awaits_parameters sound kind declared
  rw [entered_block block] at through
  have inside := (awaits.withBlock body.id).later through.toGrows
    through.current through.idle
  rw [left_block block] at gone ⊢
  exact { gone with current := inside.outside.1, idle := inside.outside.2 }

theorem Returns.left_function {last : Declaring} (back : state.Returns last)
    (kind : site.node.kind.isFunction = true) :
    state.Returns (last.left site) := by
  have gone := back.toGrows.trans (grows_left back.sound site)
  obtain ⟨current, idle⟩ := current_withoutFunction back.idle
  rw [Declaring.left_function kind] at gone ⊢
  exact { gone with current := current.trans back.current, idle }

theorem returns_walked (shaped : forest.FunctionsShaped) (sound : state.Sound)
    (idle : state.awaiting = none) : state.Returns (state.walked forest) := by
  induction shaped generalizing state with
  | nil => exact .refl sound idle
  | missing => exact .refl sound idle
  | @other site first second third rest kind _ _ _ _ inFirst inSecond inThird
      inRest =>
      have around : state.Returns
          (((((state.entered site).walked first).walked second).walked
            third).left site) := by
        cases block : site.node.kind.isBlock with
        | true =>
            apply returns_block sound idle block
            have entered := (grows_entered sound site).sound
            have waiting : (state.entered site).awaiting = none := by
              rw [entered_block block]
              exact (inside_withBlock idle site.id).idle
            have first := inFirst entered waiting
            have second := first.trans (inSecond first.sound first.idle)
            exact second.trans (inThird second.sound second.idle)
        | false =>
            rw [left_other kind block]
            have entered := returns_plain sound idle kind block
            have first := entered.trans (inFirst entered.sound entered.idle)
            have second := first.trans (inSecond first.sound first.idle)
            exact second.trans (inThird second.sound second.idle)
      exact around.trans (inRest around.sound around.idle)
  | bodiless kind declared _ inRest =>
      have around := returns_bodiless sound kind declared
      exact around.trans (inRest around.sound around.idle)
  | @function site body parameters first second third beside rest kind declared
      block _ _ _ _ _ inFirst inSecond inThird inBeside inRest =>
      have awaits := awaits_parameters sound kind declared
      have entered := (grows_entered
        (grows_walked (grows_entered sound site).sound parameters).sound
        body).sound
      have waiting : (((state.entered site).walked parameters).entered
          body).awaiting = none := by
        rw [entered_block block]
        exact (awaits.withBlock body.id).idle
      have first := inFirst entered waiting
      have second := first.trans (inSecond first.sound first.idle)
      have third := second.trans (inThird second.sound second.idle)
      have inBody := returns_body sound kind declared block third
      have beside := inBody.trans (inBeside inBody.sound inBody.idle)
      have around := beside.left_function kind
      exact around.trans (inRest around.sound around.idle)

end Declaring

end CMinusAnalysis
