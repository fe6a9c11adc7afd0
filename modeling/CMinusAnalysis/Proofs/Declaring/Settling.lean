import CMinusAnalysis.Proofs.Declaring.Nesting

namespace CMinusAnalysis

/-! When a scope stops taking names. In a tidy program the names of a block are
declared before anything in it is used, so from a use on only the outermost
scope still takes names, and what the use stands for cannot change. -/

namespace Declaring

open SymbolTable (Settled)

variable {state : Declaring} {site : Site} {taking : ScopeId → Prop}

theorem settled_withLocal (sound : state.Sound) (name : String) (type : Ty)
    (line : Nat) (redeclared : DiagnosticKind) :
    Settled (· = state.current) state.table
      (state.withLocal name type line redeclared).table := by
  unfold withLocal
  split
  · exact .refl _ _
  · next free =>
      exact SymbolTable.settled_declared sound.coherent sound.current
        (by simpa using free)

theorem settled_withSigned (function : String) (type : Ty) :
    Settled taking state.table (state.withSigned function type).table := by
  unfold withSigned
  split
  · exact SymbolTable.settled_modifySymbol (Symbol.bare_addParameter · type) _ _
  · exact .refl _ _

theorem settled_withSignature (type : Ty) :
    Settled taking state.table (state.withSignature type).table := by
  unfold withSignature
  split
  · exact settled_withSigned _ type
  · exact .refl _ _

theorem settled_withParameter (sound : state.Sound) (parameter : Parameter)
    (line : Nat) :
    Settled (· = state.current) state.table
      (state.withParameter parameter line).table := by
  unfold withParameter
  split
  · exact .refl _ _
  · next name _ =>
      split
      · exact .refl _ _
      · next free =>
          have declared : Settled (· = state.current) state.table
              (state.declaredIn state.current name parameter.type line
                false).table :=
            SymbolTable.settled_declared sound.coherent sound.current
              (by simpa using free)
          exact declared.trans (settled_withSignature _)

theorem settled_withUse (id : NodeId) (name : String) (line : Nat) :
    Settled taking state.table (state.withUse id name line).table := by
  unfold withUse
  split
  · exact SymbolTable.settled_modifySymbol (Symbol.bare_addLine · line) _ _
  · exact .refl _ _

theorem settled_withBlock (id : NodeId) :
    Settled taking state.table (state.withBlock id).table := by
  unfold withBlock
  split
  · exact .refl _ _
  · exact SymbolTable.settled_opened _ _ _ _

theorem settled_inFunction (sound : state.Sound) (id : NodeId) (name : String)
    (type : Ty) (line : Nat) :
    Settled (· = ScopeId.global) state.table
      (state.inFunction id name type line).table := by
  have declared : Settled (· = ScopeId.global) state.table
      (state.withFunction id name type line).table := by
    unfold withFunction
    split
    · exact .refl _ _
    · next accepted =>
        exact SymbolTable.settled_declared sound.coherent sound.global
          (objection?_eq_none accepted).1
  exact declared.trans (SymbolTable.settled_opened _ _ _ _)

theorem table_left (state : Declaring) (site : Site) :
    (state.left site).table = state.table := by
  unfold left withoutFunction
  split
  · rfl
  · split <;> rfl
  · rfl

/-- Kinds that declare a name in the current scope, if they declare one. -/
def Declares (kinds : NodeKind → Bool) : Prop :=
  ∀ kind, kinds kind = true → kind.isVariable = true ∨ kind.isParameter = true

theorem settled_entered_leaf (sound : state.Sound)
    (kind : site.node.kind.isVariable = true ∨
      site.node.kind.isParameter = true) :
    Settled (· = state.current) state.table (state.entered site).table := by
  unfold entered
  split
  · next found => simp [found, NodeKind.isVariable, NodeKind.isParameter] at kind
  · exact settled_withLocal sound _ _ _ _
  · exact settled_withLocal sound _ _ _ _
  · exact settled_withParameter sound _ _
  · exact settled_withBlock _
  · exact settled_withUse _ _ _
  · exact settled_withUse _ _ _
  · exact settled_withUse _ _ _
  · exact .refl _ _

theorem settled_entered_other (function : site.node.kind.isFunction = false)
    (notVariable : site.node.kind.isVariable = false)
    (parameter : site.node.kind.isParameter = false) :
    Settled taking state.table (state.entered site).table := by
  unfold entered
  split
  · next found => simp [found, NodeKind.isFunction] at function
  · next found => simp [found, NodeKind.isVariable] at notVariable
  · next found => simp [found, NodeKind.isVariable] at notVariable
  · next found => simp [found, NodeKind.isParameter] at parameter
  · exact settled_withBlock _
  · exact settled_withUse _ _ _
  · exact settled_withUse _ _ _
  · exact settled_withUse _ _ _
  · exact .refl _ _

theorem settled_entered_block (block : site.node.kind.isBlock = true) :
    Settled taking state.table (state.entered site).table := by
  rw [entered_block block]
  exact settled_withBlock _

theorem settled_entered_function (sound : state.Sound)
    (kind : site.node.kind.isFunction = true) :
    Settled (· = ScopeId.global) state.table (state.entered site).table := by
  obtain ⟨name, type, same⟩ := entered_function state kind
  rw [same]
  exact settled_inFunction sound _ _ _ _

theorem fresh_withBlock (idle : state.awaiting = none) (id : NodeId) :
    ¬ state.table.Has (state.withBlock id).current := by
  simp [withBlock, idle, enclosed, SymbolTable.Has]

theorem fresh_inFunction (sound : state.Sound) (id : NodeId) (name : String)
    (type : Ty) (line : Nat) :
    ¬ state.table.Has (state.inFunction id name type line).current := by
  have grown := (grows_withFunction sound id name type line).table.size_le
  simp only [inFunction, enclosed, SymbolTable.Has]
  omega

theorem settled_leaves {kinds : NodeKind → Bool} {forest : Forest}
    (leaves : forest.Leaves kinds) (flat : Flat kinds)
    (declares : Declares kinds) (sound : state.Sound) :
    Settled (· = state.current) state.table (state.walked forest).table := by
  induction leaves generalizing state with
  | nil => exact .refl _ _
  | @cons site rest kind tail induction =>
      obtain ⟨function, block⟩ := flat _ kind
      rw [walked_leaf state flat kind]
      have entered := settled_entered_leaf sound (declares _ kind)
      have onward := induction (grows_entered sound site).sound
      rw [(stays_entered state function block).current] at onward
      exact entered.trans onward

/-- Besides the outermost scope, only the locals of a block have a scope that
takes names, the current one. -/
def Takes (place : Forest.Place) (current id : ScopeId) : Prop :=
  match place with
  | .chain _ => id = ScopeId.global
  | .locals => id = ScopeId.global ∨ id = current

theorem Settled.forget {before after : SymbolTable} {opened : ScopeId}
    (settled : Settled (fun id => id = ScopeId.global ∨ id = opened) before
      after)
    (fresh : ¬ before.Has opened) :
    Settled (· = ScopeId.global) before after := by
  apply settled.mono
  rintro id has (global | rfl)
  · exact global
  · exact absurd has fresh

/-- Where a forest hangs decides which scopes a walk through it adds names
to. -/
def Settles (place : Forest.Place) (forest : Forest) : Prop :=
  ∀ {state : Declaring}, state.Sound → state.awaiting = none →
    (place = .chain true → state.current = ScopeId.global) →
    Settled (Takes place state.current) state.table (state.walked forest).table

theorem takes_global (place : Forest.Place) (current : ScopeId) :
    Takes place current ScopeId.global := by
  cases place with
  | chain => rfl
  | locals => exact .inl rfl

theorem settled_below {inside : Declaring} {place : Forest.Place}
    {first second third : Forest} (below : place ≠ .chain true)
    (ofFirst : first.Tidy place) (ofSecond : second.Tidy (.chain false))
    (ofThird : third.Tidy (.chain false)) (inFirst : Settles place first)
    (inSecond : Settles (.chain false) second)
    (inThird : Settles (.chain false) third) (sound : inside.Sound)
    (idle : inside.awaiting = none) :
    let afterThird := ((inside.walked first).walked second).walked third
    Settled (Takes place inside.current) inside.table afterThird.table ∧
      inside.Returns afterThird := by
  have wider : ∀ {table : SymbolTable} (id : ScopeId), table.Has id →
      Takes (.chain false) inside.current id →
      Takes place inside.current id := by
    rintro _ _ _ rfl
    exact takes_global place inside.current
  have one := returns_walked ofFirst.functionsShaped sound idle
  have two := one.trans
    (returns_walked ofSecond.functionsShaped one.sound one.idle)
  have three := two.trans
    (returns_walked ofThird.functionsShaped two.sound two.idle)
  have settledFirst := inFirst sound idle fun top => absurd top below
  have settledSecond := inSecond one.sound one.idle (by simp)
  have settledThird := inThird two.sound two.idle (by simp)
  exact ⟨(settledFirst.trans (settledSecond.mono wider)).trans
    (settledThird.mono wider), three⟩

theorem settles {place : Forest.Place} {forest : Forest}
    (tidy : forest.Tidy place) : Settles place forest := by
  induction tidy with
  | nil => exact fun _ _ _ => .refl _ _
  | missing => exact fun _ _ _ => .refl _ _
  | declared leaves =>
      intro state sound _ _
      apply (settled_leaves leaves flat_isVariable (fun _ fits => .inl fits)
        sound).mono
      exact fun _ _ here => .inr here
  | undeclared _ induction =>
      intro state sound idle _
      apply (induction sound idle (by simp)).mono
      exact fun _ _ global => .inl global
  | @outermost site first second third rest kind ofFirst ofSecond ofThird _
      inFirst inSecond inThird inRest =>
      intro state sound idle top
      obtain ⟨function, block⟩ := flat_isVariable _ kind
      have entered := settled_entered_leaf sound (.inl kind)
      rw [top rfl] at entered
      have inside := returns_plain sound idle function block
      obtain ⟨settled, through⟩ := settled_below (by simp) ofFirst ofSecond
        ofThird inFirst inSecond inThird inside.sound inside.idle
      have back := inside.trans through
      rw [walked_cons, left_other function block]
      exact (entered.trans settled).trans (inRest back.sound back.idle
        fun _ => back.current.trans (top rfl))
  | @block outermost site first second third rest kind ofFirst ofSecond ofThird
      _ inFirst inSecond inThird inRest =>
      intro state sound idle top
      have entered := (grows_entered sound site).sound
      have ready : (state.entered site).awaiting = none := by
        rw [entered_block kind]
        exact (inside_withBlock idle site.id).idle
      have fresh : ¬ state.table.Has (state.entered site).current := by
        rw [entered_block kind]
        exact fresh_withBlock idle site.id
      obtain ⟨settled, through⟩ := settled_below (by simp) ofFirst ofSecond
        ofThird inFirst inSecond inThird entered ready
      have back := returns_block sound idle kind through
      have around := Settled.forget
        ((settled_entered_block kind).trans settled) fresh
      have onward := inRest back.sound back.idle fun outer =>
        back.current.trans (top outer)
      rw [table_left] at onward
      exact around.trans onward
  | @bodiless outermost site parameters rest kind declared _ inRest =>
      intro state sound idle top
      have entered := (grows_entered sound site).sound
      have fresh : ¬ state.table.Has (state.entered site).current := by
        obtain ⟨name, type, same⟩ := entered_function state kind
        rw [same]
        exact fresh_inFunction sound _ _ _ _
      have leaves := settled_leaves declared flat_isParameter
        (fun _ fits => .inr fits) entered
      have opened := settled_entered_function sound kind
      have back := returns_bodiless sound kind declared
      have around := Settled.forget
        ((opened.mono fun _ _ global => .inl global).trans
          (leaves.mono fun _ _ here => .inr here)) fresh
      have onward := inRest back.sound back.idle fun outer =>
        back.current.trans (top outer)
      rw [table_left] at onward
      exact around.trans onward
  | @function outermost site body parameters first second third beside rest
      kind declared block ofFirst ofSecond ofThird ofBeside _ inFirst inSecond
      inThird inBeside inRest =>
      intro state sound idle top
      have entered := (grows_entered sound site).sound
      have fresh : ¬ state.table.Has (state.entered site).current := by
        obtain ⟨name, type, same⟩ := entered_function state kind
        rw [same]
        exact fresh_inFunction sound _ _ _ _
      have leaves := settled_leaves declared flat_isParameter
        (fun _ fits => .inr fits) entered
      have opened := settled_entered_function sound kind
      have grown := grows_walked entered parameters
      have awaits := awaits_parameters sound kind declared
      have inBody := (grows_entered grown.sound body).sound
      have ready : (((state.entered site).walked parameters).entered
          body).awaiting = none := by
        rw [entered_block block]
        exact (awaits.withBlock body.id).idle
      -- The body goes on in the scope that its function opened.
      have same : (((state.entered site).walked parameters).entered
          body).current = (state.entered site).current := by
        rw [entered_block block, awaits.current_withBlock]
        exact (current_leaves _ declared flat_isParameter).1
      obtain ⟨settled, through⟩ := settled_below (by simp) ofFirst ofSecond
        ofThird inFirst inSecond inThird inBody ready
      rw [same] at settled
      have out := returns_body sound kind declared block through
      have around := Settled.forget
        ((((opened.mono fun _ _ global => .inl global).trans
          (leaves.mono fun _ _ here => .inr here)).trans
            (settled_entered_block block)).trans settled) fresh
      have last := out.trans
        (returns_walked ofBeside.functionsShaped out.sound out.idle)
      have back := last.left_function kind
      have behind := inBeside out.sound out.idle (by simp)
      have onward := inRest back.sound back.idle fun outer =>
        back.current.trans (top outer)
      rw [table_left] at behind onward
      exact (around.trans behind).trans onward
  | @other outermost site first second third rest function notVariable
      parameter block ofFirst ofSecond ofThird _ inFirst inSecond inThird
      inRest =>
      intro state sound idle top
      have entered : Settled (· = ScopeId.global) state.table
          (state.entered site).table :=
        settled_entered_other function notVariable parameter
      have inside := returns_plain sound idle function block
      obtain ⟨settled, through⟩ := settled_below (by simp) ofFirst ofSecond
        ofThird inFirst inSecond inThird inside.sound inside.idle
      have back := inside.trans through
      rw [walked_cons, left_other function block]
      exact (entered.trans settled).trans (inRest back.sound back.idle
        fun outer => back.current.trans (top outer))

variable {table : SymbolTable}

/-- How the pass stands before a part of a tidy program, whose table is to
become `table`: before declarations only; idle, with nothing left to be
declared but in the outermost scope once the part is through; or before the
body of a function. -/
inductive Stage (table : SymbolTable) : Declaring → Forest → Prop
  | leaves {state : Declaring} {forest : Forest} {kinds : NodeKind → Bool}
      (leaves : forest.Leaves kinds)
      (silent : ∀ kind, kinds kind = true → kind.use? = none) :
      Stage table state forest
  | chain {state : Declaring} {forest : Forest} {outermost : Bool}
      (tidy : forest.Tidy (.chain outermost)) (sound : state.Sound)
      (idle : state.awaiting = none)
      (top : outermost = true → state.current = ScopeId.global)
      (after : Settled (· = ScopeId.global) (state.walked forest).table
        table) :
      Stage table state forest
  | body {state : Declaring} {body : Site} {outer : ScopeId}
      {first second third beside : Forest} (sound : state.Sound)
      (awaits : state.Awaits outer) (block : body.node.kind.isBlock = true)
      (inFirst : first.Tidy .locals) (inSecond : second.Tidy (.chain false))
      (inThird : third.Tidy (.chain false))
      (inBeside : beside.Tidy (.chain false))
      (after : Settled (· = ScopeId.global)
        (state.walked (.cons body first second third beside)).table table) :
      Stage table state (.cons body first second third beside)

theorem stage_nil : Stage table state .nil :=
  .leaves (.nil : Forest.Leaves NodeKind.isVariable .nil)
    fun _ => NodeKind.use?_of_isVariable

theorem stages_below {inside : Declaring} {place : Forest.Place}
    {first second third : Forest} (below : place ≠ .chain true)
    (ofFirst : first.Tidy place) (ofSecond : second.Tidy (.chain false))
    (ofThird : third.Tidy (.chain false)) (sound : inside.Sound)
    (idle : inside.awaiting = none)
    (after : Settled (· = ScopeId.global)
      (((inside.walked first).walked second).walked third).table table) :
    Stage table inside first ∧ Stage table (inside.walked first) second ∧
      Stage table ((inside.walked first).walked second) third := by
  have one := returns_walked ofFirst.functionsShaped sound idle
  have two := one.trans
    (returns_walked ofSecond.functionsShaped one.sound one.idle)
  have inThird := (settles ofThird two.sound two.idle (by simp)).trans after
  have inSecond := (settles ofSecond one.sound one.idle (by simp)).trans inThird
  refine ⟨?_, .chain ofSecond one.sound one.idle (by simp) inThird,
    .chain ofThird two.sound two.idle (by simp) after⟩
  cases place with
  | chain outermost =>
      exact .chain ofFirst sound idle (fun top => absurd (by rw [top]) below)
        inSecond
  | locals =>
      cases ofFirst with
      | declared leaves => exact .leaves leaves fun _ => NodeKind.use?_of_isVariable
      | undeclared tidy => exact .chain tidy sound idle (by simp) inSecond

theorem stages_around {place : Forest.Place} {outermost : Bool}
    {first second third rest : Forest} (below : place ≠ .chain true)
    (ofFirst : first.Tidy place) (ofSecond : second.Tidy (.chain false))
    (ofThird : third.Tidy (.chain false))
    (ofRest : rest.Tidy (.chain outermost)) {inside outside : Declaring}
    (sound : inside.Sound) (idle : inside.awaiting = none)
    (left : outside =
      (((inside.walked first).walked second).walked third).left site)
    (out : outside.Sound) (ready : outside.awaiting = none)
    (top : outermost = true → outside.current = ScopeId.global)
    (after : Settled (· = ScopeId.global) (outside.walked rest).table table) :
    Stage table inside first ∧ Stage table (inside.walked first) second ∧
      Stage table ((inside.walked first).walked second) third ∧
      Stage table outside rest := by
  have last := settles ofRest out ready fun outer => top (by simpa using outer)
  rw [left, table_left] at last
  rw [left] at after
  obtain ⟨one, two, three⟩ := stages_below below ofFirst ofSecond ofThird sound
    idle (last.trans after)
  rw [← left] at after
  exact ⟨one, two, three, .chain ofRest out ready top after⟩

theorem Stage.onward {first second third rest : Forest}
    (stage : Stage table state (.cons site first second third rest)) :
    let inside := state.entered site
    let afterFirst := inside.walked first
    let afterSecond := afterFirst.walked second
    let afterThird := afterSecond.walked third
    Stage table inside first ∧ Stage table afterFirst second ∧
      Stage table afterSecond third ∧
      Stage table (afterThird.left site) rest := by
  dsimp only
  cases stage with
  | leaves leaves silent =>
      cases leaves with
      | cons kind tail =>
          exact ⟨stage_nil, stage_nil, stage_nil, .leaves tail silent⟩
  | body sound awaits block ofFirst ofSecond ofThird ofBeside after =>
      have entered := (grows_entered sound site).sound
      have inside := awaits.withBlock site.id
      have ready : (state.entered site).awaiting = none := by
        rw [entered_block block]
        exact inside.idle
      obtain ⟨_, through⟩ := settled_below (by simp) ofFirst ofSecond ofThird
        (settles ofFirst) (settles ofSecond) (settles ofThird) entered ready
      have gone := (grows_left through.sound site).sound
      have idle : (((((state.entered site).walked first).walked second).walked
          third).left site).awaiting = none := by
        rw [left_block block]
        exact through.idle
      exact stages_around (by simp) ofFirst ofSecond ofThird ofBeside entered
        ready rfl gone idle (by simp) after
  | chain tidy sound idle top after =>
      have plain (function : site.node.kind.isFunction = false)
          (block : site.node.kind.isBlock = false)
          (ofFirst : first.Tidy (.chain false))
          (ofSecond : second.Tidy (.chain false))
          (ofThird : third.Tidy (.chain false)) :
          (state.entered site).awaiting = none ∧ state.Returns
            (((((state.entered site).walked first).walked second).walked
              third).left site) := by
        have inside := returns_plain sound idle function block
        obtain ⟨_, through⟩ := settled_below (by simp) ofFirst ofSecond
          ofThird (settles ofFirst) (settles ofSecond) (settles ofThird)
          inside.sound inside.idle
        rw [left_other function block]
        exact ⟨inside.idle, inside.trans through⟩
      have entered := (grows_entered sound site).sound
      cases tidy with
      | outermost kind ofFirst ofSecond ofThird ofRest =>
          obtain ⟨function, block⟩ := flat_isVariable _ kind
          obtain ⟨ready, back⟩ :=
            plain function block ofFirst ofSecond ofThird
          exact stages_around (by simp) ofFirst ofSecond ofThird ofRest entered
            ready rfl back.sound back.idle
            (fun outer => back.current.trans (top outer)) after
      | other function _ _ block ofFirst ofSecond ofThird ofRest =>
          obtain ⟨ready, back⟩ :=
            plain function block ofFirst ofSecond ofThird
          exact stages_around (by simp) ofFirst ofSecond ofThird ofRest entered
            ready rfl back.sound back.idle
            (fun outer => back.current.trans (top outer)) after
      | block kind ofFirst ofSecond ofThird ofRest =>
          have ready : (state.entered site).awaiting = none := by
            rw [entered_block kind]
            exact (inside_withBlock idle site.id).idle
          obtain ⟨_, through⟩ := settled_below (by simp) ofFirst ofSecond
            ofThird (settles ofFirst) (settles ofSecond) (settles ofThird)
            entered ready
          have back := returns_block sound idle kind through
          exact stages_around (by simp) ofFirst ofSecond ofThird ofRest entered
            ready rfl back.sound back.idle
            (fun outer => back.current.trans (top outer)) after
      | bodiless kind declared ofRest =>
          have back := returns_bodiless sound kind declared
          exact ⟨.leaves declared fun _ => NodeKind.use?_of_isParameter, stage_nil,
            stage_nil, .chain ofRest back.sound back.idle
              (fun outer => back.current.trans (top outer)) after⟩
      | @function _ _ body _ _ _ _ _ _ kind declared block ofFirst ofSecond
          ofThird ofBeside ofRest =>
          have grown := grows_walked entered first
          have awaits := awaits_parameters sound kind declared
          have inBody := (grows_entered grown.sound body).sound
          have inside := awaits.withBlock body.id
          obtain ⟨_, through⟩ := settled_below (by simp) ofFirst ofSecond
            ofThird (settles ofFirst) (settles ofSecond) (settles ofThird)
            inBody (by
              rw [entered_block block]
              exact inside.idle)
          have out := returns_body sound kind declared block through
          have last := out.trans
            (returns_walked ofBeside.functionsShaped out.sound out.idle)
          have back := last.left_function kind
          have level := fun outer => back.current.trans (top outer)
          have behind := settles ofRest back.sound back.idle
            fun outer => level (by simpa using outer)
          rw [table_left] at behind
          exact ⟨.leaves declared fun _ => NodeKind.use?_of_isParameter,
            .body grown.sound awaits block ofFirst ofSecond ofThird ofBeside
              (behind.trans after), stage_nil,
            .chain ofRest back.sound back.idle level after⟩

theorem settled_at_use {forest first second third rest : Forest}
    {found : Declaring} {route along : Route} {name : String}
    (stage : Stage table state forest)
    (reaches : Forest.Reaches entered left state route forest found along
      (.cons site first second third rest))
    (use : site.node.kind.use? = some name) :
    Settled (· = ScopeId.global) found.table table := by
  have arrived := reaches.invariant (fun state _ forest =>
    Stage table state forest) Stage.onward stage
  cases arrived with
  | leaves leaves silent =>
      cases leaves with
      | cons kind tail =>
          rw [silent _ kind] at use
          cases use
  | chain tidy sound idle top after =>
      exact (settles tidy sound idle fun outer =>
        top (by simpa using outer)).trans after
  | body _ _ block =>
      rw [NodeKind.use?_of_isBlock block] at use
      cases use

end Declaring

end CMinusAnalysis
