import CMinusAnalysis.Proofs.Declaring.Nesting

namespace CMinusAnalysis

/-! Where the declaring pass stands when it enters a node. What a node is
recorded with stays as it is, so the scope in which a use is resolved can be
read off the records at the end: it is the one of the nearest block above. -/

namespace Declaring

variable {facts : Facts} {state : Declaring} {route : Route} {site : Site}
  {first second third rest : Forest}

abbrev Noted (facts : Facts) (state : Declaring) (forest : Forest) : Prop :=
  Records Declaring.facts entered left Facts.blank facts state forest

theorem noted_entered (noted : Noted facts state
    (.cons site first second third rest)) :
    (state.entered site).facts.AgreeAt facts site.id := by
  obtain ⟨_, children, finish⟩ := noted.own recording
  refine children.trans ?_
  rwa [facts_left] at finish

/-- How the pass stands before a part of the tree: idle, in the scope of the
nearest block above; or in the scope of a function, before its parameters or
its body, and `outer` is the scope of the nearest block above. -/
inductive Scene (facts : Facts) : Declaring → Route → Forest → Prop
  | idle {state : Declaring} {route : Route} {forest : Forest}
      (sound : state.Sound) (idle : state.awaiting = none)
      (shaped : forest.FunctionsShaped)
      (around : facts.scopeAround route.ancestors = some state.current)
      (aside : route.bodyOf? = none) : Scene facts state route forest
  | parameters {state : Declaring} {route : Route} {forest : Forest}
      {outer : ScopeId} (sound : state.Sound) (awaits : state.Awaits outer)
      (leaves : forest.Leaves NodeKind.isParameter)
      (around : facts.scopeAround route.ancestors = some outer) :
      Scene facts state route forest
  | body {state : Declaring} {route : Route} {body : Site}
      {first second third beside : Forest} {outer : ScopeId}
      (sound : state.Sound) (awaits : state.Awaits outer)
      (block : body.node.kind.isBlock = true)
      (inFirst : first.FunctionsShaped) (inSecond : second.FunctionsShaped)
      (inThird : third.FunctionsShaped) (inBeside : beside.FunctionsShaped)
      (around : facts.scopeAround route.ancestors = some outer)
      (within : route.bodyOf?.isSome = true) :
      Scene facts state route (.cons body first second third beside)

theorem scenes_below {inside : Declaring} (sound : inside.Sound)
    (idle : inside.awaiting = none)
    (function : site.node.kind.isFunction = false)
    (inFirst : first.FunctionsShaped) (inSecond : second.FunctionsShaped)
    (inThird : third.FunctionsShaped)
    (around : ∀ {link : Link}, link ≠ .sibling →
      facts.scopeAround (Route.ancestors ((site, link) :: route)) =
        some inside.current) :
    Scene facts inside ((site, .first) :: route) first ∧
      Scene facts (inside.walked first) ((site, .second) :: route) second ∧
      Scene facts ((inside.walked first).walked second)
        ((site, .third) :: route) third ∧
      inside.Returns (((inside.walked first).walked second).walked third) := by
  have first := returns_walked inFirst sound idle
  have second := first.trans (returns_walked inSecond first.sound first.idle)
  have third := second.trans (returns_walked inThird second.sound second.idle)
  have aside (link : Link) : Route.bodyOf? ((site, link) :: route) = none :=
    Route.bodyOf?_other function link
  refine ⟨.idle sound idle inFirst (around (by decide)) (aside .first),
    .idle first.sound first.idle inSecond ?_ (aside .second),
    .idle second.sound second.idle inThird ?_ (aside .third), third⟩
  · rw [first.current, around (by decide)]
  · rw [second.current, around (by decide)]

theorem blocks_entered (noted : Noted facts state
      (.cons site first second third rest))
    (block : site.node.kind.isBlock = true)
    (ready : state.awaiting = none ∨ ∃ outer, state.Awaits outer) :
    facts.blocks.get? site.id = some (state.entered site).current := by
  rw [(noted_entered noted).blocks, entered_block block]
  exact blocks_withBlock state site.id ready

theorem scenes_block (route : Route) (noted : Noted facts state
      (.cons site first second third rest)) (sound : state.Sound)
    (block : site.node.kind.isBlock = true)
    (ready : state.awaiting = none ∨ ∃ outer, state.Awaits outer)
    (inFirst : first.FunctionsShaped) (inSecond : second.FunctionsShaped)
    (inThird : third.FunctionsShaped) :
    let inside := state.entered site
    Scene facts inside ((site, .first) :: route) first ∧
      Scene facts (inside.walked first) ((site, .second) :: route) second ∧
      Scene facts ((inside.walked first).walked second)
        ((site, .third) :: route) third ∧
      inside.Returns (((inside.walked first).walked second).walked third) := by
  apply scenes_below (grows_entered sound site).sound ?_
    (NodeKind.isFunction_of_isBlock block) inFirst inSecond inThird
  · intro link down
    rw [Facts.scopeAround_block block down]
    exact blocks_entered noted block ready
  · rw [entered_block block]
    rcases ready with idle | ⟨_, awaits⟩
    · exact (inside_withBlock idle site.id).idle
    · exact (awaits.withBlock site.id).idle

theorem Scene.onward (noted : Noted facts state
      (.cons site first second third rest))
    (scene : Scene facts state route (.cons site first second third rest)) :
    let inside := state.entered site
    let afterFirst := inside.walked first
    let afterSecond := afterFirst.walked second
    let afterThird := afterSecond.walked third
    Scene facts inside ((site, .first) :: route) first ∧
      Scene facts afterFirst ((site, .second) :: route) second ∧
      Scene facts afterSecond ((site, .third) :: route) third ∧
      Scene facts (afterThird.left site) ((site, .sibling) :: route) rest := by
  dsimp only
  cases scene with
  | idle sound idle shaped around aside =>
      cases shaped with
      | other function inFirst inSecond inThird inRest =>
          cases block : site.node.kind.isBlock with
          | true =>
              obtain ⟨one, two, three, through⟩ :=
                scenes_block route noted sound block (.inl idle) inFirst
                  inSecond inThird
              have back := returns_block sound idle block through
              refine ⟨one, two, three,
                .idle back.sound back.idle inRest ?_ rfl⟩
              rw [Route.ancestors_sibling, around, back.current]
          | false =>
              have entered := returns_plain sound idle function block
              obtain ⟨one, two, three, through⟩ :=
                scenes_below entered.sound entered.idle function inFirst
                  inSecond inThird fun _ => by
                    rw [Facts.scopeAround_other block, around, entered.current]
              have back := entered.trans through
              rw [left_other function block]
              refine ⟨one, two, three,
                .idle back.sound back.idle inRest ?_ rfl⟩
              rw [Route.ancestors_sibling, around, back.current]
      | bodiless kind declared inRest =>
          have block := NodeKind.isBlock_of_isFunction kind
          have entered := (grows_entered sound site).sound
          have grown := grows_walked entered first
          have awaits := awaits_parameters sound kind declared
          have back := returns_bodiless sound kind declared
          refine ⟨.parameters entered (awaits_parameters sound kind .nil)
              declared ?_, .parameters grown.sound awaits .nil ?_,
            .parameters grown.sound awaits .nil ?_,
            .idle back.sound back.idle inRest ?_ rfl⟩
          · rw [Facts.scopeAround_other block, around]
          · rw [Facts.scopeAround_other block, around]
          · rw [Facts.scopeAround_other block, around]
          · rw [Route.ancestors_sibling, around]
            exact congrArg some back.current.symm
      | function kind declared isBody inFirst inSecond inThird inBeside
          inRest =>
          have block := NodeKind.isBlock_of_isFunction kind
          have entered := (grows_entered sound site).sound
          have grown := grows_walked entered first
          have awaits := awaits_parameters sound kind declared
          obtain ⟨_, _, _, through⟩ := scenes_block ((site, .second) :: route)
            (noted.parts recording).2.1 grown.sound isBody (.inr ⟨_, awaits⟩) inFirst
            inSecond inThird
          have inBody := returns_body sound kind declared isBody through
          have beside := inBody.trans
            (returns_walked inBeside inBody.sound inBody.idle)
          have back := beside.left_function kind
          refine ⟨.parameters entered (awaits_parameters sound kind .nil)
              declared ?_,
            .body grown.sound awaits isBody inFirst inSecond inThird inBeside
              ?_ (by simp [Route.bodyOf?, kind]),
            .idle beside.sound beside.idle .nil ?_ rfl,
            .idle back.sound back.idle inRest ?_ rfl⟩
          · rw [Facts.scopeAround_other block, around]
          · rw [Facts.scopeAround_other block, around]
          · rw [Facts.scopeAround_other block, around]
            exact congrArg some beside.current.symm
          · rw [Route.ancestors_sibling, around]
            exact congrArg some back.current.symm
  | parameters sound awaits leaves around =>
      cases leaves with
      | cons kind tail =>
          obtain ⟨function, block⟩ := flat_isParameter _ kind
          have entered := grows_entered sound site
          obtain ⟨current, awaiting, _⟩ := stays_entered state function block
          have still := awaits.later entered current awaiting
          rw [left_other function block]
          refine ⟨.parameters entered.sound still .nil ?_,
            .parameters entered.sound still .nil ?_,
            .parameters entered.sound still .nil ?_,
            .parameters entered.sound still tail ?_⟩
          · rw [Facts.scopeAround_other block, around]
          · rw [Facts.scopeAround_other block, around]
          · rw [Facts.scopeAround_other block, around]
          · rw [Route.ancestors_sibling, around]
  | body sound awaits block inFirst inSecond inThird inBeside around within =>
      obtain ⟨one, two, three, through⟩ :=
        scenes_block route noted sound block (.inr ⟨_, awaits⟩) inFirst
          inSecond inThird
      have gone := grows_left through.sound site
      rw [entered_block block] at through
      have inside := (awaits.withBlock site.id).later through.toGrows
        through.current through.idle
      rw [← entered_block block] at inside
      refine ⟨one, two, three, .idle gone.sound ?_ inBeside ?_ rfl⟩
      · rw [left_block block]
        exact inside.outside.2
      · rw [Route.ancestors_sibling, around, left_block block]
        exact congrArg some inside.outside.1.symm

theorem Scene.sound {forest : Forest} (scene : Scene facts state route forest) :
    state.Sound := by
  cases scene with
  | idle sound => exact sound
  | parameters sound => exact sound
  | body sound => exact sound

theorem Scene.of_idle {forest : Forest} (scene : Scene facts state route forest)
    (idle : state.awaiting = none) :
    facts.scopeAround route.ancestors = some state.current ∧
      route.bodyOf? = none := by
  cases scene with
  | idle _ _ _ around aside => exact ⟨around, aside⟩
  | parameters _ awaits =>
      rw [awaits.awaiting] at idle
      cases idle
  | body _ awaits =>
      rw [awaits.awaiting] at idle
      cases idle

/-- What is known in a state in which the pass enters a node, beside the facts
and the table that it ends with. -/
structure Standing (facts : Facts) (table : SymbolTable) (state : Declaring)
    (route : Route) (site : Site) : Prop where
  sound : state.Sound
  blank : Facts.blank.AgreeAt state.facts site.id
  recorded : (state.entered site).facts.AgreeAt facts site.id
  grown : (state.entered site).table.Extends table
  placed : state.awaiting = none ∧
      facts.scopeAround route.ancestors = some state.current ∨
    ∃ outer, state.Awaits outer ∧
      facts.scopeAround route.ancestors = some outer ∧
      site.node.kind.use? = none
  opens : site.node.kind.isFunction = true ∨ site.node.kind.isBlock = true →
    state.awaiting.isNone = opensScope (route, site)

theorem Scene.placed (scene : Scene facts state route
      (.cons site first second third rest)) :
    state.awaiting = none ∧
        facts.scopeAround route.ancestors = some state.current ∨
      ∃ outer, state.Awaits outer ∧
        facts.scopeAround route.ancestors = some outer ∧
        site.node.kind.use? = none := by
  cases scene with
  | idle _ idle _ around => exact .inl ⟨idle, around⟩
  | parameters _ awaits leaves around =>
      cases leaves with
      | cons kind tail =>
          exact .inr ⟨_, awaits, around, NodeKind.use?_of_isParameter kind⟩
  | body _ awaits block _ _ _ _ around =>
      exact .inr ⟨_, awaits, around, NodeKind.use?_of_isBlock block⟩

theorem Scene.opens (scene : Scene facts state route
      (.cons site first second third rest))
    (enclosing : site.node.kind.isFunction = true ∨
      site.node.kind.isBlock = true) :
    state.awaiting.isNone = opensScope (route, site) := by
  cases scene with
  | idle _ idle _ _ aside =>
      rcases enclosing with kind | kind <;> simp [opensScope, idle, aside, kind]
  | parameters _ _ leaves =>
      cases leaves with
      | cons kind tail =>
          obtain ⟨function, block⟩ := flat_isParameter _ kind
          simp [function, block] at enclosing
  | body _ awaits block _ _ _ _ _ within =>
      have function := NodeKind.isFunction_of_isBlock block
      simp [opensScope, awaits.awaiting, function,
        Option.isNone_eq_false_iff.mpr within]

variable {table : SymbolTable} {forest : Forest}

theorem standing_of_reaches (scene : Scene facts state route forest)
    (noted : Noted facts state forest)
    (grown : (state.walked forest).table.Extends table) {found : Declaring}
    {along : Route}
    (reaches : Forest.Reaches entered left state route forest found along
      (.cons site first second third rest)) :
    Standing facts table found along site := by
  obtain ⟨scene, noted, grown⟩ := reaches.invariant
    (fun state route forest =>
      Scene facts state route forest ∧ Noted facts state forest ∧
        (state.walked forest).table.Extends table)
    (by
      rintro state route site first second third rest ⟨scene, noted, grown⟩
      obtain ⟨inFirst, inSecond, inThird, inRest⟩ := scene.onward noted
      obtain ⟨ofFirst, ofSecond, ofThird, ofRest⟩ := noted.parts recording
      obtain ⟨_, second, third, outside, last⟩ :=
        grows_parts scene.sound site first second third rest
      have afterThird := outside.table.trans (last.table.trans grown)
      have afterSecond := third.table.trans afterThird
      have afterFirst := second.table.trans afterSecond
      exact ⟨⟨inFirst, ofFirst, afterFirst⟩, ⟨inSecond, ofSecond, afterSecond⟩,
        ⟨inThird, ofThird, afterThird⟩, inRest, ofRest, grown⟩)
    ⟨scene, noted, grown⟩
  obtain ⟨first, second, third, outside, last⟩ :=
    grows_parts scene.sound site first second third rest
  exact
    { sound := scene.sound
      blank := (noted.own recording).1
      recorded := noted_entered noted
      grown := ((((first.trans second).trans third).trans outside).trans
        last).table.trans grown
      placed := scene.placed
      opens := scene.opens }

namespace Standing

variable (standing : Standing facts table state route site)

include standing

theorem current_of_use {name : String}
    (use : site.node.kind.use? = some name) :
    facts.scopeAround route.ancestors = some state.current := by
  rcases standing.placed with ⟨_, around⟩ | ⟨_, _, _, none⟩
  · exact around
  · rw [none] at use
    cases use

theorem opensScope_eq :
    (site.node.kind.isFunction ||
      site.node.kind.isBlock && state.awaiting.isNone) =
        opensScope (route, site) := by
  cases function : site.node.kind.isFunction with
  | true => simp [opensScope, function]
  | false =>
      cases block : site.node.kind.isBlock with
      | true => rw [standing.opens (.inr block), Bool.false_or, Bool.true_and]
      | false => simp [opensScope, function, block]

theorem current_of_opensScope (opens : opensScope (route, site) = true) :
    state.awaiting = none ∧
      facts.scopeAround route.ancestors = some state.current := by
  have idle : state.awaiting.isNone = true := by
    rw [standing.opens ?_, opens]
    simp only [opensScope, Bool.or_eq_true, Bool.and_eq_true] at opens
    exact opens.imp_right And.left
  rcases standing.placed with placed | ⟨_, awaits, _⟩
  · exact placed
  · rw [awaits.awaiting] at idle
    cases idle

theorem unresolved {name : String} (use : site.node.kind.use? = some name) :
    facts.unresolved.contains site.id =
      (state.table.resolve state.current name).isNone := by
  have recorded := standing.recorded.unresolved
  have blank := standing.blank.unresolved
  rw [entered_use use] at recorded
  rw [NodeTable.contains, recorded, withUse]
  cases state.table.resolve state.current name with
  | none => simp [Facts.setUnresolved, NodeTable.get?_insert]
  | some found => simpa [Facts.blank] using congrArg Option.isSome blank

theorem parent_of_block (block : site.node.kind.isBlock = true) :
    ∃ inner outer, facts.blocks.get? site.id = some inner ∧
      table.parent? inner = some outer ∧
      facts.scopeAround route.ancestors = some outer := by
  have recorded := standing.recorded.blocks
  have grown := standing.grown
  rw [entered_block block] at recorded grown
  rcases standing.placed with ⟨idle, around⟩ | ⟨outer, awaits, around, _⟩
  · have inside := inside_withBlock idle site.id
    rw [blocks_withBlock state site.id (.inl idle)] at recorded
    refine ⟨_, _, recorded, ?_, around⟩
    rw [grown.parent? (SymbolTable.has_of_parent? inside.parent)]
    exact inside.parent
  · have inside := awaits.withBlock site.id
    rw [blocks_withBlock state site.id (.inr ⟨outer, awaits⟩)] at recorded
    refine ⟨_, _, recorded, ?_, around⟩
    rw [grown.parent? (SymbolTable.has_of_parent? inside.parent)]
    exact inside.parent

end Standing

theorem noted_origin (builtins : Bool) (distinct : forest.ids.Nodup) :
    Noted ((origin builtins).walked forest).facts (origin builtins)
      forest where
  distinct := distinct
  start _ := by
    rw [(origin_fields builtins).1]
    exact .refl _ _
  finish _ := .refl _ _

theorem scene_origin (builtins : Bool) (shaped : forest.FunctionsShaped) :
    Scene facts (origin builtins) [] forest := by
  obtain ⟨_, _, current, idle⟩ := origin_fields builtins
  refine .idle (grows_origin builtins).sound idle shaped ?_ rfl
  rw [current]
  rfl

theorem standing_of_mem_trace (builtins : Bool) {tree : Tree}
    (single : tree.SinglePath) (complete : tree.forest.Complete)
    (shaped : tree.forest.FunctionsShaped) {found : Declaring} {along : Route}
    (member : (found, along, Visit.enter site) ∈
      trace step (origin builtins) tree.stops) :
    Standing ((origin builtins).walked tree.forest).facts
      ((origin builtins).walked tree.forest).table found along site := by
  obtain ⟨_, _, _, _, reaches⟩ := (steps _).reaches_of_enter complete
    (grows_origin builtins).sound member
  have distinct := single.unfolds.nodup_ids single fun _ => .start
  exact standing_of_reaches (scene_origin builtins shaped)
    (noted_origin builtins distinct) (.refl _) reaches

end Declaring

end CMinusAnalysis
