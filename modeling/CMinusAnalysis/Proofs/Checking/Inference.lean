import CMinusAnalysis.Proofs.Checking.Enclosing

namespace CMinusAnalysis

/-! The checking pass against inference. The pass reads some types off the table
and others off what it has noted so far, in a scope and a function that it
keeps track of; what it notes and reports is what inference says of each node
alone. -/

namespace Checking

/-- The pass is before a part of the tree, all handles of which are good, and in
the nearest function above. -/
structure Prepared (tree : Tree) (declared : Analysis) (final : Facts)
    (state : Checking) (route : Route) (forest : Forest) : Prop
    extends Ready tree declared.table declared.facts final state route forest
    where
  untyped : declared.facts.types = {}
  kept : final.unresolved = declared.facts.unresolved
  slots : tree.Slots forest
  complete : forest.Complete
  enclosed : state.function = declared.functionAround route.ancestors

namespace Prepared

variable {tree : Tree} {declared : Analysis} {final : Facts}
  {state : Checking} {route : Route} {site : Site}
  {forest first second third rest : Forest}

theorem toEnclosed (prepared : Prepared tree declared final state route
      forest) : Enclosed declared state route :=
  ⟨prepared.sound.toSupported, prepared.placed.follows, prepared.enclosed⟩

theorem onward (prepared : Prepared tree declared final state route
      (.cons site first second third rest)) :
    let inside := state.entered declared.table site
    let afterFirst := inside.walked tree declared.table first
    let afterSecond := afterFirst.walked tree declared.table second
    let afterThird := afterSecond.walked tree declared.table third
    Prepared tree declared final inside ((site, .first) :: route) first ∧
      Prepared tree declared final afterFirst ((site, .second) :: route)
        second ∧
      Prepared tree declared final afterSecond ((site, .third) :: route)
        third ∧
      Prepared tree declared final (afterThird.left tree declared.table site)
        ((site, .sibling) :: route) rest := by
  obtain ⟨toFirst, toSecond, toThird, toRest⟩ := prepared.toReady.onward
  obtain ⟨_, _, slots1, slots2, slots3, slots4⟩ := prepared.slots
  obtain ⟨complete1, complete2, complete3, complete4⟩ := prepared.complete
  obtain ⟨inFirst, inSecond, inThird, inRest⟩ := prepared.toEnclosed.onward
  have untyped := prepared.untyped
  have kept := prepared.kept
  exact ⟨⟨toFirst, untyped, kept, slots1, complete1, inFirst.function⟩,
    ⟨toSecond, untyped, kept, slots2, complete2, inSecond.function⟩,
    ⟨toThird, untyped, kept, slots3, complete3, inThird.function⟩,
    ⟨toRest, untyped, kept, slots4, complete4, inRest.function⟩⟩

theorem of_reaches {part : Forest} {found : Checking} {along : Route}
    (prepared : Prepared tree declared final state route forest)
    (reaches : Forest.Reaches (entered declared.table)
      (left tree declared.table) state route forest found along part) :
    Prepared tree declared final found along part :=
  reaches.invariant (Prepared tree declared final) onward prepared

theorem current_eq {later : Checking} {link : Link} {part : Forest}
    (prepared : Prepared tree declared final state route
      (.cons site first second third rest))
    (plain : site.node.kind.isBlock = false)
    (onward : Prepared tree declared final later ((site, link) :: route)
      part) : later.current = state.current := by
  have around := onward.placed.around
  rw [Facts.scopeAround_other plain, prepared.placed.around] at around
  exact (Option.some.inj around).symm

theorem nameType_eq (prepared : Prepared tree declared final state route
      (.cons site first second third rest)) {name : String}
    (kind : site.node.kind = .expression (.identifier name))
    (seen : Checking) (current : seen.current = state.current)
    (unresolved : seen.facts.unresolved = final.unresolved)
    (target : Option Ty) :
    seen.nameType declared.table site.id name =
      declared.typeAt route site target := by
  simp only [nameType, Analysis.typeAt, kind, current, unresolved,
    prepared.kept, prepared.placed.around, Option.bind_some,
    SymbolTable.typeFrom?_eq prepared.sound.coherent prepared.sound.current]

theorem typeOf_eq (prepared : Prepared tree declared final state route
      (.cons site first second third rest))
    (below : (viewing final
        (state.entered declared.table site).current).reading declared.table
        first = declared.inferChain ((site, .first) :: route) first) :
    final.types.get? site.id =
      declared.infer route (.cons site first second third rest) := by
  have standing := prepared.toReady.standing prepared.untyped
  have global := Nat.zero_lt_of_lt prepared.sound.current
  rw [standing.typed, Analysis.infer]
  rcases kind : site.node.kind with declaration | statement | expression |
    parameter
  · cases declaration <;> simp only [gained, Analysis.typeAt, kind]
  · simp only [gained, Analysis.typeAt, kind]
  · have plain : site.node.kind.isBlock = false := by
      rw [kind]
      rfl
    have parting := prepared.toReady.parting prepared.untyped prepared.kept
      prepared.slots prepared.complete plain
    cases expression with
    | identifier name =>
        simp only [gained, kind, siteTy]
        exact prepared.nameType_eq kind _ parting.current parting.unresolved _
    | arrayIdentifier name =>
        simp only [gained, kind, siteTy, Analysis.typeAt]
    | call name =>
        simp only [gained, kind, Analysis.typeAt, parting.unresolved,
          prepared.kept, Analysis.function?_eq global]
        cases callee? declared.table name with
        | none => rfl
        | some function =>
            cases found : function.isFunction <;>
              simp [Option.filter, found]
    | constant value => simp only [gained, kind, Analysis.typeAt]
    | binary op => simp only [gained, kind, Analysis.typeAt]
    | assign =>
        -- The target was left before, and what was noted for it then is read
        -- now.
        rw [current_entered_other plain] at below
        simp only [gained, kind, Analysis.typeAt]
        rw [parting.onFirst, below, Analysis.head?_inferChain]
  · simp only [gained, Analysis.typeAt, kind]

theorem reading_eq (prepared : Prepared tree declared final state route
      forest) :
    (viewing final state.current).reading declared.table forest =
      declared.inferChain route forest := by
  induction forest generalizing state route with
  | nil => rfl
  | missing fault => rfl
  | cons site first second third rest inFirst _ _ inRest =>
      obtain ⟨toFirst, _, _, toRest⟩ := prepared.onward
      -- The scope is the same along a chain, so the rest is read from here.
      have beside := toRest.placed.around
      rw [Route.ancestors_sibling, prepared.placed.around] at beside
      have last := inRest toRest
      rw [← Option.some.inj beside] at last
      have typed := prepared.typeOf_eq (inFirst toFirst)
      rw [Analysis.infer] at typed
      have here : (viewing final state.current).siteTy declared.table site =
          declared.typeAt route site
            (declared.infer ((site, .first) :: route) first) := by
        rw [siteTy]
        split
        · next kind =>
            exact prepared.nameType_eq kind (viewing final state.current) rfl
              rfl _
        · next kind => simp only [Analysis.typeAt, kind]
        · exact typed
      rw [reading, Forest.heads, List.map_cons, here, ← reading, last,
        Analysis.inferChain]

theorem types_eq (prepared : Prepared tree declared final state route
      (.cons site first second third rest)) :
    final.types.get? site.id =
      declared.infer route (.cons site first second third rest) :=
  prepared.typeOf_eq prepared.onward.1.reading_eq

theorem nameObjections_eq (prepared : Prepared tree declared final state route
      (.cons site first second third rest)) {name : String}
    (use : site.node.kind.use? = some name) {seen : Checking}
    (current : seen.current = state.current)
    (unresolved : seen.facts.unresolved = final.unresolved) :
    seen.nameObjections declared.table site.id name = [] := by
  rw [nameObjections, unresolved, prepared.kept, current]
  rcases prepared.placed.grounded.uses List.mem_cons_self use with marked |
    ⟨scope, around, resolved⟩
  · simp [marked]
  · cases prepared.placed.around.symm.trans around
    split
    · rfl
    · simp [Option.isSome_iff_ne_none.mp resolved]

theorem objections_eq (prepared : Prepared tree declared final state route
      (.cons site first second third rest)) :
    ((((state.entered declared.table site).walked tree declared.table
        first).walked tree declared.table second).walked tree declared.table
        third).objections tree declared.table site =
      declared.verdict route site first second := by
  cases block : site.node.kind.isBlock with
  | true => simp only [objections, Analysis.verdict, kind_of_isBlock block]
  | false =>
      obtain ⟨toFirst, toSecond, _⟩ := prepared.onward
      have parting := prepared.toReady.parting prepared.untyped prepared.kept
        prepared.slots prepared.complete block
      have readFirst := toFirst.reading_eq
      have readSecond := toSecond.reading_eq
      rw [prepared.current_eq block toFirst] at readFirst
      rw [prepared.current_eq block toSecond] at readSecond
      have onFirst := parting.onFirst
      have onSecond := parting.onSecond
      have arguments := parting.arguments
      rw [readFirst, Analysis.head?_inferChain] at onFirst
      rw [readSecond, Analysis.head?_inferChain] at onSecond
      rw [readFirst] at arguments
      have count := congrArg List.length arguments
      rw [List.length_map] at count
      have silent (name : String) (use : site.node.kind.use? = some name) :=
        prepared.nameObjections_eq use parting.current parting.unresolved
      rcases kind : site.node.kind with declaration | statement | expression |
        parameter
      · cases declaration <;> simp only [objections, Analysis.verdict, kind]
      · have other : site.node.kind.isFunction = false := by
          rw [kind]
          rfl
        cases statement with
        | ret =>
            cases around : (declared.functionAround route.ancestors).bind
                fun id => declared.table.symbols[id.index]? <;>
              simp only [objections, Analysis.verdict, kind, enclosing?,
                function_walked, functions_entered other, prepared.enclosed,
                Analysis.returnVerdict, returnObjections, onFirst,
                returnObjection?_of_void, around]
        | _ =>
            simp only [objections, Analysis.verdict, kind, onFirst, onSecond,
              conditionObjections, Analysis.conditionVerdict]
      · cases expression with
        | identifier name =>
            have nothing := silent name (by rw [kind]; rfl)
            simp only [objections, Analysis.verdict, kind, nothing]
            rfl
        | arrayIdentifier name =>
            have nothing := silent name (by rw [kind]; rfl)
            simp only [objections, Analysis.verdict, kind, nothing]
            rfl
        | call name =>
            cases called : callee? declared.table name <;>
              simp only [objections, Analysis.verdict, kind, callObjections,
                Analysis.callVerdict, parting.unresolved, prepared.kept,
                arguments, count, called]
        | _ =>
            simp only [objections, Analysis.verdict, kind, onFirst, onSecond]
      · simp only [objections, Analysis.verdict, kind]

theorem items_walked (prepared : Prepared tree declared final state route
      forest) :
    (state.walked tree declared.table forest).items =
      state.items ++ declared.findings route forest := by
  induction forest generalizing state route with
  | nil => simp [walked, Forest.fold, Analysis.findings]
  | missing fault => simp [walked, Forest.fold, Analysis.findings]
  | cons site first second third rest inFirst inSecond inThird inRest =>
      obtain ⟨toFirst, toSecond, toThird, toRest⟩ := prepared.onward
      have leaving := items_left tree declared.table
        ((((state.entered declared.table site).walked tree declared.table
          first).walked tree declared.table second).walked tree declared.table
          third) site
      rw [prepared.objections_eq] at leaving
      rw [walked_cons, inRest toRest, items, leaving, ← items,
        inThird toThird, inSecond toSecond, inFirst toFirst, items,
        prepared.placed.entered_diagnostics, ← items, Analysis.findings]
      simp only [List.append_assoc]

end Prepared

end Checking

end CMinusAnalysis
