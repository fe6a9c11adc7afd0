import CMinusAnalysis.Proofs.Analysis.Passes
import CMinusAnalysis.Proofs.Checking.Reports
import CMinusAnalysis.Proofs.Declaring.Frames

namespace CMinusAnalysis

open SymbolTable (Settled)

/-! Both passes before one part of a program. The checking pass comes there long
after the declaring pass, but it finds what that pass recorded about the part
and leaves the types that it ends with, so one induction over the part can
follow both. -/

/-- Each pass stands before the part of the tree to which the route leads.
Between them they end with these facts and this table. -/
structure Abreast (tree : Tree) (facts final : Facts) (table : SymbolTable)
    (declaring : Declaring) (checking : Checking) (route : Route)
    (forest : Forest) : Prop where
  untyped : facts.types = {}
  kept : final.unresolved = facts.unresolved
  scene : Declaring.Scene facts declaring route forest
  noted : Declaring.Noted facts declaring forest
  grown : (declaring.walked forest).table.Extends table
  sound : checking.Sound table
  placed : Checking.Placed facts table checking route forest
  typed : Checking.Noted tree table facts final checking forest
  slots : tree.Slots forest
  complete : forest.Complete

namespace Abreast

variable {tree : Tree} {facts final : Facts} {table : SymbolTable}
  {declaring : Declaring} {checking : Checking} {route : Route} {site : Site}
  {forest first second third rest : Forest} {context : Context}

theorem onward (abreast : Abreast tree facts final table declaring checking
      route (.cons site first second third rest)) :
    let inside := declaring.entered site
    let afterFirst := inside.walked first
    let afterSecond := afterFirst.walked second
    let outside := (afterSecond.walked third).left site
    let within := checking.entered table site
    let behindFirst := within.walked tree table first
    let behindSecond := behindFirst.walked tree table second
    let beyond := (behindSecond.walked tree table third).left tree table site
    Abreast tree facts final table inside within ((site, .first) :: route)
        first ∧
      Abreast tree facts final table afterFirst behindFirst
        ((site, .second) :: route) second ∧
      Abreast tree facts final table afterSecond behindSecond
        ((site, .third) :: route) third ∧
      Abreast tree facts final table outside beyond
        ((site, .sibling) :: route) rest := by
  obtain ⟨untyped, kept, scene, noted, grown, sound, placed, typed, slots,
    complete⟩ := abreast
  obtain ⟨scene1, scene2, scene3, scene4⟩ := scene.onward noted
  obtain ⟨noted1, noted2, noted3, noted4⟩ := noted.parts Declaring.recording
  obtain ⟨_, grown2, grown3, grown4, grown5⟩ :=
    Declaring.grows_parts scene.sound site first second third rest
  have after3 := grown4.table.trans (grown5.table.trans grown)
  have after2 := grown3.table.trans after3
  have after1 := grown2.table.trans after2
  have sound1 := Checking.sound_walked tree (sound.entered site) first
  have sound2 := Checking.sound_walked tree sound1 second
  have sound3 := Checking.sound_walked tree sound2 third
  obtain ⟨placed1, placed2, placed3, _, _, placed4⟩ := placed.onward
    (Checking.steady tree table facts first)
    (Checking.steady tree table facts second)
    (Checking.steady tree table facts third)
  obtain ⟨typed1, typed2, typed3, typed4⟩ :=
    typed.parts (Checking.recording tree table)
  obtain ⟨_, _, slots1, slots2, slots3, slots4⟩ := slots
  obtain ⟨complete1, complete2, complete3, complete4⟩ := complete
  exact ⟨⟨untyped, kept, scene1, noted1, after1, sound.entered site,
      placed1, typed1, slots1, complete1⟩,
    ⟨untyped, kept, scene2, noted2, after2, sound1, placed2, typed2,
      slots2, complete2⟩,
    ⟨untyped, kept, scene3, noted3, after3, sound2, placed3, typed3,
      slots3, complete3⟩,
    ⟨untyped, kept, scene4, noted4, grown, sound3.left site, placed4,
      typed4, slots4, complete4⟩⟩

theorem same_current (abreast : Abreast tree facts final table declaring
      checking route forest) (idle : declaring.awaiting = none) :
    checking.current = declaring.current := by
  have around := abreast.placed.around
  exact Option.some.inj (around.symm.trans (abreast.scene.of_idle idle).1)

theorem alone (abreast : Abreast tree facts final table declaring checking
      route (.cons site first second third rest))
    (idle : declaring.awaiting = none)
    (shaped : (Forest.cons site first second third .nil).FunctionsShaped) :
    Abreast tree facts final table declaring checking route
      (.cons site first second third .nil) := by
  have same := abreast.same_current idle
  have sound := abreast.scene.sound
  obtain ⟨_, _, _, _, last⟩ :=
    Declaring.grows_parts sound site first second third rest
  obtain ⟨ofFirst, ofSecond, inFirst, inSecond, inThird, _⟩ := abreast.slots
  obtain ⟨complete1, complete2, complete3, _⟩ := abreast.complete
  have around := abreast.placed.around
  refine { abreast with
    scene := .idle sound idle shaped (same ▸ around)
      (abreast.scene.of_idle idle).2
    noted := abreast.noted.alone Declaring.recording
    grown := last.table.trans abreast.grown
    placed := ⟨abreast.placed.grounded.mono ?_, abreast.placed.follows, around⟩
    typed := abreast.typed.alone (Checking.recording tree table)
    slots := ⟨ofFirst, ofSecond, inFirst, inSecond, inThird, trivial⟩
    complete := ⟨complete1, complete2, complete3, trivial⟩ }
  intro stop member
  simp only [Forest.stops, List.mem_cons, List.mem_append, List.not_mem_nil,
    or_false] at member ⊢
  tauto

end Abreast

/-- The passes are before a part that stands inside a function, in a scope that
shows the context and takes no more names. -/
structure Poised (tree : Tree) (facts final : Facts) (table : SymbolTable)
    (context : Context) (function : Option SymbolId) (declaring : Declaring)
    (checking : Checking) (route : Route) (forest : Forest) : Prop
    extends Abreast tree facts final table declaring checking route forest where
  idle : declaring.awaiting = none
  within : declaring.Within context
  inner : forest.Inner
  settled : Settled (· = ScopeId.global) (declaring.walked forest).table table
  enclosing : checking.function = function

namespace Poised

variable {tree : Tree} {facts final : Facts} {table : SymbolTable}
  {context : Context} {function : Option SymbolId} {declaring : Declaring}
  {checking : Checking} {route : Route} {site : Site}
  {forest first second third rest : Forest}

theorem settled_before (within : declaring.Within context)
    (idle : declaring.awaiting = none) (inner : forest.Inner)
    (settled : Settled (· = ScopeId.global) (declaring.walked forest).table
      table) :
    Settled (· = ScopeId.global) declaring.table table :=
  ((Declaring.settled_inner inner within.sound idle).mono
    fun _ _ never => never.elim).trans settled

theorem alone (poised : Poised tree facts final table context function
      declaring checking route (.cons site first second third rest))
    (inner : (Forest.cons site first second third .nil).Inner)
    (beside : rest.Inner) :
    Poised tree facts final table context function declaring checking route
      (.cons site first second third .nil) := by
  obtain ⟨within, idle⟩ := poised.within.inner poised.idle inner
  exact
    { poised.toAbreast.alone poised.idle inner.tidy.functionsShaped with
      idle := poised.idle
      within := poised.within
      inner := inner
      settled := settled_before within idle beside poised.settled
      enclosing := poised.enclosing }

theorem beside (poised : Poised tree facts final table context function
      declaring checking route (.cons site first second third rest))
    (inner : (Forest.cons site first second third .nil).Inner)
    (beside : rest.Inner) :
    let alone := Forest.cons site first second third .nil
    Poised tree facts final table context function (declaring.walked alone)
      (checking.walked tree table alone) ((site, .sibling) :: route) rest := by
  intro alone
  obtain ⟨_, _, _, toRest⟩ := poised.toAbreast.onward
  obtain ⟨within, idle⟩ := poised.within.inner poised.idle inner
  refine ⟨toRest, idle, within, beside, poised.settled, ?_⟩
  rw [Checking.function_walked, poised.enclosing]

theorem plain (poised : Poised tree facts final table context function
      declaring checking route (.cons site first second third rest))
    (kind : site.node.kind.isPlain = true) :
    let inside := declaring.entered site
    let afterFirst := inside.walked first
    let afterSecond := afterFirst.walked second
    let outside := (afterSecond.walked third).left site
    let within := checking.entered table site
    let behindFirst := within.walked tree table first
    let behindSecond := behindFirst.walked tree table second
    let beyond := (behindSecond.walked tree table third).left tree table site
    Poised tree facts final table context function inside within
        ((site, .first) :: route) first ∧
      Poised tree facts final table context function afterFirst behindFirst
        ((site, .second) :: route) second ∧
      Poised tree facts final table context function afterSecond behindSecond
        ((site, .third) :: route) third ∧
      Poised tree facts final table context function outside beyond
        ((site, .sibling) :: route) rest := by
  obtain ⟨isFunction, _, _, isBlock⟩ := NodeKind.others_of_isPlain kind
  obtain ⟨toFirst, toSecond, toThird, _⟩ := poised.toAbreast.onward
  obtain ⟨ofFirst, ofSecond, ofThird, ofRest⟩ :
      first.Inner ∧ second.Inner ∧ third.Inner ∧ rest.Inner := by
    cases poised.inner with
    | plain _ ofFirst ofSecond ofThird ofRest =>
        exact ⟨ofFirst, ofSecond, ofThird, ofRest⟩
    | block block =>
        rw [isBlock] at block
        cases block
  obtain ⟨within1, idle1⟩ := poised.within.plain poised.idle kind
  obtain ⟨within2, idle2⟩ := within1.inner idle1 ofFirst
  obtain ⟨within3, idle3⟩ := within2.inner idle2 ofSecond
  have alone : (Forest.cons site first second third .nil).Inner :=
    .plain kind ofFirst ofSecond ofThird .nil
  have settled3 := (poised.alone alone ofRest).settled
  rw [Declaring.walked_cons, Declaring.walked_nil, Declaring.table_left]
    at settled3
  have settled2 := settled_before within3 idle3 ofThird settled3
  have settled1 := settled_before within2 idle2 ofSecond settled2
  have enclosing1 : (checking.entered table site).function = function := by
    rw [(Checking.functions_entered isFunction).1, poised.enclosing]
  have enclosing2 := (Checking.function_walked tree table _ first).trans
    enclosing1
  have enclosing3 := (Checking.function_walked tree table _ second).trans
    enclosing2
  exact ⟨⟨toFirst, idle1, within1, ofFirst, settled1, enclosing1⟩,
    ⟨toSecond, idle2, within2, ofSecond, settled2, enclosing2⟩,
    ⟨toThird, idle3, within3, ofThird, settled3, enclosing3⟩,
    poised.beside alone ofRest⟩

theorem currents (poised : Poised tree facts final table context function
      declaring checking route (.cons site first second third rest))
    (kind : site.node.kind.isPlain = true) :
    let within := checking.entered table site
    let behindFirst := within.walked tree table first
    let behindSecond := behindFirst.walked tree table second
    let behindThird := behindSecond.walked tree table third
    within.current = checking.current ∧
      behindFirst.current = checking.current ∧
      behindSecond.current = checking.current ∧
      behindThird.current = checking.current ∧
      (behindThird.left tree table site).current = checking.current := by
  obtain ⟨_, _, _, isBlock⟩ := NodeKind.others_of_isPlain kind
  obtain ⟨toFirst, toSecond, toThird, _⟩ := poised.plain kind
  have one := (Checking.steady tree table facts first toFirst.placed).1
  have two := (Checking.steady tree table facts second toSecond.placed).1
  have three := (Checking.steady tree table facts third toThird.placed).1
  have zero : (checking.entered table site).current = checking.current :=
    Checking.current_entered_other isBlock
  have last := three.trans (two.trans (one.trans zero))
  refine ⟨zero, one.trans zero, two.trans (one.trans zero), last, ?_⟩
  rw [Checking.current_left, Checking.current_outside_other isBlock]
  exact last

theorem visible (poised : Poised tree facts final table context function
      declaring checking route (.cons site first second third rest))
    {name : String} (use : site.node.kind.use? = some name) {type : Ty}
    (seen : context.type? name = some type) :
    final.unresolved.contains site.id = false ∧
      (table.resolve checking.current name).bind table.typeOf? = some type := by
  have standing := Declaring.standing_of_reaches poised.scene poised.noted
    poised.grown .here
  have sound := poised.within.sound
  rw [← poised.within.shown.resolve sound.coherent] at seen
  obtain ⟨symbol, hit, typed⟩ := Option.bind_eq_some_iff.mp seen
  have before := settled_before poised.within poised.idle poised.inner
    poised.settled
  constructor
  · rw [poised.kept, standing.unresolved use, hit]
    rfl
  · rw [poised.same_current poised.idle, before.resolve sound.coherent
      poised.sound.coherent sound.current hit]
    exact before.typeOf? typed

end Poised

/-- What the checking pass knows when it leaves a node with these operands
inside a function. -/
structure Leaving (tree : Tree) (final : Facts) (table : SymbolTable)
    (function : Option SymbolId) (scope : ScopeId) (state : Checking)
    (site : Site) (first second : Forest) : Prop
    extends Checking.Parting tree final table scope state site first second where
  enclosing : state.function = function

namespace Poised

variable {tree : Tree} {facts final : Facts} {table : SymbolTable}
  {context : Context} {function : Option SymbolId} {declaring : Declaring}
  {checking : Checking} {route : Route} {site : Site}
  {first second third rest : Forest}

theorem leaving (poised : Poised tree facts final table context function
      declaring checking route (.cons site first second third rest))
    (kind : site.node.kind.isPlain = true) :
    Leaving tree final table function checking.current
      ((((checking.entered table site).walked tree table first).walked tree
        table second).walked tree table third) site first second := by
  obtain ⟨isFunction, _, _, isBlock⟩ := NodeKind.others_of_isPlain kind
  have ready : Checking.Ready tree table facts final checking route
      (.cons site first second third rest) :=
    ⟨poised.sound, poised.placed, poised.typed⟩
  refine ⟨ready.parting poised.untyped poised.kept poised.slots
    poised.complete isBlock, ?_⟩
  rw [Checking.function_walked, Checking.function_walked,
    Checking.function_walked, (Checking.functions_entered isFunction).1,
    poised.enclosing]

end Poised

end CMinusAnalysis
