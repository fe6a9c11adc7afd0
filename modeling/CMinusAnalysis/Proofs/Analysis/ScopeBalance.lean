import CMinusAnalysis.Proofs.Analysis.Passes
import CMinusAnalysis.Proofs.Declaring.Balance

namespace CMinusAnalysis

/-! Which scopes the declaring pass leaves open, whatever the kinds of nodes in
whatever slots. It ends as many links inside the outermost scope as functions
were overtaken by another function before their bodies; where none is, every
visit leaves the scope as it found it. -/

namespace Declaring

/-- A node that the root leads to, with the states in which the pass enters and
leaves it on that route. -/
structure VisitAt (builtins : Bool) (tree : Tree) (route : Route) (site : Site)
    (before last : Declaring) : Prop where
  reached : tree.Leads tree.root route site.id
  found : tree.node site.id = .ok site.node
  entered : (before, route, Visit.enter site) ∈ history builtins tree
  left : (last, route, Visit.leave site) ∈ history builtins tree

/-- Entering the node gives the outermost scope a new symbol for the name, or
reports that it has one and does nothing else. -/
def DeclaresGlobal (before : Declaring) (site : Site) (name : String)
    (type : Ty) (redeclared : DiagnosticKind) : Prop :=
  (before.table.lookupLocal ScopeId.global name = .ok none ∧
    ∃ after symbol entry, before.step (.enter site) = .ok after ∧
      after.table.lookupLocal ScopeId.global name = .ok (some symbol) ∧
      after.table.symbol symbol = .ok entry ∧ entry.type = type ∧
      entry.isFunction = false) ∨
  ∃ symbol, before.table.lookupLocal ScopeId.global name = .ok (some symbol) ∧
    before.step (.enter site) = .ok { before with
      diagnostics :=
        before.diagnostics.add ⟨redeclared, site.node.line, some name⟩ }

/-- Nothing in a part is overtaken, and where the part lies in the outermost
chain, the pass is before it in the outermost scope. -/
structure Level (state : Declaring) (route : Route) (forest : Forest) :
    Prop where
  sound : state.Sound
  balanced : forest.overtaken = 0
  outermost : route.ancestors = [] →
    state.awaiting = none ∧ state.current = ScopeId.global

variable {state before last : Declaring} {route : Route} {site : Site}
  {forest first second third rest : Forest}

theorem Level.returns (level : Level state route
      (.cons site first second third rest)) (idle : state.awaiting = none) :
    let outside := ((((state.entered site).walked first).walked
      second).walked third).left site
    outside.awaiting = none ∧ outside.current = state.current := by
  intro outside
  have balanced := level.balanced
  rw [Forest.overtaken] at balanced
  have alone : (Forest.cons site first second third .nil).overtaken = 0 := by
    rw [Forest.overtaken, show Forest.nil.overtaken = 0 from rfl]
    omega
  have deep := (balances_walked level.sound
    (.cons site first second third .nil)).of_idle idle
  rw [alone] at deep
  exact ⟨deep.idle, Option.some.inj deep.up⟩

theorem Level.onward (level : Level state route
      (.cons site first second third rest)) :
    let inside := state.entered site
    let afterFirst := inside.walked first
    let afterSecond := afterFirst.walked second
    let afterThird := afterSecond.walked third
    Level inside ((site, .first) :: route) first ∧
      Level afterFirst ((site, .second) :: route) second ∧
      Level afterSecond ((site, .third) :: route) third ∧
      Level (afterThird.left site) ((site, .sibling) :: route) rest := by
  have balanced := level.balanced
  rw [Forest.overtaken] at balanced
  have inside := (grows_entered level.sound site).sound
  obtain ⟨one, two, three, four, _⟩ :=
    grows_parts level.sound site first second third rest
  have below {link : Link} (down : link ≠ .sibling) {later : Declaring}
      (top : Route.ancestors ((site, link) :: route) = []) :
      later.awaiting = none ∧ later.current = ScopeId.global := by
    rw [Route.ancestors_child site down] at top
    cases top
  refine ⟨⟨inside, by omega, below (by decide)⟩,
    ⟨one.sound, by omega, below (by decide)⟩,
    ⟨two.sound, by omega, below (by decide)⟩, ⟨four.sound, by omega, ?_⟩⟩
  intro top
  obtain ⟨idle, current⟩ := level.outermost top
  obtain ⟨still, back⟩ := level.returns idle
  exact ⟨still, back.trans current⟩

theorem declaresGlobal {name : String} {type : Ty}
    {redeclared : DiagnosticKind} (sound : before.Sound)
    (current : before.current = ScopeId.global)
    (entered : before.entered site =
      before.withLocal name type site.node.line redeclared) :
    before.DeclaresGlobal site name type redeclared := by
  have looked := SymbolTable.lookupLocal_eq sound.global name
  have stepped := step_enter sound site
  rw [entered, withLocal, current] at stepped
  cases hit : before.table.find? ScopeId.global name with
  | some symbol =>
      rw [hit] at looked stepped
      exact .inr ⟨symbol, looked, stepped⟩
  | none =>
      rw [hit] at looked stepped
      have grown := grows_declaredIn sound sound.global hit type site.node.line
        false
      obtain ⟨location, pushed⟩ := SymbolTable.symbols_declared sound.global name
        type site.node.line false
      refine .inl ⟨looked, _, ⟨before.table.symbols.size⟩,
        { name, type, location, isFunction := false,
          latestLines := [site.node.line], scope := ScopeId.global }, stepped,
        ?_, ?_, rfl, rfl⟩
      · rw [if_neg (by simp), SymbolTable.lookupLocal_eq grown.sound.global,
          declaredIn, SymbolTable.find?_declared sound.coherent sound.global hit]
        simp
      · apply SymbolTable.symbol_eq_ok
        simp [declaredIn, pushed]

section

variable {builtins : Bool} {tree : Tree}

theorem exists_visitAt (builtins : Bool) (acyclic : tree.Acyclic)
    (complete : tree.forest.Complete)
    (leads : tree.Leads tree.root route site.id)
    (found : tree.node site.id = .ok site.node) :
    ∃ before last, VisitAt builtins tree route site before last := by
  have stop := acyclic.unfolds.mem_stops_iff.mpr ⟨leads, found⟩
  obtain ⟨before, entered⟩ := exists_mem_history builtins complete stop
  obtain ⟨last, left⟩ := exists_mem_history builtins complete
    (Forest.leave_mem_stops_iff.mpr stop)
  exact ⟨before, last, leads, found, entered, left⟩

theorem VisitAt.exists_reaches
    (visit : VisitAt builtins tree route site before last)
    (complete : tree.forest.Complete) :
    ∃ first second third rest, Forest.Reaches Declaring.entered Declaring.left
        (origin builtins) [] tree.forest before route
        (.cons site first second third rest) ∧
      last = (((before.entered site).walked first).walked second).walked
        third := by
  obtain ⟨_, _, entering, leaving⟩ := visit
  rw [history_eq] at entering leaving
  have sound := (grows_origin builtins).sound
  obtain ⟨_, _, _, _, toEnter⟩ :=
    (steps _).reaches_of_enter complete sound entering
  obtain ⟨_, first, second, third, rest, toLeave, same⟩ :=
    (steps _).reaches_of_leave complete sound leaving
  obtain ⟨rfl, _⟩ := toEnter.unique toLeave
  exact ⟨first, second, third, rest, toLeave, same⟩

theorem level_origin (builtins : Bool) (balanced : tree.forest.overtaken = 0) :
    Level (origin builtins) [] tree.forest where
  sound := (grows_origin builtins).sound
  balanced := balanced
  outermost _ := by
    obtain ⟨_, _, current, idle⟩ := origin_fields builtins
    exact ⟨idle, current⟩

end

end Declaring

/-- The declaring pass ends as many links inside the outermost scope as
functions were overtaken. If none was, a visit that starts without waiting for
a body ends in the scope in which it started, and the variables of the outermost
chain go to the outermost scope. -/
theorem scopes_left_open (builtins : Bool) {tree : Tree}
    (acyclic : tree.Acyclic) (inRange : tree.InRange) :
    ∃ final, (Declaring.run builtins tree).result = .ok final ∧
      (∀ links, final.table.up? links final.current = some ScopeId.global ↔
        links = tree.forest.overtaken) ∧
      (∀ (route : Route) (site : Site), tree.Leads tree.root route site.id →
        tree.node site.id = .ok site.node → ∃ before last,
          Declaring.VisitAt builtins tree route site before last) ∧
      (tree.forest.overtaken = 0 → final.current = ScopeId.global ∧
        ∀ (route : Route) (site : Site) (before last : Declaring),
          Declaring.VisitAt builtins tree route site before last →
          (before.awaiting = none → ∃ after,
            last.step (.leave site) = .ok after ∧
              after.current = before.current) ∧
          (route.ancestors = [] →
            (∀ name spec, site.node.kind = .declaration (.variable name spec) →
              before.DeclaresGlobal site name .integer
                .variableRedeclared) ∧
            ∀ name spec length,
              site.node.kind = .declaration (.arrayVariable name spec length) →
              before.DeclaresGlobal site name .integerArray
                .arrayRedeclared)) := by
  have complete := acyclic.unfolds.complete (fun _ => .start) inRange
  obtain ⟨_, _, current, idle⟩ := Declaring.origin_fields builtins
  have sound := (Declaring.grows_origin builtins).sound
  have balances := Declaring.balances_walked sound tree.forest
  have deep := balances.of_idle idle
  rw [current] at deep
  refine ⟨_, Declaring.run_result builtins complete,
    SymbolTable.up?_eq_global_iff balances.sound.coherent deep.up,
    fun _ _ => Declaring.exists_visitAt builtins acyclic complete, ?_⟩
  intro balanced
  rw [balanced] at deep
  refine ⟨Option.some.inj deep.up, ?_⟩
  intro route site before last visit
  obtain ⟨first, second, third, rest, reaches, same⟩ :=
    visit.exists_reaches complete
  have level := reaches.invariant Declaring.Level Declaring.Level.onward
    (Declaring.level_origin builtins balanced)
  constructor
  · intro idle
    obtain ⟨_, _, three, _⟩ :=
      Declaring.grows_parts level.sound site first second third rest
    refine ⟨_, Declaring.step_leave (same ▸ three.sound) site, ?_⟩
    rw [same]
    exact (level.returns idle).2
  · intro top
    obtain ⟨_, outermost⟩ := level.outermost top
    constructor
    · intro name spec kind
      apply Declaring.declaresGlobal level.sound outermost
      simp only [Declaring.entered, kind]
    · intro name spec length kind
      apply Declaring.declaresGlobal level.sound outermost
      simp only [Declaring.entered, kind]

/-- Two functions that share another function and a block, and a variable that
is declared after them. -/
def overtakenTwice : Tree where
  nodes := #[
    { kind := .declaration (.function "f" (some .void)), line := 1,
      first := some ⟨2⟩, second := some ⟨3⟩, sibling := some ⟨1⟩ },
    { kind := .declaration (.function "h" (some .void)), line := 2,
      first := some ⟨2⟩, second := some ⟨3⟩, sibling := some ⟨4⟩ },
    { kind := .declaration (.function "g" (some .void)), line := 3 },
    { kind := .statement .compound, line := 4 },
    { kind := .declaration (.variable "x" (some .int)), line := 5 }]
  root := some ⟨0⟩

def sharedBody : Tree where
  nodes := #[
    { kind := .declaration (.function "f" (some .void)), line := 1,
      second := some ⟨2⟩, sibling := some ⟨1⟩ },
    { kind := .declaration (.function "h" (some .void)), line := 2,
      second := some ⟨2⟩, sibling := some ⟨3⟩ },
    { kind := .statement .compound, line := 3 },
    { kind := .declaration (.variable "x" (some .int)), line := 4 }]
  root := some ⟨0⟩

def lateVariable : Site :=
  ⟨⟨3⟩, { kind := .declaration (.variable "x" (some .int)), line := 4 }⟩

theorem overtakenTwice_acyclic : overtakenTwice.Acyclic := by
  apply Tree.acyclic_of_forward
  intro id next node link found follows
  rcases id with ⟨_ | _ | _ | _ | _ | _⟩ <;> cases found <;> cases link <;>
    cases follows <;> decide

theorem overtakenTwice_inRange : overtakenTwice.InRange :=
  Tree.inRange_of_unfolds overtakenTwice_acyclic.unfolds (by repeat constructor)

theorem sharedBody_acyclic : sharedBody.Acyclic := by
  apply Tree.acyclic_of_forward
  intro id next node link found follows
  rcases id with ⟨_ | _ | _ | _ | _⟩ <;> cases found <;> cases link <;>
    cases follows <;> decide

theorem sharedBody_inRange : sharedBody.InRange :=
  Tree.inRange_of_unfolds sharedBody_acyclic.unfolds (by repeat constructor)

theorem left_open_at_shared_functions :
    overtakenTwice.Acyclic ∧ overtakenTwice.InRange ∧
      (∃ final, (Declaring.run true overtakenTwice).result = .ok final ∧
        ∀ links, final.table.up? links final.current = some ScopeId.global ↔
          links = 2) ∧
      sharedBody.Acyclic ∧ sharedBody.InRange ∧
      ∃ final route before last,
        (Declaring.run true sharedBody).result = .ok final ∧
        final.current = ScopeId.global ∧
        Declaring.VisitAt true sharedBody route lateVariable before last ∧
        before.DeclaresGlobal lateVariable "x" .integer
          .variableRedeclared := by
  refine ⟨overtakenTwice_acyclic, overtakenTwice_inRange, ?_,
    sharedBody_acyclic, sharedBody_inRange, ?_⟩
  · obtain ⟨final, ran, open', _⟩ := scopes_left_open true
      overtakenTwice_acyclic overtakenTwice_inRange
    exact ⟨final, ran, open'⟩
  · obtain ⟨final, ran, _, visited, balanced⟩ := scopes_left_open true
      sharedBody_acyclic sharedBody_inRange
    obtain ⟨current, visits⟩ := balanced (by decide)
    have toSecond := @Tree.Leads.step sharedBody sharedBody.root _ ⟨0⟩ ⟨1⟩ _
      .sibling (.start rfl) rfl rfl
    have leads := @Tree.Leads.step sharedBody sharedBody.root _ ⟨1⟩ ⟨3⟩ _
      .sibling toSecond rfl rfl
    obtain ⟨before, last, visit⟩ := visited _ lateVariable leads rfl
    obtain ⟨_, declares⟩ := visits _ lateVariable before last visit
    exact ⟨final, _, before, last, ran, current, visit,
      (declares rfl).1 "x" (some .int) rfl⟩

end CMinusAnalysis
