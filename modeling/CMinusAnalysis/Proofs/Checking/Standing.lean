import CMinusAnalysis.Proofs.Checking.Step
import CMinusAnalysis.Proofs.Facts.Records
import CMinusAnalysis.Proofs.Facts.Scopes

namespace CMinusAnalysis

/-! Where the checking pass stands when it leaves a node. It adds nothing to
the facts but types, and goes from block to block by the scopes recorded for
them. Where these are nested as the blocks are, it is always in the scope of
the nearest block above. -/

namespace Checking

variable {tree : Tree} {table : SymbolTable} {state : Checking} {site : Site}

/-- All but the types is as in the facts. -/
structure Follows (facts : Facts) (state : Checking) : Prop where
  blocks : state.facts.blocks = facts.blocks
  functions : state.facts.functions = facts.functions
  unresolved : state.facts.unresolved = facts.unresolved

theorem facts_entered (table : SymbolTable) (state : Checking) (site : Site) :
    (state.entered table site).facts = state.facts := by
  unfold entered
  split
  · rfl
  · split <;> rfl
  · rfl

theorem facts_outside (table : SymbolTable) (state : Checking) (site : Site) :
    (state.outside table site).facts = state.facts := by
  unfold outside
  split
  · split <;> rfl
  · rfl
  · rfl

theorem facts_left (tree : Tree) (table : SymbolTable) (state : Checking)
    (site : Site) :
    (state.left tree table site).facts =
      match state.gained tree table site with
      | some type => state.facts.setType site.id type
      | none => state.facts := by
  simp only [left]
  cases state.gained tree table site <;> simp [typed, reported, facts_outside]

theorem follows_entered (table : SymbolTable) {facts : Facts}
    (follows : Follows facts state) (site : Site) :
    Follows facts (state.entered table site) := by
  obtain ⟨blocks, functions, unresolved⟩ := follows
  refine ⟨?_, ?_, ?_⟩ <;> rw [facts_entered] <;> assumption

theorem follows_left (tree : Tree) (table : SymbolTable) {facts : Facts}
    (follows : Follows facts state) (site : Site) :
    Follows facts (state.left tree table site) := by
  obtain ⟨blocks, functions, unresolved⟩ := follows
  refine ⟨?_, ?_, ?_⟩ <;> rw [facts_left] <;> split <;> assumption

theorem recording (tree : Tree) (table : SymbolTable) :
    Recording Checking.facts (entered table) (left tree table) where
  entering state site _ _ := by
    rw [facts_entered]
    exact .refl _ _
  leaving state site key other := by
    rw [facts_left]
    split
    · exact ⟨by simp [Facts.setType, NodeTable.get?_insert, other], rfl, rfl,
        rfl⟩
    · exact .refl _ _

def walked (tree : Tree) (table : SymbolTable) (state : Checking)
    (forest : Forest) : Checking :=
  forest.fold (entered table) (left tree table) state

theorem walked_cons (state : Checking) (site : Site)
    (first second third rest : Forest) :
    state.walked tree table (.cons site first second third rest) =
      (((((state.entered table site).walked tree table first).walked tree
        table second).walked tree table third).left tree table site).walked
          tree table rest := rfl

theorem follows_walked {facts : Facts} (follows : Follows facts state)
    (forest : Forest) : Follows facts (state.walked tree table forest) := by
  induction forest generalizing state with
  | nil => exact follows
  | missing fault => exact follows
  | cons site first second third rest inFirst inSecond inThird inRest =>
      rw [walked_cons]
      have children := inThird (inSecond (inFirst
        (follows_entered table follows site)))
      exact inRest (follows_left tree table children site)

theorem types_walked {key : NodeId} {forest : Forest}
    (typeless : ∀ site ∈ forest.sites, site.id = key →
      ∀ state : Checking, state.gained tree table site = none) :
    (state.walked tree table forest).facts.types.get? key =
      state.facts.types.get? key := by
  induction forest generalizing state with
  | nil => rfl
  | missing fault => rfl
  | cons site first second third rest inFirst inSecond inThird inRest =>
      simp only [Forest.sites, List.forall_mem_cons, List.forall_mem_append]
        at typeless
      obtain ⟨here, ofFirst, ofSecond, ofThird, ofRest⟩ := typeless
      rw [walked_cons, inRest ofRest, facts_left]
      split
      · next type gained =>
          have other : key ≠ site.id := by
            rintro rfl
            rw [here rfl] at gained
            cases gained
          simp only [Facts.setType, NodeTable.get?_insert, other, if_false]
          rw [inThird ofThird, inSecond ofSecond, inFirst ofFirst,
            facts_entered]
      · rw [inThird ofThird, inSecond ofSecond, inFirst ofFirst,
          facts_entered]

theorem linked_of_unfolds (acyclic : tree.Acyclic) {start : Option NodeId}
    {forest : Forest} {route : Route} (unfolds : tree.Unfolds start forest)
    (complete : forest.Complete)
    (reached : ∀ id, start = some id → tree.Leads tree.root route id) :
    ∀ site ∈ forest.sites, tree.Linked site := by
  have inside {start : Option NodeId} {forest : Forest}
      (unfolds : tree.Unfolds start forest) (complete : forest.Complete) :
      ∀ id ∈ start, id.index < tree.size := by
    intro id member
    cases unfolds with
    | none => cases member
    | missing lost => exact complete.elim
    | node found =>
        cases member
        exact Tree.node_lt found
  induction unfolds generalizing route with
  | none => simp [Forest.sites]
  | missing lost => exact complete.elim
  | @node id node _ _ _ _ found overFirst overSecond _ _ inFirst inSecond
      inThird inRest =>
      obtain ⟨ofFirst, ofSecond, ofThird, ofRest⟩ := complete
      have onward (link : Link) : ∀ next, node.follow link = some next →
          tree.Leads tree.root ((⟨id, node⟩, link) :: route) next :=
        fun next follows => .step (reached id rfl) found follows
      simp only [Forest.sites, List.mem_cons, List.mem_append]
      rintro site (rfl | member | member | member | member)
      · refine ⟨inside overFirst ofFirst, inside overSecond ofSecond, _,
          overFirst.siblings_of_acyclic acyclic ofFirst (onward .first), ?_⟩
        intro id member
        exact overFirst.index_lt id
          (Forest.chain_sublist_ids _ |>.subset member)
      · exact inFirst ofFirst (onward .first) site member
      · exact inSecond ofSecond (onward .second) site member
      · exact inThird ofThird (onward .third) site member
      · exact inRest ofRest (onward .sibling) site member

theorem steps {sites : List Site} (linked : ∀ site ∈ sites, tree.Linked site) :
    Forest.Steps (step tree table) (entered table) (left tree table)
      (Supported table) sites where
  entering _ supported := ⟨step_enter supported _, supported.entered _⟩
  leaving member supported :=
    ⟨step_leave supported (linked _ member), supported.left _⟩

theorem run_result {facts : Facts} {diagnostics : Diagnostics}
    (complete : tree.forest.Complete)
    (linked : ∀ site ∈ tree.forest.sites, tree.Linked site)
    (supported : Supported table { facts, diagnostics }) :
    (run tree table facts diagnostics).result =
      .ok (walked tree table { facts, diagnostics } tree.forest) := by
  simp only [run, SymbolTable.global?_eq_some supported.current, Run.result_bind,
    Run.result_record, ok_bind]
  rw [Tree.walk_eq_foldlM, result_foldlM]
  exact ((steps linked).traverse complete supported).1

/-- The pass stands before a part of the tree, in the scope of the nearest
block above. -/
structure Placed (facts : Facts) (table : SymbolTable) (state : Checking)
    (route : Route) (forest : Forest) : Prop where
  grounded : Grounded facts table route forest
  follows : Follows facts state
  around : facts.scopeAround route.ancestors = some state.current

theorem current_left (tree : Tree) (table : SymbolTable) (state : Checking)
    (site : Site) :
    (state.left tree table site).current =
      (state.outside table site).current := by
  simp only [left]
  cases state.gained tree table site <;> rfl

theorem functions_left_outside (tree : Tree) (table : SymbolTable)
    (state : Checking) (site : Site) :
    (state.left tree table site).function =
        (state.outside table site).function ∧
      (state.left tree table site).outer =
        (state.outside table site).outer := by
  simp only [left]
  cases state.gained tree table site <;> exact ⟨rfl, rfl⟩

theorem kind_of_isBlock (block : site.node.kind.isBlock = true) :
    site.node.kind = .statement .compound := by
  unfold NodeKind.isBlock at block
  split at block
  · next kind => exact kind
  · cases block

theorem current_entered_other (block : site.node.kind.isBlock = false) :
    (state.entered table site).current = state.current := by
  unfold entered
  split
  · rfl
  · next kind =>
      rw [kind] at block
      cases block
  · rfl

theorem current_outside_other (block : site.node.kind.isBlock = false) :
    (state.outside table site).current = state.current := by
  unfold outside
  split
  · next kind =>
      rw [kind] at block
      cases block
  · rfl
  · rfl

namespace Placed

variable {facts : Facts} {route : Route} {first second third rest : Forest}

theorem below (placed : Placed facts table state route
      (.cons site first second third rest)) {link : Link}
    (down : link ≠ .sibling) :
    facts.scopeAround (Route.ancestors ((site, link) :: route)) =
      some (state.entered table site).current := by
  cases block : site.node.kind.isBlock with
  | true =>
      obtain ⟨inner, _, recorded, _⟩ :=
        placed.grounded.blocks List.mem_cons_self block
      rw [Facts.scopeAround_block block down, recorded]
      rw [← placed.follows.blocks] at recorded
      simp [entered, kind_of_isBlock block, recorded]
  | false =>
      rw [Facts.scopeAround_other block, placed.around,
        current_entered_other block]

theorem back (tree : Tree) (placed : Placed facts table state route
      (.cons site first second third rest)) {last : Checking}
    (follows : Follows facts last)
    (still : last.current = (state.entered table site).current) :
    (last.left tree table site).current = state.current := by
  rw [current_left]
  cases block : site.node.kind.isBlock with
  | true =>
      obtain ⟨inner, outer, recorded, parent, around⟩ :=
        placed.grounded.blocks List.mem_cons_self block
      rw [← follows.blocks] at recorded
      have same : some outer = some state.current :=
        around.symm.trans placed.around
      simp [outside, kind_of_isBlock block, recorded, parent,
        Option.some.inj same]
  | false =>
      rw [current_outside_other block, still, current_entered_other block]

end Placed

/-- A walk through the forest comes back to the scope it started in. -/
def Steady (tree : Tree) (table : SymbolTable) (facts : Facts)
    (forest : Forest) : Prop :=
  ∀ {state : Checking} {route : Route},
    Placed facts table state route forest →
    (state.walked tree table forest).current = state.current ∧
      Follows facts (state.walked tree table forest)

theorem Placed.onward {facts : Facts} {route : Route}
    {first second third rest : Forest}
    (inFirst : Steady tree table facts first)
    (inSecond : Steady tree table facts second)
    (inThird : Steady tree table facts third)
    (placed : Placed facts table state route
      (.cons site first second third rest)) :
    let inside := state.entered table site
    let afterFirst := inside.walked tree table first
    let afterSecond := afterFirst.walked tree table second
    let afterThird := afterSecond.walked tree table third
    Placed facts table inside ((site, .first) :: route) first ∧
      Placed facts table afterFirst ((site, .second) :: route) second ∧
      Placed facts table afterSecond ((site, .third) :: route) third ∧
      Follows facts afterThird ∧ afterThird.current = inside.current ∧
      Placed facts table (afterThird.left tree table site)
        ((site, .sibling) :: route) rest := by
  obtain ⟨ofFirst, ofSecond, ofThird, ofRest⟩ := placed.grounded.parts
  have toFirst : Placed facts table (state.entered table site)
      ((site, .first) :: route) first :=
    ⟨ofFirst, follows_entered table placed.follows site,
      placed.below (by decide)⟩
  obtain ⟨one, follows⟩ := inFirst toFirst
  have toSecond : Placed facts table _ ((site, .second) :: route) second :=
    ⟨ofSecond, follows, by rw [one, placed.below (by decide)]⟩
  obtain ⟨two, follows⟩ := inSecond toSecond
  have toThird : Placed facts table _ ((site, .third) :: route) third :=
    ⟨ofThird, follows, by rw [two, one, placed.below (by decide)]⟩
  obtain ⟨three, follows⟩ := inThird toThird
  have still := three.trans (two.trans one)
  refine ⟨toFirst, toSecond, toThird, follows, still, ofRest,
    follows_left tree table follows site, ?_⟩
  rw [Route.ancestors_sibling, placed.around, placed.back tree follows still]

theorem steady (tree : Tree) (table : SymbolTable) (facts : Facts)
    (forest : Forest) : Steady tree table facts forest := by
  induction forest with
  | nil => exact fun placed => ⟨rfl, placed.follows⟩
  | missing fault => exact fun placed => ⟨rfl, placed.follows⟩
  | cons site first second third rest inFirst inSecond inThird inRest =>
      intro state route placed
      obtain ⟨_, _, _, follows, still, toRest⟩ :=
        placed.onward inFirst inSecond inThird
      obtain ⟨last, follows'⟩ := inRest toRest
      exact ⟨last.trans (placed.back tree follows still), follows'⟩

/-- None of the kinds says that the passes contradict each other. -/
def Ordinary (kinds : List DiagnosticKind) : Prop :=
  ∀ kind ∈ kinds, kind.category ≠ .internal

theorem ordinary_nil : Ordinary [] := by
  simp [Ordinary]

theorem Ordinary.append {left right : List DiagnosticKind}
    (inLeft : Ordinary left) (inRight : Ordinary right) :
    Ordinary (left ++ right) := by
  intro kind member
  rcases List.mem_append.mp member with member | member
  · exact inLeft kind member
  · exact inRight kind member

theorem ordinary_binaryObjection? (op : BinaryOp) (left right : Option Ty) :
    Ordinary (binaryObjection? op left right).toList := by
  unfold binaryObjection?
  split
  · simp [Ordinary, DiagnosticKind.category]
  · simp [Ordinary, DiagnosticKind.category]
  · split <;> simp [Ordinary, DiagnosticKind.category]
  · exact ordinary_nil

theorem ordinary_assignmentObjection? (target value : Option Ty) :
    Ordinary (assignmentObjection? target value).toList := by
  unfold assignmentObjection?
  split
  · simp [Ordinary, DiagnosticKind.category]
  · simp [Ordinary, DiagnosticKind.category]
  · split <;> simp [Ordinary, DiagnosticKind.category]
  · exact ordinary_nil

theorem ordinary_argumentObjections (position : Nat)
    (operands : List (Option Ty)) (parameters : List Ty) :
    Ordinary (argumentObjections position operands parameters) := by
  induction operands generalizing position parameters with
  | nil => exact ordinary_nil
  | cons found operands induction =>
      cases parameters with
      | nil => exact ordinary_nil
      | cons expected parameters =>
          apply Ordinary.append _ (induction _ parameters)
          cases found with
          | none => exact ordinary_nil
          | some found =>
              simp only [argumentObjection?]
              split <;> simp [Ordinary, DiagnosticKind.category]

theorem ordinary_callObjections (name : String) :
    Ordinary (state.callObjections tree table site name) := by
  unfold callObjections
  split
  · exact ordinary_nil
  · split
    · simp [Ordinary, DiagnosticKind.category]
    · split
      · apply (ordinary_argumentObjections _ _ _).append
        unfold countObjection?
        split <;> simp [Ordinary, DiagnosticKind.category]
      · simp [Ordinary, DiagnosticKind.category]

theorem ordinary_conditionObjections (statement : String) :
    Ordinary (state.conditionObjections tree table site statement) := by
  unfold conditionObjections
  split
  · simp [Ordinary, DiagnosticKind.category]
  · split <;> simp [Ordinary, DiagnosticKind.category]

theorem ordinary_returnObjections (function : Symbol) :
    Ordinary (state.returnObjections tree table site function) := by
  unfold returnObjections returnObjection?
  split
  · simp [Ordinary, DiagnosticKind.category]
  · exact ordinary_nil
  · simp [Ordinary, DiagnosticKind.category]
  · split
    · split <;> simp [Ordinary, DiagnosticKind.category]
    · exact ordinary_nil

theorem ordinary_variableObjection? (spec : Option TypeSpec) :
    Ordinary (variableObjection? spec).toList := by
  unfold variableObjection?
  split <;> simp [Ordinary, DiagnosticKind.category]

theorem Ordinary.complaints {kinds : List DiagnosticKind}
    (ordinary : Ordinary kinds) {line : Nat} {name : Option String} :
    ∀ diagnostic ∈ complaints line name kinds,
      diagnostic.isInternal = false := by
  intro diagnostic member
  obtain ⟨kind, listed, rfl⟩ := List.mem_map.mp member
  simpa [Diagnostic.isInternal, Diagnostic.category] using ordinary kind listed

theorem ordinary_objections
    (found : ∀ name, site.node.kind.use? = some name →
      state.facts.unresolved.contains site.id = true ∨
        (table.resolve state.current name).isSome = true) :
    ∀ diagnostic ∈ state.objections tree table site,
      diagnostic.isInternal = false := by
  have named {name : String} (use : site.node.kind.use? = some name) :
      Ordinary (state.nameObjections table site.id name) := by
    unfold nameObjections
    rcases found name use with unresolved | resolved
    · simp [unresolved, Ordinary]
    · split
      · exact ordinary_nil
      · simp [Option.isSome_iff_ne_none.mp resolved, Ordinary]
  unfold objections
  split
  · next kind => exact (named (by rw [kind]; rfl)).complaints
  · next kind => exact (named (by rw [kind]; rfl)).complaints
  · exact (ordinary_binaryObjection? _ _ _).complaints
  · exact (ordinary_assignmentObjection? _ _).complaints
  · exact (ordinary_assignmentObjection? _ _).complaints
  · exact (ordinary_callObjections _).complaints
  · exact (ordinary_conditionObjections _).complaints
  · exact (ordinary_conditionObjections _).complaints
  · exact (ordinary_conditionObjections _).complaints
  · split
    · exact (ordinary_returnObjections _).complaints
    · simp
  · apply Ordinary.complaints
    split <;> simp [Ordinary, DiagnosticKind.category]
  · exact (ordinary_variableObjection? _).complaints
  · exact (ordinary_variableObjection? _).complaints
  · simp

theorem items_reported (diagnostics : List Diagnostic) :
    (state.reported diagnostics).diagnostics.items =
      state.diagnostics.items ++ diagnostics := by
  induction diagnostics generalizing state with
  | nil => simp
  | cons diagnostic diagnostics induction =>
      rw [← List.singleton_append, reported_append, induction]
      simp [reported]

theorem diagnostics_outside (state : Checking) (site : Site) :
    (state.outside table site).diagnostics = state.diagnostics := by
  unfold outside
  split
  · split <;> rfl
  · rfl
  · rfl

theorem items_left (tree : Tree) (table : SymbolTable) (state : Checking)
    (site : Site) :
    (state.left tree table site).diagnostics.items =
      state.diagnostics.items ++ state.objections tree table site := by
  have typed (state : Checking) (type : Option Ty) :
      (state.typed site.id type).diagnostics = state.diagnostics := by
    cases type <;> rfl
  rw [left, typed, items_reported, diagnostics_outside]

def Consistent (state : Checking) : Prop :=
  ∀ diagnostic ∈ state.diagnostics.items, diagnostic.isInternal = false

section

variable {facts : Facts} {route : Route} {first second third rest : Forest}

theorem Placed.entered_diagnostics (placed : Placed facts table state route
      (.cons site first second third rest)) :
    (state.entered table site).diagnostics = state.diagnostics := by
  unfold entered
  split
  · rfl
  · next kind =>
      have block : site.node.kind.isBlock = true := by
        rw [kind]
        rfl
      obtain ⟨inner, _, recorded, _⟩ :=
        placed.grounded.blocks List.mem_cons_self block
      rw [← placed.follows.blocks] at recorded
      simp [recorded]
  · rfl

theorem Placed.consistent_left (placed : Placed facts table state route
      (.cons site first second third rest)) {last : Checking}
    (follows : Follows facts last)
    (still : last.current = (state.entered table site).current)
    (consistent : last.Consistent) :
    (last.left tree table site).Consistent := by
  intro diagnostic member
  rw [items_left, List.mem_append] at member
  rcases member with earlier | now
  · exact consistent diagnostic earlier
  · refine ordinary_objections ?_ diagnostic now
    intro name use
    rw [follows.unresolved, still,
      current_entered_other (NodeKind.isBlock_of_use? use)]
    rcases placed.grounded.uses List.mem_cons_self use with unresolved |
      ⟨scope, around, resolved⟩
    · exact .inl unresolved
    · cases placed.around.symm.trans around
      exact .inr resolved

theorem Placed.consistent (tree : Tree) {forest : Forest}
    (placed : Placed facts table state route forest)
    (consistent : state.Consistent) :
    (state.walked tree table forest).Consistent := by
  induction forest generalizing state route with
  | nil => exact consistent
  | missing fault => exact consistent
  | cons site first second third rest inFirst inSecond inThird inRest =>
      obtain ⟨toFirst, toSecond, toThird, follows, still, toRest⟩ :=
        placed.onward (steady tree table facts first)
          (steady tree table facts second) (steady tree table facts third)
      have entered : (state.entered table site).Consistent := by
        rw [Consistent, placed.entered_diagnostics]
        exact consistent
      have children := inThird toThird (inSecond toSecond
        (inFirst toFirst entered))
      exact inRest toRest (placed.consistent_left follows still children)

/-- What is known in a state in which the pass leaves a node, beside the facts
that it starts with and the types that it ends with. -/
structure Standing (tree : Tree) (table : SymbolTable) (facts : Facts)
    (types : NodeTable Ty) (state : Checking) (route : Route) (site : Site) :
    Prop where
  sound : state.Sound table
  follows : Follows facts state
  current : site.node.kind.isBlock = false →
    facts.scopeAround route.ancestors = some state.current
  typed : types.get? site.id = state.gained tree table site

theorem types_left (tree : Tree) (table : SymbolTable) (state : Checking)
    (site : Site) :
    (state.left tree table site).facts.types.get? site.id =
      (state.gained tree table site).or (state.facts.types.get? site.id) := by
  rw [facts_left]
  cases state.gained tree table site with
  | none => rfl
  | some type => simp [Facts.setType, NodeTable.get?_insert]

/-- The facts are what a walk through the forest ends with, as far as its nodes
go, and `initial` is what it starts with. -/
abbrev Noted (tree : Tree) (table : SymbolTable) (initial final : Facts)
    (state : Checking) (forest : Forest) : Prop :=
  Records Checking.facts (entered table) (left tree table) initial final state
    forest

theorem supported_walked (tree : Tree) (supported : state.Supported table)
    (forest : Forest) : (state.walked tree table forest).Supported table := by
  induction forest generalizing state with
  | nil => exact supported
  | missing fault => exact supported
  | cons site first second third rest inFirst inSecond inThird inRest =>
      exact inRest ((inThird (inSecond (inFirst
        (supported.entered site)))).left site)

theorem sound_walked (tree : Tree) (sound : state.Sound table) (forest : Forest) :
    (state.walked tree table forest).Sound table :=
  ⟨supported_walked tree sound.toSupported forest, sound.coherent⟩

/-- The pass is before a part of the tree, in the scope of the nearest block
above, and what it ends with says the same about the part as `final`. -/
structure Ready (tree : Tree) (table : SymbolTable) (facts final : Facts)
    (state : Checking) (route : Route) (forest : Forest) : Prop where
  sound : state.Sound table
  placed : Placed facts table state route forest
  noted : Noted tree table facts final state forest

namespace Ready

variable {final : Facts}

theorem onward (ready : Ready tree table facts final state route
      (.cons site first second third rest)) :
    let inside := state.entered table site
    let afterFirst := inside.walked tree table first
    let afterSecond := afterFirst.walked tree table second
    let afterThird := afterSecond.walked tree table third
    Ready tree table facts final inside ((site, .first) :: route) first ∧
      Ready tree table facts final afterFirst ((site, .second) :: route)
        second ∧
      Ready tree table facts final afterSecond ((site, .third) :: route)
        third ∧
      Ready tree table facts final (afterThird.left tree table site)
        ((site, .sibling) :: route) rest := by
  obtain ⟨toFirst, toSecond, toThird, _, _, toRest⟩ :=
    ready.placed.onward (steady tree table facts first)
      (steady tree table facts second) (steady tree table facts third)
  obtain ⟨ofFirst, ofSecond, ofThird, ofRest⟩ :=
    ready.noted.parts (recording tree table)
  have one := sound_walked tree (ready.sound.entered site) first
  have two := sound_walked tree one second
  have three := sound_walked tree two third
  exact ⟨⟨ready.sound.entered site, toFirst, ofFirst⟩, ⟨one, toSecond, ofSecond⟩,
    ⟨two, toThird, ofThird⟩, three.left site, toRest, ofRest⟩

theorem standing (untyped : facts.types = {})
    (ready : Ready tree table facts final state route
      (.cons site first second third rest)) :
    Standing tree table facts final.types
      ((((state.entered table site).walked tree table first).walked tree table
        second).walked tree table third) route site := by
  obtain ⟨sound, placed, noted⟩ := ready
  obtain ⟨_, _, _, follows, still, _⟩ :=
    placed.onward (steady tree table facts first)
      (steady tree table facts second) (steady tree table facts third)
  obtain ⟨start, children, finish⟩ := noted.own (recording tree table)
  refine ⟨sound_walked tree (sound_walked tree
    (sound_walked tree (sound.entered site) _) _) _,
    follows, ?_, ?_⟩
  · intro other
    rw [still, current_entered_other other, placed.around]
  · have blank := children.types
    rw [facts_entered, start.types, untyped, NodeTable.get?_empty] at blank
    have typed := finish.types
    rw [types_left] at typed
    refine typed.trans ?_
    exact (congrArg _ blank).trans Option.or_none

theorem of_reaches {forest part : Forest} {found : Checking} {along : Route}
    (ready : Ready tree table facts final state route forest)
    (reaches : Forest.Reaches (entered table) (left tree table) state route
      forest found along part) :
    Ready tree table facts final found along part :=
  reaches.invariant (Ready tree table facts final) onward ready

end Ready

end

end Checking

end CMinusAnalysis
