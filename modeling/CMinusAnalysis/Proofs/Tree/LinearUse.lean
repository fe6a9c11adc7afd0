import Mathlib.Order.WellFounded
import CMinusAnalysis.Proofs.Tree.Drafting
import CMinusAnalysis.Proofs.Tree.WalkOrder

namespace CMinusAnalysis

/-! Linear use of a draft. A node is passed on once at most, as a child or as a
member of one list, and the head of a list may become a child after that. What
is drafted in this way is a tree, and every list stands in it as one chain of
siblings. -/

/-- What may be passed on while a tree is drafted. -/
structure Supply where
  count : Nat := 0
  /-- Nodes that were never passed on. -/
  fresh : List NodeId := []
  /-- Heads of lists that did not become children yet. -/
  heads : List NodeId := []
  deriving DecidableEq, Repr

namespace Supply

/-- Passes nodes on as one list, which hands back its head. -/
def list? (supply : Supply) (members : List NodeId) : Option Supply :=
  if members.Nodup ∧ ∀ id ∈ members, id ∈ supply.fresh then
    some { supply with
      fresh := supply.fresh.filter (· ∉ members)
      heads := members.head?.toList ++ supply.heads }
  else none

/-- Passes nodes on as the children of a new node, which is handed back. -/
def add? (supply : Supply) (children : List NodeId) : Option Supply :=
  if children.Nodup ∧ ∀ id ∈ children, id ∈ supply.fresh ++ supply.heads then
    some {
      count := supply.count + 1
      fresh := ⟨supply.count⟩ :: supply.fresh.filter (· ∉ children)
      heads := supply.heads.filter (· ∉ children) }
  else none

/-- A construct passes its lists on and then its children, among them the heads
of its own lists. -/
def use? (supply : Supply) (construct : Construct) : Option Supply := do
  let listed ← construct.chains.foldlM list? supply
  match construct.node? with
  | some node => listed.add? node.children
  | none => some listed

def useAll? (constructs : List Construct) (declarations : List NodeId) :
    Option Supply := do
  let used ← constructs.foldlM use? {}
  used.list? declarations

theorem list?_eq_some_iff {supply next : Supply} {members : List NodeId} :
    supply.list? members = some next ↔
      (members.Nodup ∧ ∀ id ∈ members, id ∈ supply.fresh) ∧
        { supply with
          fresh := supply.fresh.filter (· ∉ members)
          heads := members.head?.toList ++ supply.heads } = next := by
  rw [list?, Option.ite_none_right_eq_some, Option.some.injEq]

theorem add?_eq_some_iff {supply next : Supply} {children : List NodeId} :
    supply.add? children = some next ↔
      (children.Nodup ∧ ∀ id ∈ children, id ∈ supply.fresh ++ supply.heads) ∧
        { count := supply.count + 1
          fresh := ⟨supply.count⟩ :: supply.fresh.filter (· ∉ children)
          heads := supply.heads.filter (· ∉ children) } = next := by
  rw [add?, Option.ite_none_right_eq_some, Option.some.injEq]

end Supply

/-- Every construct uses only what was handed back before, and so do the
declarations. -/
def UsedLinearly (constructs : List Construct) (declarations : List NodeId) :
    Prop :=
  (Supply.useAll? constructs declarations).isSome

instance (constructs : List Construct) (declarations : List NodeId) :
    Decidable (UsedLinearly constructs declarations) :=
  inferInstanceAs (Decidable (_ = true))

theorem Construct.sibling_eq_none {construct : Construct} {node : Node}
    (adds : construct.node? = some node) : node.sibling = none := by
  cases construct <;> cases adds <;> rfl

/-- The members stand in the draft as one whole chain of siblings. -/
structure Draft.Chained (draft : Draft) (members : List NodeId) : Prop where
  nodup : members.Nodup
  inside : ∀ id ∈ members, id.index < draft.size
  sibling : ∀ id ∈ members, draft.link? id .sibling = successor? id members

/-- The draft agrees with what may be passed on, and every list that was passed
on is chained. -/
structure Tended (draft : Draft) (supply : Supply)
    (lists : List (List NodeId)) : Prop where
  count : supply.count = draft.size
  wooded : draft.Wooded
  fresh : ∀ id ∈ supply.fresh, draft.Free id ∧
    draft.link? id .sibling = none ∧ ∀ members ∈ lists, id ∉ members
  heads : ∀ id ∈ supply.heads, draft.Free id ∧ id ∉ supply.fresh
  chained : ∀ members ∈ lists, draft.Chained members

namespace Tended

variable {draft : Draft} {supply next : Supply} {lists : List (List NodeId)}

theorem empty : Tended #[] {} [] where
  count := rfl
  wooded := Draft.wooded_empty
  fresh := by simp
  heads := by simp
  chained := by simp

theorem list (tended : Tended draft supply lists) {members : List NodeId}
    (listed : supply.list? members = some next) :
    ∃ linked, draft.chain members = .ok linked ∧
      Tended linked next (lists ++ [members]) := by
  obtain ⟨⟨distinct, unused⟩, rfl⟩ := Supply.list?_eq_some_iff.mp listed
  have free (id : NodeId) (member : id ∈ members) : draft.Free id :=
    (tended.fresh id (unused id member)).1
  have loose (id : NodeId) (member : id ∈ members) :
      draft.link? id .sibling = none :=
    (tended.fresh id (unused id member)).2.1
  obtain ⟨linked, chained, chains⟩ :=
    Draft.chain_eq distinct fun id member => (free id member).1
  refine ⟨linked, chained, tended.count.trans chains.size.symm,
    chains.wooded tended.wooded distinct free loose, ?_, ?_, ?_⟩
  · intro id member
    rw [List.mem_filter, decide_eq_true_eq] at member
    obtain ⟨unlinked, alone, unlisted⟩ := tended.fresh id member.1
    refine ⟨chains.free unlinked fun key follows => member.2
      (List.mem_of_mem_tail (mem_of_successor? follows).2), ?_, ?_⟩
    · rw [chains.link?_of_not_mem member.2, alone]
    · simpa [or_imp, forall_and] using ⟨unlisted, member.2⟩
  · intro id member
    rw [List.mem_append, Option.mem_toList] at member
    rw [List.mem_filter, decide_eq_true_eq]
    rcases member with first | old
    · have inside := List.mem_of_head? first
      exact ⟨chains.free (free id inside) fun key follows =>
        head_ne_of_successor? distinct follows first, fun kept =>
          kept.2 inside⟩
    · obtain ⟨unlinked, used⟩ := tended.heads id old
      exact ⟨chains.free unlinked fun key follows => used
        (unused id (List.mem_of_mem_tail (mem_of_successor? follows).2)),
        fun kept => used kept.1⟩
  · intro others member
    rcases List.mem_append.mp member with old | new
    · have before := tended.chained others old
      refine ⟨before.nodup, fun id inside => ?_, fun id inside => ?_⟩
      · rw [chains.size]
        exact before.inside id inside
      · rw [chains.link?_of_not_mem, before.sibling id inside]
        exact fun again => (tended.fresh id (unused id again)).2.2 _ old inside
    · cases List.mem_singleton.mp new
      refine ⟨distinct, fun id inside => ?_, fun id inside =>
        chains.link?_sibling (loose id inside)⟩
      rw [chains.size]
      exact (free id inside).1

theorem add (tended : Tended draft supply lists) {node : Node}
    (alone : node.sibling = none)
    (added : supply.add? node.children = some next) :
    Tended (draft.push node) next lists := by
  obtain ⟨⟨distinct, usable⟩, rfl⟩ := Supply.add?_eq_some_iff.mp added
  have free (id : NodeId) (member : id ∈ node.children) : draft.Free id := by
    rcases List.mem_append.mp (usable id member) with fresh | head
    · exact (tended.fresh id fresh).1
    · exact (tended.heads id head).1
  have same : (⟨supply.count⟩ : NodeId) = ⟨draft.size⟩ :=
    congrArg NodeId.mk tended.count
  refine ⟨by simp [tended.count],
    tended.wooded.push alone distinct free, ?_, ?_, ?_⟩
  · intro id member
    rcases List.mem_cons.mp member with rfl | member
    · rw [same]
      refine ⟨tended.wooded.free_push alone free, ?_, ?_⟩
      · rw [Draft.link?_push, if_pos rfl]
        exact alone
      · intro members listed inside
        exact Nat.lt_irrefl _ ((tended.chained members listed).inside _ inside)
    · rw [List.mem_filter, decide_eq_true_eq] at member
      obtain ⟨unlinked, unchained, unlisted⟩ := tended.fresh id member.1
      exact ⟨unlinked.push alone member.2,
        (Draft.link?_push_of_lt _ unlinked.1).trans unchained, unlisted⟩
  · intro id member
    rw [List.mem_filter, decide_eq_true_eq] at member
    obtain ⟨unlinked, used⟩ := tended.heads id member.1
    refine ⟨unlinked.push alone member.2, ?_⟩
    rw [List.mem_cons, List.mem_filter, same]
    rintro (rfl | kept)
    · exact Nat.lt_irrefl _ unlinked.1
    · exact used kept.1
  · intro members listed
    have before := tended.chained members listed
    refine ⟨before.nodup, fun id inside => ?_, fun id inside => ?_⟩
    · rw [Array.size_push]
      exact Nat.lt_succ_of_lt (before.inside id inside)
    · rw [Draft.link?_push_of_lt _ (before.inside id inside),
        before.sibling id inside]

theorem foldlM {use : Supply → α → Option Supply}
    (draw : Draft → α → Except Fault Draft) (passes : α → List (List NodeId))
    (step : ∀ {draft supply next lists part}, Tended draft supply lists →
      use supply part = some next →
      ∃ drawn, draw draft part = .ok drawn ∧
        Tended drawn next (lists ++ passes part))
    {parts : List α} (tended : Tended draft supply lists)
    (used : parts.foldlM use supply = some next) :
    ∃ drawn, parts.foldlM draw draft = .ok drawn ∧
      Tended drawn next (lists ++ parts.flatMap passes) := by
  induction parts generalizing draft supply lists with
  | nil =>
      cases used
      exact ⟨draft, rfl, by simpa using tended⟩
  | cons part parts induction =>
      rw [List.foldlM_cons] at used
      obtain ⟨middle, first, rest⟩ := Option.bind_eq_some_iff.mp used
      obtain ⟨between, drawn, kept⟩ := step tended first
      obtain ⟨final, drawnRest, keptRest⟩ := induction kept rest
      refine ⟨final, by rw [List.foldlM_cons, drawn, ok_bind, drawnRest], ?_⟩
      rwa [List.flatMap_cons, ← List.append_assoc]

theorem use (tended : Tended draft supply lists) {construct : Construct}
    (used : supply.use? construct = some next) :
    ∃ drawn, draft.add construct = .ok drawn ∧
      Tended drawn next (lists ++ construct.chains) := by
  obtain ⟨listed, chained, rest⟩ := Option.bind_eq_some_iff.mp used
  obtain ⟨linked, drawn, kept⟩ := tended.foldlM Draft.chain
    (fun members => [members]) (fun tended => tended.list) chained
  rw [List.flatMap_singleton'] at kept
  cases adds : construct.node? with
  | some node =>
      rw [adds] at rest
      refine ⟨linked.push node, ?_, kept.add (construct.sibling_eq_none adds)
        rest⟩
      rw [Draft.add, Draft.chainAll, drawn, ok_bind, adds]
      rfl
  | none =>
      rw [adds] at rest
      cases rest
      refine ⟨linked, ?_, kept⟩
      rw [Draft.add, Draft.chainAll, drawn, ok_bind, adds]
      rfl

end Tended

namespace Tree

/-- The link that a node holds or, without a node, the link to the root. -/
def pointer? (tree : Tree) : Option (NodeId × Link) → Option NodeId
  | some (id, link) => tree.follow? (some id) link
  | none => tree.root

variable {tree : Tree}

theorem follow?_eq_link? (tree : Tree) (id : NodeId) (link : Link) :
    tree.follow? (some id) link = Draft.link? tree.nodes id link := rfl

theorem Leads.link? {start : Option NodeId} {site : Site} {link : Link}
    {route : Route} {next : NodeId}
    (leads : tree.Leads start ((site, link) :: route) next) :
    Draft.link? tree.nodes site.id link = some next := by
  cases leads with
  | step _ found follows => rw [← follow?_eq_link?, follow?_some found, follows]

theorem acyclicFrom_of_wellFounded
    (wellFounded : WellFounded (Draft.Below tree.nodes))
    (start : Option NodeId) : tree.AcyclicFrom start := by
  intro route id leads returns
  have below : ∀ step ∈ route,
      Relation.TransGen (Draft.Below tree.nodes) id step.1.id := by
    clear returns
    induction leads with
    | start here => simp
    | step leads found follows induction =>
        have last : Draft.Below tree.nodes _ _ :=
          ⟨_, (Leads.step leads found follows).link?⟩
        rw [List.forall_mem_cons]
        exact ⟨.single last, fun step member => .head last (induction step member)⟩
  obtain ⟨step, member, same⟩ := List.mem_map.mp returns
  have loop := below step member
  rw [same] at loop
  exact wellFounded.transGen.irrefl.irrefl id loop

theorem siblingsWithin_eq_of_chained {part : List NodeId}
    (distinct : part.Nodup)
    (inside : ∀ id ∈ part, id.index < tree.size)
    (linked : ∀ id ∈ part,
      Draft.link? tree.nodes id .sibling = successor? id part)
    {steps : Nat} (enough : part.length ≤ steps) :
    tree.siblingsWithin steps part.head? = .ok part := by
  induction part generalizing steps with
  | nil => cases steps <;> rfl
  | cons head rest induction =>
      obtain ⟨first, others⟩ := List.forall_mem_cons.mp inside
      have found : tree.node head = .ok tree.nodes[head.index] :=
        fetch_of_lt first
      have beside : tree.nodes[head.index].sibling = rest.head? := by
        have follows := linked head List.mem_cons_self
        rw [← follow?_eq_link?, follow?_some found] at follows
        refine follows.trans ?_
        cases rest with
        | nil => rfl
        | cons next rest => rw [successor?, if_pos rfl, List.head?_cons]
      cases steps with
      | zero => simp at enough
      | succ steps =>
          have onward := induction (List.nodup_cons.mp distinct).2 others
            (fun id member => (linked id (List.mem_cons_of_mem _ member)).trans
              (successor?_cons_of_mem distinct member))
            (Nat.le_of_succ_le_succ enough)
          rw [List.head?_cons, siblingsWithin, found, ok_bind, beside, onward]
          rfl

theorem siblings_eq_of_chained {members : List NodeId}
    (chained : Draft.Chained tree.nodes members) :
    tree.siblings members.head? = .ok members := by
  apply siblingsWithin_eq_of_chained chained.nodup chained.inside
    chained.sibling
  exact Nat.le_succ_of_le (length_le_size chained.nodup chained.inside)

end Tree

theorem ofConstructs_tended {constructs : List Construct}
    {declarations : List NodeId} (linear : UsedLinearly constructs declarations) :
    ∃ tree supply, Tree.ofConstructs constructs declarations = .ok tree ∧
      tree.root = declarations.head? ∧
      (∀ id, tree.root = some id → id ∈ supply.heads) ∧
      Tended tree.nodes supply
        (constructs.flatMap Construct.chains ++ [declarations]) := by
  obtain ⟨supply, used⟩ := Option.isSome_iff_exists.mp linear
  obtain ⟨middle, first, last⟩ := Option.bind_eq_some_iff.mp used
  obtain ⟨draft, drawn, tended⟩ := Tended.empty.foldlM Draft.add
    Construct.chains (fun tended => tended.use) first
  rw [List.nil_append] at tended
  obtain ⟨linked, chained, kept⟩ := tended.list last
  obtain ⟨_, rfl⟩ := Supply.list?_eq_some_iff.mp last
  refine ⟨⟨linked, declarations.head?⟩, _, ?_, rfl, ?_, kept⟩
  · rw [Tree.ofConstructs, drawn, ok_bind, Draft.finish, chained, ok_bind]
    rfl
  · intro id here
    exact List.mem_append_left _ (Option.mem_toList.mpr here)

/-- Linear use of constructs drafts a tree. Its links never come back, no two of
them lead to one node, the root among them, and none dangles; every list that was
passed on is the chain of siblings from its head; and a walk from the root enters
and leaves every node that it can reach once, and no other. -/
theorem linear_use_drafts_a_tree {constructs : List Construct}
    {declarations : List NodeId} (linear : UsedLinearly constructs declarations) :
    ∃ tree, Tree.ofConstructs constructs declarations = .ok tree ∧
      tree.root = declarations.head? ∧
      (∀ start, tree.AcyclicFrom start) ∧
      (∀ left right next, tree.pointer? left = some next →
        tree.pointer? right = some next → left = right) ∧
      (∀ holder next, tree.pointer? holder = some next →
        next.index < tree.size) ∧
      (∀ members ∈ constructs.flatMap Construct.chains ++ [declarations],
        tree.siblings members.head? = .ok members) ∧
      ∃ visits, tree.visits tree.root = .ok visits ∧
        ∀ (id : NodeId) (entering : Bool),
          ((∃ links, tree.target? tree.root links = some id) →
            visits.countP (Visit.isAt entering id) = 1) ∧
          ((∀ links, tree.target? tree.root links ≠ some id) →
            visits.countP (Visit.isAt entering id) = 0) := by
  obtain ⟨tree, supply, built, first, rooted, tended⟩ := ofConstructs_tended linear
  have wooded := tended.wooded
  have acyclic := Tree.acyclicFrom_of_wellFounded wooded.wellFounded
  have inside (holder next) (points : tree.pointer? holder = some next) :
      next.index < tree.size := by
    match holder with
    | none => exact (tended.heads next (rooted next points)).1.1
    | some (id, link) => exact wooded.inside points
  have inRange : tree.InRangeFrom tree.root := by
    intro route id leads
    cases leads with
    | start here => exact inside none id here
    | step leads found follows =>
        exact wooded.inside (Tree.Leads.step leads found follows).link?
  have unshared : tree.UnsharedFrom tree.root :=
    fun _ _ _ _ _ _ _ toLeft toRight =>
      wooded.single toLeft.link? toRight.link?
  have unfolds := (acyclic tree.root).unfolds (Nat.lt_succ_self tree.size)
  have complete := unfolds.complete (fun _ => .start) inRange
  refine ⟨tree, built, first, acyclic, ?_, inside, fun members listed =>
    Tree.siblings_eq_of_chained (tended.chained members listed), _,
    Tree.visits_eq_ok complete, ?_⟩
  · intro left right next toLeft toRight
    have unlinked (here : tree.root = some next) (id : NodeId) (link : Link) :
        Draft.link? tree.nodes id link ≠ some next :=
      (tended.heads next (rooted next here)).1.2 id link
    match left, right with
    | none, none => rfl
    | none, some (id, link) => exact absurd toRight (unlinked toLeft id link)
    | some (id, link), none => exact absurd toLeft (unlinked toRight id link)
    | some (id, link), some (other, turn) =>
        obtain ⟨rfl, rfl⟩ := wooded.single toLeft toRight
        rfl
  · intro id entering
    constructor
    · rintro ⟨links, ends⟩
      exact unfolds.countP_eq complete entering
        (unshared.listsPaths (acyclic tree.root) ends)
    · intro apart
      exact unfolds.countP_eq complete entering (.nil apart)

/-- A function whose parameters are listed before it, the later one first, with
a call in its body, and a variable in front of it. -/
def callerConstructs : List Construct := [
  .intParameter "q" 1, .intParameter "p" 1, .chain [⟨1⟩, ⟨0⟩],
  .identifier "p" 2, .constant 7 2, .call "f" [⟨3⟩, ⟨2⟩] 2,
  .compound [] [⟨4⟩] 1, .function "f" (some .int) (some ⟨1⟩) (some ⟨5⟩) 1,
  .intVariable "x" 3]

theorem caller_is_a_tree :
    UsedLinearly callerConstructs [⟨7⟩, ⟨6⟩] ∧
      ∃ tree, Tree.ofConstructs callerConstructs [⟨7⟩, ⟨6⟩] = .ok tree ∧
        tree.siblings (some ⟨1⟩) = .ok [⟨1⟩, ⟨0⟩] ∧
        tree.siblings (some ⟨3⟩) = .ok [⟨3⟩, ⟨2⟩] := by
  have linear : UsedLinearly callerConstructs [⟨7⟩, ⟨6⟩] := by decide
  obtain ⟨tree, built, _, _, _, _, chains, _⟩ := linear_use_drafts_a_tree linear
  exact ⟨linear, tree, built, chains [⟨1⟩, ⟨0⟩] (by decide),
    chains [⟨3⟩, ⟨2⟩] (by decide)⟩

end CMinusAnalysis
