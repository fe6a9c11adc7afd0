import Mathlib.Data.List.Basic
import CMinusAnalysis.Proofs.Outcome
import CMinusAnalysis.Proofs.Tree.Route
import CMinusAnalysis.Tree.Draft

namespace CMinusAnalysis

/-! What drafting does to the links of a tree. Chaining a list links every member
to the next one, and a new node brings its own links; all other links stay. So
a draft stays a forest as long as new links lead to nodes without a link. -/

def successor? (key : NodeId) : List NodeId → Option NodeId
  | id :: next :: rest =>
      if key = id then some next else successor? key (next :: rest)
  | _ => none

section Successor

variable {key next : NodeId} {members : List NodeId}

theorem successor?_cons_of_ne {id : NodeId} (other : key ≠ id)
    (rest : List NodeId) :
    successor? key (id :: rest) = successor? key rest := by
  cases rest with
  | nil => rfl
  | cons next rest => rw [successor?, if_neg other]

theorem successor?_cons_of_mem {id : NodeId} {rest : List NodeId}
    (distinct : (id :: rest).Nodup) (member : key ∈ rest) :
    successor? key (id :: rest) = successor? key rest := by
  apply successor?_cons_of_ne
  rintro rfl
  exact (List.nodup_cons.mp distinct).1 member

theorem mem_of_successor? (follows : successor? key members = some next) :
    key ∈ members ∧ next ∈ members.tail := by
  induction members with
  | nil => cases follows
  | cons id rest induction =>
      by_cases same : key = id
      · subst same
        cases rest with
        | nil => cases follows
        | cons other rest =>
            rw [successor?, if_pos rfl] at follows
            cases follows
            exact ⟨List.mem_cons_self, List.mem_cons_self⟩
      · rw [successor?_cons_of_ne same] at follows
        obtain ⟨inside, after⟩ := induction follows
        exact ⟨List.mem_cons_of_mem _ inside, List.mem_of_mem_tail after⟩

theorem successor?_eq_none (outside : key ∉ members) :
    successor? key members = none := by
  rw [Option.eq_none_iff_forall_ne_some]
  intro next follows
  exact outside (mem_of_successor? follows).1

theorem head_ne_of_successor? (distinct : members.Nodup)
    (follows : successor? key members = some next) :
    members.head? ≠ some next := by
  intro first
  cases members with
  | nil => cases first
  | cons id rest =>
      cases first
      exact (List.nodup_cons.mp distinct).1 (mem_of_successor? follows).2

theorem successor?_inj {other : NodeId} (distinct : members.Nodup)
    (left : successor? key members = some next)
    (right : successor? other members = some next) : key = other := by
  induction members with
  | nil => cases left
  | cons id rest induction =>
      have later := (List.nodup_cons.mp distinct).2
      -- After the first member its successor heads the rest.
      have first {turn : NodeId} (follows : successor? id (id :: rest) =
          some next) (again : successor? turn rest = some next) : False := by
        cases rest with
        | nil => cases again
        | cons head rest =>
            rw [successor?, if_pos rfl] at follows
            exact head_ne_of_successor? later again follows
      by_cases atLeft : key = id <;> by_cases atRight : other = id
      · exact atLeft.trans atRight.symm
      · subst atLeft
        rw [successor?_cons_of_ne atRight] at right
        exact (first left right).elim
      · subst atRight
        rw [successor?_cons_of_ne atLeft] at left
        exact (first right left).elim
      · rw [successor?_cons_of_ne atLeft] at left
        rw [successor?_cons_of_ne atRight] at right
        exact induction later left right

end Successor

def Node.children (node : Node) : List NodeId :=
  node.first.toList ++ (node.second.toList ++ node.third.toList)

theorem Node.mem_children {node : Node} (alone : node.sibling = none)
    {link : Link} {next : NodeId} (follows : node.follow link = some next) :
    next ∈ node.children := by
  cases link <;> simp_all [Node.follow, Node.children]

theorem Node.link_unique {node : Node} (alone : node.sibling = none)
    (distinct : node.children.Nodup) {link turn : Link} {next : NodeId}
    (left : node.follow link = some next)
    (right : node.follow turn = some next) : link = turn := by
  rw [Node.children, List.nodup_append', List.nodup_append'] at distinct
  cases link <;> cases turn <;> simp_all [Node.follow]

namespace Draft

def link? (draft : Draft) (id : NodeId) (link : Link) : Option NodeId :=
  draft[id.index]?.bind fun node => node.follow link

theorem link?_push (draft : Draft) (node : Node) (id : NodeId) (link : Link) :
    link? (draft.push node) id link =
      if id.index = draft.size then node.follow link
      else draft.link? id link := by
  rw [link?, Array.getElem?_push]
  split <;> rfl

/-- `after` is `before` with the members chained. -/
structure Chains (members : List NodeId) (before after : Draft) : Prop where
  size : after.size = before.size
  link? : ∀ key link, after.link? key link =
    (if link = .sibling then successor? key members else none).or
      (before.link? key link)

theorem setSibling_eq {draft : Draft} {id : NodeId} (next : NodeId)
    (inside : id.index < draft.size) :
    ∃ linked, draft.setSibling id next = .ok linked ∧
      linked.size = draft.size ∧
      ∀ key link, linked.link? key link =
        if key = id ∧ link = .sibling then some next
        else draft.link? key link := by
  refine ⟨_, by rw [setSibling, fetch_of_lt inside]; rfl, by simp, ?_⟩
  intro key link
  rw [Draft.link?, Array.getElem?_setIfInBounds]
  by_cases same : id.index = key.index
  · cases NodeId.ext same
    cases link <;> simp [inside, Draft.link?, Node.follow]
  · have other : key ≠ id := fun equal => same (congrArg _ equal.symm)
    rw [if_neg same, if_neg fun both => other both.1]
    rfl

theorem chain_eq {draft : Draft} {members : List NodeId}
    (distinct : members.Nodup)
    (inside : ∀ id ∈ members, id.index < draft.size) :
    ∃ linked, draft.chain members = .ok linked ∧
      Chains members draft linked := by
  induction members generalizing draft with
  | nil => exact ⟨draft, rfl, rfl, by simp [successor?]⟩
  | cons id rest induction =>
      cases rest with
      | nil => exact ⟨draft, rfl, rfl, by simp [successor?]⟩
      | cons next rest =>
          obtain ⟨outside, later⟩ := List.nodup_cons.mp distinct
          rw [List.forall_mem_cons] at inside
          obtain ⟨middle, set, same, links⟩ := setSibling_eq next inside.1
          obtain ⟨linked, chained, chains⟩ := induction later (by
            rw [same]
            exact inside.2)
          refine ⟨linked, by rw [chain, set, ok_bind, chained],
            chains.size.trans same, ?_⟩
          intro key link
          rw [chains.link?, links]
          by_cases here : key = id
          · subst here
            rw [successor?_eq_none outside, successor?, if_pos rfl]
            cases link <;> simp
          · have other : ¬ (key = id ∧ link = .sibling) :=
              fun both => here both.1
            rw [successor?_cons_of_ne here, if_neg other]

/-- A link of `id` leads to `next`. -/
def Below (draft : Draft) (next id : NodeId) : Prop :=
  ∃ link, draft.link? id link = some next

theorem acc_of_agree {before after : Draft} (old : NodeId → Prop)
    (wellFounded : WellFounded before.Below)
    (same : ∀ id link, old id → after.link? id link = before.link? id link)
    (closed : ∀ id link next, old id → before.link? id link = some next →
      old next) (id : NodeId) (known : old id) : Acc after.Below id := by
  induction id using wellFounded.induction with
  | _ id induction =>
      constructor
      rintro next ⟨link, follows⟩
      rw [same id link known] at follows
      exact induction next ⟨link, follows⟩ (closed id link next known follows)

/-- The node exists, and no link leads to it. -/
def Free (draft : Draft) (id : NodeId) : Prop :=
  id.index < draft.size ∧ ∀ other link, draft.link? other link ≠ some id

/-- The links form trees: none dangles, no two lead to one node, and following
them comes to an end. -/
structure Wooded (draft : Draft) : Prop where
  inside : ∀ {id link next}, draft.link? id link = some next →
    next.index < draft.size
  single : ∀ {left right link turn next},
    draft.link? left link = some next → draft.link? right turn = some next →
    left = right ∧ link = turn
  wellFounded : WellFounded draft.Below

theorem wooded_empty : Wooded #[] := by
  have bare (id : NodeId) (link : Link) : Draft.link? #[] id link = none := rfl
  refine ⟨fun follows => ?_, fun follows => ?_, ⟨fun id => ⟨_, ?_⟩⟩⟩
  · cases (bare _ _).symm.trans follows
  · cases (bare _ _).symm.trans follows
  · rintro next ⟨link, follows⟩
    cases (bare _ _).symm.trans follows

section Push

variable {draft : Draft} {node : Node}

theorem link?_push_of_lt {id : NodeId} (link : Link)
    (old : id.index < draft.size) :
    link? (draft.push node) id link = draft.link? id link := by
  rw [link?_push, if_neg (Nat.ne_of_lt old)]

theorem Free.push {id : NodeId} (free : draft.Free id)
    (alone : node.sibling = none) (outside : id ∉ node.children) :
    Free (draft.push node) id := by
  refine ⟨by rw [Array.size_push]; exact Nat.lt_succ_of_lt free.1, ?_⟩
  intro other link follows
  rw [link?_push] at follows
  split at follows
  · exact outside (node.mem_children alone follows)
  · exact free.2 other link follows

theorem Wooded.free_push (wooded : draft.Wooded) (alone : node.sibling = none)
    (free : ∀ id ∈ node.children, draft.Free id) :
    Free (draft.push node) ⟨draft.size⟩ := by
  refine ⟨by simp, ?_⟩
  intro other link follows
  rw [link?_push] at follows
  split at follows
  · exact Nat.lt_irrefl _ (free _ (node.mem_children alone follows)).1
  · exact Nat.lt_irrefl _ (wooded.inside follows)

theorem Wooded.push (wooded : draft.Wooded) (alone : node.sibling = none)
    (distinct : node.children.Nodup)
    (free : ∀ id ∈ node.children, draft.Free id) :
    Wooded (draft.push node) where
  inside := by
    intro id link next follows
    rw [Array.size_push]
    apply Nat.lt_succ_of_lt
    rw [link?_push] at follows
    split at follows
    · exact (free next (node.mem_children alone follows)).1
    · exact wooded.inside follows
  single := by
    intro left right link turn next toLeft toRight
    rw [link?_push] at toLeft toRight
    split at toLeft <;> split at toRight
    · next atLeft atRight =>
        exact ⟨NodeId.ext (atLeft.trans atRight.symm),
          node.link_unique alone distinct toLeft toRight⟩
    · exact absurd toRight ((free _ (node.mem_children alone toLeft)).2 _ _)
    · exact absurd toLeft ((free _ (node.mem_children alone toRight)).2 _ _)
    · exact wooded.single toLeft toRight
  wellFounded := by
    have old (id : NodeId) (known : id.index < draft.size) :
        Acc (Below (draft.push node)) id :=
      acc_of_agree (fun id => id.index < draft.size) wooded.wellFounded
        (fun _ link => link?_push_of_lt link)
        (fun _ _ _ _ => wooded.inside) id known
    constructor
    intro id
    constructor
    rintro next ⟨link, follows⟩
    rw [link?_push] at follows
    split at follows
    · exact old next (free next (node.mem_children alone follows)).1
    · exact old next (wooded.inside follows)

end Push

namespace Chains

variable {members : List NodeId} {before after : Draft}

theorem link?_child (chains : Chains members before after) (key : NodeId)
    {link : Link} (down : link ≠ .sibling) :
    after.link? key link = before.link? key link := by
  simp [chains.link?, down]

theorem link?_of_not_mem (chains : Chains members before after) {key : NodeId}
    (outside : key ∉ members) (link : Link) :
    after.link? key link = before.link? key link := by
  simp [chains.link?, successor?_eq_none outside]

theorem link?_sibling (chains : Chains members before after) {key : NodeId}
    (loose : before.link? key .sibling = none) :
    after.link? key .sibling = successor? key members := by
  simp [chains.link?, loose]

theorem link_cases (chains : Chains members before after) {key next : NodeId}
    {link : Link} (follows : after.link? key link = some next) :
    before.link? key link = some next ∨
      link = .sibling ∧ successor? key members = some next := by
  rw [chains.link?] at follows
  by_cases beside : link = .sibling
  · rw [if_pos beside, Option.or_eq_some_iff] at follows
    rcases follows with follows | ⟨_, follows⟩
    · exact .inr ⟨beside, follows⟩
    · exact .inl follows
  · rw [if_neg beside, Option.none_or] at follows
    exact .inl follows

theorem free (chains : Chains members before after) {id : NodeId}
    (free : before.Free id)
    (apart : ∀ key, successor? key members ≠ some id) : after.Free id := by
  refine ⟨by rw [chains.size]; exact free.1, ?_⟩
  intro other link follows
  rcases chains.link_cases follows with follows | ⟨_, follows⟩
  · exact free.2 other link follows
  · exact apart other follows

theorem acc_of_mem (chains : Chains members before after)
    (apart : ∀ id, id ∉ members → Acc after.Below id)
    (free : ∀ id ∈ members, before.Free id) {part : List NodeId}
    (distinct : part.Nodup)
    (linked : ∀ id ∈ part, after.link? id .sibling = successor? id part) :
    ∀ id ∈ part, Acc after.Below id := by
  induction part with
  | nil => simp
  | cons head rest induction =>
      have onward : ∀ id ∈ rest, Acc after.Below id := by
        apply induction (List.nodup_cons.mp distinct).2
        intro id member
        rw [linked id (List.mem_cons_of_mem _ member)]
        exact successor?_cons_of_mem distinct member
      rw [List.forall_mem_cons]
      refine ⟨⟨_, ?_⟩, onward⟩
      rintro next ⟨link, follows⟩
      by_cases beside : link = .sibling
      · subst beside
        rw [linked head List.mem_cons_self] at follows
        exact onward next (mem_of_successor? follows).2
      · rw [chains.link?_child head beside] at follows
        exact apart next fun member => (free next member).2 head link follows

theorem wooded (chains : Chains members before after) (wooded : before.Wooded)
    (distinct : members.Nodup) (free : ∀ id ∈ members, before.Free id)
    (loose : ∀ id ∈ members, before.link? id .sibling = none) :
    after.Wooded where
  inside := by
    intro id link next follows
    rw [chains.size]
    rcases chains.link_cases follows with follows | ⟨_, follows⟩
    · exact wooded.inside follows
    · exact (free next (List.mem_of_mem_tail (mem_of_successor? follows).2)).1
  single := by
    intro left right link turn next toLeft toRight
    have taken {key : NodeId} (follows : successor? key members = some next)
        {other : NodeId} {link : Link} :
        before.link? other link ≠ some next :=
      (free next (List.mem_of_mem_tail (mem_of_successor? follows).2)).2 _ _
    rcases chains.link_cases toLeft with oldLeft | ⟨rfl, newLeft⟩ <;>
      rcases chains.link_cases toRight with oldRight | ⟨rfl, newRight⟩
    · exact wooded.single oldLeft oldRight
    · exact absurd oldLeft (taken newRight)
    · exact absurd oldRight (taken newLeft)
    · exact ⟨successor?_inj distinct newLeft newRight, rfl⟩
  wellFounded := by
    have apart (id : NodeId) (outside : id ∉ members) : Acc after.Below id :=
      acc_of_agree (· ∉ members) wooded.wellFounded
        (fun _ link outside => chains.link?_of_not_mem outside link)
        (fun id link next _ follows member =>
          (free next member).2 id link follows) id outside
    constructor
    intro id
    by_cases member : id ∈ members
    · exact chains.acc_of_mem apart free distinct
        (fun id member => chains.link?_sibling (loose id member)) id member
    · exact apart id member

end Chains

end Draft

end CMinusAnalysis
