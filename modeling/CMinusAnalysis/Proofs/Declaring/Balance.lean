import CMinusAnalysis.Proofs.Declaring.Nesting

namespace CMinusAnalysis

/-! How far the declaring pass ends inside the scope it started in. Functions
and blocks both open scopes, but only one of them can close the scope of a
function: its body if that is what the pass meets first inside, the function
itself if it meets neither. A function inside that comes first makes the pass
forget that it waits, and the scope of the outer function is never closed. -/

namespace SymbolTable

def up? (table : SymbolTable) : Nat → ScopeId → Option ScopeId
  | 0, id => some id
  | links + 1, id => (table.parent? id).bind (table.up? links)

variable {table earlier later : SymbolTable} {id middle outer : ScopeId}

theorem up?_one : table.up? 1 id = table.parent? id := by
  simp [up?]

theorem up?_add (first second : Nat) (inside : table.up? first id = some middle) :
    table.up? (first + second) id = table.up? second middle := by
  induction first generalizing id with
  | zero =>
      cases inside
      rw [Nat.zero_add]
  | succ first induction =>
      obtain ⟨parent, onward, beyond⟩ := Option.bind_eq_some_iff.mp inside
      rw [Nat.succ_add, up?, onward]
      exact induction beyond

theorem Extends.up? (extends' : Extends earlier later)
    (coherent : earlier.Coherent) (has : earlier.Has id) (links : Nat) :
    later.up? links id = earlier.up? links id := by
  induction links generalizing id with
  | zero => rfl
  | succ links induction =>
      rw [SymbolTable.up?, SymbolTable.up?, extends'.parent? has]
      cases inside : earlier.parent? id with
      | none => rfl
      | some parent => exact induction (coherent.parent_has inside)

theorem up?_eq_global_iff (coherent : table.Coherent) {links : Nat}
    (reached : table.up? links id = some ScopeId.global) (other : Nat) :
    table.up? other id = some ScopeId.global ↔ other = links := by
  constructor
  · intro again
    induction links generalizing id other with
    | zero =>
        cases reached
        cases other with
        | zero => rfl
        | succ other => simp [up?, coherent.global_parent?] at again
    | succ links induction =>
        obtain ⟨parent, inside, beyond⟩ := Option.bind_eq_some_iff.mp reached
        cases other with
        | zero =>
            cases again
            rw [coherent.global_parent?] at inside
            cases inside
        | succ other =>
            rw [up?, inside] at again
            exact congrArg Nat.succ (induction beyond other again)
  · rintro rfl
    exact reached

end SymbolTable

def NodeKind.opens (kind : NodeKind) : Bool :=
  kind.isFunction || kind.isBlock

def opener? (sites : List Site) : Option Site :=
  sites.find? fun site => site.node.kind.opens

/-- How many functions stand in the forest inside which a function comes before
any block. -/
def Forest.overtaken : Forest → Nat
  | .cons site first second third rest =>
      (if site.node.kind.isFunction &&
          (opener? (first.sites ++ (second.sites ++ third.sites))).any
            fun inner => inner.node.kind.isFunction
        then 1 else 0) +
        (first.overtaken + (second.overtaken + (third.overtaken +
          rest.overtaken)))
  | _ => 0

namespace Declaring

/-- The pass waits for no body, and its scope is so many links inside another
one. -/
structure Deep (state : Declaring) (scope : ScopeId) (links : Nat) : Prop where
  idle : state.awaiting = none
  up : state.table.up? links state.current = some scope

/-- The scope that the next block comes back to is `outer`. -/
def Facing (state : Declaring) (outer : ScopeId) : Prop :=
  state.awaiting = none ∧ state.current = outer ∨ state.Awaits outer

/-- What a walk does to the scope, where `opener` is the first node to open
one: none at all if there is no such node; a block takes the scope that waits,
and a function covers it. -/
structure Balances (opener : Option Site) (links : Nat)
    (before after : Declaring) : Prop extends Grows before after where
  unopened : opener = none → links = 0 ∧ after.current = before.current ∧
    after.awaiting = before.awaiting
  opened : ∀ {site outer}, opener = some site → before.Facing outer →
    after.Deep (if site.node.kind.isFunction then before.current else outer)
      links

variable {state before middle after inside last : Declaring} {site : Site}
  {outer scope : ScopeId} {links more : Nat}

theorem Deep.later (deep : before.Deep scope links) (sound : before.Sound)
    (grown : before.Grows after) (current : after.current = before.current)
    (awaiting : after.awaiting = before.awaiting) : after.Deep scope links where
  idle := awaiting.trans deep.idle
  up := by
    rw [current, grown.table.up? sound.coherent sound.current]
    exact deep.up

theorem Deep.beyond (deep : after.Deep before.current more)
    (sound : before.Sound) (grown : before.Grows after)
    (up : before.table.up? links before.current = some scope) :
    after.Deep scope (links + more) where
  idle := deep.idle
  up := by
    rw [Nat.add_comm, SymbolTable.up?_add more links deep.up,
      grown.table.up? sound.coherent sound.current]
    exact up

theorem Deep.outside (deep : state.Deep scope (links + 1)) :
    state.outside.Deep scope links where
  idle := deep.idle
  up := by
    obtain ⟨parent, onward, beyond⟩ := Option.bind_eq_some_iff.mp deep.up
    simpa [Declaring.outside, onward] using beyond

theorem Facing.later (facing : before.Facing outer)
    (grown : before.Grows after) (current : after.current = before.current)
    (awaiting : after.awaiting = before.awaiting) : after.Facing outer := by
  rcases facing with ⟨idle, here⟩ | awaits
  · exact .inl ⟨awaiting.trans idle, current.trans here⟩
  · exact .inr (awaits.later grown current awaiting)

namespace Balances

theorem still (grown : before.Grows after)
    (current : after.current = before.current)
    (awaiting : after.awaiting = before.awaiting) :
    Balances none 0 before after :=
  { grown with
    unopened := fun _ => ⟨rfl, current, awaiting⟩
    opened := nofun }

theorem of_idle {opener : Option Site}
    (balances : Balances opener links before after)
    (idle : before.awaiting = none) : after.Deep before.current links := by
  cases opener with
  | none =>
      obtain ⟨rfl, current, awaiting⟩ := balances.unopened rfl
      exact ⟨awaiting.trans idle, congrArg some current⟩
  | some site =>
      have deep := balances.opened rfl (.inl ⟨idle, rfl⟩)
      rwa [ite_self] at deep

theorem trans {first second : Option Site}
    (through : Balances first links before middle)
    (onward : Balances second more middle after) :
    Balances (first.or second) (links + more) before after := by
  refine { through.toGrows.trans onward.toGrows with
    unopened := ?_, opened := ?_ }
  · intro unopened
    obtain ⟨rfl, rfl⟩ := Option.or_eq_none_iff.mp unopened
    obtain ⟨rfl, current, awaiting⟩ := through.unopened rfl
    obtain ⟨rfl, current', awaiting'⟩ := onward.unopened rfl
    exact ⟨rfl, current'.trans current, awaiting'.trans awaiting⟩
  · intro site outer opened facing
    cases first with
    | none =>
        obtain ⟨rfl, current, awaiting⟩ := through.unopened rfl
        have deep := onward.opened opened
          (facing.later through.toGrows current awaiting)
        rwa [Nat.zero_add, ← current]
    | some opener =>
        cases opened
        have deep := through.opened rfl facing
        exact (onward.of_idle deep.idle).beyond through.sound onward.toGrows
          deep.up

end Balances

theorem balances_block {opener : Option Site} (sound : before.Sound)
    (block : site.node.kind.isBlock = true)
    (children : Balances opener links (before.entered site) last) :
    Balances (some site) links before (last.left site) := by
  have entered := grows_entered sound site
  refine { (entered.trans children.toGrows).trans
      (grows_left children.sound site) with
    unopened := nofun, opened := ?_ }
  rintro site outer ⟨rfl⟩ facing
  rw [if_neg (by simp [NodeKind.isFunction_of_isBlock block]), left_block block]
  have inside : (before.entered site).Inside outer := by
    rw [entered_block block]
    rcases facing with ⟨idle, rfl⟩ | awaits
    · exact inside_withBlock idle site.id
    · exact awaits.withBlock site.id
  have deep := (children.of_idle inside.idle).beyond entered.sound
    children.toGrows (SymbolTable.up?_one.trans inside.parent)
  rw [Nat.add_comm] at deep
  exact deep.outside

theorem balances_function {opener : Option Site} (sound : before.Sound)
    (function : site.node.kind.isFunction = true)
    (children : Balances opener links (before.entered site) last) :
    Balances (some site)
      ((if opener.any fun inner => inner.node.kind.isFunction then 1 else 0) +
        links) before (last.left site) := by
  have entered := grows_entered sound site
  refine { (entered.trans children.toGrows).trans
      (grows_left children.sound site) with
    unopened := nofun, opened := ?_ }
  rintro site outer ⟨rfl⟩ facing
  rw [if_pos function, left_function function]
  have awaits : (before.entered site).Awaits before.current := by
    obtain ⟨name, type, same⟩ := entered_function before function
    rw [same]
    exact awaits_inFunction before site.id name type site.node.line
  cases opener with
  | none =>
      obtain ⟨rfl, current, awaiting⟩ := children.unopened rfl
      have still := awaits.later children.toGrows current awaiting
      obtain ⟨back, idle⟩ := still.withoutFunction
      exact ⟨idle, congrArg some back⟩
  | some inner =>
      -- A block inside has come back out of this function; a function inside
      -- has covered it, and its scope stays open.
      have deep := children.opened rfl (.inr awaits)
      obtain ⟨current, idle⟩ := current_withoutFunction deep.idle
      apply Deep.later _ children.sound
        (grows_withoutFunction children.sound) current (idle.trans deep.idle.symm)
      cases covered : inner.node.kind.isFunction with
      | false => simpa [covered] using deep
      | true =>
          rw [if_pos covered] at deep
          have parent := SymbolTable.up?_one.trans awaits.parent
          simpa [covered] using
            deep.beyond entered.sound children.toGrows parent

theorem balances_node {opener : Option Site} (sound : before.Sound)
    (children : Balances opener links (before.entered site) last) :
    Balances (if site.node.kind.opens then some site else opener)
      ((if site.node.kind.isFunction &&
          opener.any fun inner => inner.node.kind.isFunction then 1 else 0) +
        links) before (last.left site) := by
  cases function : site.node.kind.isFunction with
  | true =>
      simpa [NodeKind.opens, function] using
        balances_function sound function children
  | false =>
      cases block : site.node.kind.isBlock with
      | true =>
          simpa [NodeKind.opens, function, block] using
            balances_block sound block children
      | false =>
          obtain ⟨current, awaiting, _⟩ := stays_entered before function block
          have entering : Balances none 0 before (before.entered site) :=
            .still (grows_entered sound site) current awaiting
          simpa [NodeKind.opens, function, block, left_other] using
            entering.trans children

theorem opener?_append (left right : List Site) :
    opener? (left ++ right) = (opener? left).or (opener? right) :=
  List.find?_append

theorem opener?_cons (site : Site) (sites : List Site) :
    opener? (site :: sites) =
      if site.node.kind.opens then some site else opener? sites := by
  rw [opener?, List.find?_cons]
  cases site.node.kind.opens <;> rfl

theorem balances_walked (sound : state.Sound) (forest : Forest) :
    Balances (opener? forest.sites) forest.overtaken state
      (state.walked forest) := by
  induction forest generalizing state with
  | nil => exact .still (.refl sound) rfl rfl
  | missing fault => exact .still (.refl sound) rfl rfl
  | cons site first second third rest inFirst inSecond inThird inRest =>
      have one := inFirst (grows_entered sound site).sound
      have two := inSecond one.sound
      have three := inThird two.sound
      -- What the node opens comes before what its children open, and both
      -- before what stands beside it.
      have node := balances_node sound (one.trans (two.trans three))
      have whole := node.trans (inRest node.sound)
      have opener : opener? (Forest.cons site first second third rest).sites =
          (if site.node.kind.opens then some site
            else (opener? first.sites).or
              ((opener? second.sites).or (opener? third.sites))).or
            (opener? rest.sites) := by
        rw [Forest.sites, opener?_cons]
        simp only [opener?_append]
        cases site.node.kind.opens <;> simp [Option.or_assoc]
      rw [opener, Forest.overtaken, walked_cons]
      simp only [opener?_append]
      simpa only [Nat.add_assoc] using whole

end Declaring

end CMinusAnalysis
