import CMinusAnalysis.Proofs.Symbol.Growth
import CMinusAnalysis.Proofs.Typing.Judgement

namespace CMinusAnalysis

/-! Symbol tables and contexts. A scope of a table holds a frame when it knows
the same names, with the same types; a table shows a context when the scopes
from one outwards hold its frames, so that names stand for the same. -/

namespace SymbolTable

/-- The scope has the names of the frame, and no others. -/
def Holds (table : SymbolTable) (id : ScopeId) (frame : Frame) : Prop :=
  ∀ name, (table.find? id name).bind table.typeOf? = frame.lookup name

/-- The scope and those around it hold the frames of the context. -/
inductive Shows (table : SymbolTable) : ScopeId → Context → Prop
  | global {frame : Frame} (has : table.Has ScopeId.global)
      (holds : table.Holds ScopeId.global frame) :
      Shows table ScopeId.global [frame]
  | inner {id parent : ScopeId} {frame : Frame} {context : Context}
      (inside : table.parent? id = some parent) (holds : table.Holds id frame)
      (outer : Shows table parent context) : Shows table id (frame :: context)

variable {table earlier later : SymbolTable} {id : ScopeId} {frame : Frame}
  {context : Context}

theorem typeOf?_of_find? {name : String} {found : SymbolId}
    (hit : table.find? id name = some found) :
    ∃ type, table.typeOf? found = some type := by
  obtain ⟨symbol, stored, _⟩ := name_of_find? hit
  exact ⟨symbol.type, by simp [typeOf?, stored]⟩

theorem Holds.find?_eq_none_iff (holds : table.Holds id frame) (name : String) :
    table.find? id name = none ↔ frame.lookup name = none := by
  rw [← holds name]
  cases hit : table.find? id name with
  | none => simp
  | some found =>
      obtain ⟨type, typed⟩ := typeOf?_of_find? hit
      simp [typed]

theorem Holds.settled {taking : ScopeId → Prop}
    (settled : Settled taking earlier later) (has : earlier.Has id)
    (shut : ¬ taking id) (holds : earlier.Holds id frame) :
    later.Holds id frame := by
  intro name
  rw [← holds name, settled.closed has shut name]
  cases hit : earlier.find? id name with
  | none => rfl
  | some found =>
      obtain ⟨type, typed⟩ := typeOf?_of_find? hit
      simp [typed, settled.typeOf? typed]

theorem Holds.declared (coherent : table.Coherent) (has : table.Has id)
    {name : String} (free : table.find? id name = none) (type : Ty)
    (line : Nat) (isFunction : Bool) (holds : table.Holds id frame) :
    (table.declared id name type line isFunction).Holds id
      ((name, type) :: frame) := by
  intro query
  rw [find?_declared coherent has free, List.lookup_cons]
  by_cases same : query = name
  · obtain ⟨location, pushed⟩ := symbols_declared has name type line isFunction
    simp [same, typeOf?, pushed]
  · have other : (query == name) = false := by simpa using same
    simp only [same, and_false, if_false, other]
    rw [← holds query]
    cases hit : table.find? id query with
    | none => rfl
    | some found =>
        obtain ⟨known, typed⟩ := typeOf?_of_find? hit
        simp [typed, (extends_declared coherent has free).typeOf? typed]

theorem holds_opened (name : String) (parent : ScopeId) :
    (table.opened name parent).Holds ⟨table.scopes.size⟩ [] := by
  intro query
  rw [find?_opened]
  simp [find?]

namespace Shows

theorem has (shown : table.Shows id context) : table.Has id := by
  cases shown with
  | global has => exact has
  | inner inside => exact has_of_parent? inside

theorem holds (shown : table.Shows id (frame :: context)) :
    table.Holds id frame := by
  cases shown with
  | global _ holds => exact holds
  | inner _ holds _ => exact holds

theorem outer {around : Frame} {beyond : Context}
    (shown : table.Shows id (frame :: around :: beyond)) :
    ∃ parent, table.parent? id = some parent ∧
      table.Shows parent (around :: beyond) := by
  cases shown with
  | inner inside _ outer => exact ⟨_, inside, outer⟩

theorem eq_global (shown : table.Shows id [frame]) : id = ScopeId.global := by
  cases shown with
  | global => rfl
  | inner _ _ outer => cases outer

theorem resolve (coherent : table.Coherent) (shown : table.Shows id context)
    (name : String) :
    (table.resolve id name).bind table.typeOf? = context.type? name := by
  induction shown with
  | global _ holds =>
      rw [resolve_global coherent, holds name, Context.type?]
      cases hit : List.lookup name _ <;> simp [hit]
  | @inner id parent frame context inside holds _ induction =>
      rw [resolve_inner coherent inside, Context.type?, List.findSome?_cons]
      have here := holds name
      cases hit : table.find? id name with
      | none =>
          rw [hit] at here
          rw [← here]
          exact induction
      | some found =>
          obtain ⟨type, typed⟩ := typeOf?_of_find? hit
          rw [hit] at here
          rw [← here]
          simp [typed]

theorem resolve_isSome (coherent : table.Coherent)
    (shown : table.Shows id context) (name : String) :
    (table.resolve id name).isSome = (context.type? name).isSome := by
  rw [← shown.resolve coherent name]
  cases hit : table.resolve id name with
  | none => rfl
  | some found =>
      obtain ⟨symbol, stored⟩ := exists_of_resolve hit
      simp [typeOf?, stored]

theorem settled {taking : ScopeId → Prop} (coherent : earlier.Coherent)
    (settled : Settled taking earlier later)
    (shut : ∀ scope : ScopeId, scope.index ≤ id.index → ¬ taking scope)
    (shown : earlier.Shows id context) : later.Shows id context := by
  induction shown with
  | global has holds =>
      exact .global (settled.has has)
        (holds.settled settled has (shut _ (Nat.le_refl _)))
  | inner inside holds _ induction =>
      have has := has_of_parent? inside
      refine .inner ((settled.parent? has).trans inside)
        (holds.settled settled has (shut _ (Nat.le_refl _))) (induction ?_)
      intro scope below
      have older := coherent.older inside
      exact shut scope (by omega)

theorem declared (coherent : table.Coherent) {name : String}
    (free : table.find? id name = none) (type : Ty) (line : Nat)
    (isFunction : Bool) (shown : table.Shows id (frame :: context)) :
    (table.declared id name type line isFunction).Shows id
      (((name, type) :: frame) :: context) := by
  have has := shown.has
  have settled : Settled (· = id) table
      (table.declared id name type line isFunction) :=
    settled_declared coherent has free
  cases shown with
  | global _ holds =>
      exact .global (settled.has has) (holds.declared coherent has free _ _ _)
  | inner inside holds outer =>
      refine .inner (by rw [parent?_declared, inside])
        (holds.declared coherent has free _ _ _)
        (outer.settled coherent settled ?_)
      rintro scope below rfl
      have older := coherent.older inside
      omega

theorem opened (coherent : table.Coherent) (shown : table.Shows id context)
    (name : String) :
    (table.opened name id).Shows ⟨table.scopes.size⟩ ([] :: context) := by
  have inside : (table.opened name id).parent? ⟨table.scopes.size⟩ =
      some id := by
    simp [parent?_opened]
  refine .inner inside (holds_opened name id) ?_
  exact shown.settled coherent (settled_opened (fun _ => False) table name id)
    fun _ _ => not_false

end Shows

end SymbolTable

end CMinusAnalysis
