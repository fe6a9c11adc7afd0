import CMinusAnalysis.Proofs.Declaring.Settling

namespace CMinusAnalysis

/-! Properties of the symbol table alone. The declaring pass does four things to
its table, so a property that these keep holds of the table at every visit. -/

namespace Declaring

/-- The property outlives everything that the declaring pass does to a table
but the opening of scopes. -/
structure Framed (holds : SymbolTable → Prop) : Prop where
  declared : ∀ {table : SymbolTable} {id : ScopeId} (name : String)
    (type : Ty) (line : Nat) (isFunction : Bool), table.Has id →
    holds table → holds (table.declared id name type line isFunction)
  used : ∀ {table : SymbolTable} (target : SymbolId) (line : Nat),
    holds table → holds (table.modifySymbol target (·.addLine line))
  signed : ∀ {table : SymbolTable} (target : SymbolId) (type : Ty),
    holds table → holds (table.modifySymbol target (·.addParameter type))

/-- The property outlives everything that the declaring pass does to a
table. -/
structure Kept (holds : SymbolTable → Prop) : Prop extends Framed holds where
  opened : ∀ {table : SymbolTable} (name : String) (parent : ScopeId),
    holds table → holds (table.opened name parent)

variable {holds : SymbolTable → Prop} {state : Declaring}

namespace Framed

theorem withSigned (framed : Framed holds) (function : String) (type : Ty)
    (held : holds state.table) :
    holds (state.withSigned function type).table := by
  unfold Declaring.withSigned
  split
  · exact framed.signed _ type held
  · exact held

theorem withLocal (framed : Framed holds) (sound : state.Sound) (name : String)
    (type : Ty) (line : Nat) (redeclared : DiagnosticKind)
    (held : holds state.table) :
    holds (state.withLocal name type line redeclared).table := by
  unfold Declaring.withLocal
  split
  · exact held
  · exact framed.declared name type line false sound.current held

theorem withParameter (framed : Framed holds) (sound : state.Sound)
    (parameter : Parameter) (line : Nat) (held : holds state.table) :
    holds (state.withParameter parameter line).table := by
  unfold Declaring.withParameter
  split
  · exact held
  · next name _ =>
      split
      · exact held
      · have declared := framed.declared name parameter.type line false
          sound.current held
        unfold withSignature
        split
        · exact framed.withSigned _ _ declared
        · exact declared

theorem withFunction (framed : Framed holds) (sound : state.Sound)
    (id : NodeId) (name : String) (type : Ty) (line : Nat)
    (held : holds state.table) :
    holds (state.withFunction id name type line).table := by
  unfold Declaring.withFunction
  split
  · exact held
  · exact framed.declared name type line true sound.global held

theorem withUse (framed : Framed holds) (id : NodeId) (name : String)
    (line : Nat) (held : holds state.table) :
    holds (state.withUse id name line).table := by
  unfold Declaring.withUse
  split
  · exact framed.used _ line held
  · exact held

theorem entered (framed : Framed holds) (sound : state.Sound) {site : Site}
    (function : site.node.kind.isFunction = false)
    (block : site.node.kind.isBlock = false) (held : holds state.table) :
    holds (state.entered site).table := by
  unfold Declaring.entered
  split
  · next found => simp [found, NodeKind.isFunction] at function
  · exact framed.withLocal sound _ _ _ _ held
  · exact framed.withLocal sound _ _ _ _ held
  · exact framed.withParameter sound _ _ held
  · next found => simp [found, NodeKind.isBlock] at block
  · exact framed.withUse _ _ _ held
  · exact framed.withUse _ _ _ held
  · exact framed.withUse _ _ _ held
  · exact held

theorem origin (framed : Framed holds) (builtins : Bool)
    (held : holds bare.table) : holds (origin builtins).table := by
  cases builtins with
  | false => exact held
  | true =>
      have output := framed.declared "output" .void 0 true sound_bare.global
        held
      exact framed.declared "input" .integer 0 true grows_output.sound.global
        (framed.withSigned "output" .integer output)

end Framed

namespace Kept

theorem inFunction (kept : Kept holds) (sound : state.Sound) (id : NodeId)
    (name : String) (type : Ty) (line : Nat) (held : holds state.table) :
    holds (state.inFunction id name type line).table :=
  kept.opened name _ (kept.withFunction sound id name type line held)

theorem withBlock (kept : Kept holds) (id : NodeId)
    (held : holds state.table) : holds (state.withBlock id).table := by
  unfold Declaring.withBlock
  split
  · exact held
  · exact kept.opened _ _ held

theorem entered (kept : Kept holds) (sound : state.Sound) (site : Site)
    (held : holds state.table) : holds (state.entered site).table := by
  cases function : site.node.kind.isFunction with
  | true =>
      obtain ⟨name, type, same⟩ := entered_function state function
      rw [same]
      exact kept.inFunction sound _ _ _ _ held
  | false =>
      cases block : site.node.kind.isBlock with
      | true =>
          rw [entered_block block]
          exact kept.withBlock _ held
      | false => exact kept.toFramed.entered sound function block held

theorem visits (kept : Kept holds) (sound : state.Sound)
    (held : holds state.table) {stops : List (Route × Visit)}
    {final : Declaring}
    (done : (stops.map Prod.snd).foldlM step state = .ok final) :
    holds final.table := by
  apply (visits_induction sound done
    (motive := fun later _ => holds later.table) held ?_ ?_).2
  · exact fun _ sound held => kept.entered sound _ held
  · intro found route site past _ sound held
    rw [table_left]
    exact held

end Kept

end Declaring

end CMinusAnalysis
