import CMinusAnalysis.Facts.Basic
import CMinusAnalysis.Proofs.Symbol.Resolution
import CMinusAnalysis.Proofs.Tree.Shape

namespace CMinusAnalysis

/-! The scopes recorded for blocks. They are grounded in a table when they lie
in each other as the blocks do and every use that was resolved can be resolved
in the table, from the scope of the nearest block above. -/

namespace Facts

/-- The scope that was recorded for the nearest block above, or the outermost
scope if no block is above. -/
def scopeAround (facts : Facts) (ancestors : List Site) : Option ScopeId :=
  match ancestors.find? fun site => site.node.kind.isBlock with
  | some block => facts.blocks.get? block.id
  | none => some ScopeId.global

theorem scopeAround_congr {left right : Facts}
    (blocks : left.blocks = right.blocks) (ancestors : List Site) :
    left.scopeAround ancestors = right.scopeAround ancestors := by
  simp only [scopeAround, blocks]

variable {facts : Facts} {site : Site} {link : Link} {route : Route}

theorem scopeAround_block (block : site.node.kind.isBlock = true)
    (down : link ≠ .sibling) :
    facts.scopeAround (Route.ancestors ((site, link) :: route)) =
      facts.blocks.get? site.id := by
  simp [scopeAround, Route.ancestors_child site down, block]

theorem scopeAround_other (other : site.node.kind.isBlock = false) :
    facts.scopeAround (Route.ancestors ((site, link) :: route)) =
      facts.scopeAround (Route.ancestors route) := by
  by_cases down : link = .sibling
  · rw [down, Route.ancestors_sibling]
  · simp [scopeAround, Route.ancestors_child site down, other]

end Facts

/-- The facts and the table fit the forest to which the route leads. -/
structure Grounded (facts : Facts) (table : SymbolTable) (route : Route)
    (forest : Forest) : Prop where
  blocks : ∀ {along : Route} {site : Site},
    (along, Visit.enter site) ∈ forest.stops route →
    site.node.kind.isBlock = true →
    ∃ inner outer, facts.blocks.get? site.id = some inner ∧
      table.parent? inner = some outer ∧
      facts.scopeAround along.ancestors = some outer
  uses : ∀ {along : Route} {site : Site} {name : String},
    (along, Visit.enter site) ∈ forest.stops route →
    site.node.kind.use? = some name →
    facts.unresolved.contains site.id = true ∨
      ∃ scope, facts.scopeAround along.ancestors = some scope ∧
        (table.resolve scope name).isSome = true

namespace Grounded

variable {facts : Facts} {table : SymbolTable} {route : Route} {site : Site}
  {first second third rest : Forest}

theorem mono {forest part : Forest} {along : Route}
    (grounded : Grounded facts table route forest)
    (subset : part.stops along ⊆ forest.stops route) :
    Grounded facts table along part :=
  ⟨fun stop => grounded.blocks (subset stop),
    fun stop => grounded.uses (subset stop)⟩

theorem parts (grounded : Grounded facts table route
      (.cons site first second third rest)) :
    Grounded facts table ((site, .first) :: route) first ∧
      Grounded facts table ((site, .second) :: route) second ∧
      Grounded facts table ((site, .third) :: route) third ∧
      Grounded facts table ((site, .sibling) :: route) rest := by
  refine ⟨grounded.mono ?_, grounded.mono ?_, grounded.mono ?_,
    grounded.mono ?_⟩ <;> intro stop member <;> simp [Forest.stops, member]

end Grounded

end CMinusAnalysis
