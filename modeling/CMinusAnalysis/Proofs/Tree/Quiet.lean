import CMinusAnalysis.Proofs.Tree.Trace

namespace CMinusAnalysis

namespace Forest

/-- Visits put items behind the ones that are there. -/
structure Adds (items : σ → List α) (enter leave : σ → Site → σ) : Prop where
  entering : ∀ (state : σ) (site : Site), items state <+: items (enter state site)
  leaving : ∀ (state : σ) (site : Site), items state <+: items (leave state site)

/-- A walk through the forest adds no item. -/
def Quiet (items : σ → List α) (enter leave : σ → Site → σ) (state : σ)
    (forest : Forest) : Prop :=
  items (forest.fold enter leave state) = items state

theorem eq_iff_of_prefixes {early middle late : List α} (first : early <+: middle)
    (second : middle <+: late) :
    late = early ↔ middle = early ∧ late = middle := by
  constructor
  · rintro rfl
    have same := second.eq_of_length_le first.length_le
    exact ⟨same, same.symm⟩
  · rintro ⟨rfl, same⟩
    exact same

variable {items : σ → List α} {enter leave : σ → Site → σ}

theorem Adds.fold (adds : Adds items enter leave) (state : σ)
    (forest : Forest) : items state <+: items (forest.fold enter leave state) := by
  induction forest generalizing state with
  | nil => exact List.prefix_rfl
  | missing fault => exact List.prefix_rfl
  | cons site first second third rest inFirst inSecond inThird inRest =>
      exact (((((adds.entering state site).trans (inFirst _)).trans
        (inSecond _)).trans (inThird _)).trans (adds.leaving _ site)).trans
          (inRest _)

theorem Adds.quiet_cons (adds : Adds items enter leave) (state : σ)
    (site : Site) (first second third rest : Forest) :
    let inside := enter state site
    let afterFirst := first.fold enter leave inside
    let afterSecond := second.fold enter leave afterFirst
    let afterThird := third.fold enter leave afterSecond
    Quiet items enter leave state (.cons site first second third rest) ↔
      items inside = items state ∧ Quiet items enter leave inside first ∧
        Quiet items enter leave afterFirst second ∧
        Quiet items enter leave afterSecond third ∧
        items (leave afterThird site) = items afterThird ∧
        Quiet items enter leave (leave afterThird site) rest := by
  intro inside afterFirst afterSecond afterThird
  have one := adds.entering state site
  have two := adds.fold inside first
  have three := adds.fold afterFirst second
  have four := adds.fold afterSecond third
  have five := adds.leaving afterThird site
  have six := adds.fold (leave afterThird site) rest
  change items (rest.fold enter leave (leave afterThird site)) = items state ↔ _
  rw [eq_iff_of_prefixes one (two.trans (three.trans (four.trans
      (five.trans six)))),
    eq_iff_of_prefixes two (three.trans (four.trans (five.trans six))),
    eq_iff_of_prefixes three (four.trans (five.trans six)),
    eq_iff_of_prefixes four (five.trans six), eq_iff_of_prefixes five six]
  rfl

theorem Adds.quiet_beside (adds : Adds items enter leave) (state : σ)
    (site : Site) (first second third rest : Forest) :
    let alone := Forest.cons site first second third .nil
    Quiet items enter leave state (.cons site first second third rest) ↔
      Quiet items enter leave state alone ∧
        Quiet items enter leave (alone.fold enter leave state) rest := by
  intro alone
  exact eq_iff_of_prefixes (adds.fold state alone) (adds.fold _ rest)

end Forest

end CMinusAnalysis
