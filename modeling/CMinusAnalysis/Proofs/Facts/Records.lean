import CMinusAnalysis.Facts.Basic
import CMinusAnalysis.Proofs.Tree.Trace

namespace CMinusAnalysis

/-! What a pass records about nodes. Every visit says something new about no
node but its own, so where each node stands once, a record is final as soon as
its node has been left. -/

theorem NodeTable.lastFilled_empty {α : Type u} :
    (#[] : Array (Option α)).back? ≠ some none := by
  simp

def Facts.blank : Facts where
  types := ⟨#[], NodeTable.lastFilled_empty⟩
  blocks := ⟨#[], NodeTable.lastFilled_empty⟩
  functions := ⟨#[], NodeTable.lastFilled_empty⟩
  unresolved := ⟨#[], NodeTable.lastFilled_empty⟩

structure Facts.AgreeAt (left right : Facts) (key : NodeId) : Prop where
  types : right.types.get? key = left.types.get? key
  blocks : right.blocks.get? key = left.blocks.get? key
  functions : right.functions.get? key = left.functions.get? key
  unresolved : right.unresolved.get? key = left.unresolved.get? key

namespace Facts.AgreeAt

variable {left middle right : Facts} {key : NodeId}

theorem refl (facts : Facts) (key : NodeId) : facts.AgreeAt facts key :=
  ⟨rfl, rfl, rfl, rfl⟩

theorem trans (first : left.AgreeAt middle key)
    (second : middle.AgreeAt right key) : left.AgreeAt right key :=
  ⟨second.types.trans first.types, second.blocks.trans first.blocks,
    second.functions.trans first.functions,
    second.unresolved.trans first.unresolved⟩

end Facts.AgreeAt

/-- A visit says something new about its own node only. -/
structure Recording (facts : σ → Facts) (enter leave : σ → Site → σ) :
    Prop where
  entering : ∀ (state : σ) (site : Site) {key : NodeId}, key ≠ site.id →
    (facts state).AgreeAt (facts (enter state site)) key
  leaving : ∀ (state : σ) (site : Site) {key : NodeId}, key ≠ site.id →
    (facts state).AgreeAt (facts (leave state site)) key

/-- About the nodes of a forest, a walk through it starts with what `initial`
says and ends with what `final` says. -/
structure Records (facts : σ → Facts) (enter leave : σ → Site → σ)
    (initial final : Facts) (state : σ) (forest : Forest) : Prop where
  distinct : forest.ids.Nodup
  start : ∀ {key}, key ∈ forest.ids → initial.AgreeAt (facts state) key
  finish : ∀ {key}, key ∈ forest.ids →
    (facts (forest.fold enter leave state)).AgreeAt final key

section

variable {facts : σ → Facts} {enter leave : σ → Site → σ}
  {initial final : Facts} {state : σ} {site : Site}
  {first second third rest : Forest}

theorem Recording.fold (recording : Recording facts enter leave) (state : σ)
    {forest : Forest} {key : NodeId} (outside : key ∉ forest.ids) :
    (facts state).AgreeAt (facts (forest.fold enter leave state)) key := by
  induction forest generalizing state with
  | nil => exact .refl _ _
  | missing fault => exact .refl _ _
  | cons site first second third rest inFirst inSecond inThird inRest =>
      simp only [Forest.ids, List.mem_cons, List.mem_append, not_or] at outside
      obtain ⟨other, notFirst, notSecond, notThird, notRest⟩ := outside
      exact (((((recording.entering state site other).trans
        (inFirst _ notFirst)).trans (inSecond _ notSecond)).trans
          (inThird _ notThird)).trans
            (recording.leaving _ site other)).trans (inRest _ notRest)

namespace Records

theorem own (recording : Recording facts enter leave)
    (records : Records facts enter leave initial final state
      (.cons site first second third rest)) :
    let inside := enter state site
    let afterThird := third.fold enter leave (second.fold enter leave
      (first.fold enter leave inside))
    initial.AgreeAt (facts state) site.id ∧
      (facts inside).AgreeAt (facts afterThird) site.id ∧
      (facts (leave afterThird site)).AgreeAt final site.id := by
  obtain ⟨apart, _⟩ := Forest.nodup_ids_cons_iff.mp records.distinct
  obtain ⟨inFirst, inSecond, inThird, inRest⟩ := apart.site
  refine ⟨records.start List.mem_cons_self, ?_, ?_⟩
  · exact ((recording.fold _ inFirst).trans
      (recording.fold _ inSecond)).trans (recording.fold _ inThird)
  · exact (recording.fold _ inRest).trans (records.finish List.mem_cons_self)

theorem parts (recording : Recording facts enter leave)
    (records : Records facts enter leave initial final state
      (.cons site first second third rest)) :
    let inside := enter state site
    let afterFirst := first.fold enter leave inside
    let afterSecond := second.fold enter leave afterFirst
    let afterThird := third.fold enter leave afterSecond
    Records facts enter leave initial final inside first ∧
      Records facts enter leave initial final afterFirst second ∧
      Records facts enter leave initial final afterSecond third ∧
      Records facts enter leave initial final (leave afterThird site) rest := by
  obtain ⟨apart, distinctFirst, distinctSecond, distinctThird, distinctRest⟩ :=
    Forest.nodup_ids_cons_iff.mp records.distinct
  have below {key : NodeId} (member : key ∈ first.ids ∨ key ∈ second.ids ∨
      key ∈ third.ids ∨ key ∈ rest.ids) :
      key ∈ (Forest.cons site first second third rest).ids := by
    simpa [Forest.ids] using Or.inr member
  have other {key : NodeId} (member : key ∈ first.ids ∨ key ∈ second.ids ∨
      key ∈ third.ids ∨ key ∈ rest.ids) : key ≠ site.id := by
    rintro rfl
    obtain ⟨inFirst, inSecond, inThird, inRest⟩ := apart.site
    tauto
  have inside {key : NodeId} (member : key ∈ first.ids ∨ key ∈ second.ids ∨
      key ∈ third.ids ∨ key ∈ rest.ids) :
      initial.AgreeAt (facts (enter state site)) key :=
    (records.start (below member)).trans
      (recording.entering state site (other member))
  have not_first {key : NodeId} (member : key ∈ second.ids ∨ key ∈ third.ids ∨
      key ∈ rest.ids) : key ∉ first.ids := by
    intro early
    have later := apart.first early
    tauto
  have not_second {key : NodeId} (member : key ∈ third.ids ∨ key ∈ rest.ids) :
      key ∉ second.ids := by
    intro early
    have later := apart.second early
    tauto
  refine ⟨⟨distinctFirst, ?_, ?_⟩, ⟨distinctSecond, ?_, ?_⟩,
    ⟨distinctThird, ?_, ?_⟩, ⟨distinctRest, ?_, ?_⟩⟩
  · exact fun member => inside (.inl member)
  · intro key member
    obtain ⟨inSecond, inThird, inRest⟩ := apart.first member
    exact ((((recording.fold _ inSecond).trans
      (recording.fold _ inThird)).trans
        (recording.leaving _ site (other (.inl member)))).trans
          (recording.fold _ inRest)).trans
            (records.finish (below (.inl member)))
  · intro key member
    exact (inside (.inr (.inl member))).trans
      (recording.fold _ (not_first (.inl member)))
  · intro key member
    obtain ⟨inThird, inRest⟩ := apart.second member
    exact (((recording.fold _ inThird).trans
      (recording.leaving _ site (other (.inr (.inl member))))).trans
        (recording.fold _ inRest)).trans
          (records.finish (below (.inr (.inl member))))
  · intro key member
    exact ((inside (.inr (.inr (.inl member)))).trans
      (recording.fold _ (not_first (.inr (.inl member))))).trans
        (recording.fold _ (not_second (.inl member)))
  · intro key member
    exact ((recording.leaving _ site (other (.inr (.inr (.inl member))))).trans
      (recording.fold _ (apart.third member))).trans
        (records.finish (below (.inr (.inr (.inl member)))))
  · intro key member
    have not_third : key ∉ third.ids := fun early => apart.third early member
    exact ((((inside (.inr (.inr (.inr member)))).trans
      (recording.fold _ (not_first (.inr (.inr member))))).trans
        (recording.fold _ (not_second (.inr member)))).trans
          (recording.fold _ not_third)).trans
            (recording.leaving _ site (other (.inr (.inr (.inr member)))))
  · exact fun member => records.finish (below (.inr (.inr (.inr member))))

theorem children (recording : Recording facts enter leave)
    (records : Records facts enter leave initial final state
      (.cons site first second third rest)) {key : NodeId}
    (member : key ∈ first.ids ∨ key ∈ second.ids ∨ key ∈ third.ids) :
    (facts (third.fold enter leave (second.fold enter leave
      (first.fold enter leave (enter state site))))).AgreeAt final key := by
  obtain ⟨apart, _⟩ := Forest.nodup_ids_cons_iff.mp records.distinct
  obtain ⟨notFirst, notSecond, notThird, _⟩ := apart.site
  have other : key ≠ site.id := by
    rintro rfl
    tauto
  have beside : key ∉ rest.ids := by
    rcases member with member | member | member
    · exact (apart.first member).2.2
    · exact (apart.second member).2
    · exact apart.third member
  have listed : key ∈ (Forest.cons site first second third rest).ids := by
    simp only [Forest.ids, List.mem_cons, List.mem_append]
    tauto
  exact ((recording.leaving _ site other).trans
    (recording.fold _ beside)).trans (records.finish listed)

theorem alone (recording : Recording facts enter leave)
    (records : Records facts enter leave initial final state
      (.cons site first second third rest)) :
    Records facts enter leave initial final state
      (.cons site first second third .nil) := by
  obtain ⟨apart, distinctFirst, distinctSecond, distinctThird, _⟩ :=
    Forest.nodup_ids_cons_iff.mp records.distinct
  have listed {key : NodeId}
      (member : key ∈ (Forest.cons site first second third .nil).ids) :
      key ∈ (Forest.cons site first second third rest).ids := by
    simp only [Forest.ids, List.mem_cons, List.mem_append, List.append_nil]
      at member ⊢
    tauto
  have beside {key : NodeId}
      (member : key ∈ (Forest.cons site first second third .nil).ids) :
      key ∉ rest.ids := by
    simp only [Forest.ids, List.mem_cons, List.mem_append, List.append_nil]
      at member
    rcases member with rfl | member | member | member
    · exact apart.site.2.2.2
    · exact (apart.first member).2.2
    · exact (apart.second member).2
    · exact apart.third member
  refine ⟨?_, fun member => records.start (listed member), ?_⟩
  · apply Forest.nodup_ids_cons_iff.mpr
    obtain ⟨notFirst, notSecond, notThird, _⟩ := apart.site
    refine ⟨⟨⟨notFirst, notSecond, notThird, by simp [Forest.ids]⟩, ?_, ?_, ?_⟩,
      distinctFirst, distinctSecond, distinctThird, List.nodup_nil⟩
    · intro key member
      obtain ⟨inSecond, inThird, _⟩ := apart.first member
      exact ⟨inSecond, inThird, by simp [Forest.ids]⟩
    · intro key member
      exact ⟨(apart.second member).1, by simp [Forest.ids]⟩
    · simp [Forest.ids]
  · intro key member
    exact (recording.fold _ (beside member)).trans
      (records.finish (listed member))

end Records

end

end CMinusAnalysis
