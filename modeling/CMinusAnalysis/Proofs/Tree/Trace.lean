import CMinusAnalysis.Proofs.Outcome
import CMinusAnalysis.Proofs.Tree.Unfolding
import CMinusAnalysis.Tree.Walk

namespace CMinusAnalysis

/-! A walk as a sequence of steps between states. The trace of a walk pairs
every stop with the state in which it is made, so that a statement about the
state at some visit is one about a member of the trace. Where no visit fails,
the walk is a fold over the forest, and a stop is a place that the fold
reaches. -/

/-- The stops of a walk, each with the state that it finds. -/
def trace (step : σ → Visit → Except Fault σ) :
    σ → List (Route × Visit) → List (σ × Route × Visit)
  | _, [] => []
  | state, stop :: stops =>
      (state, stop) :: match step state stop.2 with
        | .ok next => trace step next stops
        | .error _ => []

theorem trace_append {step : σ → Visit → Except Fault σ}
    {left right : List (Route × Visit)} {state middle : σ}
    (done : (left.map Prod.snd).foldlM step state = .ok middle) :
    trace step state (left ++ right) =
      trace step state left ++ trace step middle right := by
  induction left generalizing state with
  | nil =>
      cases done
      rfl
  | cons stop stops induction =>
      rw [List.map_cons, List.foldlM_cons] at done
      obtain ⟨next, made, done⟩ := bind_eq_ok_iff.mp done
      simp only [List.cons_append, trace, made, induction done]

theorem mem_of_mem_trace {step : σ → Visit → Except Fault σ}
    {stops : List (Route × Visit)} {state found : σ} {stop : Route × Visit}
    (member : (found, stop) ∈ trace step state stops) : stop ∈ stops := by
  induction stops generalizing state with
  | nil => cases member
  | cons head tail induction =>
      rw [trace, List.mem_cons] at member
      rcases member with same | later
      · cases same
        exact List.mem_cons_self
      · split at later
        · exact List.mem_cons_of_mem _ (induction later)
        · cases later

theorem exists_mem_trace {step : σ → Visit → Except Fault σ}
    {stops : List (Route × Visit)} {state final : σ}
    (done : (stops.map Prod.snd).foldlM step state = .ok final)
    {stop : Route × Visit} (member : stop ∈ stops) :
    ∃ found, (found, stop) ∈ trace step state stops := by
  induction stops generalizing state with
  | nil => cases member
  | cons head tail induction =>
      rw [List.map_cons, List.foldlM_cons] at done
      obtain ⟨next, made, done⟩ := bind_eq_ok_iff.mp done
      simp only [trace, made]
      rcases List.mem_cons.mp member with rfl | later
      · exact ⟨state, List.mem_cons_self⟩
      · obtain ⟨found, listed⟩ := induction done later
        exact ⟨found, List.mem_cons_of_mem _ listed⟩

theorem map_snd_trace {step : σ → Visit → Except Fault σ}
    {stops : List (Route × Visit)} {state final : σ}
    (done : (stops.map Prod.snd).foldlM step state = .ok final) :
    (trace step state stops).map Prod.snd = stops := by
  induction stops generalizing state with
  | nil => rfl
  | cons stop stops induction =>
      rw [List.map_cons, List.foldlM_cons] at done
      obtain ⟨next, made, done⟩ := bind_eq_ok_iff.mp done
      simp only [trace, made, List.map_cons, induction done]

theorem filterMap_concat (select : α → Option β) (list : List α) (last : α) :
    (list ++ [last]).filterMap select =
      list.filterMap select ++ (select last).toList := by
  rw [List.filterMap_append]
  cases found : select last <;> simp [found]

theorem filterMap_concat_none {select : α → Option β} {list : List α}
    {last : α} (none : select last = none) :
    (list ++ [last]).filterMap select = list.filterMap select := by
  rw [filterMap_concat, none]
  exact List.append_nil _

/-- What holds at the start with nothing behind it, and is kept by every step
with that step behind it, holds at the end with the whole trace behind it. -/
theorem trace_induction {step : σ → Visit → Except Fault σ}
    {motive : σ → List (σ × Route × Visit) → Prop}
    {stops : List (Route × Visit)} {state final : σ}
    (done : (stops.map Prod.snd).foldlM step state = .ok final)
    (initially : motive state [])
    (onward : ∀ {found next : σ} {stop : Route × Visit}
      {past : List (σ × Route × Visit)}, stop ∈ stops →
      step found stop.2 = .ok next → motive found past →
      motive next (past ++ [(found, stop)])) :
    motive final (trace step state stops) := by
  suffices general : ∀ past, motive state past →
      motive final (past ++ trace step state stops) from general [] initially
  clear initially
  induction stops generalizing state with
  | nil =>
      cases done
      intro past holds
      rw [trace, List.append_nil]
      exact holds
  | cons stop stops induction =>
      rw [List.map_cons, List.foldlM_cons] at done
      obtain ⟨next, made, done⟩ := bind_eq_ok_iff.mp done
      intro past holds
      have after := induction done
        (fun member => onward (List.mem_cons_of_mem _ member)) _
        (onward List.mem_cons_self made holds)
      simpa [trace, made] using after

theorem holds_of_mem_trace {step : σ → Visit → Except Fault σ}
    {motive : σ → Prop} {stops : List (Route × Visit)} {state found : σ}
    {stop : Route × Visit} (initially : motive state)
    (onward : ∀ {found next : σ} {visit : Visit}, motive found →
      step found visit = .ok next → motive next)
    (member : (found, stop) ∈ trace step state stops) : motive found := by
  induction stops generalizing state with
  | nil => cases member
  | cons head tail induction =>
      rw [trace, List.mem_cons] at member
      rcases member with same | later
      · cases same
        exact initially
      · split at later
        · next next made => exact induction (onward initially made) later
        · cases later

theorem exists_split_of_mem_trace {step : σ → Visit → Except Fault σ}
    {stops : List (Route × Visit)} {state final found : σ}
    {stop : Route × Visit}
    (done : (stops.map Prod.snd).foldlM step state = .ok final)
    (member : (found, stop) ∈ trace step state stops) :
    ∃ before after, stops = before ++ stop :: after ∧
      (before.map Prod.snd).foldlM step state = .ok found ∧
      ((stop :: after).map Prod.snd).foldlM step found = .ok final := by
  induction stops generalizing state with
  | nil => cases member
  | cons head tail induction =>
      have whole := done
      rw [List.map_cons, List.foldlM_cons] at done
      obtain ⟨next, made, done⟩ := bind_eq_ok_iff.mp done
      simp only [trace, made, List.mem_cons] at member
      rcases member with same | later
      · cases same
        exact ⟨[], tail, rfl, rfl, whole⟩
      · obtain ⟨before, after, rfl, here, onward⟩ := induction done later
        refine ⟨head :: before, after, rfl, ?_, onward⟩
        rw [List.map_cons, List.foldlM_cons, made]
        exact here

namespace Forest

def traverse (step : σ → Visit → Except Fault σ) (forest : Forest)
    (state : σ) : Except Fault σ :=
  forest.visits.foldlM step state

def fold (enter leave : σ → Site → σ) (state : σ) : Forest → σ
  | .nil => state
  | .missing _ => state
  | .cons site first second third rest =>
      fold enter leave
        (leave (fold enter leave (fold enter leave (fold enter leave
          (enter state site) first) second) third) site) rest

/-- From a state and a route, a walk through the forest comes to a part of it
in another state. -/
inductive Reaches (enter leave : σ → Site → σ) :
    σ → Route → Forest → σ → Route → Forest → Prop
  | here {state : σ} {route : Route} {forest : Forest} :
      Reaches enter leave state route forest state route forest
  | first {state found : σ} {route along : Route} {site : Site}
      {first second third rest part : Forest}
      (onward : Reaches enter leave (enter state site)
        ((site, .first) :: route) first found along part) :
      Reaches enter leave state route (.cons site first second third rest)
        found along part
  | second {state found : σ} {route along : Route} {site : Site}
      {first second third rest part : Forest}
      (onward : Reaches enter leave
        (fold enter leave (enter state site) first)
        ((site, .second) :: route) second found along part) :
      Reaches enter leave state route (.cons site first second third rest)
        found along part
  | third {state found : σ} {route along : Route} {site : Site}
      {first second third rest part : Forest}
      (onward : Reaches enter leave
        (fold enter leave (fold enter leave (enter state site) first) second)
        ((site, .third) :: route) third found along part) :
      Reaches enter leave state route (.cons site first second third rest)
        found along part
  | rest {state found : σ} {route along : Route} {site : Site}
      {first second third rest part : Forest}
      (onward : Reaches enter leave
        (leave (fold enter leave (fold enter leave (fold enter leave
          (enter state site) first) second) third) site)
        ((site, .sibling) :: route) rest found along part) :
      Reaches enter leave state route (.cons site first second third rest)
        found along part

/-- From states that hold no visit of these nodes fails, and the next state
holds again. -/
structure Steps (step : σ → Visit → Except Fault σ)
    (enter leave : σ → Site → σ) (holds : σ → Prop) (sites : List Site) :
    Prop where
  entering : ∀ {state site}, site ∈ sites → holds state →
    step state (.enter site) = .ok (enter state site) ∧
      holds (enter state site)
  leaving : ∀ {state site}, site ∈ sites → holds state →
    step state (.leave site) = .ok (leave state site) ∧
      holds (leave state site)

section

variable {step : σ → Visit → Except Fault σ} {enter leave : σ → Site → σ}
  {holds : σ → Prop} {state found : σ} {route along : Route}
  {forest part : Forest}

theorem traverse_cons (step : σ → Visit → Except Fault σ) (state : σ)
    (site : Site) (first second third rest : Forest) :
    (Forest.cons site first second third rest).traverse step state =
      step state (.enter site) >>= fun inside =>
      first.traverse step inside >>= fun afterFirst =>
      second.traverse step afterFirst >>= fun afterSecond =>
      third.traverse step afterSecond >>= fun afterThird =>
      step afterThird (.leave site) >>= rest.traverse step := by
  simp only [traverse, visits_cons, List.foldlM_cons, List.foldlM_append]
  rfl

theorem traverse_cons_eq_ok_iff {site : Site}
    {first second third rest : Forest} {final : σ} :
    (Forest.cons site first second third rest).traverse step state =
        .ok final ↔
      ∃ inside, step state (.enter site) = .ok inside ∧
      ∃ afterFirst, first.traverse step inside = .ok afterFirst ∧
      ∃ afterSecond, second.traverse step afterFirst = .ok afterSecond ∧
      ∃ afterThird, third.traverse step afterSecond = .ok afterThird ∧
      ∃ outside, step afterThird (.leave site) = .ok outside ∧
        rest.traverse step outside = .ok final := by
  simp only [traverse_cons, bind_eq_ok_iff]

theorem Steps.mono {sites fewer : List Site}
    (steps : Steps step enter leave holds sites) (subset : fewer ⊆ sites) :
    Steps step enter leave holds fewer :=
  ⟨fun member => steps.entering (subset member),
    fun member => steps.leaving (subset member)⟩

theorem Steps.parts {site : Site} {first second third rest : Forest}
    (steps : Steps step enter leave holds
      (Forest.cons site first second third rest).sites) :
    Steps step enter leave holds first.sites ∧
      Steps step enter leave holds second.sites ∧
      Steps step enter leave holds third.sites ∧
      Steps step enter leave holds rest.sites := by
  refine ⟨steps.mono ?_, steps.mono ?_, steps.mono ?_, steps.mono ?_⟩ <;>
    intro target member <;> simp [sites, member]

theorem Steps.traverse (steps : Steps step enter leave holds forest.sites)
    (complete : forest.Complete) (initially : holds state) :
    forest.traverse step state = .ok (fold enter leave state forest) ∧
      holds (fold enter leave state forest) := by
  induction forest generalizing state with
  | nil => exact ⟨rfl, initially⟩
  | missing fault => exact complete.elim
  | cons site first second third rest inFirst inSecond inThird inRest =>
      obtain ⟨overFirst, overSecond, overThird, overRest⟩ := steps.parts
      have listed : site ∈ (Forest.cons site first second third rest).sites :=
        List.mem_cons_self
      obtain ⟨entered, held⟩ := steps.entering listed initially
      obtain ⟨doneFirst, held⟩ := inFirst overFirst complete.1 held
      obtain ⟨doneSecond, held⟩ := inSecond overSecond complete.2.1 held
      obtain ⟨doneThird, held⟩ := inThird overThird complete.2.2.1 held
      obtain ⟨left, held⟩ := steps.leaving listed held
      obtain ⟨doneRest, held⟩ := inRest overRest complete.2.2.2 held
      exact ⟨traverse_cons_eq_ok_iff.mpr ⟨_, entered, _, doneFirst, _,
        doneSecond, _, doneThird, _, left, doneRest⟩, held⟩

theorem complete_of_traverse
    (fails : ∀ (state : σ) (fault : Fault),
      step state (.missing fault) = .error fault) {final : σ}
    (done : forest.traverse step state = .ok final) : forest.Complete := by
  induction forest generalizing state final with
  | nil => trivial
  | missing fault => simp [Forest.traverse, fails] at done
  | cons site first second third rest inFirst inSecond inThird inRest =>
      obtain ⟨_, _, _, doneFirst, _, doneSecond, _, doneThird, _, _, doneRest⟩ :=
        traverse_cons_eq_ok_iff.mp done
      exact ⟨inFirst doneFirst, inSecond doneSecond, inThird doneThird,
        inRest doneRest⟩

theorem exists_reaches (enter leave : σ → Site → σ) (state : σ) {site : Site}
    (stop : (along, Visit.enter site) ∈ forest.stops route) :
    ∃ found first second third rest, Reaches enter leave state route forest
      found along (.cons site first second third rest) := by
  induction forest generalizing state route with
  | nil => cases stop
  | missing fault => simp [stops] at stop
  | cons head first second third rest inFirst inSecond inThird inRest =>
      simp only [stops, List.mem_cons, List.mem_append, Prod.mk.injEq,
        Visit.enter.injEq, reduceCtorEq, and_false, false_or] at stop
      rcases stop with ⟨rfl, rfl⟩ | stop | stop | stop | stop
      · exact ⟨state, first, second, third, rest, .here⟩
      · obtain ⟨_, _, _, _, _, reaches⟩ := inFirst (enter state head) stop
        exact ⟨_, _, _, _, _, .first reaches⟩
      · obtain ⟨_, _, _, _, _, reaches⟩ := inSecond _ stop
        exact ⟨_, _, _, _, _, .second reaches⟩
      · obtain ⟨_, _, _, _, _, reaches⟩ := inThird _ stop
        exact ⟨_, _, _, _, _, .third reaches⟩
      · obtain ⟨_, _, _, _, _, reaches⟩ := inRest _ stop
        exact ⟨_, _, _, _, _, .rest reaches⟩

theorem Reaches.invariant (invariant : σ → Route → Forest → Prop)
    (onward : ∀ {state : σ} {route : Route} {site : Site}
      {first second third rest : Forest},
      invariant state route (.cons site first second third rest) →
      let inside := enter state site
      let afterFirst := fold enter leave inside first
      let afterSecond := fold enter leave afterFirst second
      let afterThird := fold enter leave afterSecond third
      invariant inside ((site, .first) :: route) first ∧
        invariant afterFirst ((site, .second) :: route) second ∧
        invariant afterSecond ((site, .third) :: route) third ∧
        invariant (leave afterThird site) ((site, .sibling) :: route) rest)
    (reaches : Reaches enter leave state route forest found along part)
    (initially : invariant state route forest) : invariant found along part := by
  induction reaches with
  | here => exact initially
  | first _ induction => exact induction (onward initially).1
  | second _ induction => exact induction (onward initially).2.1
  | third _ induction => exact induction (onward initially).2.2.1
  | rest _ induction => exact induction (onward initially).2.2.2

theorem Reaches.exists_extension
    (reaches : Reaches enter leave state route forest found along part) :
    ∃ extension, along = extension ++ route := by
  induction reaches with
  | here => exact ⟨[], rfl⟩
  | first _ induction | second _ induction | third _ induction
  | rest _ induction =>
      obtain ⟨extension, rfl⟩ := induction
      exact ⟨_, List.append_cons extension _ _⟩

section

variable {other : σ} {again : Forest} {site : Site} {link turn : Link}

theorem Reaches.not_back (onward : Reaches enter leave state
      ((site, link) :: route) forest found route part) : False := by
  obtain ⟨extension, same⟩ := onward.exists_extension
  exact Route.ne_of_longer extension _ route same.symm

theorem Reaches.link_eq {forest' : Forest} {state' : σ}
    (left : Reaches enter leave state ((site, link) :: route) forest found
      along part)
    (right : Reaches enter leave state' ((site, turn) :: route) forest' other
      along again) : link = turn := by
  obtain ⟨_, toLeft⟩ := left.exists_extension
  obtain ⟨_, toRight⟩ := right.exists_extension
  have same := Route.step_eq_of_append_eq (toLeft.symm.trans toRight)
  exact (Prod.mk.inj same).2

theorem Reaches.unique
    (left : Reaches enter leave state route forest found along part)
    (right : Reaches enter leave state route forest other along again) :
    found = other ∧ part = again := by
  induction left with
  | here =>
      cases right with
      | here => exact ⟨rfl, rfl⟩
      | first onward | second onward | third onward | rest onward =>
          exact onward.not_back.elim
  | first onward induction =>
      cases right with
      | here => exact onward.not_back.elim
      | first other => exact induction other
      | second other | third other | rest other => cases onward.link_eq other
  | second onward induction =>
      cases right with
      | here => exact onward.not_back.elim
      | second other => exact induction other
      | first other | third other | rest other => cases onward.link_eq other
  | third onward induction =>
      cases right with
      | here => exact onward.not_back.elim
      | third other => exact induction other
      | first other | second other | rest other => cases onward.link_eq other
  | rest onward induction =>
      cases right with
      | here => exact onward.not_back.elim
      | rest other => exact induction other
      | first other | second other | third other =>
          cases onward.link_eq other

theorem Reaches.before_second (reaches : Reaches enter leave state route forest
      found ((site, .second) :: along) part)
    (onward : route ≠ (site, .second) :: along) :
    ∃ before first third rest, Reaches enter leave state route forest before
        along (.cons site first part third rest) ∧
      found = fold enter leave (enter before site) first := by
  generalize target : (site, Link.second) :: along = longer at reaches onward
  induction reaches with
  | here => exact absurd rfl onward
  | @second state found route longer head first second third rest part inside
      induction =>
      subst target
      -- Either this was the last link of the route, or it goes on in the slot.
      by_cases here : (head, Link.second) :: route = (site, .second) :: along
      · cases here
        obtain ⟨rfl, rfl⟩ := inside.unique .here
        exact ⟨state, first, third, rest, .here, rfl⟩
      · obtain ⟨before, _, _, _, earlier, same⟩ := induction rfl here
        exact ⟨before, _, _, _, .second earlier, same⟩
  | first inside induction =>
      subst target
      obtain ⟨before, _, _, _, earlier, same⟩ := induction rfl (by simp)
      exact ⟨before, _, _, _, .first earlier, same⟩
  | third inside induction =>
      subst target
      obtain ⟨before, _, _, _, earlier, same⟩ := induction rfl (by simp)
      exact ⟨before, _, _, _, .third earlier, same⟩
  | rest inside induction =>
      subst target
      obtain ⟨before, _, _, _, earlier, same⟩ := induction rfl (by simp)
      exact ⟨before, _, _, _, .rest earlier, same⟩

end

theorem Steps.trace_cons {site : Site} {first second third rest : Forest}
    (steps : Steps step enter leave holds
      (Forest.cons site first second third rest).sites)
    (complete : (Forest.cons site first second third rest).Complete)
    (initially : holds state) :
    let inside := enter state site
    let afterFirst := fold enter leave inside first
    let afterSecond := fold enter leave afterFirst second
    let afterThird := fold enter leave afterSecond third
    holds inside ∧ holds afterFirst ∧ holds afterSecond ∧ holds afterThird ∧
      holds (leave afterThird site) ∧
      trace step state
          ((Forest.cons site first second third rest).stops route) =
        (state, route, .enter site) ::
          (trace step inside (first.stops ((site, .first) :: route)) ++
            (trace step afterFirst
                (second.stops ((site, .second) :: route)) ++
              (trace step afterSecond
                  (third.stops ((site, .third) :: route)) ++
                ((afterThird, route, .leave site) ::
                  trace step (leave afterThird site)
                    (rest.stops ((site, .sibling) :: route)))))) := by
  obtain ⟨overFirst, overSecond, overThird, _⟩ := steps.parts
  have listed : site ∈ (Forest.cons site first second third rest).sites :=
    List.mem_cons_self
  obtain ⟨entered, inside⟩ := steps.entering listed initially
  obtain ⟨doneFirst, afterFirst⟩ := overFirst.traverse complete.1 inside
  obtain ⟨doneSecond, afterSecond⟩ :=
    overSecond.traverse complete.2.1 afterFirst
  obtain ⟨doneThird, afterThird⟩ :=
    overThird.traverse complete.2.2.1 afterSecond
  obtain ⟨left, outside⟩ := steps.leaving listed afterThird
  refine ⟨inside, afterFirst, afterSecond, afterThird, outside, ?_⟩
  simp only [stops, trace, entered]
  rw [trace_append (by rw [map_snd_stops]; exact doneFirst),
    trace_append (by rw [map_snd_stops]; exact doneSecond),
    trace_append (by rw [map_snd_stops]; exact doneThird)]
  simp only [trace, left]

theorem Steps.reaches_of_enter
    (steps : Steps step enter leave holds forest.sites)
    (complete : forest.Complete) (initially : holds state) {site : Site}
    (member : (found, along, Visit.enter site) ∈
      trace step state (forest.stops route)) :
    ∃ first second third rest, Reaches enter leave state route forest found
      along (.cons site first second third rest) := by
  induction forest generalizing state route with
  | nil => cases member
  | missing fault => exact complete.elim
  | cons head first second third rest inFirst inSecond inThird inRest =>
      obtain ⟨inside, afterFirst, afterSecond, _, outside, split⟩ :=
        steps.trace_cons complete initially
      obtain ⟨overFirst, overSecond, overThird, overRest⟩ := steps.parts
      rw [split] at member
      simp only [List.mem_cons, List.mem_append, Prod.mk.injEq,
        Visit.enter.injEq, reduceCtorEq, and_false, false_or] at member
      rcases member with ⟨rfl, rfl, rfl⟩ | member | member | member | member
      · exact ⟨first, second, third, rest, .here⟩
      · obtain ⟨_, _, _, _, reaches⟩ :=
          inFirst overFirst complete.1 inside member
        exact ⟨_, _, _, _, .first reaches⟩
      · obtain ⟨_, _, _, _, reaches⟩ :=
          inSecond overSecond complete.2.1 afterFirst member
        exact ⟨_, _, _, _, .second reaches⟩
      · obtain ⟨_, _, _, _, reaches⟩ :=
          inThird overThird complete.2.2.1 afterSecond member
        exact ⟨_, _, _, _, .third reaches⟩
      · obtain ⟨_, _, _, _, reaches⟩ :=
          inRest overRest complete.2.2.2 outside member
        exact ⟨_, _, _, _, .rest reaches⟩

theorem Steps.reaches_of_leave
    (steps : Steps step enter leave holds forest.sites)
    (complete : forest.Complete) (initially : holds state) {site : Site}
    (member : (found, along, Visit.leave site) ∈
      trace step state (forest.stops route)) :
    ∃ before first second third rest, Reaches enter leave state route forest
      before along (.cons site first second third rest) ∧
      found = fold enter leave (fold enter leave (fold enter leave
        (enter before site) first) second) third := by
  induction forest generalizing state route with
  | nil => cases member
  | missing fault => exact complete.elim
  | cons head first second third rest inFirst inSecond inThird inRest =>
      obtain ⟨inside, afterFirst, afterSecond, _, outside, split⟩ :=
        steps.trace_cons complete initially
      obtain ⟨overFirst, overSecond, overThird, overRest⟩ := steps.parts
      rw [split] at member
      simp only [List.mem_cons, List.mem_append, Prod.mk.injEq,
        Visit.leave.injEq, reduceCtorEq, and_false, false_or] at member
      rcases member with member | member | member | ⟨rfl, rfl, rfl⟩ | member
      · obtain ⟨_, _, _, _, _, reaches, same⟩ :=
          inFirst overFirst complete.1 inside member
        exact ⟨_, _, _, _, _, .first reaches, same⟩
      · obtain ⟨_, _, _, _, _, reaches, same⟩ :=
          inSecond overSecond complete.2.1 afterFirst member
        exact ⟨_, _, _, _, _, .second reaches, same⟩
      · obtain ⟨_, _, _, _, _, reaches, same⟩ :=
          inThird overThird complete.2.2.1 afterSecond member
        exact ⟨_, _, _, _, _, .third reaches, same⟩
      · exact ⟨state, first, second, third, rest, .here, rfl⟩
      · obtain ⟨_, _, _, _, _, reaches, same⟩ :=
          inRest overRest complete.2.2.2 outside member
        exact ⟨_, _, _, _, _, .rest reaches, same⟩

end

end Forest

theorem result_foldlM (visit : σ → Visit → Run σ) (visits : List Visit)
    (state : σ) :
    (visits.foldlM visit state).result =
      visits.foldlM (fun state stop => (visit state stop).result) state := by
  induction visits generalizing state with
  | nil => rfl
  | cons stop stops induction =>
      rw [List.foldlM_cons, List.foldlM_cons, Run.result_bind]
      exact congrArg _ (funext fun next => induction next)

end CMinusAnalysis
