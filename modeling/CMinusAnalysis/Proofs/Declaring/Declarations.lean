import CMinusAnalysis.Proofs.Declaring.Frames
import CMinusAnalysis.Proofs.Declaring.Tables
import CMinusAnalysis.Proofs.Symbol.Arrivals

namespace CMinusAnalysis

/-! What a visit does to the symbols. A declaration gains one symbol or is
refused with one report, a use adds one line or is reported, and every other
visit leaves the symbols and the reports alone. -/

/-- What a declaration or a named parameter asks for. -/
structure Introduction where
  name : String
  type : Ty
  isFunction : Bool
  deriving DecidableEq, Repr

namespace NodeKind

def introduces? : NodeKind → Option Introduction
  | .declaration (.variable name _) => some ⟨name, .integer, false⟩
  | .declaration (.arrayVariable name _ _) =>
      some ⟨name, .integerArray, false⟩
  | .declaration (.function name spec) =>
      some ⟨name, Ty.ofReturnSpec spec, true⟩
  | .parameter entry => entry.name.map fun name => ⟨name, entry.type, false⟩
  | _ => none

def redeclared : NodeKind → DiagnosticKind
  | .declaration (.variable _ _) => .variableRedeclared
  | .declaration (.arrayVariable _ _ _) => .arrayRedeclared
  | .declaration (.function _ _) => .functionRedeclared
  | _ => .parameterRedeclared

variable {kind : NodeKind}

theorem use?_of_introduces? {introduction : Introduction}
    (introduces : kind.introduces? = some introduction) :
    kind.use? = none := by
  unfold introduces? at introduces
  split at introduces
  · rfl
  · rfl
  · rfl
  · rfl
  · cases introduces

end NodeKind

namespace Declaring

/-- The scope that takes the name: a function always goes to the outermost
one. -/
def taking (state : Declaring) (introduction : Introduction) : ScopeId :=
  if introduction.isFunction then ScopeId.global else state.current

/-- A declaration is not accepted: its scope has the name, or it is a function
with a name of its own inside another scope. -/
inductive Refusal (state : Declaring) (kind : NodeKind)
    (introduction : Introduction) : DiagnosticKind → Prop
  | taken {symbol : SymbolId}
      (found : state.table.lookupLocal (state.taking introduction)
        introduction.name = .ok (some symbol)) :
      Refusal state kind introduction kind.redeclared
  | inner (function : introduction.isFunction = true)
      (free : state.table.lookupLocal ScopeId.global introduction.name =
        .ok none)
      (inside : state.current ≠ ScopeId.global) :
      Refusal state kind introduction .functionNotGlobal

/-- The step gains the symbol that was asked for, in the next storage slot of
the scope that takes it, and reports nothing. -/
def Creates (before after : Declaring) (introduction : Introduction)
    (line : Nat) : Prop :=
  ∃ scope, before.table.scope (before.taking introduction) = .ok scope ∧
    before.table.Gains after.table
      { name := introduction.name
        type := introduction.type
        location := scope.nextLocation
        isFunction := introduction.isFunction
        latestLines := [line]
        scope := before.taking introduction } ∧
    after.diagnostics = before.diagnostics

/-- The step makes one report, and all symbols and scopes that there were stay
as they were. -/
structure Refuses (before after : Declaring) (kind : DiagnosticKind)
    (introduction : Introduction) (line : Nat) : Prop where
  diagnostics : after.diagnostics =
    before.diagnostics.add ⟨kind, line, some introduction.name⟩
  symbols : after.table.symbols = before.table.symbols
  scopes : ∀ {id : ScopeId} {scope : Scope},
    before.table.scope id = .ok scope → after.table.scope id = .ok scope

variable {state before after : Declaring} {site : Site}
  {introduction : Introduction}

theorem Sound.has_taking (sound : state.Sound)
    (introduction : Introduction) :
    state.table.Has (state.taking introduction) := by
  unfold taking
  split
  · exact sound.global
  · exact sound.current

theorem Refusal.unique {kind : NodeKind} {left right : DiagnosticKind}
    (first : state.Refusal kind introduction left)
    (second : state.Refusal kind introduction right) : left = right := by
  have apart {symbol : SymbolId} (function : introduction.isFunction = true)
      (found : state.table.lookupLocal (state.taking introduction)
        introduction.name = .ok (some symbol))
      (free : state.table.lookupLocal ScopeId.global introduction.name =
        .ok none) : False := by
    rw [taking, if_pos function, free] at found
    cases found
  cases first with
  | taken found =>
      cases second with
      | taken => rfl
      | inner function free => exact (apart function found free).elim
  | inner function free =>
      cases second with
      | taken found => exact (apart function found free).elim
      | inner => rfl

theorem not_refuses_of_creates {kind : DiagnosticKind} {line : Nat}
    (creates : before.Creates after introduction line)
    (refuses : before.Refuses after kind introduction line) : False := by
  obtain ⟨scope, _, gains, _⟩ := creates
  have size := gains.size
  rw [refuses.symbols] at size
  omega

theorem Refuses.kind_unique {left right : DiagnosticKind} {line : Nat}
    (first : before.Refuses after left introduction line)
    (second : before.Refuses after right introduction line) :
    left = right := by
  have same := congrArg Diagnostics.latestFirst
    (first.diagnostics.symm.trans second.diagnostics)
  simp only [Diagnostics.add, List.cons.injEq, Diagnostic.mk.injEq] at same
  exact same.1.1

theorem gains_withSignature {table : SymbolTable} {symbol : Symbol}
    (gains : table.Gains state.table symbol)
    (plain : symbol.isFunction = false) (type : Ty) :
    table.Gains (state.withSignature type).table symbol := by
  unfold withSignature
  split
  · unfold withSigned
    split
    · next function _ target hit =>
        apply gains.signed
        obtain ⟨entry, stored, isFunction⟩ :=
          SymbolTable.isFunction_of_globalFunction? hit
        have inside := (Array.getElem?_eq_some_iff.mp stored).1
        rw [gains.size] at inside
        apply Nat.lt_of_le_of_ne (Nat.le_of_lt_succ inside)
        intro last
        have same := fetch_eq_ok_iff.mp gains.last
        rw [← last, stored] at same
        rw [Option.some.inj same, plain] at isFunction
        cases isFunction
    · exact gains
  · exact gains

theorem creates_entered (sound : state.Sound)
    (introduces : site.node.kind.introduces? = some introduction)
    (free : state.table.find? (state.taking introduction)
      introduction.name = none)
    (outermost : introduction.isFunction = true →
      state.current = ScopeId.global) :
    state.Creates (state.entered site) introduction site.node.line := by
  have has := sound.has_taking introduction
  obtain ⟨scope, held⟩ := SymbolTable.exists_scope has
  have stored := SymbolTable.scope_eq_ok held
  have gains := SymbolTable.gains_declared sound.coherent stored free
    introduction.type site.node.line introduction.isFunction
  refine ⟨scope, stored, ?_⟩
  unfold NodeKind.introduces? at introduces
  split at introduces
  · next kind =>
      cases introduces
      change state.table.find? state.current _ = none at free
      simp only [entered, kind, withLocal, free, Option.isSome_none,
        Bool.false_eq_true, if_false]
      exact ⟨gains, rfl⟩
  · next kind =>
      cases introduces
      change state.table.find? state.current _ = none at free
      simp only [entered, kind, withLocal, free, Option.isSome_none,
        Bool.false_eq_true, if_false]
      exact ⟨gains, rfl⟩
  · next name spec kind =>
      cases introduces
      have accepted : state.objection? name = none := by
        change state.table.find? ScopeId.global _ = none at free
        simp [objection?, free, outermost]
      simp only [entered, kind, inFunction, withFunction, accepted, enclosed]
      exact ⟨gains.opened name _, rfl⟩
  · next parameter kind =>
      obtain ⟨name, named, rfl⟩ := Option.map_eq_some_iff.mp introduces
      change state.table.find? state.current _ = none at free
      simp only [entered, kind, withParameter, named, free,
        Option.isSome_none, Bool.false_eq_true, if_false]
      exact ⟨gains_withSignature gains rfl _, diagnostics_withSignature _⟩
  · cases introduces

theorem refuses_inFunction {name : String} {spec : Option TypeSpec}
    {kind : DiagnosticKind} (objected : state.objection? name = some kind)
    (id : NodeId) (line : Nat) :
    state.Refuses (state.inFunction id name (Ty.ofReturnSpec spec) line) kind
      ⟨name, Ty.ofReturnSpec spec, true⟩ line := by
  simp only [inFunction, withFunction, objected]
  exact ⟨rfl, rfl, SymbolTable.scope_opened⟩

theorem refuses_taken
    (introduces : site.node.kind.introduces? = some introduction)
    {symbol : SymbolId} (taken : state.table.find?
      (state.taking introduction) introduction.name = some symbol) :
    state.Refuses (state.entered site) site.node.kind.redeclared introduction
      site.node.line := by
  unfold NodeKind.introduces? at introduces
  split at introduces
  · next kind =>
      cases introduces
      change state.table.find? state.current _ = some _ at taken
      simp only [entered, kind, withLocal, taken, Option.isSome_some,
        if_true]
      exact ⟨rfl, rfl, fun stored => stored⟩
  · next kind =>
      cases introduces
      change state.table.find? state.current _ = some _ at taken
      simp only [entered, kind, withLocal, taken, Option.isSome_some,
        if_true]
      exact ⟨rfl, rfl, fun stored => stored⟩
  · next name spec kind =>
      cases introduces
      change state.table.find? ScopeId.global _ = some _ at taken
      simp only [entered, kind]
      exact refuses_inFunction (by simp [objection?, taken]; rfl) _ _
  · next parameter kind =>
      obtain ⟨name, named, rfl⟩ := Option.map_eq_some_iff.mp introduces
      change state.table.find? state.current _ = some _ at taken
      simp only [entered, kind, withParameter, named, taken,
        Option.isSome_some, if_true]
      exact ⟨rfl, rfl, fun stored => stored⟩
  · cases introduces

theorem refuses_inner
    (introduces : site.node.kind.introduces? = some introduction)
    (function : introduction.isFunction = true)
    (free : state.table.find? ScopeId.global introduction.name = none)
    (inside : state.current ≠ ScopeId.global) :
    state.Refuses (state.entered site) .functionNotGlobal introduction
      site.node.line := by
  unfold NodeKind.introduces? at introduces
  split at introduces
  · cases introduces
    cases function
  · cases introduces
    cases function
  · next name spec kind =>
      cases introduces
      simp only [entered, kind]
      exact refuses_inFunction (by simp [objection?, free, inside]) _ _
  · obtain ⟨name, _, rfl⟩ := Option.map_eq_some_iff.mp introduces
    cases function
  · cases introduces

theorem creates_or_refuses (sound : state.Sound)
    (introduces : site.node.kind.introduces? = some introduction) :
    (state.Creates (state.entered site) introduction site.node.line ∧
        ∀ kind, ¬ state.Refusal site.node.kind introduction kind) ∨
      ∃ kind, state.Refuses (state.entered site) kind introduction
          site.node.line ∧
        state.Refusal site.node.kind introduction kind := by
  have has := sound.has_taking introduction
  have looked := SymbolTable.lookupLocal_eq has introduction.name
  cases hit : state.table.find? (state.taking introduction)
      introduction.name with
  | some symbol =>
      rw [hit] at looked
      exact .inr ⟨_, refuses_taken introduces hit, .taken looked⟩
  | none =>
      rw [hit] at looked
      by_cases inner : introduction.isFunction = true ∧
          state.current ≠ ScopeId.global
      · obtain ⟨function, inside⟩ := inner
        rw [taking, if_pos function] at looked hit
        exact .inr ⟨_, refuses_inner introduces function hit inside,
          .inner function looked inside⟩
      · refine .inl ⟨creates_entered sound introduces hit ?_, ?_⟩
        · intro function
          apply Decidable.byContradiction
          exact fun inside => inner ⟨function, inside⟩
        · intro kind refusal
          cases refusal with
          | taken found => cases looked.symm.trans found
          | inner function _ inside => exact inner ⟨function, inside⟩

theorem creates_iff (sound : state.Sound)
    (introduces : site.node.kind.introduces? = some introduction) :
    state.Creates (state.entered site) introduction site.node.line ↔
      ∀ kind, ¬ state.Refusal site.node.kind introduction kind := by
  rcases creates_or_refuses sound introduces with
    ⟨creates, accepted⟩ | ⟨kind, refuses, refusal⟩
  · exact ⟨fun _ => accepted, fun _ => creates⟩
  · exact ⟨fun creates => (not_refuses_of_creates creates refuses).elim,
      fun accepted => (accepted kind refusal).elim⟩

theorem refuses_iff (sound : state.Sound)
    (introduces : site.node.kind.introduces? = some introduction)
    (kind : DiagnosticKind) :
    state.Refuses (state.entered site) kind introduction site.node.line ↔
      state.Refusal site.node.kind introduction kind := by
  rcases creates_or_refuses sound introduces with
    ⟨creates, accepted⟩ | ⟨other, refuses, refusal⟩
  · exact ⟨fun refuses => (not_refuses_of_creates creates refuses).elim,
      fun refusal => (accepted kind refusal).elim⟩
  · constructor
    · intro again
      rw [again.kind_unique refuses]
      exact refusal
    · intro again
      rw [again.unique refusal]
      exact refuses

/-- The step leaves the symbols, the reports and the scopes that there were as
they are. -/
structure Spares (before after : Declaring) : Prop where
  symbols : after.table.symbols = before.table.symbols
  diagnostics : after.diagnostics = before.diagnostics
  scopes : ∀ {id : ScopeId} {scope : Scope},
    before.table.scope id = .ok scope → after.table.scope id = .ok scope

theorem spares_withBlock (state : Declaring) (id : NodeId) :
    state.Spares (state.withBlock id) := by
  unfold withBlock
  split
  · exact ⟨rfl, rfl, fun stored => stored⟩
  · exact ⟨rfl, rfl, SymbolTable.scope_opened⟩

theorem spares_entered (state : Declaring)
    (introduces : site.node.kind.introduces? = none)
    (unused : site.node.kind.use? = none) :
    state.Spares (state.entered site) := by
  have still : state.Spares state := ⟨rfl, rfl, fun stored => stored⟩
  unfold entered
  split
  · next kind => simp [kind, NodeKind.introduces?] at introduces
  · next kind => simp [kind, NodeKind.introduces?] at introduces
  · next kind => simp [kind, NodeKind.introduces?] at introduces
  · next parameter kind =>
      have unnamed : parameter.name = none := by
        simpa [kind, NodeKind.introduces?] using introduces
      simp only [withParameter, unnamed]
      exact still
  · exact spares_withBlock state _
  · next kind => simp [kind, NodeKind.use?] at unused
  · next kind => simp [kind, NodeKind.use?] at unused
  · next kind => simp [kind, NodeKind.use?] at unused
  · exact still

inductive Effect (state : Declaring) (site : Site) : Prop
  | created {introduction : Introduction}
      (introduces : site.node.kind.introduces? = some introduction)
      (creates : state.Creates (state.entered site) introduction
        site.node.line)
  | refused {introduction : Introduction} {kind : DiagnosticKind}
      (introduces : site.node.kind.introduces? = some introduction)
      (refuses : state.Refuses (state.entered site) kind introduction
        site.node.line)
      (refusal : state.Refusal site.node.kind introduction kind)
  | spared (unused : site.node.kind.use? = none)
      (spares : state.Spares (state.entered site))
  | noted {name : String} {symbol : SymbolId}
      (use : site.node.kind.use? = some name)
      (resolves : state.table.resolve state.current name = some symbol)
      (same : state.entered site = { state with
        table := state.table.modifySymbol symbol (·.addLine site.node.line) })
  | missed {name : String} (use : site.node.kind.use? = some name)
      (unresolved : state.table.resolve state.current name = none)
      (same : state.entered site = { state with
        diagnostics := state.diagnostics.add
          ⟨.undeclared, site.node.line, some name⟩
        facts := state.facts.setUnresolved site.id })

theorem Sound.effect (sound : state.Sound) (site : Site) :
    state.Effect site := by
  cases introduces : site.node.kind.introduces? with
  | some introduction =>
      rcases creates_or_refuses sound introduces with
        ⟨creates, _⟩ | ⟨_, refuses, refusal⟩
      · exact .created introduces creates
      · exact .refused introduces refuses refusal
  | none =>
      cases use : site.node.kind.use? with
      | none => exact .spared use (spares_entered state introduces use)
      | some name =>
          have same : state.entered site =
              state.withUse site.id name site.node.line := entered_use use
          cases hit : state.table.resolve state.current name with
          | some symbol =>
              refine .noted use hit ?_
              rw [same, withUse, hit]
          | none =>
              refine .missed use hit ?_
              rw [same, withUse, hit]
              rfl

theorem scope_entered (sound : state.Sound)
    (size : (state.entered site).table.symbols.size =
      state.table.symbols.size) {id : ScopeId} {scope : Scope}
    (stored : state.table.scope id = .ok scope) :
    (state.entered site).table.scope id = .ok scope := by
  cases sound.effect site with
  | created _ creates =>
      obtain ⟨_, _, gains, _⟩ := creates
      have more := gains.size
      omega
  | refused _ refuses => exact refuses.scopes stored
  | spared _ spares => exact spares.scopes stored
  | noted _ _ same =>
      rw [same]
      exact stored
  | missed _ _ same =>
      rw [same]
      exact stored

theorem unresolved_of_unused (state : Declaring)
    (unused : site.node.kind.use? = none) :
    (state.entered site).facts.unresolved = state.facts.unresolved := by
  unfold entered
  split
  · simp only [inFunction, enclosed, withFunction]
    split <;> rfl
  · rw [facts_withLocal]
  · rw [facts_withLocal]
  · rw [facts_withParameter]
  · unfold withBlock
    split <;> rfl
  · next kind => simp [kind, NodeKind.use?] at unused
  · next kind => simp [kind, NodeKind.use?] at unused
  · next kind => simp [kind, NodeKind.use?] at unused
  · rfl

def created? : Declaring × Route × Visit → Option Symbol
  | (state, _, visit) =>
      match state.step visit with
      | .ok after => after.table.symbols[state.table.symbols.size]?
      | .error _ => none

theorem created?_eq_none {route : Route} {visit : Visit}
    (stepped : before.step visit = .ok after)
    (size : after.table.symbols.size = before.table.symbols.size) :
    created? (before, route, visit) = none := by
  simp [created?, stepped, size]

theorem created?_eq_some {route : Route} {visit : Visit} {symbol : Symbol}
    (stepped : before.step visit = .ok after)
    (gains : before.table.Gains after.table symbol) :
    created? (before, route, visit) = some symbol := by
  simp only [created?, stepped]
  exact fetch_eq_ok_iff.mp gains.last

theorem created?_leave (sound : state.Sound) (route : Route) (site : Site) :
    created? (state, route, .leave site) = none :=
  created?_eq_none (step_leave sound site) (by rw [table_left])

theorem size_symbols_entered (sound : state.Sound) (site : Site) :
    (∃ introduction, site.node.kind.introduces? = some introduction ∧
        state.Creates (state.entered site) introduction site.node.line) ∨
      (state.entered site).table.symbols.size = state.table.symbols.size := by
  cases sound.effect site with
  | created introduces creates => exact .inl ⟨_, introduces, creates⟩
  | refused _ refuses => exact .inr (by rw [refuses.symbols])
  | spared _ spares => exact .inr (by rw [spares.symbols])
  | noted _ _ same =>
      right
      rw [same]
      exact Array.size_modify
  | missed _ _ same => exact .inr (by rw [same])

theorem asDeclared_entered (sound : state.Sound) (dated : state.table.Dated)
    (route : Route) (site : Site) :
    (state.entered site).table.symbols.toList.map Symbol.asDeclared =
      state.table.symbols.toList.map Symbol.asDeclared ++
        (created? (state, route, .enter site)).toList := by
  have stepped := step_enter sound site
  have same (kept : (state.entered site).table.symbols.toList.map
        Symbol.asDeclared = state.table.symbols.toList.map Symbol.asDeclared)
      (size : (state.entered site).table.symbols.size =
        state.table.symbols.size) :
      (state.entered site).table.symbols.toList.map Symbol.asDeclared =
        state.table.symbols.toList.map Symbol.asDeclared ++
          (created? (state, route, .enter site)).toList := by
    rw [kept, created?_eq_none stepped size]
    exact (List.append_nil _).symm
  cases sound.effect site with
  | created _ creates =>
      obtain ⟨_, _, gains, _⟩ := creates
      rw [gains.map Symbol.asDeclared fun _ => rfl,
        created?_eq_some stepped gains]
      rfl
  | refused _ refuses =>
      exact same (by rw [refuses.symbols]) (by rw [refuses.symbols])
  | spared _ spares =>
      exact same (by rw [spares.symbols]) (by rw [spares.symbols])
  | noted _ _ noted =>
      rw [noted] at same ⊢
      exact same (SymbolTable.map_modifySymbol Symbol.asDeclared
        (fun symbol member =>
          Symbol.asDeclared_addLine (dated symbol member) _) _)
        Array.size_modify
  | missed _ _ missed =>
      rw [missed] at same ⊢
      exact same rfl rfl

theorem kept_dated : Kept SymbolTable.Dated where
  opened _ _ dated := dated
  declared name type line isFunction _ dated :=
    SymbolTable.dated_declared dated _ name type line isFunction
  used _ _ dated := by
    apply SymbolTable.dated_modifySymbol dated
    exact fun _ _ => List.cons_ne_nil _ _
  signed _ _ dated := by
    apply SymbolTable.dated_modifySymbol dated
    exact fun _ known => known

theorem dated_bare : bare.table.Dated := by
  intro symbol member
  cases member

def runtime : Bool → List Symbol
  | true => [
      { name := "output", type := .void, location := 0, isFunction := true,
        latestLines := [0], scope := ScopeId.global },
      { name := "input", type := .integer, location := 1, isFunction := true,
        latestLines := [0], scope := ScopeId.global }]
  | false => []

theorem unsigned_origin (builtins : Bool) :
    (origin builtins).table.symbols.toList.map Symbol.unsigned =
      runtime builtins := by
  cases builtins with
  | false => rfl
  | true => decide +kernel

theorem lines_runtime {symbol : Symbol} {builtins : Bool}
    (member : symbol ∈ runtime builtins) : symbol.lines = [0] := by
  cases builtins with
  | false => cases member
  | true =>
      simp only [runtime, List.mem_cons, List.not_mem_nil, or_false] at member
      rcases member with rfl | rfl <;> rfl

theorem asDeclared_origin (builtins : Bool) :
    (origin builtins).table.symbols.toList.map Symbol.asDeclared =
      runtime builtins := by
  calc
    (origin builtins).table.symbols.toList.map Symbol.asDeclared =
        ((origin builtins).table.symbols.toList.map Symbol.unsigned).map
          Symbol.asDeclared := by
      rw [List.map_map]
      rfl
    _ = (runtime builtins).map Symbol.asDeclared := by rw [unsigned_origin]
    _ = runtime builtins := by cases builtins <;> rfl

end Declaring

end CMinusAnalysis
