import CMinusAnalysis.Proofs.Declaring.Parameters

namespace CMinusAnalysis

def Entry.isSignatureRefusal : Entry → Bool
  | .signatureRefused _ => true
  | _ => false

namespace Run

/-- The run refuses no parameter. -/
def Smooth (run : Run α) : Prop :=
  ∀ entry ∈ run.journal, entry.isSignatureRefusal = false

theorem smooth_pure (value : α) : (pure value : Run α).Smooth := by
  intro entry noted
  cases noted

theorem smooth_lift (result : Except Fault α) :
    (monadLift result : Run α).Smooth := by
  intro entry noted
  cases noted

theorem smooth_record {entry : Entry}
    (fits : entry.isSignatureRefusal = false) : (record entry).Smooth := by
  intro noted member
  rw [journal_record, List.mem_singleton] at member
  exact member ▸ fits

theorem Smooth.bind {start : Run α} {next : α → Run β} (first : start.Smooth)
    (onward : ∀ value, start.result = .ok value → (next value).Smooth) :
    (start >>= next).Smooth := by
  cases ended : start.result with
  | error fault =>
      rw [Smooth, journal_bind_of_error ended]
      exact first
  | ok value =>
      intro entry noted
      rw [journal_bind_of_ok ended, List.mem_append] at noted
      rcases noted with noted | noted
      · exact first entry noted
      · exact onward value ended entry noted

theorem Smooth.map {run : Run α} (smooth : run.Smooth) (transform : α → β) :
    (transform <$> run).Smooth :=
  smooth.bind fun _ _ => smooth_pure _

theorem smooth_foldlM {visit : σ → Visit → Run σ} {holds : σ → Prop}
    (step : ∀ {state : σ} {stop : Visit}, holds state →
      (visit state stop).Smooth ∧
        ∀ next, (visit state stop).result = .ok next → holds next)
    (visits : List Visit) {state : σ} (initially : holds state) :
    (visits.foldlM visit state).Smooth := by
  induction visits generalizing state with
  | nil => exact smooth_pure state
  | cons stop stops induction =>
      rw [List.foldlM_cons]
      obtain ⟨smooth, onward⟩ := step initially
      exact smooth.bind fun next ended => induction (onward next ended)

end Run

open Run (Smooth smooth_pure smooth_lift smooth_record)

namespace SymbolTable

theorem smooth_createScope (table : SymbolTable) (name : String)
    (parent : Option ScopeId) : (table.createScope name parent).Smooth :=
  Smooth.bind (smooth_record rfl) fun _ _ => smooth_pure _

theorem smooth_addReference (table : SymbolTable) (id : SymbolId)
    (line : Nat) : (table.addReference id line).Smooth :=
  (smooth_lift _).bind fun _ _ =>
    Smooth.bind (smooth_record rfl) fun _ _ => smooth_pure _

theorem smooth_insert (table : SymbolTable) (id : ScopeId) (name : String)
    (type : Ty) (line location : Nat) (isFunction : Bool) :
    (table.insert id name type line location isFunction).Smooth := by
  refine (smooth_lift _).bind fun existing _ => ?_
  cases existing with
  | some symbol =>
      exact (table.smooth_addReference symbol line).bind fun _ _ =>
        smooth_pure _
  | none =>
      exact (smooth_lift _).bind fun _ _ =>
        Smooth.bind (smooth_record rfl) fun _ _ => smooth_pure _

end SymbolTable

namespace Declaring

/-- The open signature is that of a global function. -/
def Signing (state : Declaring) : Prop :=
  ∀ function ∈ state.signature,
    ∃ id, state.table.globalFunction? function = some id

variable {state : Declaring}

theorem smooth_report (state : Declaring) (kind : DiagnosticKind) (line : Nat)
    (name : String) : (state.report kind line name).Smooth :=
  Smooth.bind (smooth_record rfl) fun _ _ => smooth_pure _

theorem smooth_openScope (state : Declaring) (name : String) :
    (state.openScope name).Smooth :=
  (SymbolTable.smooth_createScope _ _ _).bind fun _ _ => smooth_pure _

theorem smooth_closeScope (state : Declaring) : state.closeScope.Smooth :=
  (smooth_lift _).bind fun _ _ => smooth_pure _

theorem smooth_declareIn (state : Declaring) (scope : ScopeId) (name : String)
    (type : Ty) (line : Nat) (isFunction : Bool) :
    (state.declareIn scope name type line isFunction).Smooth :=
  (smooth_lift _).bind fun _ _ =>
    (SymbolTable.smooth_insert _ _ _ _ _ _ _).bind fun _ _ => smooth_pure _

theorem smooth_declareLocal (state : Declaring) (name : String) (type : Ty)
    (line : Nat) (redeclared : DiagnosticKind) :
    (state.declareLocal name type line redeclared).Smooth := by
  refine (smooth_lift _).bind fun existing _ => ?_
  cases existing with
  | some symbol =>
      exact (state.smooth_report redeclared line name).bind fun _ _ =>
        smooth_pure _
  | none =>
      exact (state.smooth_declareIn _ name type line false).bind fun _ _ =>
        smooth_pure _

theorem smooth_addParameter {function : String} {id : SymbolId}
    (known : state.table.globalFunction? function = some id) (type : Ty) :
    (state.addParameter function type).Smooth := by
  simp only [addParameter, SymbolTable.addParameter, known]
  exact smooth_pure _

theorem smooth_enterFunction (state : Declaring) (id : NodeId) (name : String)
    (type : Ty) (line : Nat) :
    (state.enterFunction id name type line).Smooth := by
  refine (smooth_lift _).bind fun objection _ => ?_
  have opening (state : Declaring) : Smooth (do
      let opened ← state.openScope name
      return { opened.2 with awaiting := some opened.1 }) :=
    (state.smooth_openScope name).bind fun _ _ => smooth_pure _
  cases objection with
  | some kind =>
      exact (state.smooth_report kind line name).bind fun _ _ => opening _
  | none =>
      exact (state.smooth_declareIn _ name type line true).bind
        fun _ _ => opening _

theorem Signing.later {before after : Declaring} (signing : before.Signing)
    (sound : before.Sound) (grows : before.Grows after)
    (same : after.signature = before.signature) : after.Signing := by
  intro function opened
  obtain ⟨id, known⟩ := signing function (same ▸ opened)
  exact ⟨id, grows.table.globalFunction? sound.global known⟩

theorem smooth_declareParameter (sound : state.Sound)
    (signing : state.Signing) (parameter : Parameter) (line : Nat) :
    (state.declareParameter parameter line).Smooth := by
  unfold declareParameter
  split
  · exact smooth_pure _
  · split
    · exact smooth_pure _
    · next name _ =>
        refine (state.smooth_declareLocal name _ line _).bind ?_
        rintro ⟨isNew, later⟩ declared
        rw [declareLocal_result sound] at declared
        cases declared
        have still := signing.later sound
          (grows_withLocal sound name parameter.type line .parameterRedeclared)
          (by unfold withLocal; split <;> rfl)
        dsimp only
        split
        · next opened =>
            obtain ⟨id, known⟩ := still _ opened
            exact smooth_addParameter known _
        · exact smooth_pure _

theorem smooth_enterBlock (state : Declaring) (id : NodeId) :
    (state.enterBlock id).Smooth := by
  unfold enterBlock
  split
  · exact smooth_pure _
  · exact (state.smooth_openScope _).bind fun _ _ => smooth_pure _

theorem smooth_resolveUse (state : Declaring) (id : NodeId) (name : String)
    (line : Nat) : (state.resolveUse id name line).Smooth := by
  refine (smooth_lift _).bind fun found _ => ?_
  cases found with
  | some symbol =>
      exact (state.table.smooth_addReference symbol line).bind fun _ _ =>
        smooth_pure _
  | none =>
      exact (state.smooth_report .undeclared line name).bind fun _ _ =>
        smooth_pure _

theorem smooth_leaveFunction (state : Declaring) :
    state.leaveFunction.Smooth := by
  unfold leaveFunction
  split
  · exact (smooth_closeScope _).bind fun _ _ => smooth_pure _
  · exact smooth_pure _

theorem smooth_visit (sound : state.Sound) (signing : state.Signing)
    (stop : Visit) : (state.visit stop).Smooth := by
  cases stop with
  | enter site =>
      simp only [visit, enter]
      split
      · exact state.smooth_enterFunction _ _ _ _
      · exact (state.smooth_declareLocal _ _ _ _).map _
      · exact (state.smooth_declareLocal _ _ _ _).map _
      · exact smooth_declareParameter sound signing _ _
      · exact state.smooth_enterBlock _
      · exact state.smooth_resolveUse _ _ _
      · exact state.smooth_resolveUse _ _ _
      · exact state.smooth_resolveUse _ _ _
      · exact smooth_pure _
  | leave site =>
      simp only [visit, leave]
      split
      · exact state.smooth_closeScope
      · exact state.smooth_leaveFunction
      · exact smooth_pure _
  | missing fault => exact smooth_lift _

theorem signature_entered (state : Declaring) {site : Site}
    (function : site.node.kind.isFunction = false) :
    (state.entered site).signature = state.signature := by
  have locally (name : String) (type : Ty) (line : Nat)
      (redeclared : DiagnosticKind) :
      (state.withLocal name type line redeclared).signature =
        state.signature := by
    unfold withLocal
    split <;> rfl
  have used (name : String) :
      (state.withUse site.id name site.node.line).signature =
        state.signature := by
    unfold withUse
    split <;> rfl
  unfold entered
  split
  · next kind => simp [kind, NodeKind.isFunction] at function
  · exact locally _ _ _ _
  · exact locally _ _ _ _
  · exact signature_withParameter _ _
  · unfold withBlock
    split <;> rfl
  · exact used _
  · exact used _
  · exact used _
  · rfl

theorem signing_entered (sound : state.Sound) (signing : state.Signing)
    (site : Site) : (state.entered site).Signing := by
  cases function : site.node.kind.isFunction with
  | false =>
      exact signing.later sound (grows_entered sound site)
        (signature_entered state function)
  | true =>
      obtain ⟨name, spec, kind⟩ := kind_of_isFunction function
      intro called opened
      by_cases accepted : state.Accepts name
      · obtain ⟨signed, known, _⟩ := entered_accepted sound kind accepted
        cases signed.symm.trans opened
        exact ⟨_, known⟩
      · cases (entered_refused sound kind accepted).symm.trans opened

theorem signing_left (signing : state.Signing) (site : Site) :
    (state.left site).Signing := by
  unfold left
  split
  · exact signing
  · unfold withoutFunction
    split <;> exact fun _ opened => absurd opened (by simp)
  · exact signing

theorem signing_origin (builtins : Bool) : (origin builtins).Signing := by
  have closed : (origin builtins).signature = none := by
    cases builtins with
    | false => rfl
    | true =>
        simp only [origin, if_true, withRuntime, declaredIn, withSigned]
        split <;> rfl
  intro function opened
  cases closed.symm.trans opened

theorem output_known :
    (bare.declaredIn ScopeId.global "output" .void 0 true).table.globalFunction?
      "output" = some ⟨0⟩ := by
  obtain ⟨location, symbols⟩ :=
    SymbolTable.symbols_declared sound_bare.global "output" .void 0 true
  refine SymbolTable.globalFunction?_eq_some ?_
    ((congrArg (·[0]?) symbols).trans rfl) rfl
  rw [declaredIn]
  simp only
  rw [SymbolTable.find?_declared sound_bare.coherent sound_bare.global
    (find?_bare _ _)]
  rfl

theorem smooth_declareRuntime : bare.declareRuntime.Smooth := by
  refine (bare.smooth_declareIn _ "output" _ _ _).bind ?_
  rintro ⟨symbol, state⟩ declared
  rw [declareIn_result sound_bare.global (find?_bare _ "output")] at declared
  cases declared
  refine (smooth_addParameter output_known .integer).bind fun state _ => ?_
  exact (state.smooth_declareIn _ "input" _ _ _).bind fun _ _ => smooth_pure _

theorem smooth_start (builtins : Bool) : (start builtins).Smooth := by
  refine (SymbolTable.smooth_createScope _ _ _).bind ?_
  rintro ⟨global, table⟩ created
  cases builtins with
  | false => exact smooth_pure _
  | true =>
      cases created
      exact smooth_declareRuntime

theorem smooth_run (builtins : Bool) (tree : Tree) :
    (run builtins tree).Smooth := by
  refine (smooth_start builtins).bind fun state started => ?_
  rw [start_result] at started
  cases started
  refine Smooth.bind (smooth_record rfl) fun _ _ => ?_
  rw [Tree.walk_eq_foldlM]
  have step {state : Declaring} {stop : Visit}
      (holds : state.Sound ∧ state.Signing) :
      (state.visit stop).Smooth ∧ ∀ next,
        (state.visit stop).result = .ok next → next.Sound ∧ next.Signing := by
    obtain ⟨sound, signing⟩ := holds
    refine ⟨smooth_visit sound signing stop, fun next ended => ?_⟩
    change state.step stop = .ok next at ended
    cases stop with
    | enter site =>
        cases (step_enter sound site).symm.trans ended
        exact ⟨(grows_entered sound site).sound,
          signing_entered sound signing site⟩
    | leave site =>
        cases (step_leave sound site).symm.trans ended
        exact ⟨(grows_left sound site).sound, signing_left signing site⟩
    | missing fault => cases ended
  exact Run.smooth_foldlM step _
    ⟨(grows_origin builtins).sound, signing_origin builtins⟩

end Declaring

end CMinusAnalysis
