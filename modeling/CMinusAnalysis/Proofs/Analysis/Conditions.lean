import CMinusAnalysis.Analysis.Basic
import CMinusAnalysis.Proofs.Diagnostic.Wording
import CMinusAnalysis.Proofs.Outcome

namespace CMinusAnalysis

/-! Conditions and the wording of what is wrong with them. Only conditionals and
loops have a condition, so every diagnostic about a missing or a void one names
one of these two statements. This holds of any tree, for it depends on nothing
but the reports that the passes make. -/

namespace Run

/-- Whatever the run ends with has the property. -/
def Ensures (run : Run α) (property : α → Prop) : Prop :=
  ∀ value, run.result = .ok value → property value

namespace Ensures

variable {property : α → Prop}

theorem pure {value : α} (holds : property value) :
    (Pure.pure value : Run α).Ensures property := by
  rintro _ ⟨⟩
  exact holds

theorem fail (fault : Fault) : (Run.fail fault).Ensures property := by
  rintro _ ⟨⟩

theorem bind {run : Run β} {middle : β → Prop} {next : β → Run α}
    (start : run.Ensures middle)
    (rest : ∀ value, middle value → (next value).Ensures property) :
    (run >>= next).Ensures property := by
  intro value ended
  obtain ⟨between, ran, ended⟩ := result_bind_eq_ok_iff.mp ended
  exact rest between (start between ran) value ended

theorem after (run : Run β) {next : β → Run α}
    (rest : ∀ value, (next value).Ensures property) :
    (run >>= next).Ensures property := by
  intro value ended
  obtain ⟨between, _, ended⟩ := result_bind_eq_ok_iff.mp ended
  exact rest between value ended

theorem map {run : Run β} {transform : β → α}
    (ensures : run.Ensures fun value => property (transform value)) :
    (transform <$> run).Ensures property := by
  rw [map_eq_pure_bind]
  exact ensures.bind fun value holds => pure holds

theorem foldlM {visit : α → ι → Run α}
    (step : ∀ state item, property state →
      (visit state item).Ensures property)
    (items : List ι) {state : α} (holds : property state) :
    (items.foldlM visit state).Ensures property := by
  induction items generalizing state with
  | nil => exact pure holds
  | cons item items induction =>
      exact (step state item holds).bind fun next holds => induction holds

end Ensures

end Run

open Run (Ensures)

/-- Every diagnostic about a condition names a statement that has one. -/
def Diagnostics.Worded (diagnostics : Diagnostics) : Prop :=
  ∀ diagnostic ∈ diagnostics.items, diagnostic.kind.NamesStatement

theorem Diagnostics.Worded.add {diagnostics : Diagnostics}
    (worded : diagnostics.Worded) {diagnostic : Diagnostic}
    (names : diagnostic.kind.NamesStatement) :
    (diagnostics.add diagnostic).Worded := by
  intro reported member
  rw [items_add, List.mem_append, List.mem_singleton] at member
  rcases member with earlier | rfl
  · exact worded reported earlier
  · exact names

namespace Declaring

variable {state : Declaring}

abbrev Worded (state : Declaring) : Prop :=
  state.diagnostics.Worded

theorem report_worded (worded : state.Worded) {kind : DiagnosticKind}
    (names : kind.NamesStatement) (line : Nat) (name : String) :
    (state.report kind line name).Ensures Worded :=
  .after _ fun _ => .pure (worded.add names)

theorem openScope_worded (worded : state.Worded) (name : String) :
    (state.openScope name).Ensures fun opened => opened.2.Worded :=
  .after _ fun _ => .pure worded

theorem closeScope_worded (worded : state.Worded) :
    state.closeScope.Ensures Worded :=
  .after _ fun _ => .pure worded

theorem declareIn_worded (worded : state.Worded) (scope : ScopeId)
    (name : String) (type : Ty) (line : Nat) (isFunction : Bool) :
    (state.declareIn scope name type line isFunction).Ensures fun declared =>
      declared.2.Worded :=
  .after _ fun _ => .after _ fun _ => .pure worded

theorem declareLocal_worded (worded : state.Worded) (name : String) (type : Ty)
    (line : Nat) {redeclared : DiagnosticKind}
    (names : redeclared.NamesStatement) :
    (state.declareLocal name type line redeclared).Ensures fun declared =>
      declared.2.Worded := by
  refine .after _ fun found => ?_
  cases found with
  | some _ =>
      exact (report_worded worded names line name).bind fun _ worded =>
        .pure worded
  | none =>
      exact (declareIn_worded worded _ name type line false).bind
        fun _ worded => .pure worded

theorem addParameter_worded (worded : state.Worded) (function : String)
    (type : Ty) : (state.addParameter function type).Ensures Worded := by
  unfold addParameter
  split
  · exact .pure worded
  · exact .after _ fun _ => .pure worded

theorem functionObjection?_names {name : String} {kind : DiagnosticKind}
    (objects : state.functionObjection? name = .ok (some kind)) :
    kind.NamesStatement := by
  obtain ⟨found, _, objects⟩ := bind_eq_ok_iff.mp objects
  cases found with
  | some _ =>
      cases objects
      trivial
  | none =>
      by_cases inside : state.current = ScopeId.global
      · simp [inside] at objects
      · simp only [ne_eq, inside, not_false_eq_true, if_true] at objects
        cases objects
        trivial

theorem enterFunction_worded (worded : state.Worded) (id : NodeId)
    (name : String) (type : Ty) (line : Nat) :
    (state.enterFunction id name type line).Ensures Worded := by
  have named : (liftM (state.functionObjection? name) : Run _).Ensures
      fun objection => ∀ kind ∈ objection, kind.NamesStatement := by
    rintro _ objects kind rfl
    exact functionObjection?_names objects
  refine named.bind fun objection names => ?_
  cases objection with
  | some kind =>
      refine (report_worded worded (names kind rfl) line name).bind
        fun reported worded => ?_
      simp only [pure_bind]
      refine .bind (openScope_worded ?_ name) fun _ worded => .pure worded
      exact worded
  | none =>
      refine (declareIn_worded worded _ name type line true).bind
        fun declared worded => ?_
      simp only [pure_bind]
      refine .bind (openScope_worded ?_ name) fun _ worded => .pure worded
      exact worded

theorem declareParameter_worded (worded : state.Worded) (parameter : Parameter)
    (line : Nat) : (state.declareParameter parameter line).Ensures Worded := by
  unfold declareParameter
  split
  · exact .pure worded
  · split
    · exact .pure worded
    · next name _ =>
        have names : DiagnosticKind.parameterRedeclared.NamesStatement :=
          trivial
        refine (declareLocal_worded worded name _ line names).bind
          fun declared worded => ?_
        obtain ⟨isNew, state⟩ := declared
        dsimp only at worded ⊢
        split
        · exact addParameter_worded worded _ _
        · exact .pure worded

theorem enterBlock_worded (worded : state.Worded) (id : NodeId) :
    (state.enterBlock id).Ensures Worded := by
  unfold enterBlock
  split
  · exact .pure worded
  · exact (openScope_worded worded _).bind fun _ worded => .pure worded

theorem resolveUse_worded (worded : state.Worded) (id : NodeId) (name : String)
    (line : Nat) : (state.resolveUse id name line).Ensures Worded := by
  refine .after _ fun found => ?_
  cases found with
  | some symbol => exact .after _ fun _ => .pure worded
  | none =>
      have names : DiagnosticKind.undeclared.NamesStatement := trivial
      exact (report_worded worded names line name).bind fun _ worded =>
        .pure worded

theorem enter_worded (worded : state.Worded) (site : Site) :
    (state.enter site).Ensures Worded := by
  unfold enter
  split
  · exact enterFunction_worded worded _ _ _ _
  · exact .map (declareLocal_worded worded _ _ _ trivial)
  · exact .map (declareLocal_worded worded _ _ _ trivial)
  · exact declareParameter_worded worded _ _
  · exact enterBlock_worded worded _
  · exact resolveUse_worded worded _ _ _
  · exact resolveUse_worded worded _ _ _
  · exact resolveUse_worded worded _ _ _
  · exact .pure worded

theorem leaveFunction_worded (worded : state.Worded) :
    state.leaveFunction.Ensures Worded := by
  unfold leaveFunction
  split
  · exact .bind (closeScope_worded worded) fun _ worded => .pure worded
  · exact .pure worded

theorem visit_worded (worded : state.Worded) (visit : Visit) :
    (state.visit visit).Ensures Worded := by
  cases visit with
  | enter site => exact enter_worded worded site
  | leave site =>
      simp only [Declaring.visit, leave]
      split
      · exact closeScope_worded worded
      · exact leaveFunction_worded worded
      · exact .pure worded
  | missing fault => exact .fail fault

theorem declareRuntime_worded (worded : state.Worded) :
    state.declareRuntime.Ensures Worded := by
  refine (declareIn_worded worded _ _ _ _ _).bind fun _ worded => ?_
  refine (addParameter_worded worded _ _).bind fun _ worded => ?_
  exact (declareIn_worded worded _ _ _ _ _).bind fun _ worded => .pure worded

theorem start_worded (builtins : Bool) : (start builtins).Ensures Worded := by
  have worded : Diagnostics.Worded {} := by simp [Diagnostics.Worded]
  refine .after _ fun created => ?_
  cases builtins with
  | true => exact declareRuntime_worded worded
  | false => exact .pure worded

theorem run_worded (builtins : Bool) (tree : Tree) :
    (run builtins tree).Ensures Worded := by
  refine (start_worded builtins).bind fun state worded => .after _ fun _ => ?_
  rw [Tree.walk_eq_foldlM]
  exact .foldlM (fun _ visit worded => visit_worded worded visit) _ worded

end Declaring

namespace Checking

variable {tree : Tree} {table : SymbolTable} {state : Checking}

abbrev Worded (state : Checking) : Prop :=
  state.diagnostics.Worded

theorem report_worded (worded : state.Worded) {diagnostic : Diagnostic}
    (names : diagnostic.kind.NamesStatement) :
    (state.report diagnostic).Ensures Worded :=
  .after _ fun _ => .pure (worded.add names)

theorem reportAny_worded (worded : state.Worded)
    {kind? : Option DiagnosticKind}
    (names : ∀ kind ∈ kind?, kind.NamesStatement) (line : Nat)
    (name : Option String) :
    (state.reportAny (kind?.map fun kind => ⟨kind, line, name⟩)).Ensures
      Worded := by
  cases kind? with
  | none => exact .pure worded
  | some kind => exact report_worded worded (names kind rfl)

theorem binaryObjection?_names (op : BinaryOp) (left right : Option Ty) :
    ∀ kind ∈ binaryObjection? op left right, kind.NamesStatement := by
  unfold binaryObjection?
  split
  · simp [DiagnosticKind.NamesStatement]
  · simp [DiagnosticKind.NamesStatement]
  · split <;> simp [DiagnosticKind.NamesStatement]
  · simp

theorem assignmentObjection?_names (target value : Option Ty) :
    ∀ kind ∈ assignmentObjection? target value, kind.NamesStatement := by
  unfold assignmentObjection?
  split
  · simp [DiagnosticKind.NamesStatement]
  · simp [DiagnosticKind.NamesStatement]
  · split <;> simp [DiagnosticKind.NamesStatement]
  · simp

theorem argumentObjection?_names (position : Nat) (expected : Ty)
    (found : Option Ty) :
    ∀ kind ∈ argumentObjection? position expected found,
      kind.NamesStatement := by
  unfold argumentObjection?
  split
  · split <;> simp [DiagnosticKind.NamesStatement]
  · simp

theorem countObjection?_names (expected found : Nat) :
    ∀ kind ∈ countObjection? expected found, kind.NamesStatement := by
  unfold countObjection?
  split <;> simp [DiagnosticKind.NamesStatement]

theorem returnObjection?_names (expected : Ty) (hasValue : Bool)
    (found : Option Ty) :
    ∀ kind ∈ returnObjection? expected hasValue found,
      kind.NamesStatement := by
  unfold returnObjection?
  split
  · simp [DiagnosticKind.NamesStatement]
  · simp
  · simp [DiagnosticKind.NamesStatement]
  · split
    · split <;> simp [DiagnosticKind.NamesStatement]
    · simp

theorem variableObjection?_names (spec : Option TypeSpec) :
    ∀ kind ∈ variableObjection? spec, kind.NamesStatement := by
  unfold variableObjection?
  split <;> simp [DiagnosticKind.NamesStatement]

theorem checkName_worded (worded : state.Worded) (id : NodeId) (name : String)
    (line : Nat) :
    (state.checkName table id name line).Ensures fun checked =>
      checked.2.Worded := by
  unfold checkName
  split
  · exact .pure worded
  · refine .after _ fun found => ?_
    cases found with
    | some type => exact .pure worded
    | none =>
        have names : DiagnosticKind.nameLost.NamesStatement := trivial
        exact .bind (report_worded worded names) fun _ worded => .pure worded

theorem checkBinary_worded (worded : state.Worded) (site : Site)
    (op : BinaryOp) :
    (state.checkBinary tree table site op).Ensures Worded :=
  .after _ fun left => .after _ fun right =>
    reportAny_worded worded (binaryObjection?_names op left right) _ _

theorem checkAssignment_worded (worded : state.Worded) (site : Site) :
    (state.checkAssignment tree table site).Ensures fun checked =>
      checked.2.Worded :=
  .after _ fun target => .after _ fun value =>
    (reportAny_worded worded (assignmentObjection?_names target value) _ _).bind
      fun _ worded => .pure worded

theorem checkArguments_worded (worded : state.Worded) (name : String)
    (line position : Nat) (arguments : List NodeId) (parameters : List Ty) :
    (state.checkArguments tree table name line position arguments
      parameters).Ensures Worded := by
  induction arguments generalizing state position parameters with
  | nil => exact .pure worded
  | cons argument arguments induction =>
      cases parameters with
      | nil => exact .pure worded
      | cons expected parameters =>
          refine .after _ fun found => ?_
          exact (reportAny_worded worded
            (argumentObjection?_names position expected found) _ _).bind
              fun _ worded => induction worded _ _

theorem checkCall_worded (worded : state.Worded) (site : Site)
    (name : String) :
    (state.checkCall tree table site name).Ensures fun checked =>
      checked.2.Worded := by
  unfold checkCall
  split
  · exact .pure worded
  · refine .after _ fun found => ?_
    cases found with
    | none =>
        have names : DiagnosticKind.functionNotDeclared.NamesStatement :=
          trivial
        exact .bind (report_worded worded names) fun _ worded => .pure worded
    | some id =>
        refine .after _ fun function => ?_
        split
        · refine .after _ fun arguments => ?_
          refine (checkArguments_worded worded name _ _ _ _).bind
            fun _ worded => ?_
          exact (reportAny_worded worded (countObjection?_names _ _) _ _).bind
            fun _ worded => .pure worded
        · have names : DiagnosticKind.notAFunction.NamesStatement := trivial
          exact .bind (report_worded worded names) fun _ worded => .pure worded

theorem checkCondition_worded (worded : state.Worded) (site : Site)
    {statement : String} (known : statement = "if" ∨ statement = "while") :
    (state.checkCondition tree table site statement).Ensures Worded := by
  unfold checkCondition
  dsimp only
  split
  · exact report_worded worded known
  · refine .after _ fun condition => ?_
    split
    · exact report_worded worded known
    · exact .pure worded

theorem checkReturn_worded (worded : state.Worded) (site : Site) :
    (state.checkReturn tree table site).Ensures Worded := by
  unfold checkReturn
  split
  · exact .pure worded
  · refine .after _ fun function => ?_
    dsimp only
    split
    · exact .after _ fun found =>
        reportAny_worded worded (returnObjection?_names _ _ found) _ _
    · exact .after _ fun found =>
        reportAny_worded worded (returnObjection?_names _ _ found) _ _

theorem checkWrite_worded (worded : state.Worded) (site : Site) :
    (state.checkWrite tree table site).Ensures Worded := by
  refine .after _ fun value => ?_
  split
  · have names : DiagnosticKind.voidWrite.NamesStatement := trivial
    exact report_worded worded names
  · exact .pure worded

theorem enter_worded (worded : state.Worded) (site : Site) :
    (state.enter table site).Ensures Worded := by
  unfold enter
  split
  · exact .pure worded
  · split
    · exact .after _ fun _ => .after _ fun _ => .pure worded
    · have names : DiagnosticKind.blockScopeLost.NamesStatement := trivial
      exact report_worded worded names
  · exact .pure worded

theorem leaveBlock_worded (worded : state.Worded) (id : NodeId) :
    (state.leaveBlock table id).Ensures Worded := by
  unfold leaveBlock
  split
  · exact .after _ fun _ => .pure worded
  · exact .pure worded

theorem leaveStatement_worded (worded : state.Worded) (site : Site)
    (statement : Statement) :
    (state.leaveStatement tree table site statement).Ensures Worded := by
  cases statement with
  | compound => exact leaveBlock_worded worded _
  | conditional | alternative =>
      exact checkCondition_worded worded site (.inl rfl)
  | loop => exact checkCondition_worded worded site (.inr rfl)
  | ret => exact checkReturn_worded worded site
  | assign => exact .map (checkAssignment_worded worded site)
  | write => exact checkWrite_worded worded site

theorem leaveExpression_worded (worded : state.Worded) (site : Site)
    (expression : Expression) :
    (state.leaveExpression tree table site expression).Ensures fun checked =>
      checked.2.Worded := by
  cases expression with
  | constant value => exact .pure worded
  | identifier name => exact checkName_worded worded _ name _
  | arrayIdentifier name =>
      refine (checkName_worded worded _ name _).bind fun checked worded => ?_
      exact .after _ fun _ => .pure worded
  | binary op =>
      exact (checkBinary_worded worded site op).bind fun _ worded =>
        .pure worded
  | assign => exact checkAssignment_worded worded site
  | call name => exact checkCall_worded worded site name

theorem leaveDeclaration_worded (worded : state.Worded) (site : Site)
    (declaration : Declaration) :
    (state.leaveDeclaration site declaration).Ensures fun checked =>
      checked.2.Worded := by
  have checked (spec : Option TypeSpec) (name : String) :
      (state.checkVariable spec name site.node.line).Ensures Worded :=
    reportAny_worded worded (variableObjection?_names spec) _ _
  unfold leaveDeclaration
  split
  · exact (checked _ _).bind fun _ worded => .pure worded
  · exact (checked _ _).bind fun _ worded => .pure worded
  · exact .pure worded

theorem leaveTyped_worded (worded : state.Worded) (site : Site) :
    (state.leaveTyped tree table site).Ensures fun checked =>
      checked.2.Worded := by
  unfold leaveTyped
  split
  · exact leaveExpression_worded worded site _
  · exact (leaveStatement_worded worded site _).bind fun _ worded =>
      .pure worded
  · exact leaveDeclaration_worded worded site _
  · exact .pure worded

theorem visit_worded (worded : state.Worded) (visit : Visit) :
    (state.visit tree table visit).Ensures Worded := by
  cases visit with
  | enter site => exact enter_worded worded site
  | leave site =>
      refine (leaveTyped_worded worded site).bind fun typed worded => ?_
      obtain ⟨type, state⟩ := typed
      cases type <;> exact .pure worded
  | missing fault => exact .fail fault

theorem run_worded (tree : Tree) (table : SymbolTable) (facts : Facts)
    {diagnostics : Diagnostics} (worded : diagnostics.Worded) :
    (run tree table facts diagnostics).Ensures Worded := by
  unfold run
  dsimp only
  split
  · exact .after _ fun _ => .pure worded
  · refine .after _ fun _ => ?_
    rw [Tree.walk_eq_foldlM]
    exact .foldlM (fun _ visit worded => visit_worded worded visit) _ worded

end Checking

theorem declare_worded (config : Config) (tree : Tree) :
    (declare config tree).Ensures fun declared =>
      declared.diagnostics.Worded := by
  refine (Declaring.run_worded _ tree).bind fun state worded => ?_
  dsimp only
  split
  · exact .after _ fun _ => .pure worded
  · exact .pure worded

theorem analyze_worded (config : Config) (tree : Tree) :
    (analyze config tree).Ensures fun analysis =>
      analysis.diagnostics.Worded := by
  refine (declare_worded config tree).bind fun declared worded => ?_
  refine Ensures.bind ?_ fun _ worded => .after _ fun _ => .pure worded
  exact (Checking.run_worded tree _ _ worded).bind fun _ worded => .pure worded

end CMinusAnalysis
