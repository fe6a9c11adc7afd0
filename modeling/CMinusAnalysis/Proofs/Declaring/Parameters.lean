import CMinusAnalysis.Proofs.Declaring.Functions
import CMinusAnalysis.Proofs.Declaring.Signatures

namespace CMinusAnalysis

/-! Signatures as they are declared. Where parameters stand only in the first
slots of functions, the walk through a function comes to them right after the
function itself, so that they are added to its signature if it was accepted and
to none if it was not. -/

namespace Forest

/-- What the nodes of a chain add to their scope, in order. -/
def bindings : Forest → List (String × Ty)
  | .cons site _ _ _ rest =>
      site.node.kind.binding?.toList ++ rest.bindings
  | _ => []

/-- The types of the parameters of a chain. Of those that have one name only
the first counts. -/
def signature (forest : Forest) : List Ty :=
  (forest.bindings.eraseDupsBy fun left right => left.1 == right.1).map Prod.snd

end Forest

namespace SymbolTable

def parameters? (table : SymbolTable) (id : SymbolId) : Option (List Ty) :=
  table.symbols[id.index]?.map Symbol.parameters

/-- The symbols that there were have the signatures that they had, all but
`signed`. -/
def KeepsSignatures (signed : Option SymbolId)
    (earlier later : SymbolTable) : Prop :=
  ∀ ⦃id : SymbolId⦄ ⦃types : List Ty⦄, signed ≠ some id →
    earlier.parameters? id = some types → later.parameters? id = some types

/-- Symbols that are no functions have nothing in place of a signature. -/
def OnlyFunctionsSigned (table : SymbolTable) : Prop :=
  ∀ ⦃id : SymbolId⦄ ⦃entry : Symbol⦄, table.symbols[id.index]? = some entry →
    entry.isFunction = false → entry.parameters = []

variable {table earlier middle later : SymbolTable} {signed : Option SymbolId}

namespace KeepsSignatures

theorem refl (signed : Option SymbolId) (table : SymbolTable) :
    table.KeepsSignatures signed table :=
  fun _ _ _ known => known

theorem trans (first : KeepsSignatures signed earlier middle)
    (second : KeepsSignatures signed middle later) :
    KeepsSignatures signed earlier later :=
  fun _ _ other known => second other (first other known)

end KeepsSignatures

theorem Keeps.signatures (keeps : earlier.Keeps later) :
    KeepsSignatures none earlier later := by
  intro id types _ known
  obtain ⟨entry, stored, rfl⟩ := Option.map_eq_some_iff.mp known
  obtain ⟨lines, there⟩ := keeps.entry stored
  simp [parameters?, there]

theorem parameters?_addParameter (target id : SymbolId) (type : Ty) :
    (table.modifySymbol target (·.addParameter type)).parameters? id =
      if target = id then (table.parameters? id).map (· ++ [type])
      else table.parameters? id := by
  simp only [parameters?, modifySymbol, Array.getElem?_modify,
    SymbolId.ext_iff]
  split
  · cases table.symbols[id.index]? <;> rfl
  · rfl

end SymbolTable

namespace Declaring

open SymbolTable (KeepsSignatures)

variable {state : Declaring} {site : Site} {forest : Forest} {route : Route}

def unbound (state : Declaring) (bindings : List (String × Ty)) :
    List (String × Ty) :=
  bindings.filter fun binding =>
    (state.table.find? state.current binding.1).isNone

theorem kind_of_isParameter {kind : NodeKind}
    (fits : kind.isParameter = true) :
    ∃ parameter, kind = .parameter parameter := by
  unfold NodeKind.isParameter at fits
  split at fits
  · exact ⟨_, rfl⟩
  · cases fits

theorem entered_parameter (state : Declaring)
    (kind : site.node.kind.isParameter = true) :
    (site.node.kind.binding? = none ∧ state.entered site = state) ∨
      ∃ name type, site.node.kind.binding? = some (name, type) ∧
        ((state.table.find? state.current name ≠ none ∧
            state.entered site =
              state.reported .parameterRedeclared site.node.line name) ∨
          state.table.find? state.current name = none ∧
            state.entered site = (state.declaredIn state.current name type
              site.node.line false).withSignature type) := by
  obtain ⟨parameter, found⟩ := kind_of_isParameter kind
  simp only [entered, found, withParameter, NodeKind.binding?]
  cases called : parameter.name with
  | none => exact .inl ⟨rfl, rfl⟩
  | some name =>
      refine .inr ⟨name, parameter.type, rfl, ?_⟩
      cases taken : state.table.find? state.current name with
      | none => exact .inr ⟨rfl, by simp [taken]⟩
      | some symbol => exact .inl ⟨by simp, by simp [taken]⟩

theorem signature_entered_parameter (state : Declaring)
    (kind : site.node.kind.isParameter = true) :
    (state.entered site).signature = state.signature := by
  obtain ⟨parameter, found⟩ := kind_of_isParameter kind
  simp only [entered, found, signature_withParameter]

theorem keeps_unsigned (leaves : forest.Leaves NodeKind.isParameter)
    (sound : state.Sound) (closed : state.signature = none) :
    state.table.KeepsSignatures none (state.walked forest).table := by
  induction leaves generalizing state with
  | nil => exact .refl _ _
  | @cons site rest kind tail induction =>
      rw [walked_leaf state flat_isParameter kind]
      have entered : state.table.Keeps (state.entered site).table := by
        rcases entered_parameter state kind with
          ⟨_, same⟩ | ⟨name, type, _, ⟨_, same⟩ | ⟨_, same⟩⟩
        · rw [same]
          exact .refl _
        · rw [same]
          exact .refl _
        · rw [same, withSignature, declaredIn]
          simp only [closed]
          exact SymbolTable.keeps_declared sound.current type _ false
      exact entered.signatures.trans (induction (grows_entered sound site).sound
        ((signature_entered_parameter state kind).trans closed))

theorem withSignature_fields (state : Declaring) (type : Ty) (id : ScopeId)
    (name : String) :
    (state.withSignature type).current = state.current ∧
      (state.withSignature type).table.find? id name =
        state.table.find? id name := by
  unfold withSignature
  split
  · refine ⟨?_, find?_withSigned _ _ _ _⟩
    unfold withSigned
    split <;> rfl
  · exact ⟨rfl, rfl⟩

theorem unbound_declared (sound : state.Sound) {name : String} {type : Ty}
    {line : Nat} (free : state.table.find? state.current name = none)
    (bindings : List (String × Ty)) :
    ((state.declaredIn state.current name type line false).withSignature
        type).unbound bindings =
      (state.unbound bindings).filter fun binding => binding.1 ≠ name := by
  rw [unbound, unbound, List.filter_filter]
  apply List.filter_congr
  intro binding _
  rw [(withSignature_fields _ _ state.current binding.1).1,
    (withSignature_fields _ _ _ binding.1).2, declaredIn]
  simp only
  rw [SymbolTable.find?_declared sound.coherent sound.current free]
  by_cases same : binding.1 = name <;> simp [same]

theorem signed_parameter {function name : String} {target : SymbolId}
    {type : Ty} {line : Nat} (sound : state.Sound)
    (signing : state.signature = some function)
    (known : state.table.globalFunction? function = some target)
    (free : state.table.find? state.current name = none) {types : List Ty}
    (before : state.table.parameters? target = some types) :
    state.table.KeepsSignatures (some target) ((state.declaredIn state.current
        name type line false).withSignature type).table ∧
      ((state.declaredIn state.current name type line false).withSignature
        type).table.parameters? target = some (types ++ [type]) := by
  have grown := grows_declaredIn sound sound.current free type line false
  have still := grown.table.globalFunction? sound.global known
  have keeps : state.table.KeepsSignatures none
      (state.table.declared state.current name type line false) :=
    (SymbolTable.keeps_declared sound.current type line false).signatures
  have same : ((state.declaredIn state.current name type line
      false).withSignature type).table =
        (state.table.declared state.current name type line
          false).modifySymbol target (·.addParameter type) := by
    simp only [withSignature, declaredIn, signing, withSigned]
    rw [show (state.table.declared state.current name type line
      false).globalFunction? function = some target from still]
  rw [same]
  constructor
  · intro id list other held
    rw [SymbolTable.parameters?_addParameter, if_neg fun equal =>
      other (congrArg some equal)]
    exact keeps (by simp) held
  · rw [SymbolTable.parameters?_addParameter, if_pos rfl,
      keeps (by simp) before]
    rfl

theorem signed_parameters {function : String} {target : SymbolId}
    (leaves : forest.Leaves NodeKind.isParameter) (sound : state.Sound)
    (signing : state.signature = some function)
    (known : state.table.globalFunction? function = some target)
    {types : List Ty}
    (before : state.table.parameters? target = some types) :
    state.table.KeepsSignatures (some target) (state.walked forest).table ∧
      (state.walked forest).table.parameters? target = some (types ++
        ((state.unbound forest.bindings).eraseDupsBy fun left right =>
          left.1 == right.1).map Prod.snd) := by
  induction leaves generalizing state types with
  | nil =>
      refine ⟨.refl _ _, ?_⟩
      simpa [Forest.bindings, unbound] using before
  | @cons site rest kind tail induction =>
      rw [walked_leaf state flat_isParameter kind]
      have grown := grows_entered sound site
      have onward := fun {types : List Ty} => @induction _ grown.sound
        ((signature_entered_parameter state kind).trans signing)
        (grown.table.globalFunction? sound.global known) types
      rcases entered_parameter state kind with
        ⟨nameless, same⟩ | ⟨name, type, binds, ⟨taken, same⟩ | ⟨free, same⟩⟩
      · rw [same] at onward ⊢
        simpa [Forest.bindings, nameless] using onward before
      · rw [same] at onward ⊢
        have skipped : state.unbound (Forest.bindings
            (.cons site .nil .nil .nil rest)) =
              state.unbound rest.bindings := by
          simp [Forest.bindings, binds, unbound, taken]
        rw [skipped]
        exact onward before
      · obtain ⟨keeps, signed⟩ :=
          signed_parameter sound signing known free before
        rw [same] at onward ⊢
        obtain ⟨later, last⟩ := onward signed
        refine ⟨keeps.trans later, ?_⟩
        have taken : state.unbound (Forest.bindings
            (.cons site .nil .nil .nil rest)) =
              (name, type) :: state.unbound rest.bindings := by
          simp [Forest.bindings, binds, unbound, free]
        rw [last, taken, List.eraseDupsBy_cons, unbound_declared sound free,
          List.map_cons, List.append_assoc]
        simp

theorem unbound_entered_function (state : Declaring)
    (kind : site.node.kind.isFunction = true)
    (bindings : List (String × Ty)) :
    (state.entered site).unbound bindings = bindings := by
  obtain ⟨name, type, same⟩ := entered_function state kind
  rw [same]
  apply List.filter_eq_self.mpr
  intro binding _
  simp only [inFunction, enclosed]
  rw [SymbolTable.find?_opened, SymbolTable.find?,
    Array.getElem?_eq_none (Nat.le_refl _)]
  rfl

theorem entered_accepted {name : String} {spec : Option TypeSpec}
    (sound : state.Sound)
    (kind : site.node.kind = .declaration (.function name spec))
    (accepted : state.Accepts name) :
    (state.entered site).signature = some name ∧
      (state.entered site).table.globalFunction? name =
        some ⟨state.table.symbols.size⟩ ∧
      (state.entered site).table.parameters? ⟨state.table.symbols.size⟩ =
        some [] := by
  have introduces : site.node.kind.introduces? =
      some ⟨name, Ty.ofReturnSpec spec, true⟩ := by
    rw [kind]
    rfl
  obtain ⟨free, here⟩ := (accepts_iff sound).mp accepted
  obtain ⟨_, _, gains, _⟩ :=
    creates_entered sound introduces free fun _ => here
  have last := fetch_eq_ok_iff.mp gains.last
  refine ⟨?_, ?_, by simp [SymbolTable.parameters?, last]⟩
  · simp only [entered, kind, inFunction, enclosed, withFunction,
      (objection?_eq_none_iff sound).mpr accepted]
  · refine SymbolTable.globalFunction?_eq_some ?_ last rfl
    rw [find?_entered sound introduces free fun _ => here]
    exact if_pos ⟨rfl, rfl⟩

theorem entered_refused {name : String} {spec : Option TypeSpec}
    (sound : state.Sound)
    (kind : site.node.kind = .declaration (.function name spec))
    (refused : ¬ state.Accepts name) :
    (state.entered site).signature = none := by
  obtain ⟨reason, objected⟩ := Option.ne_none_iff_exists'.mp
    (mt (objection?_eq_none_iff sound).mp refused)
  simp only [entered, kind, inFunction, enclosed, withFunction, objected]

theorem function_parameters {name : String} {spec : Option TypeSpec}
    (sound : state.Sound)
    (kind : site.node.kind = .declaration (.function name spec))
    (leaves : forest.Leaves NodeKind.isParameter) :
    state.table.KeepsSignatures none
        ((state.entered site).walked forest).table ∧
      (state.Accepts name →
        ((state.entered site).walked forest).table.parameters?
          ⟨state.table.symbols.size⟩ = some forest.signature) := by
  have inside := (grows_entered sound site).sound
  have function : site.node.kind.isFunction = true := by
    rw [kind]
    rfl
  have entered : state.table.KeepsSignatures none
      (state.entered site).table :=
    (keeps_entered sound (by rw [kind]; rfl)).signatures
  by_cases accepted : state.Accepts name
  · obtain ⟨signing, known, empty⟩ := entered_accepted sound kind accepted
    obtain ⟨keeps, signed⟩ :=
      signed_parameters leaves inside signing known empty
    rw [unbound_entered_function state function] at signed
    refine ⟨?_, fun _ => signed⟩
    intro id types other held
    refine keeps ?_ (entered other held)
    rintro ⟨⟩
    simp [SymbolTable.parameters?] at held
  · refine ⟨entered.trans (keeps_unsigned leaves inside ?_), fun given =>
      absurd given accepted⟩
    exact entered_refused sound kind accepted

theorem onlyFunctionsSigned_withSignature
    (held : state.table.OnlyFunctionsSigned) (type : Ty) :
    (state.withSignature type).table.OnlyFunctionsSigned := by
  unfold withSignature
  split
  · unfold withSigned
    split
    · next function _ target known =>
        intro id entry stored plain
        obtain ⟨earlier, there, same⟩ :=
          SymbolTable.symbol_modifySymbol (SymbolTable.symbol_eq_ok stored)
        have known := SymbolTable.isFunction_of_globalFunction? known
        obtain ⟨signed, found, isFunction⟩ := known
        have at' := fetch_eq_ok_iff.mp there
        split at same
        · next here =>
            subst here
            cases found.symm.trans at'
            subst same
            cases plain.symm.trans isFunction
        · subst same
          exact held at' plain
    · exact held
  · exact held

theorem onlyFunctionsSigned_entered (sound : state.Sound)
    (held : state.table.OnlyFunctionsSigned) (site : Site) :
    (state.entered site).table.OnlyFunctionsSigned := by
  cases parameter : site.node.kind.isParameter with
  | true =>
      rcases entered_parameter state parameter with
        ⟨_, same⟩ | ⟨name, type, _, ⟨_, same⟩ | ⟨_, same⟩⟩
      · rw [same]
        exact held
      · rw [same]
        exact held
      · rw [same]
        apply onlyFunctionsSigned_withSignature
        intro id entry stored plain
        obtain ⟨location, symbols⟩ := SymbolTable.symbols_declared
          sound.current name type site.node.line false
        rw [declaredIn, symbols, Array.getElem?_push] at stored
        split at stored
        · cases stored
          rfl
        · exact held stored plain
  | false =>
      intro id entry stored plain
      have inside := (Array.getElem?_eq_some_iff.mp stored).1
      rcases Nat.lt_or_ge id.index state.table.symbols.size with older | newer
      · have before := Array.getElem?_eq_getElem older
        obtain ⟨lines, there⟩ := (keeps_entered sound parameter).entry before
        cases stored.symm.trans there
        show (state.table.symbols[id.index]).parameters = []
        exact held before plain
      · rcases size_symbols_entered sound site with ⟨_, _, creates⟩ | size
        · obtain ⟨_, _, gains, _⟩ := creates
          have size := gains.size
          have last : id.index = state.table.symbols.size := by
            omega
          obtain rfl : id = ⟨state.table.symbols.size⟩ := SymbolId.ext last
          cases stored.symm.trans (fetch_eq_ok_iff.mp gains.last)
          rfl
        · omega

theorem onlyFunctionsSigned_origin (builtins : Bool) :
    (origin builtins).table.OnlyFunctionsSigned := by
  intro id entry stored plain
  cases plain.symm.trans (isFunction_of_origin stored)

theorem keeps_placed (placed : forest.ParametersPlaced)
    (sound : state.Sound) :
    state.table.KeepsSignatures none (state.walked forest).table := by
  induction placed generalizing state with
  | nil => exact .refl _ _
  | missing => exact .refl _ _
  | @other site first second third rest _ parameter _ _ _ _ inFirst inSecond
      inThird inRest =>
      obtain ⟨one, two, three, four, _⟩ :=
        grows_parts sound site first second third rest
      have entered := (keeps_entered sound parameter).signatures
      have onward := inRest four.sound
      rw [table_left] at onward
      rw [walked_cons]
      exact entered.trans ((inFirst (grows_entered sound site).sound).trans
        ((inSecond one.sound).trans ((inThird two.sound).trans onward)))
  | @function site parameters second third rest kind declared _ _ _ inSecond
      inThird inRest =>
      obtain ⟨one, two, three, four, _⟩ :=
        grows_parts sound site parameters second third rest
      obtain ⟨name, spec, found⟩ := kind_of_isFunction kind
      have signed := (function_parameters sound found declared).1
      have onward := inRest four.sound
      rw [table_left] at onward
      rw [walked_cons]
      exact signed.trans ((inSecond one.sound).trans
        ((inThird two.sound).trans onward))

theorem keeps_onward {first second third rest : Forest}
    (inSecond : second.ParametersPlaced) (inThird : third.ParametersPlaced)
    (inRest : rest.ParametersPlaced) (sound : state.Sound) :
    let afterFirst := (state.entered site).walked first
    let afterSecond := afterFirst.walked second
    let afterThird := afterSecond.walked third
    let final := (afterThird.left site).walked rest
    afterFirst.table.KeepsSignatures none final.table ∧
      afterSecond.table.KeepsSignatures none final.table ∧
      afterThird.table.KeepsSignatures none final.table := by
  obtain ⟨one, two, _, four, _⟩ :=
    grows_parts sound site first second third rest
  have beside := keeps_placed inRest four.sound
  rw [table_left] at beside
  have third := (keeps_placed inThird two.sound).trans beside
  exact ⟨(keeps_placed inSecond one.sound).trans third, third, beside⟩

theorem isParameter_of_reaches {found : Declaring} {along : Route}
    {first second third rest : Forest}
    (leaves : forest.Leaves NodeKind.isParameter)
    (reaches : Forest.Reaches Declaring.entered Declaring.left state route
      forest found along (.cons site first second third rest)) :
    site.node.kind.isParameter = true := by
  have reached := reaches.invariant
    (fun _ _ part => part.Leaves NodeKind.isParameter) ?_ leaves
  · cases reached with
    | cons kind _ => exact kind
  · intro state route site first second third rest leaves
    cases leaves with
    | cons _ tail => exact ⟨.nil, .nil, .nil, tail⟩

theorem signature_of_reaches {found : Declaring} {along : Route} {part : Forest}
    (reaches : Forest.Reaches Declaring.entered Declaring.left state route
      forest found along part) {first second third rest : Forest}
    (here : part = .cons site first second third rest)
    (placed : forest.ParametersPlaced) (sound : state.Sound) {name : String}
    {spec : Option TypeSpec}
    (kind : site.node.kind = .declaration (.function name spec))
    (accepted : found.Accepts name) :
    (state.walked forest).table.parameters? ⟨found.table.symbols.size⟩ =
      some first.signature := by
  have function : site.node.kind.isFunction = true := by
    rw [kind]
    rfl
  induction reaches with
  | here =>
      subst here
      cases placed with
      | other unlike => cases function.symm.trans unlike
      | function _ declared inSecond inThird inRest =>
          have signed := (function_parameters sound kind declared).2 accepted
          exact (keeps_onward inSecond inThird inRest sound).1 (by simp) signed
  | @first state found route along head first second third rest part onward
      induction =>
      have inside := (grows_entered sound head).sound
      cases placed with
      | other _ _ inFirst inSecond inThird inRest =>
          exact (keeps_onward inSecond inThird inRest sound).1 (by simp)
            (induction here inFirst inside accepted)
      | function _ declared =>
          subst here
          have parameter := isParameter_of_reaches declared onward
          rw [kind] at parameter
          cases parameter
  | @second state found route along head first second third rest part onward
      induction =>
      obtain ⟨one, _⟩ := grows_parts sound head first second third rest
      cases placed with
      | other _ _ _ inSecond inThird inRest
      | function _ _ inSecond inThird inRest =>
          exact (keeps_onward inSecond inThird inRest sound).2.1 (by simp)
            (induction here inSecond one.sound accepted)
  | @third state found route along head first second third rest part onward
      induction =>
      obtain ⟨_, two, _⟩ := grows_parts sound head first second third rest
      cases placed with
      | other _ _ _ inSecond inThird inRest
      | function _ _ inSecond inThird inRest =>
          exact (keeps_onward inSecond inThird inRest sound).2.2 (by simp)
            (induction here inThird two.sound accepted)
  | @rest state found route along head first second third rest part onward
      induction =>
      obtain ⟨_, _, _, four, _⟩ := grows_parts sound head first second third rest
      cases placed with
      | other _ _ _ _ _ inRest | function _ _ _ _ inRest =>
          exact induction here inRest four.sound accepted

end Declaring

end CMinusAnalysis
