import CMinusAnalysis.Proofs.Checking.Standing
import CMinusAnalysis.Proofs.Symbol.Renaming
import CMinusAnalysis.Proofs.Tree.Renaming

namespace CMinusAnalysis

namespace Checking

/-- The second state is the first one with other names. -/
structure Renamed (rename : String → String) (state image : Checking) :
    Prop where
  facts : image.facts = state.facts
  diagnostics : image.diagnostics = state.diagnostics.renamed rename
  current : image.current = state.current
  function : image.function = state.function
  outer : image.outer = state.outer

variable {rename : String → String} {tree : Tree} {table other : SymbolTable}
  {state image : Checking}

theorem complaints_renamed (line : Nat) (name : Option String)
    (kinds : List DiagnosticKind) :
    (complaints line name kinds).map (Diagnostic.renamed rename) =
      complaints line (name.map rename) kinds := by
  rw [complaints, List.map_map]
  rfl

theorem arguments_renamed (tree : Tree) (site : Site) :
    arguments (tree.renamed rename) (site.renamed rename) =
      arguments tree site := by
  rw [arguments, Tree.siblings_renamed]
  rfl

theorem callee?_renamed (tables : table.Renamed rename other)
    (name : String) :
    callee? other (rename name) =
      (callee? table name).map (Symbol.renamed rename) := by
  simp only [callee?, tables.find?, tables.getElem?_symbols]
  cases table.find? ScopeId.global name <;> rfl

namespace Renamed

theorem nameType (renamed : Renamed rename state image)
    (tables : table.Renamed rename other) (id : NodeId) (name : String) :
    image.nameType other id (rename name) = state.nameType table id name := by
  have types : other.typeOf? = table.typeOf? := funext tables.typeOf?
  simp only [Checking.nameType, renamed.facts, renamed.current, tables.resolve,
    types]

theorem siteTy (renamed : Renamed rename state image)
    (tables : table.Renamed rename other) (site : Site) :
    image.siteTy other (site.renamed rename) = state.siteTy table site := by
  simp only [Checking.siteTy, Site.kind_renamed, Site.id_renamed,
    Site.first_renamed, renamed.facts]
  rcases site.node.kind with form | form | form | parameter
  · rfl
  · rfl
  · cases form with
    | identifier name => exact renamed.nameType tables site.id name
    | _ => rfl
  · rfl

theorem operand (renamed : Renamed rename state image)
    (tables : table.Renamed rename other) (tree : Tree)
    (start : Option NodeId) :
    image.operand (tree.renamed rename) other start =
      state.operand tree table start := by
  cases start with
  | none => rfl
  | some id =>
      simp only [Checking.operand, Option.bind_some, Tree.nodes_renamed]
      cases tree.nodes[id.index]? with
      | none => rfl
      | some node => exact renamed.siteTy tables ⟨id, node⟩

theorem nameObjections (renamed : Renamed rename state image)
    (tables : table.Renamed rename other) (id : NodeId) (name : String) :
    image.nameObjections other id (rename name) =
      state.nameObjections table id name := by
  simp only [Checking.nameObjections, renamed.facts, renamed.current,
    tables.resolve]

theorem callObjections (renamed : Renamed rename state image)
    (tables : table.Renamed rename other) (site : Site) (name : String) :
    image.callObjections (tree.renamed rename) other (site.renamed rename)
        (rename name) =
      state.callObjections tree table site name := by
  simp only [Checking.callObjections, renamed.facts, callee?_renamed tables,
    arguments_renamed, renamed.operand tables]
  cases callee? table name <;> rfl

theorem conditionObjections (renamed : Renamed rename state image)
    (tables : table.Renamed rename other) (site : Site)
    (statement : String) :
    image.conditionObjections (tree.renamed rename) other
        (site.renamed rename) statement =
      state.conditionObjections tree table site statement := by
  simp only [Checking.conditionObjections, renamed.operand tables]
  rfl

theorem returnObjections (renamed : Renamed rename state image)
    (tables : table.Renamed rename other) (site : Site) (function : Symbol) :
    image.returnObjections (tree.renamed rename) other (site.renamed rename)
        (function.renamed rename) =
      state.returnObjections tree table site function := by
  simp only [Checking.returnObjections, renamed.operand tables]
  rfl

theorem enclosing? (renamed : Renamed rename state image)
    (tables : table.Renamed rename other) :
    image.enclosing? other =
      (state.enclosing? table).map (Symbol.renamed rename) := by
  simp only [Checking.enclosing?, renamed.function, tables.getElem?_symbols]
  cases state.function <;> rfl

theorem objections (renamed : Renamed rename state image)
    (tables : table.Renamed rename other) (site : Site) :
    image.objections (tree.renamed rename) other (site.renamed rename) =
      (state.objections tree table site).map (Diagnostic.renamed rename) := by
  rcases kind : site.node.kind with form | form | form | parameter
  · cases form <;>
      simp [Checking.objections, kind, NodeKind.renamed, Declaration.renamed,
        complaints_renamed]
  · cases form with
    | ret =>
        simp only [Checking.objections, Site.kind_renamed, kind,
          NodeKind.renamed, renamed.enclosing? tables]
        cases state.enclosing? table with
        | none => rfl
        | some function =>
            simp only [Option.map_some, complaints_renamed,
              renamed.returnObjections tables]
            rfl
    | _ =>
        simp [Checking.objections, kind, NodeKind.renamed, complaints_renamed,
          renamed.operand tables, renamed.conditionObjections tables]
  · cases form <;>
      simp [Checking.objections, kind, NodeKind.renamed, Expression.renamed,
        complaints_renamed, renamed.operand tables,
        renamed.nameObjections tables, renamed.callObjections tables]
  · simp [Checking.objections, kind, NodeKind.renamed]

theorem gained (renamed : Renamed rename state image)
    (tables : table.Renamed rename other) (site : Site) :
    image.gained (tree.renamed rename) other (site.renamed rename) =
      state.gained tree table site := by
  rcases kind : site.node.kind with form | form | form | parameter
  · cases form <;>
      simp [Checking.gained, kind, NodeKind.renamed, Declaration.renamed]
  · simp [Checking.gained, kind, NodeKind.renamed]
  · cases form with
    | call name =>
        simp only [Checking.gained, Site.kind_renamed, Site.id_renamed, kind,
          NodeKind.renamed, Expression.renamed, renamed.facts,
          callee?_renamed tables]
        cases callee? table name <;> rfl
    | _ =>
        simp [Checking.gained, kind, NodeKind.renamed, Expression.renamed,
          renamed.operand tables, renamed.siteTy tables]
  · simp only [Checking.gained, Site.kind_renamed, kind, NodeKind.renamed,
      Parameter.renamed, Option.map_map]
    rfl

theorem reported (renamed : Renamed rename state image)
    (diagnostics : List Diagnostic) :
    Renamed rename (state.reported diagnostics)
      (image.reported (diagnostics.map (Diagnostic.renamed rename))) :=
  { renamed with
    diagnostics := by
      simp only [Checking.reported, renamed.diagnostics, List.foldl_map]
      generalize state.diagnostics = before
      induction diagnostics generalizing before with
      | nil => rfl
      | cons diagnostic diagnostics induction =>
          exact induction (before.add diagnostic) }

theorem typed (renamed : Renamed rename state image) (id : NodeId)
    (type : Option Ty) :
    Renamed rename (state.typed id type) (image.typed id type) := by
  cases type with
  | none => exact renamed
  | some type =>
      exact { renamed with
        facts := congrArg (Facts.setType · id type) renamed.facts }

theorem outside (renamed : Renamed rename state image)
    (tables : table.Renamed rename other) (site : Site) :
    Renamed rename (state.outside table site)
      (image.outside other (site.renamed rename)) := by
  rcases kind : site.node.kind with form | form | form | parameter
  · cases form with
    | function name spec =>
        simp only [Checking.outside, Site.kind_renamed, kind,
          NodeKind.renamed, Declaration.renamed]
        exact { renamed with
          function := by rw [renamed.outer]
          outer := by rw [renamed.outer] }
    | _ => simpa [Checking.outside, kind, NodeKind.renamed,
        Declaration.renamed] using renamed
  · cases form with
    | compound =>
        simp only [Checking.outside, Site.kind_renamed, Site.id_renamed, kind,
          NodeKind.renamed]
        rw [renamed.facts]
        cases state.facts.blocks.get? site.id with
        | none => exact renamed
        | some block =>
            exact { renamed with
              facts := rfl
              current := by simp only [tables.parent?] }
    | _ => simpa [Checking.outside, kind, NodeKind.renamed] using renamed
  · cases form <;> simpa [Checking.outside, kind, NodeKind.renamed] using renamed
  · simpa [Checking.outside, kind, NodeKind.renamed] using renamed

theorem left (renamed : Renamed rename state image)
    (tables : table.Renamed rename other) (tree : Tree) (site : Site) :
    Renamed rename (state.left tree table site)
      (image.left (tree.renamed rename) other (site.renamed rename)) := by
  rw [Checking.left, Checking.left, renamed.objections tables,
    renamed.gained tables]
  exact ((renamed.outside tables site).reported _).typed site.id _

theorem entered (renamed : Renamed rename state image)
    (tables : table.Renamed rename other) (site : Site) :
    Renamed rename (state.entered table site)
      (image.entered other (site.renamed rename)) := by
  rcases kind : site.node.kind with form | form | form | parameter
  · cases form with
    | function name spec =>
        simp only [Checking.entered, Site.kind_renamed, Site.id_renamed, kind,
          NodeKind.renamed, Declaration.renamed]
        exact { renamed with
          function := by
            simp only [functionSymbol?, renamed.facts, tables.globalFunction?]
          outer := by rw [renamed.function, renamed.outer] }
    | _ => simpa [Checking.entered, kind, NodeKind.renamed,
        Declaration.renamed] using renamed
  · cases form with
    | compound =>
        simp only [Checking.entered, Site.kind_renamed, Site.id_renamed, kind,
          NodeKind.renamed]
        rw [renamed.facts]
        cases state.facts.blocks.get? site.id with
        | none => exact renamed.reported _
        | some block =>
            exact { renamed with
              facts := rfl
              current := rfl }
    | _ => simpa [Checking.entered, kind, NodeKind.renamed] using renamed
  · cases form <;> simpa [Checking.entered, kind, NodeKind.renamed] using renamed
  · simpa [Checking.entered, kind, NodeKind.renamed] using renamed

theorem walked (renamed : Renamed rename state image)
    (tables : table.Renamed rename other) (tree : Tree) (forest : Forest) :
    Renamed rename (state.walked tree table forest)
      (image.walked (tree.renamed rename) other (forest.renamed rename)) := by
  induction forest generalizing state image with
  | nil => exact renamed
  | missing fault => exact renamed
  | cons site first second third rest inFirst inSecond inThird inRest =>
      have children := inThird (inSecond (inFirst
        (renamed.entered tables site)))
      exact inRest (children.left tables tree site)

end Renamed

end Checking

end CMinusAnalysis
