import CMinusAnalysis.Proofs.Declaring.Scopes
import CMinusAnalysis.Proofs.Symbol.Renaming
import CMinusAnalysis.Proofs.Tree.Renaming

namespace CMinusAnalysis

namespace Declaring

/-- The second state is the first one with other names. -/
structure Renamed (rename : String → String) (state image : Declaring) :
    Prop where
  table : state.table.Renamed rename image.table
  facts : image.facts = state.facts
  diagnostics : image.diagnostics = state.diagnostics.renamed rename
  current : image.current = state.current
  awaiting : image.awaiting = state.awaiting
  signature : image.signature = state.signature.map rename
  blockCount : image.blockCount = state.blockCount

namespace Renamed

variable {rename : String → String} {state image : Declaring}

theorem find? (renamed : Renamed rename state image) (name : String) :
    image.table.find? image.current (rename name) =
      state.table.find? state.current name := by
  rw [renamed.current, renamed.table.find?]

theorem reported (renamed : Renamed rename state image)
    (kind : DiagnosticKind) (line : Nat) (name : String) :
    Renamed rename (state.reported kind line name)
      (image.reported kind line (rename name)) :=
  { renamed with
    diagnostics := by
      simp only [Declaring.reported, renamed.diagnostics]
      rfl }

theorem declaredIn (renamed : Renamed rename state image)
    (injective : Function.Injective rename) (sound : state.Sound)
    (other : image.Sound) {scope : ScopeId} {name : String}
    (has : state.table.Has scope) (free : state.table.find? scope name = none)
    (type : Ty) (line : Nat) (isFunction : Bool) :
    Renamed rename (state.declaredIn scope name type line isFunction)
      (image.declaredIn scope (rename name) type line isFunction) :=
  { renamed with
    table := renamed.table.declared injective sound.coherent other.coherent
      has free type line isFunction }

theorem enclosed (renamed : Renamed rename state image)
    (name other : String) :
    Renamed rename (state.enclosed name) (image.enclosed other) :=
  { renamed with
    table := by
      rw [Declaring.enclosed, Declaring.enclosed, renamed.current]
      exact renamed.table.opened name other state.current
    current := congrArg ScopeId.mk renamed.table.size }

theorem outside (renamed : Renamed rename state image) :
    Renamed rename state.outside image.outside :=
  { renamed with
    current := by
      simp only [Declaring.outside, renamed.table.parent?, renamed.current] }

theorem withLocal (renamed : Renamed rename state image)
    (injective : Function.Injective rename) (sound : state.Sound)
    (other : image.Sound) (name : String) (type : Ty) (line : Nat)
    (redeclared : DiagnosticKind) :
    Renamed rename (state.withLocal name type line redeclared)
      (image.withLocal (rename name) type line redeclared) := by
  simp only [Declaring.withLocal, renamed.find?]
  split
  · exact renamed.reported redeclared line name
  · next free =>
      rw [renamed.current]
      exact renamed.declaredIn injective sound other sound.current
        (by simpa using free) type line false

theorem withSigned (renamed : Renamed rename state image)
    (function : String) (type : Ty) :
    Renamed rename (state.withSigned function type)
      (image.withSigned (rename function) type) := by
  simp only [Declaring.withSigned, renamed.table.globalFunction?]
  split
  · next found _ =>
      exact { renamed with
        table := renamed.table.modifySymbol
          (Symbol.bare_addParameter · type) (fun _ => rfl) found }
  · exact renamed

theorem withSignature (renamed : Renamed rename state image) (type : Ty) :
    Renamed rename (state.withSignature type) (image.withSignature type) := by
  simp only [Declaring.withSignature, renamed.signature]
  cases state.signature with
  | none => exact renamed
  | some function => exact renamed.withSigned function type

theorem withParameter (renamed : Renamed rename state image)
    (injective : Function.Injective rename) (sound : state.Sound)
    (other : image.Sound) (parameter : Parameter) (line : Nat) :
    Renamed rename (state.withParameter parameter line)
      (image.withParameter (parameter.renamed rename) line) := by
  simp only [Declaring.withParameter, Parameter.renamed]
  cases parameter.name with
  | none => exact renamed
  | some name =>
      simp only [Option.map_some, renamed.find?]
      split
      · exact renamed.reported .parameterRedeclared line name
      · next free =>
          rw [renamed.current]
          exact (renamed.declaredIn injective sound other sound.current
            (by simpa using free) parameter.type line false).withSignature
            parameter.type

theorem objection? (renamed : Renamed rename state image) (name : String) :
    image.objection? (rename name) = state.objection? name := by
  simp only [Declaring.objection?, renamed.table.find?, renamed.current]

theorem withFunction (renamed : Renamed rename state image)
    (injective : Function.Injective rename) (sound : state.Sound)
    (other : image.Sound) (id : NodeId) (name : String) (type : Ty)
    (line : Nat) :
    Renamed rename (state.withFunction id name type line)
      (image.withFunction id (rename name) type line) := by
  simp only [Declaring.withFunction, renamed.objection?]
  split
  · next kind _ =>
      exact { renamed.reported kind line name with signature := rfl }
  · next accepted =>
      have free := (objection?_eq_none accepted).1
      exact { renamed.declaredIn injective sound other sound.global free type
          line true with
        facts := by rw [renamed.facts, renamed.table.size_symbols]
        signature := rfl }

theorem inFunction (renamed : Renamed rename state image)
    (injective : Function.Injective rename) (sound : state.Sound)
    (other : image.Sound) (id : NodeId) (name : String) (type : Ty)
    (line : Nat) :
    Renamed rename (state.inFunction id name type line)
      (image.inFunction id (rename name) type line) := by
  have accepted := renamed.withFunction injective sound other id name type line
  exact { accepted.enclosed name (rename name) with
    awaiting := congrArg (fun size => some (ScopeId.mk size))
      accepted.table.size }

theorem withUse (renamed : Renamed rename state image) (id : NodeId)
    (name : String) (line : Nat) :
    Renamed rename (state.withUse id name line)
      (image.withUse id (rename name) line) := by
  have same : image.table.resolve image.current (rename name) =
      state.table.resolve state.current name := by
    rw [renamed.current, renamed.table.resolve]
  simp only [Declaring.withUse, same]
  split
  · next found _ =>
      exact { renamed with
        table := renamed.table.modifySymbol (Symbol.bare_addLine · line)
          (fun _ => rfl) found }
  · exact { renamed.reported .undeclared line name with
      facts := by rw [renamed.facts] }

theorem withBlock (renamed : Renamed rename state image) (id : NodeId) :
    Renamed rename (state.withBlock id) (image.withBlock id) := by
  simp only [Declaring.withBlock, renamed.awaiting]
  split
  · exact { renamed with
      facts := by rw [renamed.facts]
      awaiting := rfl }
  · exact { renamed.enclosed _ _ with
      facts := by rw [renamed.facts, renamed.table.size]
      blockCount := by rw [renamed.blockCount] }

theorem withoutFunction (renamed : Renamed rename state image) :
    Renamed rename state.withoutFunction image.withoutFunction := by
  simp only [Declaring.withoutFunction, renamed.awaiting]
  split
  · exact { renamed.outside with
      awaiting := rfl
      signature := rfl }
  · exact { renamed with
      awaiting := rfl
      signature := rfl }

theorem entered (renamed : Renamed rename state image)
    (injective : Function.Injective rename) (sound : state.Sound)
    (other : image.Sound) (site : Site) :
    Renamed rename (state.entered site)
      (image.entered (site.renamed rename)) := by
  simp only [Declaring.entered, Site.renamed, Node.renamed]
  rcases site.node.kind with form | form | form | parameter
  · rcases form with ⟨name, spec⟩ | ⟨name, spec, length⟩ | ⟨name, spec⟩
    · exact renamed.withLocal injective sound other _ _ _ _
    · exact renamed.withLocal injective sound other _ _ _ _
    · exact renamed.inFunction injective sound other _ _ _ _
  · cases form with
    | compound => exact renamed.withBlock _
    | _ => exact renamed
  · cases form with
    | identifier name | arrayIdentifier name | call name =>
        exact renamed.withUse _ _ _
    | _ => exact renamed
  · exact renamed.withParameter injective sound other _ _

theorem left (renamed : Renamed rename state image) (site : Site) :
    Renamed rename (state.left site) (image.left (site.renamed rename)) := by
  simp only [Declaring.left, Site.renamed, Node.renamed]
  rcases site.node.kind with form | form | form | parameter
  · cases form with
    | function name spec => exact renamed.withoutFunction
    | _ => exact renamed
  · cases form with
    | compound => exact renamed.outside
    | _ => exact renamed
  · cases form <;> exact renamed
  · exact renamed

end Renamed

theorem renamed_origin {rename : String → String}
    (injective : Function.Injective rename) {builtins : Bool}
    (fixed : builtins = true →
      rename "input" = "input" ∧ rename "output" = "output") :
    Renamed rename (origin builtins) (origin builtins) := by
  have blank : Renamed rename bare bare :=
    { table :=
        { layout := rfl
          symbols := Array.map_empty.symm
          find? := fun id name => by rw [find?_bare, find?_bare] }
      facts := rfl
      diagnostics := rfl
      current := rfl
      awaiting := rfl
      signature := rfl
      blockCount := rfl }
  cases builtins with
  | false => exact blank
  | true =>
      obtain ⟨input, output⟩ := fixed rfl
      have first := blank.declaredIn injective sound_bare sound_bare
        sound_bare.global (find?_bare _ "output") .void 0 true
      have signed := first.withSigned "output" .integer
      rw [output] at signed
      have second := signed.declaredIn injective grows_output.sound
        grows_output.sound grows_output.sound.global find?_input .integer 0
        true
      rw [input] at second
      exact second

end Declaring

end CMinusAnalysis
