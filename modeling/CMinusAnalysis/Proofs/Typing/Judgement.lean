import CMinusAnalysis.Tree.Forest

namespace CMinusAnalysis

/-! Well-formed programs, said without the analysis. A name is visible from its
declaration to the end of its scope unless a scope further inside declares it
again, and no scope declares a name twice. A variable is an integer or an array
of integers. A use has a visible name; a call has, besides, a function of its
name somewhere in the program, whose parameters its arguments fit. -/

/-- The names of one scope with their types, latest first. -/
abbrev Frame := List (String × Ty)

/-- The scopes around a place, innermost first. -/
abbrev Context := List Frame

namespace Context

def type? (context : Context) (name : String) : Option Ty :=
  context.findSome? fun frame => frame.lookup name

end Context

structure Signature where
  parameters : List Ty
  result : Ty
  deriving DecidableEq, Repr

/-- The functions of a program by their names. -/
abbrev Signatures := List (String × Signature)

namespace NodeKind

/-- What a variable or a parameter adds to its scope. -/
def binding? : NodeKind → Option (String × Ty)
  | .declaration (.variable name _) => some (name, .integer)
  | .declaration (.arrayVariable name _ _) => some (name, .integerArray)
  | .parameter entry => entry.name.map fun name => (name, entry.type)
  | _ => none

/-- A variable is declared with the word for integers. -/
def Specified : NodeKind → Prop
  | .declaration (.variable _ spec) => spec = some .int
  | .declaration (.arrayVariable _ spec _) => spec = some .int
  | _ => True

end NodeKind

namespace Forest

def parameterTypes : Forest → List Ty
  | .cons site _ _ _ rest =>
      (site.node.kind.binding?.map Prod.snd).toList ++ rest.parameterTypes
  | _ => []

def signatures : Forest → Signatures
  | .cons site first _ _ rest =>
      match site.node.kind with
      | .declaration (.function name spec) =>
          (name, ⟨first.parameterTypes, Ty.ofReturnSpec spec⟩) ::
            rest.signatures
      | _ => rest.signatures
  | _ => []

end Forest

namespace Typing

/-- A chain of declarations adds names to a scope, each a new one. -/
inductive Declares : Frame → Forest → Frame → Prop
  | nil {frame : Frame} : Declares frame .nil frame
  | name {frame after : Frame} {site : Site} {rest : Forest} {name : String}
      {type : Ty} (binds : site.node.kind.binding? = some (name, type))
      (specified : site.node.kind.Specified) (fresh : frame.lookup name = none)
      (beside : Declares ((name, type) :: frame) rest after) :
      Declares frame (.cons site .nil .nil .nil rest) after
  | nameless {frame after : Frame} {site : Site} {rest : Forest}
      (binds : site.node.kind.binding? = none)
      (beside : Declares frame rest after) :
      Declares frame (.cons site .nil .nil .nil rest) after

/-- The type of an expression, from the types of its operands. An element of an
array is an integer and an array without index is the array, whatever the name
stands for. -/
inductive Rule (signatures : Signatures) (context : Context) :
    Expression → List Ty → List Ty → Ty → Prop
  | constant {value : Int} :
      Rule signatures context (.constant value) [] [] .integer
  | identifier {name : String} {type : Ty}
      (visible : context.type? name = some type) :
      Rule signatures context (.identifier name) [] [] type
  | array {name : String} (visible : (context.type? name).isSome = true) :
      Rule signatures context (.arrayIdentifier name) [] [] .integerArray
  | element {name : String} {index : Ty}
      (visible : (context.type? name).isSome = true) :
      Rule signatures context (.arrayIdentifier name) [index] [] .integer
  | call {name : String} {signature : Signature}
      (visible : (context.type? name).isSome = true)
      (function : signatures.lookup name = some signature) :
      Rule signatures context (.call name) signature.parameters []
        signature.result
  | binary {op : BinaryOp} {type : Ty} (value : type ≠ .void) :
      Rule signatures context (.binary op) [type] [type] .integer
  | assign {type : Ty} (value : type ≠ .void) :
      Rule signatures context .assign [type] [type] type

/-- The expressions of a chain have these types. -/
inductive Expressions (signatures : Signatures) (context : Context) :
    Forest → List Ty → Prop
  | nil : Expressions signatures context .nil []
  | cons {site : Site} {first second rest : Forest} {expression : Expression}
      {firsts seconds types : List Ty} {type : Ty}
      (kind : site.node.kind = .expression expression)
      (inFirst : Expressions signatures context first firsts)
      (inSecond : Expressions signatures context second seconds)
      (rule : Rule signatures context expression firsts seconds type)
      (beside : Expressions signatures context rest types) :
      Expressions signatures context (.cons site first second .nil rest)
        (type :: types)

/-- What a statement allows as the types of its operands, inside a function with
this result. -/
inductive Command (result : Ty) : Statement → List Ty → List Ty → Prop
  | finish (nothing : result = .void) : Command result .ret [] []
  | give (something : result ≠ .void) : Command result .ret [result] []
  | assign {type : Ty} (value : type ≠ .void) :
      Command result .assign [type] [type]
  | write {type : Ty} (value : type ≠ .void) : Command result .write [type] []

/-- The statements of a chain are in order, inside a function with this
result. -/
inductive Statements (signatures : Signatures) (result : Ty) :
    Context → Forest → Prop
  | nil {context : Context} : Statements signatures result context .nil
  | expression {context : Context} {site : Site}
      {first second third rest : Forest} {type : Ty}
      (alone : Expressions signatures context
        (.cons site first second third .nil) [type])
      (beside : Statements signatures result context rest) :
      Statements signatures result context (.cons site first second third rest)
  | block {context : Context} {site : Site} {locals body rest : Forest}
      {frame : Frame} (kind : site.node.kind = .statement .compound)
      (declares : Declares [] locals frame)
      (inside : Statements signatures result (frame :: context) body)
      (beside : Statements signatures result context rest) :
      Statements signatures result context (.cons site locals body .nil rest)
  | test {context : Context} {site : Site} {condition taken other rest : Forest}
      {statement : Statement} {type : Ty}
      (kind : site.node.kind = .statement statement)
      (tests : statement = .conditional ∨ statement = .alternative ∨
        statement = .loop)
      (before : Expressions signatures context condition [type])
      (value : type ≠ .void)
      (first : Statements signatures result context taken)
      (second : Statements signatures result context other)
      (beside : Statements signatures result context rest) :
      Statements signatures result context
        (.cons site condition taken other rest)
  | command {context : Context} {site : Site} {first second rest : Forest}
      {statement : Statement} {firsts seconds : List Ty}
      (kind : site.node.kind = .statement statement)
      (inFirst : Expressions signatures context first firsts)
      (inSecond : Expressions signatures context second seconds)
      (command : Command result statement firsts seconds)
      (beside : Statements signatures result context rest) :
      Statements signatures result context (.cons site first second .nil rest)

/-- The declarations of a chain are in order after these global names. The
parameters of a function and the variables of its body share a scope. -/
inductive Program (signatures : Signatures) : Frame → Forest → Prop
  | nil {globals : Frame} : Program signatures globals .nil
  | global {globals : Frame} {site : Site} {rest : Forest} {name : String}
      {type : Ty} (kind : site.node.kind.binding? = some (name, type))
      (specified : site.node.kind.Specified)
      (fresh : globals.lookup name = none)
      (beside : Program signatures ((name, type) :: globals) rest) :
      Program signatures globals (.cons site .nil .nil .nil rest)
  | bodiless {globals inner : Frame} {site : Site} {parameters rest : Forest}
      {name : String} {spec : Option TypeSpec}
      (kind : site.node.kind = .declaration (.function name spec))
      (fresh : globals.lookup name = none)
      (declares : Declares [] parameters inner)
      (beside : Program signatures ((name, Ty.ofReturnSpec spec) :: globals)
        rest) :
      Program signatures globals (.cons site parameters .nil .nil rest)
  | function {globals inner frame : Frame} {site body : Site}
      {parameters locals statements rest : Forest} {name : String}
      {spec : Option TypeSpec}
      (kind : site.node.kind = .declaration (.function name spec))
      (fresh : globals.lookup name = none)
      (declares : Declares [] parameters inner)
      (block : body.node.kind = .statement .compound)
      (declaresInside : Declares inner locals frame)
      (inside : Statements signatures (Ty.ofReturnSpec spec)
        [frame, (name, Ty.ofReturnSpec spec) :: globals] statements)
      (beside : Program signatures ((name, Ty.ofReturnSpec spec) :: globals)
        rest) :
      Program signatures globals
        (.cons site parameters (.cons body locals statements .nil .nil) .nil
          rest)

def runtime (builtins : Bool) : Signatures :=
  if builtins then [("input", ⟨[], .integer⟩), ("output", ⟨[.integer], .void⟩)]
  else []

def WellFormed (builtins : Bool) (forest : Forest) : Prop :=
  Program (runtime builtins ++ forest.signatures)
    ((runtime builtins).map fun (name, signature) => (name, signature.result))
    forest

end Typing

end CMinusAnalysis
