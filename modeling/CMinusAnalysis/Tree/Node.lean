import CMinusAnalysis.Arena
import CMinusAnalysis.Language.Operator
import CMinusAnalysis.Language.Type

namespace CMinusAnalysis

/-! Nodes of a program tree. A node has three ordered child slots and a link to
its next sibling, and what a slot means depends on the kind of the node. -/

@[ext] structure NodeId where
  index : Nat
  deriving DecidableEq, Repr

namespace NodeId

def label (id : NodeId) : String :=
  "#" ++ toString id.index

end NodeId

/-- Declarations. A function has its parameter list in slot 0 and its body in
slot 1. -/
inductive Declaration where
  | variable (name : String) (spec : Option TypeSpec)
  | arrayVariable (name : String) (spec : Option TypeSpec)
      (length : Option Nat)
  | function (name : String) (spec : Option TypeSpec)
  deriving DecidableEq, Repr

/-- Statements, with their child slots in order:
* `compound`: local declarations, statements
* `conditional`: condition, branch taken
* `alternative`: condition, branch taken, other branch
* `loop`: condition, body
* `ret`: value, if any
* `assign`: target, value
* `write`: value -/
inductive Statement where
  | compound
  | conditional
  | alternative
  | loop
  | ret
  | assign
  | write
  deriving DecidableEq, Repr

/-- Expressions, with their child slots in order:
* `arrayIdentifier`: index, if any
* `call`: arguments
* `binary` and `assign`: left operand, right operand -/
inductive Expression where
  | identifier (name : String)
  | arrayIdentifier (name : String)
  | call (name : String)
  | constant (value : Int)
  | binary (op : BinaryOp)
  | assign
  deriving DecidableEq, Repr

structure Parameter where
  name : Option String
  spec : Option TypeSpec
  isArray : Bool
  deriving DecidableEq, Repr

namespace Parameter

/-- The lone `void` of an empty parameter list. -/
def isVoidMarker (parameter : Parameter) : Bool :=
  parameter.name.isNone && parameter.spec == some .void

def type (parameter : Parameter) : Ty :=
  Ty.storage parameter.isArray

end Parameter

inductive NodeKind where
  | declaration (declaration : Declaration)
  | statement (statement : Statement)
  | expression (expression : Expression)
  | parameter (parameter : Parameter)
  deriving DecidableEq, Repr

namespace NodeKind

/-- The name that a declaration introduces, a parameter may introduce, or an
expression uses. -/
def name? : NodeKind → Option String
  | .declaration (.variable name _)
  | .declaration (.arrayVariable name _ _)
  | .declaration (.function name _)
  | .expression (.identifier name)
  | .expression (.arrayIdentifier name)
  | .expression (.call name) => some name
  | .parameter entry => entry.name
  | _ => none

end NodeKind

structure Node where
  kind : NodeKind
  line : Nat
  first : Option NodeId := none
  second : Option NodeId := none
  third : Option NodeId := none
  sibling : Option NodeId := none
  deriving DecidableEq, Repr

namespace Node

def slotCount : Nat := 3

/-- The child in a slot. A slot past the last one is always empty. -/
def child (node : Node) : Nat → Option NodeId
  | 0 => node.first
  | 1 => node.second
  | 2 => node.third
  | _ => none

/-- Fills or clears a slot; a slot past the last one cannot be written. -/
def setChild (node : Node) (child : Option NodeId) :
    Nat → Except Fault Node
  | 0 => .ok { node with first := child }
  | 1 => .ok { node with second := child }
  | 2 => .ok { node with third := child }
  | slot => .error ⟨slotCount, slot⟩

def name? (node : Node) : Option String :=
  node.kind.name?

end Node

end CMinusAnalysis
