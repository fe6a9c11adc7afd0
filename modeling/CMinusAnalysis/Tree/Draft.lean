import CMinusAnalysis.Tree.Basic

namespace CMinusAnalysis

/-! Trees are drafted one construct at a time. A construct first chains the node
lists that it is given, then adds at most one node, whose handle is the number
of nodes before it. -/

inductive Construct where
  | variable (name : String) (spec : Option TypeSpec) (line : Nat)
  | intVariable (name : String) (line : Nat)
  | arrayVariable (name : String) (spec : Option TypeSpec)
      (length : Option Nat) (line : Nat)
  | function (name : String) (spec : Option TypeSpec)
      (parameters body : Option NodeId) (line : Nat)
  | parameter (name : Option String) (spec : Option TypeSpec)
      (isArray : Bool) (line : Nat)
  | intParameter (name : String) (line : Nat)
  | arrayParameter (name : String) (line : Nat)
  /-- The lone `void` of an empty parameter list. -/
  | voidParameters (line : Nat)
  | compound (locals statements : List NodeId) (line : Nat)
  | conditional (condition taken otherwise : Option NodeId) (line : Nat)
  | loop (condition body : Option NodeId) (line : Nat)
  | ret (value : Option NodeId) (line : Nat)
  | assignment (target value : NodeId) (line : Nat)
  | write (value : NodeId) (line : Nat)
  | identifier (name : String) (line : Nat)
  | arrayIdentifier (name : String) (index : Option NodeId) (line : Nat)
  | call (name : String) (arguments : List NodeId) (line : Nat)
  | constant (value : Int) (line : Nat)
  | binary (op : BinaryOp) (left right : NodeId) (line : Nat)
  | assignExpression (target value : NodeId) (line : Nat)
  /-- Chains nodes as siblings and adds none. -/
  | chain (members : List NodeId)
  deriving DecidableEq, Repr

namespace Construct

/-- The node lists that are chained before the construct's own node exists, in
the order in which they are chained. -/
def chains : Construct → List (List NodeId)
  | .compound locals statements _ => [locals, statements]
  | .call _ arguments _ => [arguments]
  | .chain members => [members]
  | _ => []

def node? : Construct → Option Node
  | .variable name spec line =>
      some { kind := .declaration (.variable name spec), line }
  | .intVariable name line =>
      some { kind := .declaration (.variable name (some .int)), line }
  | .arrayVariable name spec length line =>
      some { kind := .declaration (.arrayVariable name spec length), line }
  | .function name spec parameters body line =>
      some {
        kind := .declaration (.function name spec), line
        first := parameters, second := body }
  | .parameter name spec isArray line =>
      some { kind := .parameter ⟨name, spec, isArray⟩, line }
  | .intParameter name line =>
      some { kind := .parameter ⟨some name, some .int, false⟩, line }
  | .arrayParameter name line =>
      some { kind := .parameter ⟨some name, some .int, true⟩, line }
  | .voidParameters line =>
      some { kind := .parameter ⟨none, some .void, false⟩, line }
  | .compound locals statements line =>
      some {
        kind := .statement .compound, line
        first := locals.head?, second := statements.head? }
  | .conditional condition taken otherwise line =>
      some {
        kind := .statement
          (if otherwise.isSome then .alternative else .conditional)
        line, first := condition, second := taken, third := otherwise }
  | .loop condition body line =>
      some { kind := .statement .loop, line, first := condition, second := body }
  | .ret value line =>
      some { kind := .statement .ret, line, first := value }
  | .assignment target value line =>
      some {
        kind := .statement .assign, line
        first := some target, second := some value }
  | .write value line =>
      some { kind := .statement .write, line, first := some value }
  | .identifier name line =>
      some { kind := .expression (.identifier name), line }
  | .arrayIdentifier name index line =>
      some { kind := .expression (.arrayIdentifier name), line, first := index }
  | .call name arguments line =>
      some {
        kind := .expression (.call name), line, first := arguments.head? }
  | .constant value line =>
      some { kind := .expression (.constant value), line }
  | .binary op left right line =>
      some {
        kind := .expression (.binary op), line
        first := some left, second := some right }
  | .assignExpression target value line =>
      some {
        kind := .expression .assign, line
        first := some target, second := some value }
  | .chain _ => none

end Construct

abbrev Draft := Array Node

namespace Draft

/-- Makes `next` the sibling of `id`. Only `id` has to exist by now. -/
def setSibling (draft : Draft) (id next : NodeId) : Except Fault Draft := do
  let node ← fetch draft id.index
  return draft.setIfInBounds id.index { node with sibling := some next }

/-- Chains the members as siblings, in order. The last member keeps whatever
sibling it has. -/
def chain (draft : Draft) : List NodeId → Except Fault Draft
  | id :: next :: rest => do
      let linked ← draft.setSibling id next
      linked.chain (next :: rest)
  | _ => .ok draft

def chainAll (draft : Draft) (chains : List (List NodeId)) :
    Except Fault Draft :=
  chains.foldlM chain draft

def add (draft : Draft) (construct : Construct) : Except Fault Draft := do
  let linked ← draft.chainAll construct.chains
  return match construct.node? with
    | some node => linked.push node
    | none => linked

/-- Chains the top-level declarations and makes the first of them the root. -/
def finish (draft : Draft) (declarations : List NodeId) :
    Except Fault Tree := do
  let linked ← draft.chain declarations
  return { nodes := linked, root := declarations.head? }

end Draft

namespace Tree

def ofConstructs (constructs : List Construct) (declarations : List NodeId) :
    Except Fault Tree := do
  let draft ← constructs.foldlM Draft.add #[]
  draft.finish declarations

end Tree

end CMinusAnalysis
