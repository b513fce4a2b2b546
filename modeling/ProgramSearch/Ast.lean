import ProgramSearch.Symbols
import ProgramSearch.SymbolTree

/-!
# Program syntax trees

A symbol tree is a chain of siblings below its root. A construct keeps its first part under its
child link, and its second part under the child link of that child; a chain ends at a stop symbol
or at a missing link.
-/
namespace ProgramSearch

inductive Ast where
  | subtree (nodes : List Ast)
  | call (name : String)
  | branch (condition yes no : List Ast)
  | except (body handler : List Ast)
  | loop (condition body : List Ast)
deriving Repr, Inhabited

namespace Ast

/-- Direct parts, in the order of the fields. -/
def children : Ast → List Ast
  | subtree nodes => nodes
  | call _ => []
  | branch condition yes no => condition ++ yes ++ no
  | except body handler => body ++ handler
  | loop condition body => condition ++ body

mutual

/-- Calls in depth-first order, repetitions kept. -/
def calls : Ast → List String
  | subtree nodes => callsOf nodes
  | call name => [name]
  | branch condition yes no => callsOf condition ++ callsOf yes ++ callsOf no
  | except body handler => callsOf body ++ callsOf handler
  | loop condition body => callsOf condition ++ callsOf body

def callsOf : List Ast → List String
  | [] => []
  | node :: rest => node.calls ++ callsOf rest

end

/-- A link that leads forward, inside the tree or not. -/
def forward? (id : Nat) (link : Option Nat) : Except Failure (Option { next : Nat // id < next }) :=
  match link with
  | none => .ok none
  | some next => if h : id < next then .ok (some ⟨next, h⟩) else .error .outOfRange

/-- The child of the node that a link leads to, if that leads forward as well. -/
def beyond? (t : SymbolTree) (id : Nat) (link : Option { next : Nat // id < next }) :
    Except Failure (Option { next : Nat // id < next }) :=
  match link with
  | none => .ok none
  | some c => do
    let beyond ← forward? c.val ((t.node? c.val).bind (·.child))
    return beyond.map fun next => ⟨next.val, Nat.lt_trans c.property next.property⟩

/-- The syntax tree of a symbol. Only a construct asks for its two parts. -/
def headOf (v : Vocabulary) (symbol : Nat) (first second : Unit → Except Failure (List Ast)) :
    Except Failure Ast :=
  if symbol == v.control.branch then do return branch [] (← first ()) (← second ())
  else if symbol == v.control.except then do return except (← first ()) (← second ())
  else if symbol == v.control.loop then do return loop (← first ()) (← second ())
  else
    match v.symbol? symbol with
    | some name => .ok (call name)
    | none => .error (.vocabulary (.unknownId symbol))

/-- The chain that starts at `id`, as syntax trees. -/
def chainFrom (v : Vocabulary) (t : SymbolTree) (id : Nat) : Except Failure (List Ast) :=
  if inside : id < t.size then
    let node := t.nodes[id]
    let chain (start : Option { next : Nat // id < next }) : Except Failure (List Ast) :=
      match start with
      | none => .ok []
      | some next => chainFrom v t next.val
    if node.symbol == v.control.stop then .ok []
    else do
      let first ← forward? id node.child
      let second ← beyond? t id first
      let head ← headOf v node.symbol (fun _ => chain first) (fun _ => chain second)
      let next ← forward? id node.sibling
      let rest ← chain next
      return head :: rest
  else .error .outOfRange
termination_by t.size - id
decreasing_by
  have := next.property
  omega

/-- The program that a symbol tree stands for: the chain that begins beside the root. -/
def ofTree (v : Vocabulary) (t : SymbolTree) : Except Failure Ast :=
  match (t.node? SymbolTree.root).bind (·.sibling) with
  | none => .ok (subtree [])
  | some first => subtree <$> chainFrom v t first

end Ast

/-- A synthesized program with its probability. -/
structure Synthesized where
  ast : Ast
  probability : Float
  logProbability : Float32
deriving Inhabited

end ProgramSearch
