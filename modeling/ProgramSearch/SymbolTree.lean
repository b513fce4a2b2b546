/-!
# Symbol trees

Partial programs as a decoder grows them: nodes in the order of their creation, each with at most
one child and at most one sibling. A node is only ever linked from nodes that were there before
it, so links lead from smaller to larger ids.
-/
namespace ProgramSearch

structure Node where
  symbol : Nat
  child : Option Nat
  sibling : Option Nat
deriving Repr, DecidableEq, Inhabited

/-- Through which link of a node the next one is attached. -/
inductive Edge where
  | child
  | sibling
deriving Repr, DecidableEq, Inhabited

structure SymbolTree where
  nodes : Array Node
deriving Repr, DecidableEq, Inhabited

namespace SymbolTree

def ofRoot (symbol : Nat) : SymbolTree := ⟨#[⟨symbol, none, none⟩]⟩

def root : Nat := 0

def size (t : SymbolTree) : Nat := t.nodes.size

def node? (t : SymbolTree) (id : Nat) : Option Node := t.nodes[id]?

def Node.link (edge : Edge) (target : Nat) (n : Node) : Node :=
  match edge with
  | .child => { n with child := some target }
  | .sibling => { n with sibling := some target }

/-- Appends a node, whose id is the old size, and links it from node `source`; a link that was there
is replaced. -/
def attach (t : SymbolTree) (edge : Edge) (source symbol : Nat) : SymbolTree :=
  ⟨(t.nodes.push ⟨symbol, none, none⟩).modify source (Node.link edge t.size)⟩

/-- Whether any node has a child. -/
def hasChildren (t : SymbolTree) : Bool := t.nodes.any (·.child.isSome)

/-- The ids met by following sibling links from `id`. A link that does not lead forward ends the
walk. -/
def siblingsFrom (t : SymbolTree) (id : Nat) : List Nat :=
  match t.node? id with
  | none => []
  | some node =>
    match node.sibling with
    | none => [id]
    | some next => if id < next ∧ next < t.size then id :: t.siblingsFrom next else [id]
termination_by t.size - id

end SymbolTree

end ProgramSearch
