import ProgramSearch.Symbols
import ProgramSearch.SymbolTree

/-!
# Candidates

A candidate is a partial tree with the position at which decoding goes on. It grows symbol by
symbol. The symbol that opens a construct, and the first symbol below it, are pushed onto a stack
of open nodes and grow a child; a stop returns to the innermost open node, or ends decoding when
none is open; any other symbol continues the chain of siblings.
-/
namespace ProgramSearch

structure Candidate (σ : Type) where
  tree : SymbolTree
  /-- The node that the next symbol is attached to. -/
  cursor : Nat
  /-- Open nodes, the innermost first. -/
  open_ : List Nat
  lastSymbol : Nat
  lastEdge : Edge
  logProb : Float32
  length : Nat
  state : σ
  /-- False once the outermost chain is closed. -/
  rolling : Bool
deriving Inhabited

namespace Candidate

variable {σ : Type}

def start (control : Control) (state : σ) (logProb : Float32) : Candidate σ :=
  { tree := .ofRoot control.subtree
    cursor := SymbolTree.root
    open_ := []
    lastSymbol := control.subtree
    lastEdge := .sibling
    logProb
    length := 1
    state
    rolling := true }

/-- A candidate is live while its log-probability is finite. -/
def isLive (c : Candidate σ) : Bool := c.logProb.isFinite

def isFinished (c : Candidate σ) : Bool := !c.rolling && c.isLive

/-- Whether the cursor and all open nodes lie in the tree. -/
def isPlaced (c : Candidate σ) : Bool :=
  c.cursor < c.tree.size && c.open_.all (· < c.tree.size)

/-- The symbol of a node. -/
def symbolAt (t : SymbolTree) (id : Nat) : Nat := ((t.node? id).map Node.symbol).getD 0

/-- Attaches a symbol through the last edge and moves the position. -/
def grow (control : Control) (c : Candidate σ) (symbol : Nat) : Candidate σ :=
  let node := c.tree.size
  let grown := { c with
    tree := c.tree.attach c.lastEdge c.cursor symbol
    cursor := node
    length := c.length + 1 }
  let below := c.lastEdge == .child && control.isConstruct c.lastSymbol
  if below || control.isConstruct symbol then
    { grown with open_ := node :: c.open_, lastEdge := .child, lastSymbol := symbol }
  else if symbol == control.stop then
    match c.open_ with
    | [] => { grown with rolling := false }
    | top :: rest =>
      { grown with
        open_ := rest
        cursor := top
        lastSymbol := symbolAt grown.tree top
        lastEdge := .sibling }
  else { grown with lastEdge := .sibling, lastSymbol := symbol }

end Candidate

end ProgramSearch
