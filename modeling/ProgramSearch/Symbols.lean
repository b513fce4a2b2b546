import ProgramSearch.Failure

/-!
# Decoder symbols

A vocabulary lists the symbols a decoder can emit; a symbol's id is its position. Five control
symbols must be among them.
-/
namespace ProgramSearch

/-- Ids of the symbols that drive the growth of a tree. -/
structure Control where
  subtree : Nat
  stop : Nat
  branch : Nat
  loop : Nat
  except : Nat
deriving Repr, DecidableEq, Inhabited

namespace Control

def subtreeName : String := "DSubTree"

def stopName : String := "STOP"

def branchName : String := "DBranch"

def loopName : String := "DLoop"

def exceptName : String := "DExcept"

/-- Whether a symbol opens a nested construct. -/
def isConstruct (c : Control) (symbol : Nat) : Bool :=
  symbol == c.branch || symbol == c.loop || symbol == c.except

end Control

/-- The ids of some symbols; the entry that was made last comes first. -/
abbrev SymbolIndex := List (String × Nat)

/-- Symbols by id, and ids by symbol. -/
structure Vocabulary where
  symbols : List String
  index : SymbolIndex
  control : Control
deriving Repr, DecidableEq, Inhabited

namespace SymbolIndex

/-- Enters a symbol under an id. A symbol that is there already is refused. -/
def enter (index : SymbolIndex) (entry : String × Nat) : Except Failure SymbolIndex :=
  match index.lookup entry.1 with
  | some _ => .error (.vocabulary (.duplicate entry.1))
  | none => .ok (entry :: index)

/-- The position of each of some symbols. -/
def ofSymbols (symbols : List String) : Except Failure SymbolIndex :=
  symbols.zipIdx.foldlM enter []

/-- The id of a symbol that must be there. -/
def find (index : SymbolIndex) (name : String) : Except Failure Nat :=
  match index.lookup name with
  | some id => .ok id
  | none => .error (.vocabulary (.missing name))

/-- The ids of the control symbols, which must all be there. -/
def control (index : SymbolIndex) : Except Failure Control := do
  let subtree ← index.find Control.subtreeName
  let stop ← index.find Control.stopName
  let branch ← index.find Control.branchName
  let loop ← index.find Control.loopName
  let except ← index.find Control.exceptName
  return ⟨subtree, stop, branch, loop, except⟩

end SymbolIndex

namespace Vocabulary

/-- Ids are positions. Repeated symbols are refused before missing ones. -/
def ofSymbols (symbols : List String) : Except Failure Vocabulary := do
  let index ← SymbolIndex.ofSymbols symbols
  let control ← index.control
  return ⟨symbols, index, control⟩

def id? (v : Vocabulary) (symbol : String) : Option Nat := v.index.lookup symbol

def symbol? (v : Vocabulary) (id : Nat) : Option String := v.symbols[id]?

def size (v : Vocabulary) : Nat := v.symbols.length

end Vocabulary

end ProgramSearch
