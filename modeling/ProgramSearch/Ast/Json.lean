import ProgramSearch.Ast
import ProgramSearch.Json.Shape

/-!
# Syntax trees as JSON

A node is an object whose member `node` names the kind of node and whose other members are its
parts. A node may also be read from an array that holds the kind first and then the parts in
order. The kind is looked for first, the parts are read afterwards.
-/
namespace ProgramSearch.Ast

open Json

/-- The kinds of nodes, by the names they are written under. -/
inductive Kind where
  | subtree
  | call
  | branch
  | except
  | loop
deriving Repr, DecidableEq

namespace Kind

def all : List Kind := [subtree, call, branch, except, loop]

def name : Kind → String
  | subtree => "DSubTree"
  | call => "DAPICall"
  | branch => "DBranch"
  | except => "DExcept"
  | loop => "DLoop"

def ofName (s : String) : Except Fault Kind :=
  match all.find? (·.name == s) with
  | some kind => .ok kind
  | none => .error (.unknownVariant s (all.map name))

/-- The members that hold the parts, in order. -/
def fields : Kind → List String
  | subtree => ["_nodes"]
  | call => ["_call"]
  | branch => ["_cond", "_then", "_else"]
  | except => ["_try", "_catch"]
  | loop => ["_cond", "_body"]

/-- The member that holds the kind. -/
def tag : String := "node"

/-- Reads a kind from its name. Inside another node its position among the kinds will do. -/
def ofValue (inner : Bool) : Value → Except Fault Kind
  | .string s => ofName s
  | .number (.integer n) =>
    if inner then
      match all[n.toNat]? with
      | some kind => if 0 ≤ n then .ok kind else (Value.number (.integer n)).mismatch "variant"
      | none => .error (.wrongValue (Number.integer n).described "variant index 0 <= i < 5")
    else (Value.number (.integer n)).mismatch "variant identifier"
  | v => v.mismatch "variant identifier"

end Kind

mutual

def json : Ast → Value
  | subtree nodes => .object [(Kind.tag, .string "DSubTree"), ("_nodes", .array (jsonOf nodes))]
  | call name => .object [(Kind.tag, .string "DAPICall"), ("_call", .string name)]
  | branch condition yes no =>
    .object [(Kind.tag, .string "DBranch"), ("_cond", .array (jsonOf condition)),
      ("_then", .array (jsonOf yes)), ("_else", .array (jsonOf no))]
  | except body handler =>
    .object [(Kind.tag, .string "DExcept"), ("_try", .array (jsonOf body)),
      ("_catch", .array (jsonOf handler))]
  | loop condition body =>
    .object [(Kind.tag, .string "DLoop"), ("_cond", .array (jsonOf condition)),
      ("_body", .array (jsonOf body))]

def jsonOf : List Ast → List Value
  | [] => []
  | node :: rest => node.json :: jsonOf rest

end

/-- A member of a node, both as a value and as a list of nodes. -/
structure Part where
  value : Value
  nodes : Except Fault (List Ast)

/-- Reads the parts named `names` from members; others are skipped. -/
def collect {α : Type} (names : List String) (read : Part → Except Fault α) :
    List (String × α) → List (String × Part) → Except Fault (List (String × α))
  | found, [] => .ok found
  | found, (key, part) :: rest => do
    if names.contains key then
      if (found.lookup key).isSome then .error (.duplicateField key)
      else collect names read (found ++ [(key, ← read part)]) rest
    else collect names read found rest

/-- Reads the parts named `names` from elements in that order; there must be just as many. -/
def align {α : Type} (kind : Kind) (read : Part → Except Fault α) :
    Nat → List String → List Part → Except Fault (List (String × α))
  | _, [], [] => .ok []
  | position, [], rest =>
    .error (.wrongLength (position + rest.length) s!"{position} elements in sequence")
  | position, _ :: _, [] =>
    .error (.wrongLength position s!"struct variant {kind.name}")
  | position, name :: names, part :: rest => do
    let a ← read part
    let as ← align kind read (position + 1) names rest
    return (name, a) :: as

/-- The parts of a node, by name or by position. -/
inductive Parts where
  | named (members : List (String × Part))
  | placed (elements : List Part)

def Parts.read {α : Type} (kind : Kind) (reader : Part → Except Fault α) :
    Parts → Except Fault (List (String × α))
  | named members => collect kind.fields reader [] members
  | placed elements => align kind reader 0 kind.fields elements

/-- Builds a node of a kind from its parts. -/
def assemble (kind : Kind) (parts : Parts) : Except Fault Ast := do
  match kind with
  | .call =>
    let found ← parts.read kind (·.value.text)
    return call (← required "_call" (found.lookup "_call"))
  | .subtree =>
    let found ← parts.read kind (·.nodes)
    return subtree (← required "_nodes" (found.lookup "_nodes"))
  | .branch =>
    let found ← parts.read kind (·.nodes)
    return branch (← required "_cond" (found.lookup "_cond"))
      (← required "_then" (found.lookup "_then")) (← required "_else" (found.lookup "_else"))
  | .except =>
    let found ← parts.read kind (·.nodes)
    return except (← required "_try" (found.lookup "_try"))
      (← required "_catch" (found.lookup "_catch"))
  | .loop =>
    let found ← parts.read kind (·.nodes)
    return loop (← required "_cond" (found.lookup "_cond"))
      (← required "_body" (found.lookup "_body"))

/-- Splits the kind from the members of a node. Members come in text order, and the first thing
wrong with them is what counts. -/
def splitKind {α : Type} (kindOf : α → Except Fault Kind) (content : α → Except Fault Value) :
    Option Kind → List (String × Value) → List (Except Fault String × α) →
      Except Fault (Option Kind × List (String × Value))
  | kind, others, [] => .ok (kind, others.reverse)
  | kind, others, (key, a) :: rest => do
    let key ← key
    if key == Kind.tag then
      if kind.isSome then .error (.duplicateField Kind.tag)
      else splitKind kindOf content (some (← kindOf a)) others rest
    else splitKind kindOf content kind ((key, ← content a) :: others) rest

/-- The kind that members name, once only, and the other members. -/
def kindOfMembers (inner : Bool) (members : List (String × Value)) : Except Fault Kind := do
  let (kind, _) ← splitKind (Kind.ofValue inner) .ok none [] (members.map fun (k, v) => (.ok k, v))
  required Kind.tag kind

mutual

/-- Reads a node; `inner` says that it stands inside another. -/
def ofValue (inner : Bool) : Value → Except Fault Ast
  | .object members => do
    let kind ← kindOfMembers inner members
    assemble kind (.named ((partsOfMembers members).filter (·.1 != Kind.tag)))
  | .array [] => .error (.missingField Kind.tag)
  | .array (tag :: elements) => do
    let kind ← Kind.ofValue inner tag
    assemble kind (.placed (partsOfElements elements))
  | v => v.mismatch "internally tagged enum AstNode"

def partsOfMembers : List (String × Value) → List (String × Part)
  | [] => []
  | (key, v) :: rest => (key, ⟨v, nodesOfValue v⟩) :: partsOfMembers rest

def partsOfElements : List Value → List Part
  | [] => []
  | v :: rest => ⟨v, nodesOfValue v⟩ :: partsOfElements rest

def nodesOfValue : Value → Except Fault (List Ast)
  | .array items => nodesOfItems items
  | v => v.mismatch "a sequence"

def nodesOfItems : List Value → Except Fault (List Ast)
  | [] => .ok []
  | v :: rest => do
    let node ← ofValue true v
    let nodes ← nodesOfItems rest
    return node :: nodes

end

/-- Reads a tree from a value. -/
def read (v : Value) : Except Fault Ast := ofValue false v

/-- The members of a node in a document. The kind is checked where it stands, everything else is
kept as it is. -/
def readMembers (members : List (Except Fault String × Doc)) (ending : Option Damage) :
    Except Fault Ast := do
  let (kind, others) ←
    splitKind (·.scalar (Kind.ofValue false)) (·.content (maxDepth - 1)) none [] members
  match ending with
  | some damage => .error damage.fault
  | none =>
    let kind ← required Kind.tag kind
    assemble kind (.named (partsOfMembers others))

def readElements (items : List Doc) (ending : Option Damage) : Except Fault Ast := do
  let vs ← match items with
    | [] => .ok []
    | d :: rest => do
      let _ ← d.scalar (Kind.ofValue false)
      contentItems (maxDepth - 1) (d :: rest)
  match ending with
  | some damage => .error damage.fault
  | none => ofValue false (.array vs)

/-- Reads a tree from a document. -/
def readDoc : Doc → Except Fault Ast
  | .object members ending => readMembers members ending
  | .array items ending => readElements items ending
  | d => d.scalar read

/-- Reads a tree from a text. -/
def parse (text : String) : Except Fault Ast := (Document.ofString text).decode readDoc

end ProgramSearch.Ast

namespace ProgramSearch

open Json in
/-- The written form of a synthesized program. -/
def Synthesized.json (s : Synthesized) : Value :=
  .object [("ast", s.ast.json), ("probability", .number (.double s.probability)),
    ("log_probability", .number (.single s.logProbability))]

open Json in
/-- Reads a synthesized program. -/
def Synthesized.read (v : Value) : Except Fault Synthesized := do
  let v ← v.fields "SynthesizedAst" ["ast", "probability", "log_probability"]
  let ast ← v.field? "ast" Ast.read
  let logProbability ← v.field? "log_probability" Value.single
  let probability ← v.field? "probability" Value.double
  return ⟨← required "ast" ast, ← required "probability" probability,
    ← required "log_probability" logProbability⟩

end ProgramSearch
