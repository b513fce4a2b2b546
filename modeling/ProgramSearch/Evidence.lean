import ProgramSearch.Json.Value
import ProgramSearch.Text.Lowercase
import ProgramSearch.Text.Words

/-!
# Evidence

What is known about a program that is to be synthesized, by kind. Each kind reads its tokens from
one field of a program object.
-/
namespace ProgramSearch

inductive EvidenceKind where
  | apiCalls
  | types
  | keywords
  | returnType
  | formalParams
  | classTypes
  | javaDoc
deriving Repr, DecidableEq, Inhabited

structure Evidence where
  kind : EvidenceKind
  tokens : List String
deriving Repr, DecidableEq, Inhabited

namespace EvidenceKind

def all : List EvidenceKind :=
  [apiCalls, types, keywords, returnType, formalParams, classTypes, javaDoc]

/-- The place of a kind among all kinds. -/
def rank : EvidenceKind → Nat
  | apiCalls => 0
  | types => 1
  | keywords => 2
  | returnType => 3
  | formalParams => 4
  | classTypes => 5
  | javaDoc => 6

/-- The field of a program object that holds this kind. -/
def field : EvidenceKind → String
  | apiCalls => "apicalls"
  | types => "types"
  | keywords => "keywords"
  | returnType => "returnType"
  | formalParams => "formalParam"
  | classTypes => "classTypes"
  | javaDoc => "javaDoc"

/-- The name in configuration files. -/
def name : EvidenceKind → String
  | apiCalls => "api_calls"
  | types => "types"
  | keywords => "keywords"
  | returnType => "return_type"
  | formalParams => "formal_params"
  | classTypes => "class_types"
  | javaDoc => "java_doc"

/-- Whether the order of the tokens matters. -/
def isSequence : EvidenceKind → Bool
  | formalParams | javaDoc => true
  | _ => false

/-- Equality of texts up to the case of ASCII letters. -/
def sameLetters (a b : String) : Bool := a.map Char.toLower == b.map Char.toLower

/-- Reads a kind from its field, in any letter case, or from its exact name. -/
def parse? (s : String) : Option EvidenceKind :=
  all.find? fun kind => sameLetters kind.field s || kind.name == s

def unknownMessage (s : String) : String := s!"Unknown evidence kind: '{s}'"

end EvidenceKind

/-- Drops elements equal to the one before. -/
def dedupAdjacent : List String → List String
  | [] => []
  | [a] => [a]
  | a :: b :: rest => if a == b then dedupAdjacent (b :: rest) else a :: dedupAdjacent (b :: rest)

/-- Strictly increasing, without repetitions. -/
def sortedSet (tokens : List String) : List String :=
  dedupAdjacent (tokens.mergeSort fun a b => decide (a ≤ b))

namespace EvidenceKind

/-- The tokens that a field's value holds: the words of a documentation text in lower case, a
single text as it is, the texts of a list. -/
def tokens (kind : EvidenceKind) (v : Json.Value) : List String :=
  match kind, v with
  | javaDoc, .string text => (Text.words text).map Text.lowercase
  | _, .string token => [token]
  | _, .array items => items.filterMap (·.string?)
  | _, _ => []

/-- Reads this kind from a program object; no tokens are no evidence. -/
def read? (kind : EvidenceKind) (program : Json.Value) : Option Evidence :=
  match program.get? kind.field with
  | none => none
  | some v =>
    let tokens := kind.tokens v
    let tokens := if kind.isSequence then tokens else sortedSet tokens
    if tokens.isEmpty then none else some ⟨kind, tokens⟩

end EvidenceKind

/-- The evidence of a query, at most one item of each kind, in the order of the kinds. -/
structure EvidenceSet where
  items : List Evidence
deriving Repr, DecidableEq, Inhabited

namespace EvidenceSet

def empty : EvidenceSet := ⟨[]⟩

def ofProgram (program : Json.Value) : EvidenceSet :=
  ⟨EvidenceKind.all.filterMap (·.read? program)⟩

/-- Adds the evidence of one kind, or replaces it where it stands. What is added comes last and is
sorted into its place. -/
def insert (s : EvidenceSet) (e : Evidence) : EvidenceSet :=
  match s.items.findIdx? (·.kind == e.kind) with
  | some i => ⟨s.items.set i e⟩
  | none => ⟨(s.items ++ [e]).mergeSort fun a b => decide (a.kind.rank ≤ b.kind.rank)⟩

def get? (s : EvidenceSet) (kind : EvidenceKind) : Option Evidence :=
  s.items.find? (·.kind == kind)

def isEmpty (s : EvidenceSet) : Bool := s.items.isEmpty

end EvidenceSet

end ProgramSearch
