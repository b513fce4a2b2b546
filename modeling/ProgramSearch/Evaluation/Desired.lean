import ProgramSearch.Program
import ProgramSearch.Text.Comments
import ProgramSearch.Text.Fingerprint

/-!
# Desired programs

What a labelled query is expected to retrieve, and how a retrieved record is compared with it.
-/
namespace ProgramSearch

def bodyFingerprint (body : String) : UInt64 := Text.fingerprint (Text.normalizeBody body)

/-- Common elements over all elements of two sets; two empty sets are identical. -/
def jaccard (a b : List String) : Float :=
  let a := a.eraseDups
  let b := b.eraseDups
  if a.isEmpty && b.isEmpty then 1
  else
    let common := a.countP fun s => b.contains s
    common.toFloat / (a.length + b.length - common).toFloat

/-- The respects in which a record can match. -/
inductive MatchKind where
  | api
  | sequence
  | ast
  | body
deriving Repr, DecidableEq

def MatchKind.all : List MatchKind := [api, sequence, ast, body]

def MatchKind.name : MatchKind → String
  | api => "api"
  | sequence => "sequence"
  | ast => "ast"
  | body => "body"

structure Desired where
  fingerprint : UInt64
  apiCalls : List String
  sequence : List String
  ast : Option Json.Value
deriving Inhabited

namespace Desired

open Json

/-- Reads a query program. Calls made for the test take the place of the program's own. -/
def ofProgram (program : Value) : Desired where
  fingerprint := bodyFingerprint (((program.get? "body").bind (·.string?)).getD "")
  apiCalls := sortedSet
    (((program.get? "testapicalls" <|> program.get? "apicalls").map Program.texts).getD [])
  sequence := ((program.get? "sequences").map Program.longestSequence).getD []
  ast := Program.present (program.get? "ast")

/-- Bodies match by fingerprint; trees match only when one is desired. -/
def fits (d : Desired) (kind : MatchKind) (r : Record) : Bool :=
  match kind with
  | .api => r.labels.apiCalls == d.apiCalls
  | .sequence => r.labels.sequence == d.sequence
  | .ast =>
    match d.ast, r.labels.ast with
    | some v, some w => w.same v
    | _, _ => false
  | .body => bodyFingerprint r.body == d.fingerprint

end Desired

end ProgramSearch
