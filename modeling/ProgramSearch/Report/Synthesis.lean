import ProgramSearch.Ast.Json
import ProgramSearch.Evidence
import ProgramSearch.Report.Presentation

/-!
# Synthesis results

The programs that a search decoded, most probable first, with the evidence it was given.
-/
namespace ProgramSearch

open Json

/-- The written form of evidence. -/
def EvidenceSet.json (s : EvidenceSet) : Value :=
  .object [("items", .array (s.items.map fun e =>
    .object [("kind", .string e.kind.name), ("tokens", .strings e.tokens)]))]

namespace Report

structure SynthesisReport where
  evidence : EvidenceSet
  beamWidth : Nat
  programs : List Synthesized

namespace SynthesisReport

def json (r : SynthesisReport) (milliseconds : Nat) : Value :=
  .object [("evidence", r.evidence.json), ("beam_width", .nat r.beamWidth),
    ("asts", .array (r.programs.map Synthesized.json)), ("duration_ms", .nat milliseconds)]

def evidenceText (p : Presentation) (e : Evidence) : String :=
  "  " ++ p.emphasize .aside (e.kind.field ++ ":") ++ " " ++ ", ".intercalate e.tokens ++ "\n"

/-- A number of at least two columns. -/
def numberText (n : Nat) : String :=
  let text := toString n
  Text.blanks (2 - text.length) ++ text

/-- One program by its calls. -/
def programText (p : Presentation) (number : Nat) (s : Synthesized) : String :=
  let probability := "p=" ++ (Decimal.readDouble s.probability).fixed 4
  let logarithm := "(log p " ++ (Decimal.readSingle s.logProbability).fixed 3 ++ ")"
  let calls := s.ast.calls
  let lines := if calls.isEmpty then [p.emphasize .aside "(no calls)"] else calls
  "\n" ++ numberText number ++ ". " ++ p.emphasize .count probability ++ " " ++
    p.emphasize .aside logarithm ++ "\n" ++
    String.join (lines.map fun line => "    " ++ line ++ "\n")

def text (r : SynthesisReport) (p : Presentation) (milliseconds : Nat) : String :=
  p.emphasize .title "SYNTHESIS:" ++ " " ++ p.emphasize .count (toString r.programs.length) ++
    s!" programs from beam width {r.beamWidth} in {milliseconds}ms\n" ++
    String.join (r.evidence.items.map (evidenceText p)) ++
    String.join (r.programs.zipIdx.map fun (s, i) => programText p (i + 1) s)

def render (r : SynthesisReport) (p : Presentation) (milliseconds : Nat) : String :=
  match p.format with
  | .table => r.text p milliseconds
  | .json => (r.json milliseconds).pretty

end SynthesisReport

end Report

end ProgramSearch
