import ProgramSearch.Evaluation.Precision
import ProgramSearch.Report.Search

/-!
# Precision results

The evaluation of ranked queries against the programs they should have found, its report, and a
line for each query.
-/
namespace ProgramSearch.Report

open Json

/-- What came of one labelled query. A query that was not ranked has no evaluation. -/
structure QueryDump where
  hits : QueryHits
  evaluation : Option FirstRanks

def ranksJson (r : FirstRanks) : Value :=
  .object [("first_hit_rank_api", .nat r.api), ("first_hit_rank_sequence", .nat r.sequence),
    ("first_hit_rank_ast", .nat r.ast), ("first_hit_rank_body", .nat r.body)]

def QueryDump.json (d : QueryDump) : Value :=
  let evaluation := match d.evaluation with
    | some ranks => [("evaluation", ranksJson ranks)]
    | none => []
  .object ([("query", .nat d.hits.query)] ++ evaluation ++
    [("hits", .array (d.hits.hits.map HitRow.json))] ++ QueryHits.errorMember d.hits.error)

/-- Records the outcomes of labelled queries from number `query` on; those that were not ranked
leave the tracker as it is. -/
def evaluateFrom (query : Nat) (t : PrecisionTracker) :
    List (Except Failure Ranked × Desired) → PrecisionTracker × List QueryDump
  | [] => (t, [])
  | (outcome, desired) :: rest =>
    let hits := QueryHits.ofOutcome query outcome
    match outcome with
    | .ok r =>
      let (t, ranks) := t.record desired (r.hits.map (·.record))
      let (t, dumps) := evaluateFrom (query + 1) t rest
      (t, ⟨hits, some ranks⟩ :: dumps)
    | .error _ =>
      let (t, dumps) := evaluateFrom (query + 1) t rest
      (t, ⟨hits, none⟩ :: dumps)

/-- Scores every outcome against its desired program. -/
def evaluate (topK : Nat) (hitPoints : List Nat) (desired : List Desired)
    (outcomes : List (Except Failure Ranked)) : PrecisionReport × List QueryDump :=
  let (t, dumps) := evaluateFrom 0 (.start topK hitPoints) (outcomes.zip desired)
  (t.report, dumps)

/-- The cut-offs that are asked for, or else the first ten ranks as far as there are hits. -/
def resolveHitPoints (explicit : List Nat) (topK : Nat) : List Nat :=
  if explicit.isEmpty then ((List.range 10).map (· + 1)).filter (· ≤ topK) else explicit

structure PrecisionResult where
  report : PrecisionReport
  /-- The queries that were not ranked and do not count in the report. -/
  failed : List Nat
  /-- The file that the lines of the queries were written to. -/
  output : Option String

namespace PrecisionResult

def doubles (xs : List Float) : Value := .array (xs.map fun x => .number (.double x))

def counts (ns : List Nat) : Value := .array (ns.map Value.nat)

def kindJson (k : KindReport) : Value :=
  .object [("kind", .string k.kind.name), ("first_hit_cdf", doubles k.firstHitShare),
    ("precision", doubles k.precision),
    ("average_first_hit_rank", .number (.double k.averageFirstRank)),
    ("mean_reciprocal_rank", .number (.double k.meanReciprocalRank))]

def json (r : PrecisionResult) : Value :=
  let failed := if r.failed.isEmpty then [] else [("failed_queries", counts r.failed)]
  let output := match r.output with
    | some path => [("output", Value.string path)]
    | none => []
  .object ([("queries", .nat r.report.queries), ("top_k", .nat r.report.topK),
    ("hit_points", counts r.report.hitPoints),
    ("kinds", .array (r.report.kinds.map kindJson)),
    ("api_jaccard", doubles r.report.apiJaccard),
    ("sequence_jaccard", doubles r.report.sequenceJaccard)] ++ failed ++ output)

/-- A number with a set number of places. -/
def places (n : Nat) (x : Float) : String := (Decimal.readDouble x).fixed n

def row (xs : List Float) : String := " ".intercalate (xs.map (places 3))

def kindRow (k : KindReport) : Value :=
  .object [("kind", .string k.kind.name), ("mrr", .string (places 3 k.meanReciprocalRank)),
    ("first_hit", .string (places 2 k.averageFirstRank)),
    ("precision", .string (row k.precision)), ("cdf", .string (row k.firstHitShare))]

def kindColumns : List Column :=
  [{ header := "Match", key := "kind" },
    { header := "MRR", key := "mrr", right := true },
    { header := "Avg first hit", key := "first_hit", right := true },
    { header := "Precision@k", key := "precision" },
    { header := "First-hit CDF@k", key := "cdf" }]

def bracketed (ns : List Nat) : String := "[" ++ ", ".intercalate (ns.map toString) ++ "]"

def text (r : PrecisionResult) (p : Presentation) : String :=
  let label := p.emphasize .aside "Jaccard:"
  let head := p.emphasize .title "PRECISION:" ++ " " ++
    p.emphasize .count (toString r.report.queries) ++
    s!" queries, top {r.report.topK}, cut-offs " ++ bracketed r.report.hitPoints ++ "\n"
  let similarities := "\n" ++ label ++ " api " ++ row r.report.apiJaccard ++ "\n" ++ label ++
    " sequence " ++ row r.report.sequenceJaccard
  let failed := if r.failed.isEmpty then "" else
    "\n" ++ p.emphasize .alarm "error:" ++ s!" {r.failed.length} queries not ranked: " ++
      bracketed r.failed
  let output := match r.output with
    | some path => "\n" ++ p.emphasize .aside "Wrote" ++ " " ++ path
    | none => ""
  head ++ p.table kindColumns (r.report.kinds.map kindRow) ++ similarities ++ failed ++ output

def render (r : PrecisionResult) (p : Presentation) : String :=
  match p.format with
  | .table => r.text p
  | .json => r.json.pretty

end PrecisionResult

end ProgramSearch.Report
