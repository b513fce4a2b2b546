import ProgramSearch.Ranking
import ProgramSearch.Report.Presentation
import ProgramSearch.Text.Words

/-!
# Search results

The hits of every query, or why it was not ranked.
-/
namespace ProgramSearch.Report

open Json

/-- A hit as it is shown; its rank counts from 1, and its body stands on one line. -/
structure HitRow where
  rank : Nat
  hit : Hit
  body : String

/-- The hits of a query, numbered. -/
def hitRows (r : Ranked) : List HitRow :=
  r.hits.zipIdx.map fun (hit, i) => ⟨i + 1, hit, Text.collapse hit.record.body⟩

def HitRow.json (h : HitRow) : Value :=
  .object [("rank", .nat h.rank), ("file", .string h.hit.record.fileName),
    ("method", .string h.hit.record.methodName), ("score", .number (.single h.hit.score)),
    ("shard", .nat h.hit.shard), ("row", .nat h.hit.row), ("body", .string h.body)]

/-- What came of one query. -/
structure QueryHits where
  query : Nat
  hits : List HitRow
  error : Option String

namespace QueryHits

def ofOutcome (query : Nat) : Except Failure Ranked → QueryHits
  | .ok r => ⟨query, hitRows r, none⟩
  | .error failure => ⟨query, [], some failure.message⟩

/-- The error as a member of an object, if there is one. -/
def errorMember (error : Option String) : List (String × Value) :=
  match error with
  | some message => [("error", .string message)]
  | none => []

def json (q : QueryHits) : Value :=
  .object ([("query", .nat q.query), ("hits", .array (q.hits.map HitRow.json))] ++
    errorMember q.error)

end QueryHits

structure SearchReport where
  metric : Metric
  topK : Nat
  queries : List QueryHits

namespace SearchReport

/-- Numbers the outcomes of the queries. -/
def ofOutcomes (metric : Metric) (topK : Nat) (outcomes : List (Except Failure Ranked)) :
    SearchReport :=
  ⟨metric, topK, outcomes.zipIdx.map fun (outcome, query) => .ofOutcome query outcome⟩

def json (r : SearchReport) (milliseconds : Nat) : Value :=
  .object [("metric", .string r.metric.name), ("top_k", .nat r.topK),
    ("queries", .array (r.queries.map QueryHits.json)), ("duration_ms", .nat milliseconds)]

/-- Characters of a body that are shown where width is limited. -/
def bodyLimit : Nat := 60

def hitColumns : List Column :=
  [{ header := "#", key := "rank", right := true },
    { header := "File", key := "file" },
    { header := "Method", key := "method" },
    { header := "Score", key := "score", right := true },
    { header := "Body", key := "body", limit := some bodyLimit }]

def queryText (p : Presentation) (q : QueryHits) : String :=
  let result := match q.error with
    | some message => p.emphasize .alarm "error:" ++ " " ++ message
    | none => p.table hitColumns (q.hits.map HitRow.json)
  "\n" ++ p.emphasize .heading "Query" ++ s!" {q.query}\n" ++ result ++ "\n"

def text (r : SearchReport) (p : Presentation) (milliseconds : Nat) : String :=
  p.emphasize .title "SEARCH:" ++ " " ++ p.emphasize .count (toString r.queries.length) ++
    s!" queries, top {r.topK} by {r.metric.name} in {milliseconds}ms\n" ++
    String.join (r.queries.map (queryText p))

def render (r : SearchReport) (p : Presentation) (milliseconds : Nat) : String :=
  match p.format with
  | .table => r.text p milliseconds
  | .json => (r.json milliseconds).pretty

end SearchReport

end ProgramSearch.Report
