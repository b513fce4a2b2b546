import ProgramSearch.Database
import ProgramSearch.Group
import ProgramSearch.Metric
import ProgramSearch.Query
import ProgramSearch.Queue

/-!
# Ranking a database

The shards are cut into consecutive chunks, one for each worker. A worker keeps the best rows of
its chunk for every query in a bounded queue, and the workers' lists are then merged. Rows with
equal scores keep the scan order, so the outcome is that of a stable sort of all rows, whatever
the number of workers.
-/
namespace ProgramSearch

open ProgramSearch.Embedding

/-- A scored row and its place in the database. -/
structure Scored where
  score : Float32
  shard : Nat
  row : Nat
deriving Inhabited

namespace Scored

/-- Whether `a` ranks at or above `b`: a higher score first, then the earlier place. -/
def before (a b : Scored) : Bool :=
  let x := orderKey a.score
  let y := orderKey b.score
  if x != y then y < x
  else if a.shard != b.shard then a.shard < b.shard
  else a.row ≤ b.row

/-- Enters a row into a bounded queue; beyond the limit, the row that ranks last leaves it. -/
def offer (limit : Nat) (kept : List Scored) (s : Scored) : List Scored :=
  if kept.length < limit then s :: kept
  else (Queue.pop (fun a b => b.before a) s kept).2

/-- The first `limit` rows of some best-first lists, each given by its head and its tail. The heads
form a queue; the tail of the list that is taken from supplies the next head. -/
def mergeHeads : Nat → List (Scored × List Scored) → List Scored
  | 0, _ => []
  | _ + 1, [] => []
  | limit + 1, list :: lists =>
    match Queue.pop (fun a b => a.1.before b.1) list lists with
    | ((best, []), others) => best :: mergeHeads limit others
    | ((best, next :: rest), others) => best :: mergeHeads limit ((next, rest) :: others)

/-- A list that is not empty, as its head and its tail. -/
def headed? : List Scored → Option (Scored × List Scored)
  | [] => none
  | s :: rest => some (s, rest)

/-- Merges best-first lists into their first `limit` rows. -/
def merge (limit : Nat) (lists : List (List Scored)) : List Scored :=
  mergeHeads limit (lists.filterMap headed?)

end Scored

/-- A retrieved record with its score and place. -/
structure Hit where
  record : Record
  score : Float32
  shard : Nat
  row : Nat
deriving Inhabited

/-- The hits of one query, best first, under the query's slot or position. -/
structure Ranked where
  query : Nat
  hits : List Hit
deriving Inhabited

/-- The result of a slot under the position of its query. The batch starts at `start` among the
queries that were batched, and `positions` tells where these stand in the input. -/
def Ranked.placed (positions : List Nat) (start : Nat) (r : Ranked) : Except Failure Ranked :=
  match positions[start + r.query]? with
  | some position => .ok { r with query := position }
  | none => .error .outOfRange

/-- `pool` is how many workers there are when a search asks for no particular number. -/
structure Scanner where
  database : Database
  topK : Nat
  metric : Metric
  pool : Nat := 1

namespace Scanner

def dimension (s : Scanner) : Nat := s.database.dimension

/-- The score of one row for a query. -/
def scoreRow (s : Scanner) (query : Embedding) (queryNorm : Float32) (index : Nat) (shard : Shard)
    (row : Nat × Embedding) : Scored :=
  ⟨s.metric.score query queryNorm row.2 ((shard.norm? row.1).getD 0), index, row.1⟩

/-- All rows of some shards, scored, in scan order. -/
def scores (s : Scanner) (query : Embedding) (shards : List (Shard × Nat)) : List Scored :=
  let queryNorm := query.norm
  shards.flatMap fun (shard, index) => shard.rows.map (s.scoreRow query queryNorm index shard)

/-- The best rows of one chunk, best first. They are kept in a bounded queue during the scan. -/
def scanChunk (s : Scanner) (query : Embedding) (chunk : List (Shard × Nat)) : List Scored :=
  ((s.scores query chunk).foldl (Scored.offer s.topK) []).mergeSort Scored.before

/-- The shards with their indices, cut into one chunk for each worker. -/
def chunks (s : Scanner) (workers : Nat) : List (List (Shard × Nat)) :=
  let shards := s.database.shards.toList.zipIdx
  let workers := max workers 1
  groupsOf ((shards.length + workers - 1) / workers) shards

def workers (s : Scanner) (threads : Nat) : Nat := if threads == 0 then s.pool else threads

/-- The record at a scored place. -/
def hit? (s : Scanner) (scored : Scored) : Option Hit := do
  let shard ← s.database.shards[scored.shard]?
  let record ← shard.record? scored.row
  return ⟨record, scored.score, scored.shard, scored.row⟩

/-- The hits of one query, best first. -/
def rankOne (s : Scanner) (threads : Nat) (query : Embedding) : List Hit :=
  (Scored.merge s.topK ((s.chunks (s.workers threads)).map (s.scanChunk query))).filterMap s.hit?

/-- The hits of each query, in the order of the queries. -/
def rank (s : Scanner) (threads : Nat) (queries : List Embedding) : List (List Hit) :=
  queries.map (s.rankOne threads)

/-- Ranks the queries of a batch; each result carries the slot of its query. -/
def searchBatch (s : Scanner) (batch : Batch) (threads : Nat) : Except Failure (List Ranked) :=
  if batch.dimension != s.dimension then
    .error (.dimensionMismatch s.dimension batch.dimension)
  else
    let ranked := s.rank threads (batch.queries.map (·.2.embedding))
    .ok (List.zipWith (fun (slot, _) hits => ⟨slot, hits⟩) batch.queries ranked)

def searchOne (s : Scanner) (query : Embedding) : Except Failure Ranked := do
  Query.checkVector s.dimension query
  return ⟨0, s.rankOne 1 query⟩

/-- Hands out rankings to the queries that are fit, in order; an unfit query gets its failure and
takes no ranking. -/
def assign (s : Scanner) : Nat → List Embedding → List (List Hit) → List (Except Failure Ranked)
  | _, [], _ => []
  | index, q :: queries, ranked =>
    match Query.checkVector s.dimension q with
    | .error failure => .error failure :: s.assign (index + 1) queries ranked
    | .ok () => .ok ⟨index, ranked.headD []⟩ :: s.assign (index + 1) queries ranked.tail

/-- Ranks many queries; an unfit query fails only in its own place. -/
def searchMany (s : Scanner) (queries : List Embedding) (threads : Nat) :
    List (Except Failure Ranked) :=
  let fit := queries.filter fun q => (Query.checkVector s.dimension q).isOk
  s.assign 0 queries (s.rank threads fit)

/-- The queries that are fit, with their positions in the input. -/
def fitPlaces (s : Scanner) (queries : List Query) : List (Query × Nat) :=
  queries.zipIdx.filter fun p => (p.1.check s.dimension).isOk

/-- Ranks all queries in padded batches, with one outcome for each query in input order. A query
that is unfit fails only in its own place. -/
def rankBatches (s : Scanner) (queries : List Query) (batchSize threads : Nat) :
    Except Failure (List (Except Failure Ranked)) := do
  let fit := s.fitPlaces queries
  let batches ← Batch.split (fit.map Prod.fst) batchSize s.dimension .pad
  let results ← batches.zipIdx.mapM fun (batch, b) => do
    let ranked ← s.searchBatch batch threads
    ranked.mapM (Ranked.placed (fit.map Prod.snd) (b * batchSize))
  let found := results.flatten
  return queries.zipIdx.map fun (q, index) =>
    match q.check s.dimension with
    | .error failure => .error failure
    | .ok () =>
      match found.find? (·.query == index) with
      | some ranked => .ok ranked
      | none => .error (.batch .notRanked)

end Scanner

end ProgramSearch
