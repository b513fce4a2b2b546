import ProgramSearch.Evaluation.Desired
import ProgramSearch.Ranking

/-!
# Retrieval quality

A tracker accumulates, over many queries, the ranks of first matches, the numbers of matches
within cut-offs, and the similarity of call sets. A query without a match counts as rank `topK`.
-/
namespace ProgramSearch

structure KindTotals where
  /-- Queries whose rank lies below each cut-off. -/
  firstHits : List Nat
  /-- Matching hits within each cut-off. -/
  matchCounts : List Nat
  /-- Ranks counted from one, added up in the order of the queries. -/
  rankTotal : Float
  reciprocalTotal : Float
deriving Inhabited

namespace KindTotals

def empty (points : List Nat) : KindTotals :=
  ⟨points.map fun _ => 0, points.map fun _ => 0, 0, 0⟩

/-- The position of the first match, or `topK` when there is none. -/
def firstRank (topK : Nat) (hits : List Bool) : Nat := (hits.idxOf? true).getD topK

/-- A rank counted from one, in 64 bits. -/
def place (rank : Nat) : Nat := (rank + 1) % UInt64.size

/-- Counts one query, given for each of its hits whether it matches. -/
def record (t : KindTotals) (topK : Nat) (points : List Nat) (hits : List Bool) : KindTotals :=
  let rank := firstRank topK hits
  let reciprocal : Float :=
    match hits.idxOf? true with
    | some j => 1 / (j + 1).toFloat
    | none => 1 / topK.toFloat
  { firstHits := List.zipWith (fun n p => if rank < p then n + 1 else n) t.firstHits points
    matchCounts :=
      List.zipWith (fun n p => n + (hits.take p).countP id) t.matchCounts points
    rankTotal := t.rankTotal + (place rank).toFloat
    reciprocalTotal := t.reciprocalTotal + reciprocal }

end KindTotals

/-- Ranks of the first matches of one query, by kind. -/
structure FirstRanks where
  api : Nat
  sequence : Nat
  ast : Nat
  body : Nat
deriving Repr, DecidableEq, Inhabited

structure PrecisionTracker where
  topK : Nat
  hitPoints : List Nat
  queries : Nat
  api : KindTotals
  sequence : KindTotals
  ast : KindTotals
  body : KindTotals
  apiJaccard : List Float
  sequenceJaccard : List Float
deriving Inhabited

namespace PrecisionTracker

/-- A `topK` of zero counts as one. -/
def start (topK : Nat) (hitPoints : List Nat) : PrecisionTracker :=
  let zeros := hitPoints.map fun _ => (0 : Float)
  let none := KindTotals.empty hitPoints
  ⟨max topK 1, hitPoints, 0, none, none, none, none, zeros, zeros⟩

def totals (t : PrecisionTracker) : MatchKind → KindTotals
  | .api => t.api
  | .sequence => t.sequence
  | .ast => t.ast
  | .body => t.body

/-- Adds to each cut-off the sum of the first similarities. -/
def addSums (totals : List Float) (points : List Nat) (values : List Float) : List Float :=
  List.zipWith (fun total p => total + (values.take p).foldl (· + ·) (-0.0)) totals points

/-- Counts one query with its ranked records. -/
def record (t : PrecisionTracker) (desired : Desired) (records : List Record) :
    PrecisionTracker × FirstRanks :=
  let hits (kind : MatchKind) := records.map (desired.fits kind)
  let count (kind : MatchKind) := (t.totals kind).record t.topK t.hitPoints (hits kind)
  let rank (kind : MatchKind) := KindTotals.firstRank t.topK (hits kind)
  ({ t with
      queries := t.queries + 1
      api := count .api
      sequence := count .sequence
      ast := count .ast
      body := count .body
      apiJaccard := addSums t.apiJaccard t.hitPoints
        (records.map fun r => jaccard r.labels.apiCalls desired.apiCalls)
      sequenceJaccard := addSums t.sequenceJaccard t.hitPoints
        (records.map fun r => jaccard r.labels.sequence desired.sequence) },
    ⟨rank .api, rank .sequence, rank .ast, rank .body⟩)

end PrecisionTracker

structure KindReport where
  kind : MatchKind
  /-- Share of queries whose first match lies within each cut-off. -/
  firstHitShare : List Float
  /-- Matches within each cut-off, over cut-off times queries. -/
  precision : List Float
  averageFirstRank : Float
  meanReciprocalRank : Float

structure PrecisionReport where
  queries : Nat
  topK : Nat
  hitPoints : List Nat
  kinds : List KindReport
  apiJaccard : List Float
  sequenceJaccard : List Float

namespace PrecisionTracker

/-- A quotient; nothing over nothing is zero. -/
def ratio (value denominator : Float) : Float :=
  if 0 < denominator then value / denominator else 0

def report (t : PrecisionTracker) : PrecisionReport :=
  let queries := t.queries.toFloat
  let perPoint (values : List Float) :=
    List.zipWith (fun v (p : Nat) => ratio v (p.toFloat * queries)) values t.hitPoints
  { queries := t.queries
    topK := t.topK
    hitPoints := t.hitPoints
    kinds := MatchKind.all.map fun kind =>
      let k := t.totals kind
      { kind
        firstHitShare := k.firstHits.map fun n => ratio n.toFloat queries
        precision := perPoint (k.matchCounts.map Nat.toFloat)
        averageFirstRank := ratio k.rankTotal queries
        meanReciprocalRank := ratio k.reciprocalTotal queries }
    apiJaccard := perPoint t.apiJaccard
    sequenceJaccard := perPoint t.sequenceJaccard }

end PrecisionTracker

end ProgramSearch
