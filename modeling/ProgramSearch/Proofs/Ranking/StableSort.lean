import ProgramSearch.Proofs.Group
import ProgramSearch.Proofs.Ranking.Selection

/-!
# A search ranks like a stable sort

The parts of a scan are ranked on their own and cut off before they are merged. What is cut off
of a part is never among the first rows of the whole, so for every number of workers the hits of a
query are the beginning of all rows of the database, sorted stably by score.
-/
namespace ProgramSearch

/-- The first elements of a merge come from the first elements of its parts. -/
theorem take_merge_take {α : Type} (le : α → α → Bool) {n m k : Nat} (hm : n ≤ m) (hk : n ≤ k)
    (xs ys : List α) :
    ((xs.take m).merge (ys.take k) le).take n = (xs.merge ys le).take n := by
  induction n generalizing m k xs ys with
  | zero => rfl
  | succ n ih =>
    obtain ⟨m, rfl⟩ : ∃ m', m = m' + 1 := ⟨m - 1, by omega⟩
    obtain ⟨k, rfl⟩ : ∃ k', k = k' + 1 := ⟨k - 1, by omega⟩
    cases xs with
    | nil => simp [List.take_take, Nat.min_eq_left hk]
    | cons x xs =>
      cases ys with
      | nil => simp [List.take_take, Nat.min_eq_left (Nat.le_of_succ_le_succ hm)]
      | cons y ys =>
        have hx := ih (m := m) (k := k + 1) (by omega) (by omega) xs (y :: ys)
        have hy := ih (m := m + 1) (k := k) (by omega) (by omega) (x :: xs) ys
        simp only [List.take_succ_cons, List.cons_merge_cons] at hx hy ⊢
        by_cases h : le x y
        · simp only [h, if_true, List.take_succ_cons, hx]
        · simp only [h, Bool.false_eq_true, if_false, List.take_succ_cons, hy]

namespace Scored

theorem take_ranking_append (limit : Nat) {rows others : List Scored}
    (placed : Placed (rows ++ others)) :
    (ranking (rows ++ others)).take limit =
      (((ranking rows).take limit).merge ((ranking others).take limit) before).take limit := by
  rw [ranking_append placed, take_merge_take before (Nat.le_refl _) (Nat.le_refl _)]

theorem take_ranking_subset (limit : Nat) (rows : List Scored) :
    (ranking rows).take limit ⊆ rows :=
  fun _ h => (ranking_perm rows).subset (List.mem_of_mem_take h)

theorem ranking_take_ranking (limit : Nat) (rows : List Scored) :
    ranking ((ranking rows).take limit) = (ranking rows).take limit :=
  List.mergeSort_of_pairwise (ranking_before rows).take

/-- The parts of a scan, each ranked and cut off at the limit. -/
def cutParts (limit : Nat) (parts : List (List Scored)) : List (List Scored) :=
  parts.map fun part => (ranking part).take limit

theorem cutParts_flatten_subset (limit : Nat) (parts : List (List Scored)) :
    (cutParts limit parts).flatten ⊆ parts.flatten := by
  intro row hrow
  simp only [cutParts, List.mem_flatten, List.mem_map] at hrow ⊢
  obtain ⟨_, ⟨part, hpart, rfl⟩, hrow⟩ := hrow
  exact ⟨part, hpart, take_ranking_subset limit part hrow⟩

/-- Parts may be cut off at the limit before the whole is ranked. -/
theorem take_ranking_cutParts (limit : Nat) (parts : List (List Scored))
    (placed : Placed parts.flatten) :
    (ranking (cutParts limit parts).flatten).take limit =
      (ranking parts.flatten).take limit := by
  induction parts with
  | nil => rfl
  | cons part parts ih =>
    have placed' := placed.subset (cutParts_flatten_subset limit (part :: parts))
    simp only [cutParts, List.map_cons, List.flatten_cons] at placed placed' ih ⊢
    rw [take_ranking_append limit placed', take_ranking_append limit placed,
      ranking_take_ranking, List.take_take, Nat.min_self,
      ih (placed.subset (List.subset_append_right _ _))]

end Scored

/-- The scored row of a hit. -/
def Hit.scored (hit : Hit) : Scored := ⟨hit.score, hit.shard, hit.row⟩

namespace Scanner

/-- All rows of the database in scan order, scored for a query. -/
def allScores (s : Scanner) (query : Embedding) : List Scored :=
  s.database.shards.toList.zipIdx.flatMap fun (shard, index) =>
    shard.rows.map fun (row, vector) =>
      ⟨s.metric.score query query.norm vector ((shard.norm? row).getD 0), index, row⟩

/-- The record at a place of the database. -/
def recordAt? (s : Scanner) (shard row : Nat) : Option Record :=
  s.database.shards[shard]?.bind (·.record? row)

theorem rows_index_lt (shard : Shard) : shard.rows.Pairwise (·.1 < ·.1) := by
  rw [Shard.rows, List.pairwise_map]
  exact List.pairwise_lt_range

theorem allScores_earlier (s : Scanner) (query : Embedding) :
    (s.allScores query).Pairwise Scored.Earlier := by
  rw [allScores, List.pairwise_flatMap]
  refine ⟨fun (shard, index) _ => ?_, ?_⟩
  · rw [List.pairwise_map]
    exact (rows_index_lt shard).imp fun h => Or.inr ⟨rfl, h⟩
  · refine (zipIdx_index_lt _).imp fun h a ha b hb => Or.inl ?_
    obtain ⟨_, _, rfl⟩ := List.mem_map.mp ha
    obtain ⟨_, _, rfl⟩ := List.mem_map.mp hb
    exact h

/-- A scanned place holds a record. -/
theorem recordAt?_isSome (s : Scanner) (query : Embedding) {row : Scored}
    (h : row ∈ s.allScores query) : (s.recordAt? row.shard row.row).isSome := by
  simp only [allScores, List.mem_flatMap, List.mem_map, Prod.exists,
    List.mk_mem_zipIdx_iff_getElem?, Array.getElem?_toList] at h
  obtain ⟨shard, index, hshard, _, vector, hrow, rfl⟩ := h
  simp only [Shard.rows, List.mem_map, List.mem_range, Prod.mk.injEq] at hrow
  obtain ⟨position, hlt, rfl, -⟩ := hrow
  have hsize : position < shard.records.size := by
    have : shard.size = shard.records.size := rfl
    omega
  simp [recordAt?, hshard, Shard.record?, hsize]

theorem hit?_eq (s : Scanner) (row : Scored) :
    s.hit? row = (s.recordAt? row.shard row.row).map fun record =>
      ⟨record, row.score, row.shard, row.row⟩ := by
  rw [hit?, recordAt?]
  cases s.database.shards[row.shard]? with
  | none => rfl
  | some shard => cases hr : shard.record? row.row <;> simp [hr]

theorem flatten_scores (s : Scanner) (query : Embedding) (chunks : List (List (Shard × Nat))) :
    (chunks.map (s.scores query)).flatten = s.scores query chunks.flatten := by
  induction chunks with
  | nil => rfl
  | cons chunk chunks ih => simp [ih, scores]

theorem scores_chunks (s : Scanner) (query : Embedding) (workers : Nat) :
    ((s.chunks workers).map (s.scores query)).flatten = s.allScores query := by
  rw [flatten_scores, chunks, groupsOf_flatten]
  rfl

theorem scanChunk_eq (s : Scanner) (query : Embedding) (chunk : List (Shard × Nat))
    (placed : Scored.Placed (s.scores query chunk)) :
    s.scanChunk query chunk = (Scored.ranking (s.scores query chunk)).take s.topK :=
  Scored.ranking_foldl_offer s.topK placed

/-- The merged lists of the workers are the beginning of the stable sort. -/
theorem merge_scanChunk (s : Scanner) (query : Embedding) (workers : Nat) :
    Scored.merge s.topK ((s.chunks workers).map (s.scanChunk query)) =
      ((s.allScores query).mergeSort Scored.notBelow).take s.topK := by
  let parts := (s.chunks workers).map (s.scores query)
  have hall : parts.flatten = s.allScores query := s.scores_chunks query workers
  have placed : Scored.Placed parts.flatten := by
    rw [hall]
    exact Scored.placed_of_earlier (s.allScores_earlier query)
  have hscan : (s.chunks workers).map (s.scanChunk query) = Scored.cutParts s.topK parts := by
    rw [Scored.cutParts, List.map_map]
    refine List.map_congr_left fun chunk hchunk => s.scanChunk_eq query chunk ?_
    exact placed.subset fun row hrow =>
      List.mem_flatten.mpr ⟨_, List.mem_map_of_mem hchunk, hrow⟩
  have hsorted : ∀ list ∈ Scored.cutParts s.topK parts, list.Pairwise (Scored.before · ·) := by
    intro list hlist
    obtain ⟨part, -, rfl⟩ := List.mem_map.mp hlist
    exact (Scored.ranking_before part).take
  rw [hscan, Scored.merge_eq _ _ (placed.subset (Scored.cutParts_flatten_subset _ _)) hsorted,
    Scored.take_ranking_cutParts _ _ placed, hall,
    Scored.stable_sort_eq_ranking (s.allScores_earlier query)]

theorem rankOne_eq (s : Scanner) (threads : Nat) (query : Embedding) :
    s.rankOne threads query =
      (((s.allScores query).mergeSort Scored.notBelow).take s.topK).filterMap s.hit? := by
  rw [rankOne, merge_scanChunk]

/-- Every scored row of a database is shown as a hit. -/
theorem filterMap_hit?_scored (s : Scanner) (query : Embedding) {rows : List Scored}
    (h : rows ⊆ s.allScores query) : (rows.filterMap s.hit?).map Hit.scored = rows := by
  induction rows with
  | nil => rfl
  | cons row rows ih =>
    obtain ⟨hrow, hrows⟩ := List.cons_subset.mp h
    obtain ⟨record, hrecord⟩ := Option.isSome_iff_exists.mp (s.recordAt?_isSome query hrow)
    have hhit : s.hit? row = some ⟨record, row.score, row.shard, row.row⟩ := by
      rw [hit?_eq, hrecord]
      rfl
    rw [List.filterMap_cons_some hhit, List.map_cons, ih hrows]
    rfl

/-- For every database, measure, limit and number of workers, the hits of each query are the first
rows of a stable sort by score of all rows of the database, together with their records; so the
number of workers does not show. -/
theorem rank_eq_stable_sort (s : Scanner) (threads : Nat) (queries : List Embedding) :
    (s.rank threads queries).map (List.map Hit.scored) =
        queries.map (fun query =>
          ((s.allScores query).mergeSort Scored.notBelow).take s.topK) ∧
      (∀ hits ∈ s.rank threads queries, ∀ hit ∈ hits,
        s.recordAt? hit.shard hit.row = some hit.record) ∧
      ∀ threads' pool' : Nat,
        { s with pool := pool' }.rank threads' queries = s.rank threads queries := by
  refine ⟨?_, ?_, fun threads' pool' => ?_⟩
  · rw [rank, List.map_map]
    refine List.map_congr_left fun query _ => ?_
    rw [Function.comp_apply, rankOne_eq]
    apply filterMap_hit?_scored s query
    exact fun row h => List.mem_mergeSort.mp (List.mem_of_mem_take h)
  · intro hits hhits hit hhit
    obtain ⟨query, -, rfl⟩ := List.mem_map.mp hhits
    rw [rankOne_eq] at hhit
    obtain ⟨row, -, hrow⟩ := List.mem_filterMap.mp hhit
    rw [hit?_eq] at hrow
    obtain ⟨record, hrecord, rfl⟩ := Option.map_eq_some_iff.mp hrow
    exact hrecord
  · refine List.map_congr_left fun query _ => ?_
    rw [rankOne_eq, rankOne_eq]
    rfl

end Scanner
end ProgramSearch
