import ProgramSearch.Proofs.Evaluation.FirstHits
import ProgramSearch.Proofs.Ranking.Batches
import ProgramSearch.Report.Precision

/-!
# Unfit queries in an evaluation

An unfit query among labelled ones takes a line of its own. It changes the numbers of the queries
behind it, under which their rankings and their desired programs are found again, but neither the
report nor what the other lines say.
-/
namespace ProgramSearch

/-- A query with the program that it should find. -/
abbrev Labelled := Query × Desired

/-- The elements of a list that bear no mark. -/
def unmarked {α : Type} (xs : List (α × Bool)) : List α :=
  xs.filterMap fun x => if x.2 then none else some x.1

/-- What depends on an element alone can be taken of all elements first. -/
theorem unmarked_zip_map {α β : Type} (f : α → β) (xs : List (α × Bool)) :
    unmarked (((xs.map Prod.fst).map f).zip (xs.map Prod.snd)) = (unmarked xs).map f := by
  rw [List.map_map, List.zip_map', unmarked, unmarked, List.filterMap_map, List.map_filterMap]
  refine List.filterMap_congr fun x _ => ?_
  cases hmark : x.2 <;> simp [hmark]

/-- Elements that do not count may as well be left out. -/
theorem filterMap_unmarked {α β : Type} {f : α → Option β} {xs : List (α × Bool)}
    (h : ∀ x ∈ xs, x.2 = true → f x.1 = none) :
    (unmarked xs).filterMap f = (xs.map Prod.fst).filterMap f := by
  rw [unmarked, List.filterMap_filterMap, List.filterMap_map]
  refine List.filterMap_congr fun x hx => ?_
  cases hmark : x.2 with
  | false => rfl
  | true => exact (h x hx hmark).symm

theorem Query.exists_failure {q : Query} {dimension : Nat}
    (unfit : q.embedding.length ≠ dimension ∨ ∃ x ∈ q.embedding, x.isFinite = false) :
    ∃ failure, q.check dimension = .error failure := by
  cases check : q.check dimension with
  | error failure => exact ⟨failure, rfl⟩
  | ok =>
    obtain ⟨hlength, hfinite⟩ := checkVector_eq_ok_iff.mp check
    rcases unfit with hwrong | ⟨x, hx, hbad⟩
    · contradiction
    · simpa [hbad] using List.findIdx?_eq_none_iff.mp hfinite x hx

namespace PrecisionTracker

/-- The first ranks of a query do not depend on the queries before it. -/
def ranksOf (topK : Nat) (desired : Desired) (records : List Record) : FirstRanks :=
  let rank (kind : MatchKind) := KindTotals.firstRank topK (records.map (desired.fits kind))
  ⟨rank .api, rank .sequence, rank .ast, rank .body⟩

theorem record_snd (t : PrecisionTracker) (desired : Desired) (records : List Record) :
    (t.record desired records).2 = ranksOf t.topK desired records := rfl

end PrecisionTracker

namespace Report.QueryDump

/-- What a line says of a query, whatever the number of the query. -/
def content (d : QueryDump) : List HitRow × Option FirstRanks × Option String :=
  (d.hits.hits, d.evaluation, d.hits.error)

end Report.QueryDump

namespace Scanner

open Report PrecisionTracker

variable (s : Scanner)

/-- Ranks labelled queries in batches and evaluates the outcomes. -/
def evaluated (batchSize threads topK : Nat) (points : List Nat) (labelled : List Labelled) :
    Except Failure (PrecisionReport × List QueryDump) := do
  let outcomes ← s.rankBatches (labelled.map Prod.fst) batchSize threads
  return evaluate topK points (labelled.map Prod.snd) outcomes

/-- What a labelled query counts for: its ranked records, if it is fit. -/
def counted? (l : Labelled) : Option (Desired × List Record) :=
  match l.1.check s.dimension with
  | .ok () => some (l.2, (s.rankOne 1 l.1.embedding).map (·.record))
  | .error _ => none

/-- The line of a labelled query under a number. -/
def line (topK number : Nat) (l : Labelled) : QueryDump :=
  match l.1.check s.dimension with
  | .ok () =>
    let hits := s.rankOne 1 l.1.embedding
    ⟨⟨number, hitRows ⟨number, hits⟩, none⟩, some (ranksOf topK l.2 (hits.map (·.record)))⟩
  | .error failure => ⟨⟨number, [], some failure.message⟩, none⟩

theorem line_of_unfit {l : Labelled} {failure : Failure}
    (unfit : l.1.check s.dimension = .error failure) (topK number : Nat) :
    s.line topK number l = ⟨⟨number, [], some failure.message⟩, none⟩ := by
  rw [line, unfit]

theorem query_line (topK number : Nat) (l : Labelled) :
    (s.line topK number l).hits.query = number := by
  rw [line]
  split <;> rfl

/-- The number of a query appears nowhere else in its line. -/
theorem content_line (topK number : Nat) (l : Labelled) :
    (s.line topK number l).content = (s.line topK 0 l).content := by
  rw [line, line]
  split <;> rfl

theorem content_lines (topK : Nat) (labelled : List Labelled) :
    (labelled.zipIdx.map fun p => s.line topK p.2 p.1).map QueryDump.content =
      labelled.map fun l => (s.line topK 0 l).content := by
  conv_rhs => rw [← List.zipIdx_map_fst 0 labelled]
  rw [List.map_map, List.map_map]
  exact List.map_congr_left fun p _ => s.content_line topK p.2 p.1

/-- The tracker sees the queries that are fit, in order, and each query has its own line. -/
theorem evaluateFrom_eq (number : Nat) (t : PrecisionTracker) (labelled : List Labelled) :
    evaluateFrom number t
        ((labelled.zipIdx number).map fun p => (s.outcome p.2 p.1.1.embedding, p.1.2)) =
      (t.recordAll (labelled.filterMap s.counted?),
        (labelled.zipIdx number).map fun p => s.line t.topK p.2 p.1) := by
  induction labelled generalizing number t with
  | nil => rfl
  | cons l labelled ih =>
    rw [List.zipIdx_cons, List.map_cons, List.map_cons, List.filterMap_cons]
    cases check : l.1.check s.dimension with
    | error failure =>
      simp only [outcome_of_unfit check, evaluateFrom, ih, counted?, check, line,
        QueryHits.ofOutcome]
    | ok =>
      simp only [outcome_of_fit check number 1, evaluateFrom, ih, counted?, check, line,
        QueryHits.ofOutcome, record_snd]
      rfl

/-- An evaluation in closed form, in which batches do not occur. -/
theorem evaluated_eq {batchSize : Nat} (positive : 0 < batchSize) (threads topK : Nat)
    (points : List Nat) (labelled : List Labelled) :
    s.evaluated batchSize threads topK points labelled =
      .ok (((start topK points).recordAll (labelled.filterMap s.counted?)).report,
        labelled.zipIdx.map fun p => s.line (max topK 1) p.2 p.1) := by
  have hzip : ((labelled.map Prod.fst).zipIdx.map fun p => s.outcome p.2 p.1.embedding).zip
      (labelled.map Prod.snd) =
      labelled.zipIdx.map fun p => (s.outcome p.2 p.1.1.embedding, p.1.2) := by
    rw [List.zipIdx_map, List.map_map]
    conv_lhs => rw [← List.zipIdx_map_fst 0 (labelled.map Prod.snd), List.zipIdx_map, List.map_map]
    rw [List.zip_map']
    rfl
  rw [evaluated, rankBatches_eq positive, ok_bind, evaluate, hzip, evaluateFrom_eq]
  rfl

/-- Unfit queries at any places among labelled ones, which are marked here, leave the report as it
is. There is one line for each query, in order. The lines of the other queries say what they say
without the marked ones, in batches of any sizes; the line of a marked query has its failure, no
hits and no evaluation. -/
theorem evaluated_undisturbed {marked : List (Labelled × Bool)}
    (unfit : ∀ p ∈ marked, p.2 = true → p.1.1.embedding.length ≠ s.dimension ∨
      ∃ x ∈ p.1.1.embedding, x.isFinite = false)
    {batchSize batchSize' : Nat} (positive : 0 < batchSize) (positive' : 0 < batchSize')
    (threads threads' topK : Nat) (points : List Nat) :
    ∃ report lines lines',
      s.evaluated batchSize threads topK points (marked.map Prod.fst) = .ok (report, lines) ∧
      s.evaluated batchSize' threads' topK points (unmarked marked) = .ok (report, lines') ∧
      lines.map (·.hits.query) = List.range marked.length ∧
      unmarked ((lines.map QueryDump.content).zip (marked.map Prod.snd)) =
        lines'.map QueryDump.content ∧
      ∀ (i : Nat) (l : Labelled), marked[i]? = some (l, true) →
        ∃ failure, l.1.check s.dimension = .error failure ∧
          lines[i]? = some ⟨⟨i, [], some failure.message⟩, none⟩ := by
  have hcounted : (unmarked marked).filterMap s.counted? =
      (marked.map Prod.fst).filterMap s.counted? := by
    refine filterMap_unmarked fun p hp hmark => ?_
    obtain ⟨failure, check⟩ := Query.exists_failure (unfit p hp hmark)
    rw [counted?, check]
  -- Both evaluations are in closed form now, and count the same queries.
  have hbase := s.evaluated_eq positive' threads' topK points (unmarked marked)
  rw [hcounted] at hbase
  refine ⟨_, _, _, s.evaluated_eq positive threads topK points _, hbase, ?_, ?_, ?_⟩
  · rw [List.map_map, List.range_eq_range', ← List.length_map (f := Prod.fst),
      ← List.zipIdx_map_snd 0]
    exact List.map_congr_left fun p _ => s.query_line (max topK 1) p.2 p.1
  · rw [content_lines, content_lines]
    exact unmarked_zip_map _ marked
  · intro i l hl
    obtain ⟨failure, check⟩ := Query.exists_failure (unfit _ (List.mem_of_getElem? hl) rfl)
    refine ⟨failure, check, ?_⟩
    rw [List.getElem?_map, List.getElem?_zipIdx, List.getElem?_map, hl]
    simp [s.line_of_unfit check]

/-- Two fit queries, behind each of which an unfit one is inserted. -/
def sampleMarked : List (Labelled × Bool) :=
  let desired : Desired := ⟨0, [], [], none⟩
  [((⟨[1.0], .null⟩, desired), false), ((⟨[], .null⟩, desired), true),
    ((⟨[2.0], .null⟩, desired), false),
    ((⟨[Float32.ofBits 0x7F800000], .null⟩, desired), true)]

theorem unfit_sampleMarked : ∀ p ∈ sampleMarked, p.2 = true →
    p.1.1.embedding.length ≠ (sampleScanner 2).dimension ∨
      ∃ x ∈ p.1.1.embedding, x.isFinite = false := by
  simp only [sampleMarked, List.forall_mem_cons]
  exact ⟨nofun, fun _ => .inl (by decide), nofun,
    fun _ => .inr ⟨_, List.mem_singleton.mpr rfl, by decide⟩, nofun⟩

/-- The second fit query has another number, and still counts for the same. -/
theorem evaluated_undisturbed_sample :
    (∀ p ∈ sampleMarked, p.2 = true → p.1.1.embedding.length ≠ (sampleScanner 2).dimension ∨
      ∃ x ∈ p.1.1.embedding, x.isFinite = false) ∧ 0 < 2 ∧
    ∃ report lines lines',
      (sampleScanner 2).evaluated 2 3 2 [1, 2] (sampleMarked.map Prod.fst) =
        .ok (report, lines) ∧
      (sampleScanner 2).evaluated 2 3 2 [1, 2] (unmarked sampleMarked) = .ok (report, lines') ∧
      lines.map (·.hits.query) = [0, 1, 2, 3] ∧
      lines[1]? = some ⟨⟨1, [], some (Failure.dimensionMismatch 1 0).message⟩, none⟩ ∧
      lines[3]? = some ⟨⟨3, [], some (Failure.notFinite 0).message⟩, none⟩ := by
  have positive : 0 < 2 := by decide
  obtain ⟨report, lines, lines', hfull, hbase, hnumbers, -, hunfit⟩ :=
    evaluated_undisturbed (sampleScanner 2) unfit_sampleMarked positive positive 3 3 2 [1, 2]
  refine ⟨unfit_sampleMarked, positive, report, lines, lines', hfull, hbase, hnumbers, ?_, ?_⟩
  · obtain ⟨failure, check, hline⟩ := hunfit 1 _ rfl
    obtain rfl : Failure.dimensionMismatch 1 0 = failure := Except.error.inj check
    exact hline
  · obtain ⟨failure, check, hline⟩ := hunfit 3 _ rfl
    obtain rfl : Failure.notFinite 0 = failure := Except.error.inj check
    exact hline

end Scanner
end ProgramSearch
