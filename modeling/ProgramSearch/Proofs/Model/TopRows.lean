import ProgramSearch.Model.Decoder
import ProgramSearch.Proofs.Beam.Contract
import ProgramSearch.Proofs.Single.Order
import ProgramSearch.Proofs.Sorting

/-!
# The best entries of rows

A decoder lists the best entries of each row with their ids, better scores first and ties by id. If
the scores are numbers and none is above zero, this is an answer that a beam accepts, also where a
row has fewer entries than are asked for.
-/
namespace ProgramSearch

namespace StepOutput

/-- Scores of which none is below a later one. -/
theorem isDescending_of_pairwise {scores : List Float32}
    (h : scores.Pairwise fun a b => ¬ a < b) : isDescending scores = true := by
  fun_induction isDescending scores with
  | case1 a b rest ih =>
    rw [List.pairwise_cons] at h
    simp [h.1 b List.mem_cons_self, ih h.2]
  | case2 => rfl

/-- An answer keeps the contract if it has a state, scores and ids for each row and all its rows
keep it. -/
theorem validate_of_rows {σ : Type} {output : StepOutput σ} {rows width vocabulary : Nat}
    (states : output.states.length = rows) (scores : output.scores.length = rows)
    (ids : output.ids.length = rows)
    (accepted : ∀ i r, output.row? i = some r → r.Accepted width vocabulary) :
    output.validate rows width vocabulary = .ok () := by
  rw [validate, breach?_eq_none_iff.mpr ⟨⟨states, scores, ids⟩, accepted⟩]

end StepOutput

namespace Decoder

open Beam (negInfinity)

/-- An entry with a higher score comes first, and of equal scores the one with the lower id. Minus
zero is lower than zero. -/
def Before (a b : Float32 × Nat) : Prop :=
  orderKey b.1 < orderKey a.1 ∨ orderKey a.1 = orderKey b.1 ∧ a.2 < b.2

/-- Among numbers only the two zeros are in an order that is not theirs as scores. -/
theorem before_iff {a b : Float32 × Nat} (ha : a.1.isNaN = false) (hb : b.1.isNaN = false) :
    Before a b ↔ b.1 < a.1 ∨ (orderKey b.1 = -1 ∧ orderKey a.1 = 0) ∨
      orderKey a.1 = orderKey b.1 ∧ a.2 < b.2 := by
  rw [Before, Single.orderKey_lt_iff hb ha, or_assoc]

/-- The `k` best entries of a row, or all if there are fewer, best first. -/
structure IsTop (k : Nat) (row : List Float32) (best : List (Float32 × Nat)) : Prop where
  length : best.length = min k row.length
  listed : ∀ score id, (score, id) ∈ best → row[id]? = some score
  ordered : best.Pairwise Before
  distinct : (best.map Prod.snd).Nodup
  above : ∀ score id, row[id]? = some score → (score, id) ∈ best ∨ ∀ e ∈ best, Before e (score, id)

variable (k : Nat) (row : List Float32)

/-- All entries of a row, best first. -/
def ranked : List (Float32 × Nat) :=
  row.zipIdx.mergeSort fun a b => orderKey b.1 ≤ orderKey a.1

theorem ranked_perm : (ranked row).Perm row.zipIdx := List.mergeSort_perm _ _

theorem pairwise_ranked : (ranked row).Pairwise Before := by
  refine (pairwise_mergeSort_stable (byScore_trans Prod.fst) (byScore_total Prod.fst)
    (zipIdx_index_lt row)).imp ?_
  rintro a b ⟨hle, hties⟩
  rw [decide_eq_true_eq] at hle hties
  rcases Int.lt_or_eq_of_le hle with hlt | heq
  · exact .inl hlt
  · exact .inr ⟨heq.symm, hties heq.ge⟩

theorem nodup_ranked : ((ranked row).map Prod.snd).Nodup := by
  rw [((ranked_perm row).map _).nodup_iff, List.zipIdx_map_snd]
  exact List.nodup_range'

theorem isTop_ranked : IsTop k row ((ranked row).take k) where
  length := by rw [List.length_take, (ranked_perm row).length_eq, List.length_zipIdx]
  listed score id h := List.mk_mem_zipIdx_iff_getElem?.mp
    ((ranked_perm row).mem_iff.mp (List.mem_of_mem_take h))
  ordered := (pairwise_ranked row).take
  distinct := by
    rw [List.map_take]
    exact (nodup_ranked row).take
  above score id h := by
    have hmem : (score, id) ∈ (ranked row).take k ++ (ranked row).drop k := by
      rw [List.take_append_drop, (ranked_perm row).mem_iff]
      exact List.mk_mem_zipIdx_iff_getElem?.mpr h
    have hsplit := pairwise_ranked row
    rw [← List.take_append_drop k (ranked row), List.pairwise_append] at hsplit
    refine (List.mem_append.mp hmem).imp_right fun hleft e he => ?_
    exact hsplit.2.2 e he _ hleft

/-- What is listed for a row: its best entries, and then nothing but padding. -/
theorem exists_topRow : ∃ best, IsTop k row best ∧
    topRow k row = best ++ List.replicate (k - row.length) (negInfinity, 0) := by
  have htop := isTop_ranked k row
  refine ⟨(ranked row).take k, htop, ?_⟩
  have hleft : k - ((ranked row).take k).length = k - row.length := by
    rw [htop.length]
    omega
  rw [topRow, ← hleft]
  rfl

theorem length_topRow : (topRow k row).length = k := by
  obtain ⟨best, htop, heq⟩ := exists_topRow k row
  rw [heq, List.length_append, htop.length, List.length_replicate]
  omega

/-! ### The contract -/

variable {k row} {best : List (Float32 × Nat)}

theorem IsTop.score_mem (h : IsTop k row best) {score : Float32}
    (hscore : score ∈ best.map Prod.fst) : score ∈ row := by
  obtain ⟨⟨_, id⟩, hentry, rfl⟩ := List.mem_map.mp hscore
  exact List.mem_of_getElem? (h.listed _ id hentry)

theorem IsTop.id_lt (h : IsTop k row best) {id : Nat} (hid : id ∈ best.map Prod.snd) :
    id < row.length := by
  obtain ⟨⟨score, _⟩, hentry, rfl⟩ := List.mem_map.mp hid
  exact (List.getElem?_eq_some_iff.mp (h.listed score _ hentry)).1

/-- Scores that come later are not greater, nor is the padding. -/
theorem IsTop.descending (h : IsTop k row best) (numbers : ∀ score ∈ row, score.isNaN = false)
    (padding : Nat) :
    StepOutput.isDescending (best.map Prod.fst ++ List.replicate padding negInfinity) = true := by
  apply StepOutput.isDescending_of_pairwise
  rw [List.pairwise_append, List.pairwise_replicate, List.pairwise_map]
  refine ⟨h.ordered.imp_of_mem fun {a b} ha hb hbefore hlt => ?_,
    .inr (Single.not_lt_negInfinity _), fun a _ b hb => ?_⟩
  · have hnumber : ∀ c ∈ best, c.1.isNaN = false := fun c hc =>
      numbers c.1 (h.score_mem (List.mem_map_of_mem hc))
    have hkey := (Single.orderKey_lt_iff (hnumber a ha) (hnumber b hb)).mpr (.inl hlt)
    rcases hbefore with hkey' | ⟨heq, -⟩ <;> omega
  · obtain rfl := List.eq_of_mem_replicate hb
    exact Single.not_lt_negInfinity a

variable {σ : Type} {vocabulary : Nat}

theorem accepted_topRow (symbols : 1 ≤ vocabulary) (width : row.length = vocabulary)
    (numbers : ∀ score ∈ row, score.isNaN = false) (notAbove : ∀ score ∈ row, ¬ 0 < score)
    (state : σ) :
    Row.Accepted k vocabulary
      ⟨state, (topRow k row).map Prod.fst, (topRow k row).map Prod.snd⟩ := by
  obtain ⟨best, htop, heq⟩ := exists_topRow k row
  have hscore : ∀ score ∈ (topRow k row).map Prod.fst, score ∈ row ∨ score = negInfinity := by
    intro score hscore
    rw [heq, List.map_append, List.map_replicate, List.mem_append] at hscore
    exact hscore.imp htop.score_mem List.eq_of_mem_replicate
  have hid : ∀ id ∈ (topRow k row).map Prod.snd, id ∈ best.map Prod.snd ∨ id = 0 := by
    intro id hid
    rw [heq, List.map_append, List.map_replicate, List.mem_append] at hid
    exact hid.imp_right List.eq_of_mem_replicate
  constructor
  · rw [List.length_map, length_topRow]
  · rw [List.length_map, length_topRow]
  · intro id hmem
    rcases hid id hmem with hbest | rfl
    · exact width ▸ htop.id_lt hbest
    · exact symbols
  · intro score hmem
    rcases hscore score hmem with hrow | rfl
    · exact numbers score hrow
    · decide
  · intro score hmem
    rcases hscore score hmem with hrow | rfl
    · exact notAbove score hrow
    · decide
  · rw [heq, List.map_append, List.map_replicate]
    exact htop.descending numbers _

/-- For rows with a score for each symbol, none of them above zero and all of them numbers, the best
entries are an answer that a beam of width `k` accepts. Each row lists the `k` best entries, or all
if there are fewer, best first and each id once, and behind them the id zero at minus infinity
only. -/
theorem validate_topRows {rows : Matrix} (states : List σ) (symbols : 1 ≤ vocabulary)
    (stated : states.length = rows.length) (widths : ∀ row ∈ rows, row.length = vocabulary)
    (numbers : ∀ row ∈ rows, ∀ score ∈ row, score.isNaN = false)
    (notAbove : ∀ row ∈ rows, ∀ score ∈ row, ¬ 0 < score) :
    StepOutput.validate ⟨states, (topRows k rows).1, (topRows k rows).2⟩ rows.length k vocabulary =
        .ok () ∧
      ∀ (i : Nat) (row : List Float32), rows[i]? = some row → ∃ best, IsTop k row best ∧
        (topRows k rows).1[i]? =
          some (best.map Prod.fst ++ List.replicate (k - vocabulary) negInfinity) ∧
        (topRows k rows).2[i]? = some (best.map Prod.snd ++ List.replicate (k - vocabulary) 0) := by
  constructor
  · refine StepOutput.validate_of_rows stated (by simp [topRows]) (by simp [topRows]) ?_
    rintro i ⟨state, scores, ids⟩ answered
    obtain ⟨-, hscores, hids⟩ := StepOutput.row?_eq_some_iff.mp answered
    simp only [topRows, List.getElem?_map, Option.map_map] at hscores hids
    obtain ⟨row, hrow, rfl⟩ := Option.map_eq_some_iff.mp hscores
    rw [hrow] at hids
    obtain rfl := Option.some.inj hids
    have hmem := List.mem_of_getElem? hrow
    exact accepted_topRow symbols (widths row hmem) (numbers row hmem) (notAbove row hmem) state
  · intro i row hrow
    obtain ⟨best, htop, heq⟩ := exists_topRow k row
    refine ⟨best, htop, ?_, ?_⟩ <;>
      simp [topRows, hrow, heq, widths row (List.mem_of_getElem? hrow)]

/-- A row with a tie, and one with both zeros, of three symbols for four columns. -/
theorem validate_topRows_of_ties :
    let rows : Matrix := [[-2, -0.5, -0.5], [-0.0, 0, negInfinity]]
    1 ≤ 3 ∧ [(), ()].length = rows.length ∧ (∀ row ∈ rows, row.length = 3) ∧
      (∀ row ∈ rows, ∀ score ∈ row, score.isNaN = false) ∧
      (∀ row ∈ rows, ∀ score ∈ row, ¬ 0 < score) ∧
      StepOutput.validate ⟨[(), ()], (topRows 4 rows).1, (topRows 4 rows).2⟩ 2 4 3 = .ok () ∧
      ∃ best, IsTop 4 [-0.0, 0, negInfinity] best ∧
        (topRows 4 rows).2[1]? = some (best.map Prod.snd ++ [0]) := by
  intro rows
  have widths : ∀ row ∈ rows, row.length = 3 := by decide
  have numbers : ∀ row ∈ rows, ∀ score ∈ row, score.isNaN = false := by decide
  have notAbove : ∀ row ∈ rows, ∀ score ∈ row, ¬ 0 < score := by decide
  obtain ⟨valid, listed⟩ :=
    validate_topRows (k := 4) [(), ()] (by decide) rfl widths numbers notAbove
  obtain ⟨best, htop, -, hids⟩ := listed 1 [-0.0, 0, negInfinity] rfl
  exact ⟨by decide, rfl, widths, numbers, notAbove, valid, best, htop, hids⟩

end Decoder
end ProgramSearch
