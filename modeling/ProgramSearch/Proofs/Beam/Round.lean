import Mathlib.Data.List.Nodup
import Mathlib.Data.List.ProdSigma
import ProgramSearch.Beam.Search
import ProgramSearch.Proofs.Beam.Contract
import ProgramSearch.Proofs.Beam.Shape
import ProgramSearch.Proofs.Results
import ProgramSearch.Proofs.Single.Sum
import ProgramSearch.Proofs.Sorting

/-!
# One round of a beam

Where the candidates of the next beam come from. Each stands for an extension of its own, and is a
rolling parent with one more symbol, or a stopped parent that goes on unchanged or is dropped. A
round with an answer that keeps the contract does not fail, and as long as there is room it selects
every extension with a finite score.
-/
namespace ProgramSearch

namespace Beam

variable {σ : Type}

theorem lookup_eq_ok_iff {α : Type} {xs : List α} {i : Nat} {a : α} :
    lookup xs i = .ok a ↔ xs[i]? = some a := by
  rw [lookup]
  split
  · next h => simp [h]
  · next h => simp [h]

/-! ### Extensions -/

/-- The candidate and the column that an extension is for. -/
def Extension.place (e : Extension) : Nat × Nat := (e.row, e.col)

/-- The extensions of the candidate in a slot. -/
def rowExtensions (width : Nat) (output : StepOutput σ) (slot : Candidate σ × Nat) :
    Except Failure (List Extension) := do
  let scores ← lookup output.scores slot.2
  (List.range width).mapM fun col => do
    return ⟨slot.1.logProb + (← stepScore slot.1 scores col), slot.2, col⟩

theorem extensions_eq (width : Nat) (beam : List (Candidate σ)) (output : StepOutput σ) :
    extensions width beam output =
      (beam.zipIdx.mapM (rowExtensions width output) >>= fun rows => return rows.flatten) := rfl

/-- The extension is one of the candidate `c`. -/
structure Extends (width : Nat) (output : StepOutput σ) (c : Candidate σ) (e : Extension) :
    Prop where
  col_lt : e.col < width
  score : ∃ scores step, output.scores[e.row]? = some scores ∧
    stepScore c scores e.col = .ok step ∧ e.score = c.logProb + step

section

variable {width : Nat} {beam : List (Candidate σ)} {output : StepOutput σ}

theorem mem_rowExtensions {slot : Candidate σ × Nat} {es : List Extension}
    (h : rowExtensions width output slot = .ok es) {e : Extension} :
    e ∈ es ↔ e.row = slot.2 ∧ Extends width output slot.1 e := by
  obtain ⟨scores, hscores, h⟩ := bind_ok h
  have hscores := lookup_eq_ok_iff.mp hscores
  rw [mem_of_mapM h]
  constructor
  · rintro ⟨col, hcol, he⟩
    obtain ⟨step, hstep, he⟩ := bind_ok he
    obtain rfl := Except.ok.inj he
    exact ⟨rfl, List.mem_range.mp hcol, scores, step, hscores, hstep, rfl⟩
  · rintro ⟨hrow, hcol, scores', step, hscores', hstep, hscore⟩
    obtain ⟨score, row, col⟩ := e
    dsimp only at hrow hcol hscores' hstep hscore
    subst hrow hscore
    obtain rfl := Option.some.inj (hscores.symm.trans hscores')
    exact ⟨col, List.mem_range.mpr hcol, by rw [hstep]; rfl⟩

theorem place_rowExtensions {slot : Candidate σ × Nat} {es : List Extension}
    (h : rowExtensions width output slot = .ok es) :
    es.map Extension.place = (List.range width).map (Prod.mk slot.2) := by
  obtain ⟨scores, hscores, h⟩ := bind_ok h
  refine map_of_mapM h fun col _ e he => ?_
  obtain ⟨step, hstep, he⟩ := bind_ok he
  obtain rfl := Except.ok.inj he
  rfl

theorem mem_extensions {all : List Extension} (h : extensions width beam output = .ok all)
    {e : Extension} : e ∈ all ↔ ∃ c, beam[e.row]? = some c ∧ Extends width output c e := by
  rw [extensions_eq] at h
  obtain ⟨rows, hrows, h⟩ := bind_ok h
  obtain rfl := Except.ok.inj h
  rw [List.mem_flatten]
  constructor
  · rintro ⟨es, hes, he⟩
    obtain ⟨⟨c, row⟩, hslot, hrow⟩ := (mem_of_mapM hrows).mp hes
    obtain ⟨rfl, hextends⟩ := (mem_rowExtensions hrow).mp he
    exact ⟨c, List.mk_mem_zipIdx_iff_getElem?.mp hslot, hextends⟩
  · rintro ⟨c, hc, hextends⟩
    have hslot : (c, e.row) ∈ beam.zipIdx := List.mk_mem_zipIdx_iff_getElem?.mpr hc
    obtain ⟨es, hes, hrow⟩ := exists_of_mapM hrows hslot
    exact ⟨es, hes, (mem_rowExtensions hrow).mpr ⟨rfl, hextends⟩⟩

theorem place_extensions {all : List Extension} (h : extensions width beam output = .ok all) :
    all.map Extension.place = List.range beam.length ×ˢ List.range width := by
  rw [extensions_eq] at h
  obtain ⟨rows, hrows, h⟩ := bind_ok h
  obtain rfl := Except.ok.inj h
  have hplaces : rows.map (List.map Extension.place) =
      beam.zipIdx.map fun slot => (List.range width).map (Prod.mk slot.2) :=
    map_of_mapM hrows fun slot _ es hes => place_rowExtensions hes
  have hslots : beam.zipIdx.map Prod.snd = List.range beam.length := by
    rw [List.zipIdx_map_snd, List.range_eq_range']
  rw [List.map_flatten, hplaces, ← hslots]
  change _ = (beam.zipIdx.map Prod.snd).flatMap fun row => (List.range width).map (Prod.mk row)
  rw [List.flatMap_map, List.flatMap_def]

/-- No two extensions are for the same candidate and column. -/
theorem nodup_extensions {all : List Extension} (h : extensions width beam output = .ok all) :
    (all.map Extension.place).Nodup := by
  rw [place_extensions h]
  exact List.Nodup.product List.nodup_range List.nodup_range

theorem exists_stepScore {answer : Row σ} {vocabulary col : Nat}
    (haccepted : answer.Accepted width vocabulary) (hcol : col < width) (c : Candidate σ) :
    ∃ step, stepScore c answer.scores col = .ok step := by
  obtain ⟨score, symbol, hscore, -⟩ := haccepted.exists_listed hcol
  rw [stepScore, lookup_eq_ok_iff.mpr hscore]
  split
  · exact ⟨score, rfl⟩
  · exact ⟨_, rfl⟩

theorem exists_rowExtensions {slot : Candidate σ × Nat} {answer : Row σ} {vocabulary : Nat}
    (answered : output.row? slot.2 = some answer) (haccepted : answer.Accepted width vocabulary) :
    ∃ es, rowExtensions width output slot = .ok es := by
  obtain ⟨-, hscores, -⟩ := StepOutput.row?_eq_some_iff.mp answered
  rw [rowExtensions, lookup_eq_ok_iff.mpr hscores, ok_bind]
  refine exists_mapM_eq_ok fun col hcol => ?_
  obtain ⟨step, hstep⟩ := exists_stepScore haccepted (List.mem_range.mp hcol) slot.1
  rw [hstep]
  exact ⟨_, rfl⟩

/-- An accepted answer has a score for each column of each candidate. -/
theorem exists_extensions {vocabulary : Nat} (hwidth : beam.length = width)
    (haccepted : output.breach? width width vocabulary = none) :
    ∃ all, extensions width beam output = .ok all := by
  have hrows : ∃ rows, beam.zipIdx.mapM (rowExtensions width output) = .ok rows := by
    refine exists_mapM_eq_ok fun slot hslot => ?_
    obtain ⟨hlt, -⟩ := List.getElem?_eq_some_iff.mp (List.mk_mem_zipIdx_iff_getElem?.mp hslot)
    obtain ⟨answer, answered, haccepted⟩ := StepOutput.exists_row haccepted (hwidth ▸ hlt)
    exact exists_rowExtensions answered haccepted
  obtain ⟨rows, hrows⟩ := hrows
  exact ⟨rows.flatten, by rw [extensions_eq, hrows, ok_bind]; rfl⟩

/-! ### Selection -/

/-- The extensions in the order in which they are selected. -/
def ranked (all : List Extension) : List Extension :=
  all.mergeSort fun a b => orderKey b.score ≤ orderKey a.score

theorem ranked_perm (all : List Extension) : (ranked all).Perm all := List.mergeSort_perm _ _

theorem pairwise_ranked (all : List Extension) :
    (ranked all).Pairwise fun a b => orderKey b.score ≤ orderKey a.score :=
  (List.pairwise_mergeSort (byScore_trans _) (byScore_total _) all).imp of_decide_eq_true

/-- Extensions that are in order already keep it. -/
theorem sublist_ranked {all es : List Extension} (h : es.Sublist all)
    (ordered : es.Pairwise fun a b => orderKey b.score ≤ orderKey a.score) :
    es.Sublist (ranked all) :=
  List.sublist_mergeSort (byScore_trans _) (byScore_total _) (ordered.imp decide_eq_true) h

theorem select_sublist (width : Nat) (all : List Extension) :
    (select width all).Sublist (ranked all) := List.take_sublist _ _

theorem mem_of_mem_select {all : List Extension} {e : Extension} (h : e ∈ select width all) :
    e ∈ all :=
  (ranked_perm all).mem_iff.mp ((select_sublist width all).subset h)

theorem nodup_select {all : List Extension} (h : (all.map Extension.place).Nodup) :
    ((select width all).map Extension.place).Nodup :=
  ((select_sublist width all).map _).nodup (((ranked_perm all).map _).nodup_iff.mpr h)

theorem length_select (all : List Extension) :
    (select width all).length = min width all.length := by
  rw [select, List.length_take, List.length_mergeSort]

/-- A list in which a class of elements comes first is made up of these and then of the others. -/
theorem filter_append_filter_not {α : Type} {p : α → Bool} {xs : List α}
    (h : xs.Pairwise fun a b => p b = true → p a = true) :
    xs.filter p ++ xs.filter (fun a => !p a) = xs := by
  induction xs with
  | nil => rfl
  | cons x xs ih =>
    obtain ⟨hx, hxs⟩ := List.pairwise_cons.mp h
    specialize ih hxs
    by_cases hp : p x = true
    · rw [List.filter_cons_of_pos hp, List.filter_cons_of_neg (by simp [hp]), List.cons_append, ih]
    · have hnone : xs.filter p = [] :=
        List.filter_eq_nil_iff.mpr fun y hy => mt (hx y hy) hp
      rw [hnone, List.nil_append] at ih
      rw [List.filter_cons_of_neg hp, List.filter_cons_of_pos (by simp [hp]), hnone, ih]
      rfl

/-- Elements of a class that comes first are among the first ones, as many as there are of them. -/
theorem filter_take_of_countP_le {α : Type} {p : α → Bool} {xs : List α} {n : Nat}
    (h : xs.Pairwise fun a b => p b = true → p a = true) (hcount : xs.countP p ≤ n) :
    (xs.take n).filter p = xs.filter p := by
  rw [List.countP_eq_length_filter] at hcount
  have hlater : ((xs.filter fun a => !p a).take (n - (xs.filter p).length)).filter p = [] := by
    refine List.filter_eq_nil_iff.mpr fun a ha => ?_
    simpa using (List.mem_filter.mp (List.mem_of_mem_take ha)).2
  conv_lhs => rw [← filter_append_filter_not h]
  rw [List.take_append, List.take_of_length_le hcount, List.filter_append, hlater,
    List.append_nil, List.filter_filter]
  simp only [Bool.and_self]

/-- Where better scores come first, and none is above zero, finite ones do. -/
theorem finite_first {α : Type} {score : α → Float32} {xs : List α}
    (h : xs.Pairwise fun a b => orderKey (score b) ≤ orderKey (score a))
    (habove : ∀ a ∈ xs, ¬ 0 < score a) :
    xs.Pairwise fun a b => (score b).isFinite = true → (score a).isFinite = true := by
  refine h.imp_of_mem fun {a b} ha _ hle hfinite => ?_
  refine Decidable.byContradiction fun hnot => ?_
  have hlt := Single.orderKey_lt hfinite (Bool.eq_false_iff.mpr hnot) (habove a ha)
  omega

/-- As long as there is room for them, all extensions with a finite score are selected. -/
theorem filter_select {all : List Extension} (habove : ∀ e ∈ all, ¬ 0 < e.score)
    (hroom : all.countP (·.score.isFinite) ≤ width) :
    (select width all).filter (·.score.isFinite) = (ranked all).filter (·.score.isFinite) := by
  have hfirst := finite_first (pairwise_ranked all) fun e he =>
    habove e ((ranked_perm all).mem_iff.mp he)
  rw [← (ranked_perm all).countP_eq] at hroom
  exact filter_take_of_countP_le hfirst hroom

theorem mem_select {all : List Extension} (habove : ∀ e ∈ all, ¬ 0 < e.score)
    (hroom : all.countP (·.score.isFinite) ≤ width) {e : Extension} (he : e ∈ all)
    (finite : e.score.isFinite = true) : e ∈ select width all := by
  have hmem : e ∈ (ranked all).filter (·.score.isFinite) :=
    List.mem_filter.mpr ⟨(ranked_perm all).mem_iff.mpr he, finite⟩
  rw [← filter_select habove hroom] at hmem
  exact (List.mem_filter.mp hmem).1

/-! ### The next beam -/

/-- What an accepted answer to a candidate in slot `row` makes of it at a column. -/
inductive Descends (k : Control) (output : StepOutput σ) (row col : Nat) (c : Candidate σ) :
    Candidate σ → Prop
  | grown {answer : Row σ} {score : Float32} {symbol : Nat} (rolls : c.rolling = true)
    (placed : c.isPlaced = true) (answered : output.row? row = some answer)
    (scored : answer.scores[col]? = some score) (listed : answer.ids[col]? = some symbol) :
    Descends k output row col c (c.step k answer.state score symbol)
  | kept (stopped : c.rolling = false) (first : col = 0) :
    Descends k output row col c { c with logProb := c.logProb + 0 }
  | dropped (stopped : c.rolling = false) (later : col ≠ 0) :
    Descends k output row col c { c with logProb := c.logProb + negInfinity }

variable {k : Control} {all : List Extension} {e : Extension} {c d : Candidate σ}

theorem extend_of_stopped (hc : beam[e.row]? = some c) (stopped : c.rolling = false)
    (h : extend k beam output e = .ok d) : d = { c with logProb := e.score } := by
  rw [extend, lookup_eq_ok_iff.mpr hc, ok_bind, if_neg (by simp [stopped])] at h
  exact (Except.ok.inj h).symm

theorem extend_of_rolling (hc : beam[e.row]? = some c) (rolls : c.rolling = true)
    (h : extend k beam output e = .ok d) :
    c.isPlaced = true ∧ ∃ state ids symbol, output.states[e.row]? = some state ∧
      output.ids[e.row]? = some ids ∧ ids[e.col]? = some symbol ∧
      d = ({ { c with logProb := e.score } with state }).grow k symbol := by
  rw [extend, lookup_eq_ok_iff.mpr hc, ok_bind, if_pos rolls] at h
  split at h
  · contradiction
  · next hplaced =>
    obtain ⟨state, hstate, h⟩ := bind_ok h
    obtain ⟨ids, hids, h⟩ := bind_ok h
    obtain ⟨symbol, hsymbol, h⟩ := bind_ok h
    exact ⟨by simpa using hplaced, state, ids, symbol, lookup_eq_ok_iff.mp hstate,
      lookup_eq_ok_iff.mp hids, lookup_eq_ok_iff.mp hsymbol, (Except.ok.inj h).symm⟩

/-- The candidate behind an extension descends from the one that is extended, at its score. -/
theorem descends_of_extend (hc : beam[e.row]? = some c) (h : Extends width output c e)
    (hd : extend k beam output e = .ok d) : Descends k output e.row e.col c d := by
  obtain ⟨scores, step, hscores, hstep, hscore⟩ := h.score
  rw [stepScore] at hstep
  cases hrolls : c.rolling with
  | true =>
    obtain ⟨placed, state, ids, symbol, hstate, hids, hsymbol, rfl⟩ :=
      extend_of_rolling hc hrolls hd
    rw [if_pos hrolls] at hstep
    have answered : output.row? e.row = some ⟨state, scores, ids⟩ :=
      StepOutput.row?_eq_some_iff.mpr ⟨hstate, hscores, hids⟩
    have hstepped : c.step k state step symbol =
        ({ { c with logProb := e.score } with state }).grow k symbol := by
      rw [hscore, Candidate.step]
    rw [← hstepped]
    exact .grown hrolls placed answered (lookup_eq_ok_iff.mp hstep) hsymbol
  | false =>
    obtain rfl := extend_of_stopped hc hrolls hd
    rw [if_neg (by simp [hrolls])] at hstep
    obtain rfl := Except.ok.inj hstep
    rw [hscore]
    by_cases hcol : e.col = 0
    · rw [hcol]
      exact .kept hrolls rfl
    · rw [if_neg (by simpa using hcol)]
      exact .dropped hrolls hcol

theorem Descends.unique {row col : Nat} {d' : Candidate σ} (h : Descends k output row col c d)
    (h' : Descends k output row col c d') : d = d' := by
  cases h with
  | grown rolls _ answered scored listed =>
    cases h' with
    | grown _ _ answered' scored' listed' =>
      obtain rfl := Option.some.inj (answered.symm.trans answered')
      obtain rfl := Option.some.inj (scored.symm.trans scored')
      obtain rfl := Option.some.inj (listed.symm.trans listed')
      rfl
    | kept stopped _ => simp [rolls] at stopped
    | dropped stopped _ => simp [rolls] at stopped
  | kept stopped first =>
    cases h' with
    | grown rolls => simp [rolls] at stopped
    | kept _ _ => rfl
    | dropped _ later => exact absurd first later
  | dropped stopped later =>
    cases h' with
    | grown rolls => simp [rolls] at stopped
    | kept _ first => exact absurd first later
    | dropped _ _ => rfl

/-- A candidate that descends from another is behind an extension of it. -/
theorem Descends.extends {vocabulary row col : Nat} (h : Descends k output row col c d)
    (haccepted : output.breach? width width vocabulary = none) (hrow : row < width)
    (hcol : col < width) : Extends width output c ⟨d.logProb, row, col⟩ := by
  refine ⟨hcol, ?_⟩
  obtain ⟨answer, answered, -⟩ := StepOutput.exists_row haccepted hrow
  obtain ⟨-, hscores, -⟩ := StepOutput.row?_eq_some_iff.mp answered
  refine ⟨answer.scores, ?_⟩
  simp only [stepScore]
  cases h with
  | grown rolls _ answered' scored _ =>
    obtain rfl := Option.some.inj (answered.symm.trans answered')
    exact ⟨_, hscores, by rw [if_pos rolls, lookup_eq_ok_iff.mpr scored],
      Candidate.step_logProb ..⟩
  | kept stopped first => exact ⟨0, hscores, by simp [stopped, first], rfl⟩
  | dropped stopped later => exact ⟨negInfinity, hscores, by simp [stopped, later], rfl⟩

theorem not_zero_lt_negInfinity : ¬ 0 < negInfinity := by decide

/-- Scores do not rise above zero. -/
theorem Extends.not_above {vocabulary : Nat} (h : Extends width output c e)
    (haccepted : output.breach? width width vocabulary = none) (hrow : e.row < width)
    (hc : ¬ 0 < c.logProb) : ¬ 0 < e.score := by
  obtain ⟨scores, step, hscores, hstep, hscore⟩ := h.score
  obtain ⟨answer, answered, haccepted⟩ := StepOutput.exists_row haccepted hrow
  obtain ⟨-, hanswer, -⟩ := StepOutput.row?_eq_some_iff.mp answered
  obtain rfl := Option.some.inj (hanswer.symm.trans hscores)
  rw [hscore]
  refine Single.not_zero_lt_add hc ?_
  rw [stepScore] at hstep
  split at hstep
  · exact haccepted.not_above _ (List.mem_of_getElem? (lookup_eq_ok_iff.mp hstep))
  · obtain rfl := Except.ok.inj hstep
    split
    · decide
    · exact not_zero_lt_negInfinity

theorem not_above_extensions {vocabulary : Nat} (hall : extensions width beam output = .ok all)
    (haccepted : output.breach? width width vocabulary = none) (hwidth : beam.length = width)
    (habove : ∀ c ∈ beam, ¬ 0 < c.logProb) : ∀ e ∈ all, ¬ 0 < e.score := by
  intro e he
  obtain ⟨c, hc, hextends⟩ := (mem_extensions hall).mp he
  exact hextends.not_above haccepted (hwidth ▸ (List.getElem?_eq_some_iff.mp hc).1)
    (habove c (List.mem_of_getElem? hc))

theorem exists_extend {vocabulary : Nat} (hc : beam[e.row]? = some c) (placed : c.isPlaced = true)
    (haccepted : output.breach? width width vocabulary = none) (hrow : e.row < width)
    (hcol : e.col < width) : ∃ d, extend k beam output e = .ok d := by
  obtain ⟨answer, answered, haccepted⟩ := StepOutput.exists_row haccepted hrow
  obtain ⟨hstate, -, hids⟩ := StepOutput.row?_eq_some_iff.mp answered
  obtain ⟨score, symbol, -, hsymbol⟩ := haccepted.exists_listed hcol
  rw [extend, lookup_eq_ok_iff.mpr hc, ok_bind]
  split
  · rw [placed, lookup_eq_ok_iff.mpr hstate, lookup_eq_ok_iff.mpr hids]
    simp only [Bool.not_true, Bool.false_eq_true, if_false, ok_bind,
      lookup_eq_ok_iff.mpr hsymbol]
    exact ⟨_, rfl⟩
  · exact ⟨_, rfl⟩

/-! ### The round as a whole -/

variable {v : Vocabulary} {next : List (Candidate σ)}

theorem advance_ok (h : advance width v beam output = .ok next) :
    output.breach? width width v.size = none ∧
      ∃ all, extensions width beam output = .ok all ∧
        (select width all).mapM (extend v.control beam output) = .ok next := by
  obtain ⟨⟨⟩, hvalid, h⟩ := bind_ok h
  obtain ⟨all, hall, h⟩ := bind_ok h
  rw [StepOutput.validate] at hvalid
  split at hvalid
  · contradiction
  · next haccepted => exact ⟨haccepted, all, hall, h⟩

/-- An answer that is accepted yields a next beam. -/
theorem exists_advance (hwidth : beam.length = width) (placed : ∀ c ∈ beam, c.isPlaced = true)
    (haccepted : output.breach? width width v.size = none) :
    ∃ next, advance width v beam output = .ok next := by
  obtain ⟨all, hall⟩ := exists_extensions hwidth haccepted
  have hextend : ∀ e ∈ select width all, ∃ d, extend v.control beam output e = .ok d := by
    intro e he
    obtain ⟨c, hc, hextends⟩ := (mem_extensions hall).mp (mem_of_mem_select he)
    obtain ⟨hrow, -⟩ := List.getElem?_eq_some_iff.mp hc
    exact exists_extend hc (placed c (List.mem_of_getElem? hc)) haccepted (hwidth ▸ hrow)
      hextends.col_lt
  obtain ⟨next, hnext⟩ := exists_mapM_eq_ok hextend
  refine ⟨next, ?_⟩
  rw [advance, StepOutput.validate, haccepted, hall]
  exact hnext

/-- A rejected answer ends the search with the breach. -/
theorem advance_breach {breach : Breach} (h : output.breach? width width v.size = some breach) :
    advance width v beam output = .error (.contract breach) := by
  rw [advance, StepOutput.validate, h]
  rfl

/-- Extensions that are in order already are taken as they stand. -/
theorem advance_of_sorted (haccepted : output.breach? width width v.size = none)
    (hall : extensions width beam output = .ok all)
    (hsorted : all.Pairwise fun a b => orderKey b.score ≤ orderKey a.score) :
    advance width v beam output = (all.take width).mapM (extend v.control beam output) := by
  rw [advance, StepOutput.validate, haccepted, hall, ok_bind, ok_bind, select,
    List.mergeSort_of_pairwise (hsorted.imp decide_eq_true)]

theorem length_advance (h : advance width v beam output = .ok next) (hwidth : beam.length = width) :
    next.length = width := by
  obtain ⟨-, all, hall, hnext⟩ := advance_ok h
  have hlength := congrArg List.length (place_extensions hall)
  rw [List.length_map, List.length_product, List.length_range, List.length_range, hwidth] at hlength
  rw [length_of_mapM hnext, length_select, hlength]
  exact Nat.min_eq_left (Nat.le_mul_self width)

/-- Each candidate of the next beam descends from one of the beam, no two of them at the same place
of the answer. -/
theorem descends_of_advance (h : advance width v beam output = .ok next) :
    ∃ places : List (Nat × Nat), places.Nodup ∧ ∀ (i : Nat) (d : Candidate σ), next[i]? = some d →
      ∃ (row col : Nat) (c : Candidate σ), places[i]? = some (row, col) ∧ beam[row]? = some c ∧
        col < width ∧ Descends v.control output row col c d := by
  obtain ⟨-, all, hall, hnext⟩ := advance_ok h
  refine ⟨(select width all).map Extension.place, nodup_select (nodup_extensions hall), ?_⟩
  intro i d hd
  obtain ⟨e, he, hextend⟩ := (getElem?_of_mapM hnext).mp hd
  obtain ⟨c, hc, hextends⟩ :=
    (mem_extensions hall).mp (mem_of_mem_select (List.mem_of_getElem? he))
  exact ⟨e.row, e.col, c, by rw [List.getElem?_map, he]; rfl, hc, hextends.col_lt,
    descends_of_extend hc hextends hextend⟩

/-- The extensions with finite scores fit into the beam. -/
def HasRoom (width : Nat) (beam : List (Candidate σ)) (output : StepOutput σ) : Prop :=
  ∀ all, extensions width beam output = .ok all → all.countP (·.score.isFinite) ≤ width

theorem hasRoom_of_extensions (h : extensions width beam output = .ok all)
    (hcount : all.countP (·.score.isFinite) ≤ width) : HasRoom width beam output := by
  intro all' h'
  obtain rfl := Except.ok.inj (h.symm.trans h')
  exact hcount

/-- With room for all of them, each live candidate that descends from the beam is in the next. -/
theorem mem_of_descends {row col : Nat} (h : advance width v beam output = .ok next)
    (hwidth : beam.length = width) (habove : ∀ c ∈ beam, ¬ 0 < c.logProb)
    (hroom : HasRoom width beam output) (hc : beam[row]? = some c) (hcol : col < width)
    (hd : Descends v.control output row col c d) (live : d.isLive = true) : d ∈ next := by
  obtain ⟨haccepted, all, hall, hnext⟩ := advance_ok h
  have hrow : row < width := hwidth ▸ (List.getElem?_eq_some_iff.mp hc).1
  have hselected : ⟨d.logProb, row, col⟩ ∈ select width all :=
    mem_select (not_above_extensions hall haccepted hwidth habove) (hroom all hall)
      ((mem_extensions hall).mpr ⟨c, hc, hd.extends haccepted hrow hcol⟩) live
  obtain ⟨d', hd', hextend⟩ := exists_of_mapM hnext hselected
  rwa [hd.unique (descends_of_extend hc (hd.extends haccepted hrow hcol) hextend)]

end
end Beam
end ProgramSearch
