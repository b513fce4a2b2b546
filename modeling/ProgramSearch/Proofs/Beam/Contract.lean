import ProgramSearch.Beam.Oracle

/-!
# Answers that keep the contract

What an answer that was accepted promises, row by row, and what oracles may promise about their
rows: that a row depends on its own input alone, or that no symbol is listed twice with finite
scores.
-/
namespace ProgramSearch

variable {ω σ : Type}

namespace Consult

variable {α β : Type}

/-- The answer to a question, and the world after it. -/
def ask (question : Consult ω α) (world : ω) : Except Failure α × ω := question.run.run world

theorem ask_liftM (x : Except Failure α) (world : ω) :
    (liftM x : Consult ω α).ask world = (x, world) := rfl

theorem ask_bind_of_ok {question : Consult ω α} (next : α → Consult ω β) {world world' : ω} {a : α}
    (h : question.ask world = (.ok a, world')) :
    (question >>= next).ask world = (next a).ask world' := by
  rw [ask] at h ⊢
  rw [ExceptT.run_bind, StateT.run_bind, h]
  rfl

theorem ask_bind_of_error {question : Consult ω α} (next : α → Consult ω β) {world world' : ω}
    {failure : Failure} (h : question.ask world = (.error failure, world')) :
    (question >>= next).ask world = (.error failure, world') := by
  rw [ask] at h ⊢
  rw [ExceptT.run_bind, StateT.run_bind, h]
  rfl

/-- A sequence that succeeds has asked both questions. -/
theorem ask_bind_ok {question : Consult ω α} {next : α → Consult ω β} {world world' : ω} {b : β}
    (h : (question >>= next).ask world = (.ok b, world')) :
    ∃ a mid, question.ask world = (.ok a, mid) ∧ (next a).ask mid = (.ok b, world') := by
  match hq : question.ask world with
  | (.ok a, mid) =>
    rw [ask_bind_of_ok next hq] at h
    exact ⟨a, mid, rfl, h⟩
  | (.error failure, mid) =>
    rw [ask_bind_of_error next hq] at h
    cases h

end Consult

/-- One row of an answer. -/
structure Row (σ : Type) where
  state : σ
  scores : List Float32
  ids : List Nat

namespace Row

/-- The symbols that are listed with finite scores. -/
def offers (r : Row σ) : List (Nat × Float32) := (r.ids.zip r.scores).filter (·.2.isFinite)

/-- No symbol is listed twice with finite scores. -/
def ListsOnce (r : Row σ) : Prop := (r.offers.map Prod.fst).Nodup

instance decidableListsOnce (r : Row σ) : Decidable r.ListsOnce :=
  inferInstanceAs (Decidable (r.offers.map Prod.fst).Nodup)

/-- The row keeps the contract for beams of a width and a vocabulary of a size. -/
structure Accepted (width vocabulary : Nat) (r : Row σ) : Prop where
  scores_length : r.scores.length = width
  ids_length : r.ids.length = width
  known : ∀ id ∈ r.ids, id < vocabulary
  number : ∀ score ∈ r.scores, score.isNaN = false
  not_above : ∀ score ∈ r.scores, ¬ 0 < score
  descending : StepOutput.isDescending r.scores = true

theorem getElem?_listed {r : Row σ} {col symbol : Nat} {score : Float32} :
    (r.ids.zip r.scores)[col]? = some (symbol, score) ↔
      r.ids[col]? = some symbol ∧ r.scores[col]? = some score :=
  List.getElem?_zip_eq_some

theorem mem_offers {r : Row σ} {col symbol : Nat} {score : Float32}
    (hsymbol : r.ids[col]? = some symbol) (hscore : r.scores[col]? = some score)
    (finite : score.isFinite = true) : (symbol, score) ∈ r.offers := by
  have hlisted := getElem?_listed.mpr ⟨hsymbol, hscore⟩
  exact List.mem_filter.mpr ⟨List.mem_of_getElem? hlisted, finite⟩

theorem exists_col_of_mem_offers {r : Row σ} {symbol : Nat} {score : Float32}
    (h : (symbol, score) ∈ r.offers) : score.isFinite = true ∧
      ∃ col : Nat, r.ids[col]? = some symbol ∧ r.scores[col]? = some score := by
  obtain ⟨hmem, finite⟩ := List.mem_filter.mp h
  obtain ⟨col, hcol⟩ := List.mem_iff_getElem?.mp hmem
  exact ⟨finite, col, getElem?_listed.mp hcol⟩

/-- An accepted row lists a symbol and a score for each column. -/
theorem Accepted.exists_listed {r : Row σ} {width vocabulary col : Nat}
    (h : r.Accepted width vocabulary) (hcol : col < width) :
    ∃ score symbol, r.scores[col]? = some score ∧ r.ids[col]? = some symbol :=
  ⟨_, _, List.getElem?_eq_getElem (h.scores_length ▸ hcol),
    List.getElem?_eq_getElem (h.ids_length ▸ hcol)⟩

/-- In a row that lists symbols once, the symbol of a finite score determines its column. -/
theorem ListsOnce.col_unique {r : Row σ} (h : r.ListsOnce) {col col' symbol : Nat}
    {score score' : Float32}
    (hsymbol : r.ids[col]? = some symbol) (hscore : r.scores[col]? = some score)
    (finite : score.isFinite = true) (hsymbol' : r.ids[col']? = some symbol)
    (hscore' : r.scores[col']? = some score') (finite' : score'.isFinite = true) :
    col = col' := by
  rw [ListsOnce, offers, List.Nodup, List.pairwise_map, List.pairwise_filter,
    List.pairwise_iff_getElem] at h
  obtain ⟨hlt, hget⟩ := List.getElem?_eq_some_iff.mp (getElem?_listed.mpr ⟨hsymbol, hscore⟩)
  obtain ⟨hlt', hget'⟩ := List.getElem?_eq_some_iff.mp (getElem?_listed.mpr ⟨hsymbol', hscore'⟩)
  rcases Nat.lt_trichotomy col col' with hcol | hcol | hcol
  · have hne := h col col' hlt hlt' hcol
    simp [hget, hget', finite, finite'] at hne
  · exact hcol
  · have hne := h col' col hlt' hlt hcol
    simp [hget, hget', finite, finite'] at hne

end Row

namespace StepOutput

def row? (output : StepOutput σ) (i : Nat) : Option (Row σ) :=
  match output.states[i]?, output.scores[i]?, output.ids[i]? with
  | some state, some scores, some ids => some ⟨state, scores, ids⟩
  | _, _, _ => none

theorem row?_eq_some_iff {output : StepOutput σ} {i : Nat} {r : Row σ} :
    output.row? i = some r ↔ output.states[i]? = some r.state ∧
      output.scores[i]? = some r.scores ∧ output.ids[i]? = some r.ids := by
  rw [row?]
  split
  · next state scores ids hstate hscores hids =>
    obtain ⟨s, ss, is⟩ := r
    simp [hstate, hscores, hids]
  · next hnone =>
    constructor
    · intro h
      contradiction
    · rintro ⟨hstate, hscores, hids⟩
      exact (hnone _ _ _ hstate hscores hids).elim

theorem rowBreach?_eq_none_iff {width vocabulary i : Nat} {r : Row σ} :
    rowBreach? width vocabulary i r.scores r.ids = none ↔ r.Accepted width vocabulary := by
  constructor
  · intro h
    simp only [rowBreach?] at h
    split at h
    · contradiction
    · next hlength =>
      split at h
      · contradiction
      · next hids =>
        split at h
        · contradiction
        · next hnumber =>
          split at h
          · contradiction
          · next habove =>
            split at h
            · next hdescending =>
              have hscores : ∀ score ∈ r.scores, score.isNaN = false := fun score hscore =>
                Bool.eq_false_iff.mpr fun hnan =>
                  hnumber (List.any_eq_true.mpr ⟨score, hscore, hnan⟩)
              exact ⟨by simp_all, by simp_all, by simpa using hids, hscores,
                by simpa using habove, hdescending⟩
            · contradiction
  · intro h
    have hids : r.ids.find? (vocabulary ≤ ·) = none := by simpa using h.known
    have hnumber : r.scores.any (·.isNaN) = false :=
      List.any_eq_false.mpr fun score hscore => Bool.eq_false_iff.mp (h.number score hscore)
    have habove : r.scores.find? (0 < ·) = none := by simpa using h.not_above
    simp only [rowBreach?, h.scores_length, h.ids_length, hids, hnumber, habove, h.descending,
      bne_self_eq_false, Bool.or_self, Bool.false_eq_true, if_false, if_true]

/-- An answer is accepted exactly if it has the right numbers of rows and each row keeps the
contract. -/
theorem breach?_eq_none_iff {output : StepOutput σ} {rows width vocabulary : Nat} :
    output.breach? rows width vocabulary = none ↔
      (output.states.length = rows ∧ output.scores.length = rows ∧ output.ids.length = rows) ∧
        ∀ i r, output.row? i = some r → r.Accepted width vocabulary := by
  simp only [breach?]
  split
  · next hlength =>
    simp only [reduceCtorEq, false_iff, not_and]
    intro h
    simp [h.1, h.2.1, h.2.2] at hlength
  · next hlength =>
    have hrows : output.states.length = rows ∧ output.scores.length = rows ∧
        output.ids.length = rows := by simpa [and_assoc] using hlength
    rw [List.findSome?_eq_none_iff, and_iff_right hrows]
    constructor
    · intro h i r hr
      obtain ⟨-, hscores, hids⟩ := row?_eq_some_iff.mp hr
      have hzip := List.getElem?_zip_eq_some (z := (r.scores, r.ids)).mpr ⟨hscores, hids⟩
      exact rowBreach?_eq_none_iff.mp (h _ (List.mk_mem_zipIdx_iff_getElem?.mpr hzip))
    · rintro h ⟨⟨scores, ids⟩, i⟩ hmem
      have hzip := List.mk_mem_zipIdx_iff_getElem?.mp hmem
      obtain ⟨hscores, hids⟩ := List.getElem?_zip_eq_some.mp hzip
      obtain ⟨hlt, -⟩ := List.getElem?_eq_some_iff.mp hscores
      have hstate : output.states[i]? = some (getElem output.states i (by omega)) :=
        List.getElem?_eq_getElem _
      exact rowBreach?_eq_none_iff.mpr (h i ⟨_, scores, ids⟩
        (row?_eq_some_iff.mpr ⟨hstate, hscores, hids⟩))

theorem exists_row {output : StepOutput σ} {rows width vocabulary i : Nat}
    (h : output.breach? rows width vocabulary = none) (hi : i < rows) :
    ∃ r, output.row? i = some r ∧ r.Accepted width vocabulary := by
  obtain ⟨⟨hstates, hscores, hids⟩, haccepted⟩ := breach?_eq_none_iff.mp h
  have hrow : output.row? i = some ⟨_, _, _⟩ := row?_eq_some_iff.mpr
    ⟨List.getElem?_eq_getElem (hstates ▸ hi), List.getElem?_eq_getElem (hscores ▸ hi),
      List.getElem?_eq_getElem (hids ▸ hi)⟩
  exact ⟨_, hrow, haccepted i _ hrow⟩

end StepOutput

namespace Oracle

/-- Each row of an answer is a function of the input of that row alone. -/
def RowWise (oracle : Oracle ω σ) (row : StepInput σ → Row σ) : Prop :=
  ∀ inputs world output world', (oracle.step inputs).ask world = (.ok output, world') →
    ∀ i input answer, inputs[i]? = some input → output.row? i = some answer → answer = row input

/-- The rows of accepted answers list no symbol twice with finite scores. -/
def ListsOnce (oracle : Oracle ω σ) (width : Nat) : Prop :=
  ∀ inputs world output world', (oracle.step inputs).ask world = (.ok output, world') →
    output.breach? width width oracle.vocabulary.size = none →
      ∀ i answer, output.row? i = some answer → answer.ListsOnce

/-- The oracle without a world that answers each row by itself. -/
def ofRows (vocabulary : Vocabulary) (width : Nat) (state : σ) (row : StepInput σ → Row σ) :
    Oracle Unit σ where
  batchSize := width
  vocabulary
  encode _ := return ⟨[], []⟩
  initialState _ := return state
  step inputs := return ⟨inputs.map fun input => (row input).state,
    inputs.map fun input => (row input).scores, inputs.map fun input => (row input).ids⟩

theorem rowWise_ofRows (vocabulary : Vocabulary) (width : Nat) (state : σ)
    (row : StepInput σ → Row σ) : (ofRows vocabulary width state row).RowWise row := by
  intro inputs world output world' hstep i input answer hinput answered
  obtain rfl := Except.ok.inj (congrArg Prod.fst hstep)
  rw [StepOutput.row?_eq_some_iff] at answered
  simp only [List.getElem?_map, hinput, Option.map_some, Option.some.injEq] at answered
  obtain ⟨hstate, hscores, hids⟩ := answered
  obtain ⟨state, scores, ids⟩ := answer
  dsimp only at hstate hscores hids
  rw [← hstate, ← hscores, ← hids]

theorem listsOnce_ofRows (vocabulary : Vocabulary) (width : Nat) (state : σ)
    {row : StepInput σ → Row σ} (h : ∀ input, (row input).ListsOnce) :
    (ofRows vocabulary width state row).ListsOnce width := by
  intro inputs world output world' hstep _ i answer answered
  obtain ⟨hstate, -, -⟩ := StepOutput.row?_eq_some_iff.mp answered
  have hinput : ∃ input, inputs[i]? = some input := by
    obtain rfl := Except.ok.inj (congrArg Prod.fst hstep)
    rw [List.getElem?_map] at hstate
    obtain ⟨input, hinput, -⟩ := Option.map_eq_some_iff.mp hstate
    exact ⟨input, hinput⟩
  obtain ⟨input, hinput⟩ := hinput
  rw [rowWise_ofRows vocabulary width state row inputs world output world' hstep i input answer
    hinput answered]
  exact h input

end Oracle
end ProgramSearch
