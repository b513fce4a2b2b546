import ProgramSearch.Proofs.Beam.Distinct

/-!
# Candidates decoded alone

With an oracle that answers each row from its own input, a candidate does not depend on its
neighbours in the beam: every live one has been explored from the start by symbols that were
offered to it, and can be replayed by itself.
-/
namespace ProgramSearch

variable {ω σ : Type}

/-- What the oracle is asked for a candidate. -/
def Candidate.input (c : Candidate σ) : StepInput σ := ⟨c.lastSymbol, c.lastEdge, c.state⟩

namespace Beam

/-- The sequences of symbols that a row function offers one after the other with finite scores and
finite sums, up to a stop, and the candidates they lead to. -/
inductive Explored (k : Control) (row : StepInput σ → Row σ) (state : σ) :
    List Nat → Candidate σ → Prop
  | start : Explored k row state [] (Candidate.start k state 0)
  | snoc {symbols : List Nat} {c : Candidate σ} {symbol : Nat} {score : Float32}
      (before : Explored k row state symbols c) (rolls : c.rolling = true)
      (offered : (symbol, score) ∈ (row c.input).offers)
      (finite : (c.logProb + score).isFinite = true) :
      Explored k row state (symbols ++ [symbol])
        (c.step k (row c.input).state score symbol)

namespace Explored

variable {k : Control} {row : StepInput σ → Row σ} {state : σ} {symbols : List Nat}
  {c : Candidate σ}

theorem isLive (h : Explored k row state symbols c) : c.isLive = true := by
  cases h with
  | start => exact (by decide : Float32.isFinite 0 = true)
  | snoc _ _ _ finite => rwa [Candidate.isLive, Candidate.step_logProb]

theorem formed (h : Explored k row state symbols c) : c.Formed k := by
  induction h with
  | start => exact Candidate.formed_start ..
  | snoc _ _ _ _ ih => exact ih.step ..

theorem symbols_eq (h : Explored k row state symbols c) : c.symbols = symbols := by
  induction h with
  | start => rfl
  | snoc before _ _ _ ih => rw [before.formed.symbols_step, ih]

theorem ne_minus_zero (h : Explored k row state symbols c) : c.logProb ≠ -0.0 := by
  induction h with
  | start => simp only [Candidate.start]; decide
  | snoc _ _ _ _ ih =>
    rw [Candidate.step_logProb]
    exact Single.add_ne_minus_zero ih _

/-- A stopped candidate goes on unchanged. -/
theorem add_zero (h : Explored k row state symbols c) :
    { c with logProb := c.logProb + 0 } = c := by
  rw [Single.add_zero h.ne_minus_zero]

end Explored

section

variable {oracle : Oracle ω σ} {row : StepInput σ → Row σ} {settings : BeamSettings} {state : σ}
  {world mid : ω} {done : Nat} {beam : List (Candidate σ)}

theorem answer_eq (rowWise : oracle.RowWise row) {output : StepOutput σ} {world' : ω}
    (hstep : (oracle.step (inputs beam)).ask world = (.ok output, world')) {i : Nat}
    {c : Candidate σ} (hc : beam[i]? = some c) {answer : Row σ}
    (answered : output.row? i = some answer) : answer = row c.input := by
  refine rowWise _ _ _ _ hstep i c.input answer ?_ answered
  rw [inputs, List.getElem?_map, hc]
  rfl

/-- What descends alive from an explored candidate is explored. -/
theorem Descends.explored (rowWise : oracle.RowWise row) {output : StepOutput σ} {world' : ω}
    (hstep : (oracle.step (inputs beam)).ask world = (.ok output, world')) {k : Control}
    {i col : Nat} {c d : Candidate σ} (hc : beam[i]? = some c) (formed : c.Formed k)
    (hexplored : Explored k row state c.symbols c) (hd : Descends k output i col c d)
    (live : d.isLive = true) : Explored k row state d.symbols d := by
  cases hrolls : c.rolling with
  | true =>
    obtain ⟨answer, score, symbol, answered, scored, listed, finite, rfl⟩ :=
      hd.eq_step_of_rolling hrolls live
    obtain rfl := answer_eq rowWise hstep hc answered
    rw [Candidate.isLive, Candidate.step_logProb] at live
    rw [formed.symbols_step]
    exact hexplored.snoc hrolls (Row.mem_offers listed scored finite) live
  | false =>
    cases hd with
    | grown rolls => simp [hrolls] at rolls
    | kept => rwa [hexplored.add_zero]
    | dropped => simp [Candidate.isLive, not_isFinite_add_negInfinity] at live

theorem Reached.explored (rowWise : oracle.RowWise row)
    (h : Reached oracle settings state world done beam mid) :
    ∀ c ∈ beam, c.isLive = true → Explored oracle.vocabulary.control row state c.symbols c := by
  refine h.invariant (P := fun _ beam => ∀ c ∈ beam, c.isLive = true →
    Explored oracle.vocabulary.control row state c.symbols c) ?_ ?_
  · intro c hc live
    obtain ⟨i, hi⟩ := List.mem_iff_getElem?.mp hc
    obtain ⟨-, rfl⟩ := start_of_isLive hi live
    exact .start
  · intro done beam mid output next world' before hbeam hstep hnext d hd live
    obtain ⟨places, -, hdescends⟩ := descends_of_advance hnext
    obtain ⟨i, hi⟩ := List.mem_iff_getElem?.mp hd
    obtain ⟨row', col, c, -, hc, -, hdescends⟩ := hdescends i d hi
    have hmem := List.mem_of_getElem? hc
    exact hdescends.explored rowWise hstep hc (before.intact.grown c hmem).formed
      (hbeam c hmem (hdescends.isLive live)) live

end

/-! ### Replay -/

/-- A rolling candidate alone takes the symbol of a column. -/
def take? (k : Control) (row : StepInput σ → Row σ) (c : Candidate σ) (choice : Nat × Nat) :
    Option (Candidate σ) := do
  let answer := row c.input
  let score ← answer.scores[choice.2]?
  let symbol ← answer.ids[choice.2]?
  guard (c.rolling ∧ symbol = choice.1)
  return c.step k answer.state score symbol

/-- A candidate alone takes symbols one by one, each at a column. -/
def replay (k : Control) (row : StepInput σ → Row σ) (c : Candidate σ)
    (choices : List (Nat × Nat)) : Option (Candidate σ) :=
  choices.foldlM (take? k row) c

section

variable {k : Control} {row : StepInput σ → Row σ} {state : σ}

theorem take?_eq_some {c : Candidate σ} {col symbol : Nat} {score : Float32}
    (rolls : c.rolling = true) (scored : (row c.input).scores[col]? = some score)
    (listed : (row c.input).ids[col]? = some symbol) :
    take? k row c (symbol, col) = some (c.step k (row c.input).state score symbol) := by
  simp [take?, scored, listed, rolls]

theorem replay_concat {c d : Candidate σ} {choices : List (Nat × Nat)}
    (h : replay k row c choices = some d) (choice : Nat × Nat) :
    replay k row c (choices ++ [choice]) = take? k row d choice := by
  rw [replay, List.foldlM_append, ← replay, h]
  simp

theorem Explored.exists_replay {symbols : List Nat} {c : Candidate σ}
    (h : Explored k row state symbols c) : ∃ cols : List Nat, cols.length = symbols.length ∧
      replay k row (Candidate.start k state 0) (symbols.zip cols) = some c := by
  induction h with
  | start => exact ⟨[], rfl, rfl⟩
  | @snoc symbols c symbol score before rolls offered finite ih =>
    obtain ⟨cols, hlength, hreplay⟩ := ih
    obtain ⟨-, col, listed, scored⟩ := Row.exists_col_of_mem_offers offered
    refine ⟨cols ++ [col], by simp [hlength], ?_⟩
    rw [List.zip_append hlength.symm]
    exact (replay_concat hreplay _).trans (take?_eq_some rolls scored listed)

end

/-- Every live candidate is what its own symbols lead to when it is decoded alone. -/
theorem live_replayed {oracle : Oracle ω σ} {row : StepInput σ → Row σ}
    (rowWise : oracle.RowWise row) {settings : BeamSettings} {state : σ} {world mid : ω}
    {done : Nat} {beam : List (Candidate σ)}
    (reached : Reached oracle settings state world done beam mid) {c : Candidate σ}
    (hc : c ∈ beam) (live : c.isLive = true) :
    ∃ cols : List Nat, cols.length = c.symbols.length ∧
      replay oracle.vocabulary.control row (Candidate.start oracle.vocabulary.control state 0)
        (c.symbols.zip cols) = some c :=
  (reached.explored rowWise c hc live).exists_replay

example : replay Vocabulary.small.control sampleRow (Candidate.start Vocabulary.small.control 0 0)
    [(5, 0), (6, 1)] = some (sampleParent.step Vocabulary.small.control 2 (-0.5) 6) := rfl

theorem live_replayed_sample : sampleOracle.RowWise sampleRow ∧
    Reached sampleOracle ⟨2, 5⟩ 0 () 2 (sampleBeam 2) () ∧
    ∀ c, c = sampleParent.step Vocabulary.small.control 2 (-0.5) 6 → c ∈ sampleBeam 2 ∧
      c.isLive = true ∧ ∃ cols : List Nat, cols.length = c.symbols.length ∧
        replay Vocabulary.small.control sampleRow (Candidate.start Vocabulary.small.control 0 0)
          (c.symbols.zip cols) = some c := by
  refine ⟨rowWise_sampleOracle, reached_sampleBeam_two, fun c hc => ?_⟩
  have hmem : c ∈ sampleBeam 2 := hc ▸ List.mem_cons_of_mem _ List.mem_cons_self
  have live : c.isLive = true := hc ▸ rfl
  exact ⟨hmem, live, live_replayed rowWise_sampleOracle reached_sampleBeam_two hmem live⟩

end Beam
end ProgramSearch
