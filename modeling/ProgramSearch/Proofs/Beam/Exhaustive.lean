import ProgramSearch.Proofs.Beam.Replay

/-!
# Exhaustive search

As long as all extensions with finite scores fit into the beam, a search against a row-wise oracle
is exhaustive: its live candidates are the explored sequences that have stopped, and those that go
on with one symbol for each round.
-/
namespace ProgramSearch

variable {ω σ : Type}

namespace Beam

/-- In each of the first rounds the extensions with finite scores fit into the beam. -/
def Unsaturated (oracle : Oracle ω σ) (settings : BeamSettings) (state : σ) (world : ω)
    (rounds : Nat) : Prop :=
  ∀ done < rounds, ∀ beam mid, Reached oracle settings state world done beam mid →
    ∀ output world', (oracle.step (inputs beam)).ask mid = (.ok output, world') →
      HasRoom settings.width beam output

/-- The candidate has stopped in one of the rounds, or it has not and has a symbol for each. -/
def Current (done : Nat) (symbols : List Nat) (c : Candidate σ) : Prop :=
  c.rolling = false ∧ symbols.length ≤ done ∨ c.rolling = true ∧ symbols.length = done

theorem current_of_grown {v : Vocabulary} {done : Nat} {c : Candidate σ} (h : c.Grown v done) :
    Current done c.symbols c := by
  cases hrolls : c.rolling with
  | true => exact .inr ⟨hrolls, h.length_eq hrolls⟩
  | false => exact .inl ⟨hrolls, h.length_le⟩

section

variable {oracle : Oracle ω σ} {row : StepInput σ → Row σ} {settings : BeamSettings} {state : σ}
  {world mid : ω} {done : Nat} {beam : List (Candidate σ)}

/-- With room for all extensions, a round finds what was explored before the last symbol, and so
also what the last symbol leads to. -/
theorem mem_of_explored_of_room (rowWise : oracle.RowWise row) (hwidth : 0 < settings.width)
    (before : Reached oracle settings state world done beam mid) {output : StepOutput σ}
    {world' : ω} (hstep : (oracle.step (inputs beam)).ask mid = (.ok output, world'))
    {next : List (Candidate σ)}
    (hnext : advance settings.width oracle.vocabulary beam output = .ok next)
    (room : HasRoom settings.width beam output)
    (complete : ∀ symbols c, Explored oracle.vocabulary.control row state symbols c →
      Current done symbols c → c ∈ beam) {symbols : List Nat} {c : Candidate σ}
    (h : Explored oracle.vocabulary.control row state symbols c)
    (current : Current (done + 1) symbols c) : c ∈ next := by
  have hbeam := before.intact
  have hlive := h.isLive
  by_cases hkept : c.rolling = false ∧ symbols.length ≤ done
  · obtain ⟨i, hi⟩ := List.mem_iff_getElem?.mp (complete symbols c h (.inl hkept))
    have hd : Descends oracle.vocabulary.control output i 0 c { c with logProb := c.logProb + 0 } :=
      .kept hkept.1 rfl
    rw [h.add_zero] at hd
    exact mem_of_descends hnext hbeam.length hbeam.not_above room hi hwidth hd hlive
  · have hlength : symbols.length = done + 1 := by
      rcases current with ⟨stopped, hle⟩ | ⟨-, heq⟩
      · have hnot : ¬ symbols.length ≤ done := fun hle => hkept ⟨stopped, hle⟩
        omega
      · exact heq
    cases h with
    | start => contradiction
    | @snoc symbols c symbol score hbefore rolls offered finite =>
      rw [List.length_append, List.length_singleton] at hlength
      obtain ⟨i, hi⟩ := List.mem_iff_getElem?.mp
        (complete symbols c hbefore (.inr ⟨rolls, Nat.succ.inj hlength⟩))
      obtain ⟨hi_lt, -⟩ := List.getElem?_eq_some_iff.mp hi
      obtain ⟨answer, answered, haccepted⟩ :=
        StepOutput.exists_row (advance_ok hnext).1 (hbeam.length ▸ hi_lt)
      obtain rfl := answer_eq rowWise hstep hi answered
      obtain ⟨-, col, listed, scored⟩ := Row.exists_col_of_mem_offers offered
      have hcol : col < settings.width :=
        haccepted.ids_length ▸ (List.getElem?_eq_some_iff.mp listed).1
      have placed := hbeam.placed c (List.mem_of_getElem? hi)
      exact mem_of_descends hnext hbeam.length hbeam.not_above room hi hcol
        (.grown rolls placed answered scored listed) hlive

theorem Reached.mem_of_explored (rowWise : oracle.RowWise row) (hwidth : 0 < settings.width)
    (h : Reached oracle settings state world done beam mid)
    (room : Unsaturated oracle settings state world done) :
    ∀ symbols c, Explored oracle.vocabulary.control row state symbols c →
      Current done symbols c → c ∈ beam := by
  induction h with
  | start =>
    intro symbols c hexplored current
    have hempty : symbols = [] := by
      rcases current with ⟨-, hle⟩ | ⟨-, heq⟩
      · exact List.length_eq_zero_iff.mp (Nat.le_zero.mp hle)
      · exact List.length_eq_zero_iff.mp heq
    cases hexplored with
    | start => exact List.mem_map.mpr ⟨0, List.mem_range.mpr hwidth, rfl⟩
    | snoc => simp at hempty
  | @round done beam next mid world' before _ _ answered ih =>
    obtain ⟨output, hstep, hnext⟩ := round_ok answered
    have complete := ih fun done' hdone' => room done' (Nat.lt_succ_of_lt hdone')
    intro symbols c hexplored current
    exact mem_of_explored_of_room rowWise hwidth before hstep hnext
      (room done (Nat.lt_succ_self done) beam mid before output world' hstep) complete hexplored
      current

/-- The live candidates of an unsaturated search are, without repetition, the sequences of offered
symbols that have stopped within the rounds so far, and those that go on after all of them. -/
theorem unsaturated_exhaustive (rowWise : oracle.RowWise row)
    (once : oracle.ListsOnce settings.width) (hwidth : 0 < settings.width)
    (reached : Reached oracle settings state world done beam mid)
    (room : Unsaturated oracle settings state world done) :
    ((beam.filter (·.isLive)).map (·.symbols)).Nodup ∧
      ∀ symbols c, c ∈ beam ∧ c.isLive = true ∧ c.symbols = symbols ↔
        Explored oracle.vocabulary.control row state symbols c ∧
          (c.rolling = false ∧ symbols.length ≤ done ∨
            c.rolling = true ∧ symbols.length = done) := by
  have hbeam := reached.intact
  constructor
  · refine nodup_live fun i j c d hc hd livec lived hsymbols => ?_
    have hshape := (hbeam.grown c (List.mem_of_getElem? hc)).formed.shape_eq
      (hbeam.grown d (List.mem_of_getElem? hd)).formed hsymbols
    exact reached.treesDiffer once i j c d hc hd livec lived
      (congrArg (fun c : Candidate Unit => c.tree) hshape)
  · intro symbols c
    constructor
    · rintro ⟨hc, live, rfl⟩
      exact ⟨reached.explored rowWise c hc live, current_of_grown (hbeam.grown c hc)⟩
    · rintro ⟨hexplored, current⟩
      exact ⟨reached.mem_of_explored rowWise hwidth room symbols c hexplored current,
        hexplored.isLive, hexplored.symbols_eq⟩

end

theorem unsaturated_sample : Unsaturated sampleOracle ⟨2, 5⟩ 0 () 2 := by
  intro done hdone beam mid reached output world' hstep
  match done, hdone with
  | 0, _ =>
    obtain rfl := reached.unique .start
    obtain rfl := Except.ok.inj (congrArg Prod.fst hstep)
    exact hasRoom_of_extensions extensions_sample_zero (by decide)
  | 1, _ =>
    obtain rfl := reached.unique reached_sampleBeam_one
    obtain rfl := Except.ok.inj (congrArg Prod.fst hstep)
    exact hasRoom_of_extensions extensions_sample_one (by decide)

theorem unsaturated_exhaustive_sample : sampleOracle.RowWise sampleRow ∧
    sampleOracle.ListsOnce 2 ∧ 0 < 2 ∧ Reached sampleOracle ⟨2, 5⟩ 0 () 2 (sampleBeam 2) () ∧
    Unsaturated sampleOracle ⟨2, 5⟩ 0 () 2 ∧
    (((sampleBeam 2).filter (·.isLive)).map (·.symbols)).Nodup ∧
      ∀ symbols c, c ∈ sampleBeam 2 ∧ c.isLive = true ∧ c.symbols = symbols ↔
        Explored Vocabulary.small.control sampleRow 0 symbols c ∧
          (c.rolling = false ∧ symbols.length ≤ 2 ∨ c.rolling = true ∧ symbols.length = 2) :=
  ⟨rowWise_sampleOracle, listsOnce_sampleOracle, Nat.zero_lt_two, reached_sampleBeam_two,
    unsaturated_sample, unsaturated_exhaustive rowWise_sampleOracle listsOnce_sampleOracle
      Nat.zero_lt_two reached_sampleBeam_two unsaturated_sample⟩

end Beam
end ProgramSearch
