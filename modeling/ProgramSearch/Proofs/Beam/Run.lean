import ProgramSearch.Proofs.Beam.Round
import ProgramSearch.Proofs.Symbols

/-!
# Runs of a beam search

The beams that a search passes through, what holds of all of them whatever the oracle answers, and
what fails when a search fails.
-/
namespace ProgramSearch

variable {ω σ : Type}

/-- What holds of a candidate after a number of rounds: it has grown from a new one by known
symbols, one in each round while it was rolling, and its score is not above zero. -/
structure Candidate.Grown (v : Vocabulary) (done : Nat) (c : Candidate σ) : Prop where
  formed : c.Formed v.control
  known : ∀ s ∈ c.symbols, s < v.size
  length_le : c.symbols.length ≤ done
  length_eq : c.rolling = true → c.symbols.length = done
  not_above : ¬ 0 < c.logProb

namespace BeamOutcome

theorem mem_finished {o : BeamOutcome σ} {slot : Nat} {c : Candidate σ} :
    (slot, c) ∈ o.finished ↔ o.candidates[slot]? = some c ∧ c.isFinished = true := by
  simp only [finished, List.mem_mergeSort, List.mem_filterMap, Option.ite_none_right_eq_some,
    Option.some.injEq, Prod.mk.injEq, Prod.exists, List.mk_mem_zipIdx_iff_getElem?]
  constructor
  · rintro ⟨c, slot, hslot, finished, rfl, rfl⟩
    exact ⟨hslot, finished⟩
  · rintro ⟨hslot, finished⟩
    exact ⟨c, slot, hslot, finished, rfl, rfl⟩

/-- Sorting the finished candidates neither adds nor drops one. -/
theorem finished_perm (o : BeamOutcome σ) :
    (o.finished.map Prod.snd).Perm (o.candidates.filter (·.isFinished)) := by
  refine ((List.mergeSort_perm _ _).map Prod.snd).trans (.of_eq ?_)
  rw [List.map_filterMap]
  conv_rhs => rw [← List.zipIdx_map_fst 0 o.candidates, List.filter_map]
  rw [← List.filterMap_eq_filter, List.map_filterMap]
  refine List.filterMap_congr fun slot _ => ?_
  simp only [Function.comp, Option.guard]
  split <;> rfl

theorem finished_sublist (o : BeamOutcome σ) :
    (o.candidates.filter (·.isFinished)).Sublist (o.candidates.filter (·.isLive)) := by
  have hfilter : o.candidates.filter (·.isFinished) =
      (o.candidates.filter (·.isLive)).filter (!·.rolling) :=
    List.filter_filter.symm
  rw [hfilter]
  exact List.filter_sublist

end BeamOutcome

namespace Beam

theorem Descends.grown_succ {v : Vocabulary} {width row col done : Nat} {output : StepOutput σ}
    {c d : Candidate σ} (h : Descends v.control output row col c d)
    (haccepted : output.breach? width width v.size = none) (hc : c.Grown v done) :
    d.Grown v (done + 1) := by
  have hlength := hc.length_le
  cases h with
  | @grown answer score symbol rolls _ answered scored listed =>
    have haccepted := (StepOutput.breach?_eq_none_iff.mp haccepted).2 row answer answered
    have hsymbols := hc.formed.symbols_step answer.state score symbol
    have hrolls := hc.length_eq rolls
    refine ⟨hc.formed.step answer.state score symbol, ?_, ?_, ?_, ?_⟩
    · intro s hs
      rw [hsymbols, List.mem_append, List.mem_singleton] at hs
      rcases hs with hs | rfl
      · exact hc.known s hs
      · exact haccepted.known s (List.mem_of_getElem? listed)
    · rw [hsymbols, List.length_append, List.length_singleton]
      omega
    · intro _
      rw [hsymbols, List.length_append, List.length_singleton, hrolls]
    · rw [Candidate.step_logProb]
      exact Single.not_zero_lt_add hc.not_above
        (haccepted.not_above score (List.mem_of_getElem? scored))
  | kept stopped _ =>
    exact ⟨hc.formed, hc.known, Nat.le_succ_of_le hlength, fun rolls => by simp [stopped] at rolls,
      Single.not_zero_lt_add hc.not_above (by decide)⟩
  | dropped stopped _ =>
    exact ⟨hc.formed, hc.known, Nat.le_succ_of_le hlength, fun rolls => by simp [stopped] at rolls,
      Single.not_zero_lt_add hc.not_above not_zero_lt_negInfinity⟩

/-- A beam of the right width whose candidates have all grown. -/
structure Intact (v : Vocabulary) (width done : Nat) (beam : List (Candidate σ)) : Prop where
  length : beam.length = width
  grown : ∀ c ∈ beam, c.Grown v done

namespace Intact

variable {v : Vocabulary} {width done : Nat} {beam next : List (Candidate σ)}
  {output : StepOutput σ}

theorem start (v : Vocabulary) (width : Nat) (state : σ) :
    Intact v width 0 (Beam.start v.control width state) := by
  refine ⟨by simp [Beam.start], fun c hc => ?_⟩
  obtain ⟨slot, -, rfl⟩ := List.mem_map.mp hc
  refine ⟨Candidate.formed_start .., by simp [Candidate.symbols, Candidate.start,
    SymbolTree.ofRoot], Nat.le_refl 0, fun _ => rfl, ?_⟩
  simp only [Candidate.start]
  split
  · decide
  · exact not_zero_lt_negInfinity

theorem placed (h : Intact v width done beam) : ∀ c ∈ beam, c.isPlaced = true :=
  fun c hc => (h.grown c hc).formed.isPlaced

theorem not_above (h : Intact v width done beam) : ∀ c ∈ beam, ¬ 0 < c.logProb :=
  fun c hc => (h.grown c hc).not_above

theorem advance (h : Intact v width done beam) (hnext : advance width v beam output = .ok next) :
    Intact v width (done + 1) next := by
  refine ⟨length_advance hnext h.length, fun d hd => ?_⟩
  obtain ⟨haccepted, -⟩ := advance_ok hnext
  obtain ⟨places, -, hdescends⟩ := descends_of_advance hnext
  obtain ⟨i, hi⟩ := List.mem_iff_getElem?.mp hd
  obtain ⟨row, col, c, -, hc, -, hdescends⟩ := hdescends i d hi
  exact hdescends.grown_succ haccepted (h.grown c (List.mem_of_getElem? hc))

/-- An intact beam only fails to advance if the answer is a breach of contract. -/
theorem exists_breach (h : Intact v width done beam) {failure : Failure}
    (hfail : Beam.advance width v beam output = .error failure) :
    ∃ breach, output.breach? width width v.size = some breach ∧ failure = .contract breach := by
  cases hb : output.breach? width width v.size with
  | some breach =>
    rw [advance_breach hb] at hfail
    exact ⟨breach, rfl, (Except.error.inj hfail).symm⟩
  | none =>
    obtain ⟨next, hnext⟩ := exists_advance h.length h.placed hb
    rw [hnext] at hfail
    contradiction

end Intact

/-! ### Rounds -/

section

variable {oracle : Oracle ω σ} {width : Nat} {beam next : List (Candidate σ)} {world world' : ω}

theorem round_ok (h : (round oracle width beam).ask world = (.ok next, world')) :
    ∃ output, (oracle.step (inputs beam)).ask world = (.ok output, world') ∧
      advance width oracle.vocabulary beam output = .ok next := by
  obtain ⟨output, mid, hstep, h⟩ := Consult.ask_bind_ok h
  rw [Consult.ask_liftM] at h
  obtain ⟨hnext, rfl⟩ := Prod.mk.inj h
  exact ⟨output, hstep, hnext⟩

/-- A round fails because the oracle does, or because its answer breaks the contract. -/
theorem round_error {done : Nat} (hbeam : Intact oracle.vocabulary width done beam)
    {failure : Failure} (h : (round oracle width beam).ask world = (.error failure, world')) :
    (oracle.step (inputs beam)).ask world = (.error failure, world') ∨
      ∃ output breach, (oracle.step (inputs beam)).ask world = (.ok output, world') ∧
        output.breach? width width oracle.vocabulary.size = some breach ∧
        failure = .contract breach := by
  match hstep : (oracle.step (inputs beam)).ask world with
  | (.error failure', mid) =>
    rw [round, Consult.ask_bind_of_error _ hstep] at h
    cases h
    exact .inl rfl
  | (.ok output, mid) =>
    rw [round, Consult.ask_bind_of_ok _ hstep, Consult.ask_liftM] at h
    obtain ⟨hfail, rfl⟩ := Prod.mk.inj h
    obtain ⟨breach, hb, rfl⟩ := hbeam.exists_breach hfail
    exact .inr ⟨output, breach, rfl, hb, rfl⟩

end

/-! ### Runs -/

/-- The beams that a search can pass through, with the number of rounds before each and the world
of the oracle after them. -/
inductive Reached (oracle : Oracle ω σ) (settings : BeamSettings) (state : σ) (world : ω) :
    Nat → List (Candidate σ) → ω → Prop
  | start : Reached oracle settings state world 0
      (Beam.start oracle.vocabulary.control settings.width state) world
  | round {done : Nat} {beam next : List (Candidate σ)} {mid world' : ω}
      (before : Reached oracle settings state world done beam mid)
      (more : done < settings.maxRounds) (rolls : done = 0 ∨ isRolling beam = true)
      (answered : (Beam.round oracle settings.width beam).ask mid = (.ok next, world')) :
      Reached oracle settings state world (done + 1) next world'

section

variable {oracle : Oracle ω σ} {settings : BeamSettings} {state : σ} {world mid world' : ω}
  {done : Nat} {beam : List (Candidate σ)}

/-- What holds of the first beam and is kept by each round holds of all beams. -/
theorem Reached.invariant {P : Nat → List (Candidate σ) → Prop}
    (first : P 0 (Beam.start oracle.vocabulary.control settings.width state))
    (kept : ∀ {done beam mid output next world'},
      Reached oracle settings state world done beam mid → P done beam →
      (oracle.step (inputs beam)).ask mid = (.ok output, world') →
      advance settings.width oracle.vocabulary beam output = .ok next → P (done + 1) next)
    (h : Reached oracle settings state world done beam mid) : P done beam := by
  induction h with
  | start => exact first
  | round before _ _ answered ih =>
    obtain ⟨output, hstep, hnext⟩ := round_ok answered
    exact kept before ih hstep hnext

theorem Reached.intact (h : Reached oracle settings state world done beam mid) :
    Intact oracle.vocabulary settings.width done beam :=
  h.invariant (Intact.start ..) fun _ hbeam _ hnext => hbeam.advance hnext

/-- The result of a run comes from the beams that it has reached: it is one of them, or a round has
failed at one of them. -/
def Traced (oracle : Oracle ω σ) (settings : BeamSettings) (state : σ) (world : ω) :
    Except Failure (BeamOutcome σ) × ω → Prop
  | (.ok outcome, world') =>
    Reached oracle settings state world outcome.rounds outcome.candidates world'
  | (.error failure, world') => ∃ done beam mid,
    Reached oracle settings state world done beam mid ∧
      (round oracle settings.width beam).ask mid = (.error failure, world')

theorem traced_rounds {left : Nat} (before : Reached oracle settings state world done beam mid)
    (room : done + left ≤ settings.maxRounds) (rolls : done = 0 ∨ isRolling beam = true) :
    Traced oracle settings state world
      ((rounds oracle settings.width left done beam).ask mid) := by
  induction left generalizing done beam mid with
  | zero => exact before
  | succ left ih =>
    match hround : (round oracle settings.width beam).ask mid with
    | (.error failure, mid') =>
      rw [rounds, Consult.ask_bind_of_error _ hround]
      exact ⟨done, beam, mid, before, hround⟩
    | (.ok next, mid') =>
      have after := before.round (by omega) rolls hround
      rw [rounds, Consult.ask_bind_of_ok _ hround]
      split
      · next hrolls => exact ih after (by omega) (.inr hrolls)
      · exact after

theorem traced_run (oracle : Oracle ω σ) (settings : BeamSettings) (state : σ) (world : ω) :
    Traced oracle settings state world ((run oracle settings state).ask world) :=
  traced_rounds .start (Nat.le_of_eq (Nat.zero_add _)) (.inl rfl)

/-- A run ends with a beam that it has reached. -/
theorem reached_of_run {outcome : BeamOutcome σ}
    (h : (run oracle settings state).ask world = (.ok outcome, world')) :
    Reached oracle settings state world outcome.rounds outcome.candidates world' := by
  have htraced := traced_run oracle settings state world
  rwa [h] at htraced

/-- A run that fails has reached a beam at which a round fails. -/
theorem reached_of_run_error {failure : Failure}
    (h : (run oracle settings state).ask world = (.error failure, world')) :
    ∃ done beam mid, Reached oracle settings state world done beam mid ∧
      (round oracle settings.width beam).ask mid = (.error failure, world') := by
  have htraced := traced_run oracle settings state world
  rwa [h] at htraced

/-- From a beam that is not the last, a run goes on as from the first one. -/
theorem Reached.rounds_eq (h : Reached oracle settings state world done beam mid) {left : Nat}
    (rolls : done = 0 ∨ isRolling beam = true) :
    (rounds oracle settings.width (done + left) 0
      (Beam.start oracle.vocabulary.control settings.width state)).ask world =
      (rounds oracle settings.width left done beam).ask mid := by
  induction h generalizing left with
  | start => rw [Nat.zero_add]
  | @round done beam next mid world' before _ rolls' answered ih =>
    rw [Nat.add_assoc, ih rolls', Nat.add_comm 1, rounds, Consult.ask_bind_of_ok _ answered,
      if_pos (by simpa using rolls)]

/-- Each beam on the way is the outcome of the run that is capped there. -/
theorem Reached.run_capped (h : Reached oracle settings state world done beam mid) :
    (run oracle { settings with maxRounds := done } state).ask world =
      (.ok ⟨beam, done⟩, mid) := by
  cases h with
  | start => rfl
  | @round done beam next mid world' before _ rolls answered =>
    rw [run, before.rounds_eq rolls, rounds, Consult.ask_bind_of_ok _ answered]
    split <;> rfl

/-- A search passes through one beam after each number of rounds. -/
theorem Reached.unique {mid' : ω} {beam' : List (Candidate σ)}
    (h : Reached oracle settings state world done beam mid)
    (h' : Reached oracle settings state world done beam' mid') : beam = beam' := by
  have heq := h.run_capped.symm.trans h'.run_capped
  exact congrArg BeamOutcome.candidates (Except.ok.inj (congrArg Prod.fst heq))

end

/-! ### A small search -/

/-- Offers "open" alone at first, and then a stop or "close". -/
def sampleRow (input : StepInput Nat) : Row Nat :=
  if input.state = 0 then ⟨1, [-0.5, negInfinity], [5, 1]⟩
  else ⟨input.state + 1, [-0.25, -0.5], [1, 6]⟩

def sampleOracle : Oracle Unit Nat := .ofRows .small 2 0 sampleRow

def sampleParent : Candidate Nat :=
  (Candidate.start Vocabulary.small.control 0 0).step Vocabulary.small.control 1 (-0.5) 5

/-- The beams before each round. -/
def sampleBeam : Nat → List (Candidate Nat)
  | 0 => Beam.start Vocabulary.small.control 2 0
  | 1 => [sampleParent,
      (Candidate.start Vocabulary.small.control 0 0).step Vocabulary.small.control 1 negInfinity 1]
  | _ => [sampleParent.step Vocabulary.small.control 2 (-0.25) 1,
      sampleParent.step Vocabulary.small.control 2 (-0.5) 6]

theorem rowWise_sampleOracle : sampleOracle.RowWise sampleRow :=
  Oracle.rowWise_ofRows .small 2 0 sampleRow

theorem listsOnce_sampleOracle : sampleOracle.ListsOnce 2 := by
  refine Oracle.listsOnce_ofRows _ _ _ fun input => ?_
  rw [sampleRow]
  split
  · exact (by decide : [5].Nodup)
  · exact (by decide : [1, 6].Nodup)

/-- The answers to both steps. -/
def sampleOutput (n : Nat) : StepOutput Nat :=
  ⟨(inputs (sampleBeam n)).map fun input => (sampleRow input).state,
    (inputs (sampleBeam n)).map fun input => (sampleRow input).scores,
    (inputs (sampleBeam n)).map fun input => (sampleRow input).ids⟩

/-- The extensions in both rounds, which are in order already. -/
def sampleExtensions : Nat → List Extension
  | 0 => [⟨0 + -0.5, 0, 0⟩, ⟨0 + negInfinity, 0, 1⟩, ⟨negInfinity + -0.5, 1, 0⟩,
      ⟨negInfinity + negInfinity, 1, 1⟩]
  | _ => [⟨0 + -0.5 + -0.25, 0, 0⟩, ⟨0 + -0.5 + -0.5, 0, 1⟩, ⟨0 + negInfinity + 0, 1, 0⟩,
      ⟨0 + negInfinity + negInfinity, 1, 1⟩]

theorem extensions_sample_zero :
    extensions 2 (sampleBeam 0) (sampleOutput 0) = .ok (sampleExtensions 0) := rfl

theorem extensions_sample_one :
    extensions 2 (sampleBeam 1) (sampleOutput 1) = .ok (sampleExtensions 1) := rfl

theorem advance_sample_zero :
    advance 2 .small (sampleBeam 0) (sampleOutput 0) = .ok (sampleBeam 1) :=
  (advance_of_sorted (by decide) extensions_sample_zero (by decide)).trans rfl

theorem advance_sample_one :
    advance 2 .small (sampleBeam 1) (sampleOutput 1) = .ok (sampleBeam 2) :=
  (advance_of_sorted (by decide) extensions_sample_one (by decide)).trans rfl

theorem reached_sampleBeam_one : Reached sampleOracle ⟨2, 5⟩ 0 () 1 (sampleBeam 1) () :=
  .round .start (by decide) (.inl rfl) (congrArg (·, ()) advance_sample_zero)

theorem reached_sampleBeam_two : Reached sampleOracle ⟨2, 5⟩ 0 () 2 (sampleBeam 2) () :=
  .round reached_sampleBeam_one (by decide) (.inr rfl) (congrArg (·, ()) advance_sample_one)

end Beam
end ProgramSearch
