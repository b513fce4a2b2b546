import ProgramSearch.Proofs.Beam.Calls
import ProgramSearch.Proofs.Beam.Replay

/-!
# Greedy decoding

A beam of one candidate has nothing to choose from: every round takes the first continuation, until
the candidate stops or its score is no longer finite.
-/
namespace ProgramSearch

variable {ω σ : Type}

namespace Beam

/-- The candidate with the first continuation of an answer to it alone. -/
def takeFirst (k : Control) (c : Candidate σ) : StepOutput σ → Except Failure (Candidate σ)
  | ⟨[state], [[score]], [[symbol]]⟩ => .ok (c.step k state score symbol)
  | _ => .error .outOfRange

/-- Decodes a candidate by itself. As long as it rolls and is live, and steps are left, the oracle
is asked for a step of it, and the first continuation is taken. The steps are counted from `done`.
-/
def greedy (oracle : Oracle ω σ) : Nat → Nat → Candidate σ → Consult ω (Candidate σ × Nat)
  | 0, done, c => return (c, done)
  | left + 1, done, c =>
    if c.rolling && c.isLive then do
      let output ← oracle.step [c.input]
      liftM (output.validate 1 1 oracle.vocabulary.size)
      let next ← liftM (takeFirst oracle.vocabulary.control c output)
      greedy oracle left (done + 1) next
    else return (c, done)

/-- The outcome of a search whose beam has one candidate. -/
def alone (result : Candidate σ × Nat) : BeamOutcome σ := ⟨[result.1], result.2⟩

section

variable {v : Vocabulary} {c : Candidate σ}

/-- An accepted answer to one row has a single continuation. -/
theorem exists_eq_of_accepted {output : StepOutput σ} (h : output.breach? 1 1 v.size = none) :
    ∃ state score symbol, output = ⟨[state], [[score]], [[symbol]]⟩ := by
  obtain ⟨⟨hstates, hscores, hids⟩, hrows⟩ := StepOutput.breach?_eq_none_iff.mp h
  obtain ⟨states, scores, ids⟩ := output
  obtain ⟨state, rfl⟩ := List.length_eq_one_iff.mp hstates
  obtain ⟨row, rfl⟩ := List.length_eq_one_iff.mp hscores
  obtain ⟨listed, rfl⟩ := List.length_eq_one_iff.mp hids
  have haccepted := hrows 0 ⟨state, row, listed⟩ rfl
  obtain ⟨score, rfl⟩ := List.length_eq_one_iff.mp haccepted.scores_length
  obtain ⟨symbol, rfl⟩ := List.length_eq_one_iff.mp haccepted.ids_length
  exact ⟨state, score, symbol, rfl⟩

theorem advance_one (rolls : c.rolling = true) (placed : c.isPlaced = true)
    (output : StepOutput σ) :
    advance 1 v [c] output =
      (output.validate 1 1 v.size >>= fun _ => takeFirst v.control c output >>= fun next =>
        return [next]) := by
  cases hbreach : output.breach? 1 1 v.size with
  | some breach =>
    rw [advance_breach hbreach, StepOutput.validate, hbreach]
    rfl
  | none =>
    obtain ⟨state, score, symbol, rfl⟩ := exists_eq_of_accepted hbreach
    have hall : extensions 1 [c] ⟨[state], [[score]], [[symbol]]⟩ =
        .ok [⟨c.logProb + score, 0, 0⟩] := by
      simp [extensions, stepScore, lookup, rolls, ok_bind]
    have hextend : extend v.control [c] ⟨[state], [[score]], [[symbol]]⟩
        ⟨c.logProb + score, 0, 0⟩ = .ok (c.step v.control state score symbol) := by
      simp [extend, lookup, rolls, placed, ok_bind, Candidate.step]
    rw [advance_of_sorted hbreach hall (List.pairwise_singleton ..), StepOutput.validate, hbreach]
    simp [takeFirst, hextend, ok_bind]

theorem exists_of_takeFirst {k : Control} {output : StepOutput σ} {next : Candidate σ}
    (h : takeFirst k c output = .ok next) :
    ∃ state score symbol, next = c.step k state score symbol := by
  rw [takeFirst.eq_def] at h
  split at h
  · exact ⟨_, _, _, (Except.ok.inj h).symm⟩
  · contradiction

end

/-- Greedy decoding ends with a candidate that has stopped or is dead. -/
theorem greedy_of_ended (oracle : Oracle ω σ) (left done : Nat) {c : Candidate σ}
    (ended : (c.rolling && c.isLive) = false) : greedy oracle left done c = pure (c, done) := by
  cases left with
  | zero => rfl
  | succ left => rw [greedy, if_neg (by simp [ended])]

theorem rounds_one (oracle : Oracle ω σ) (left done : Nat) {c : Candidate σ}
    (rolls : c.rolling = true) (live : c.isLive = true)
    (formed : c.Formed oracle.vocabulary.control) :
    rounds oracle 1 left done [c] = alone <$> greedy oracle left done c := by
  induction left generalizing done c with
  | zero => simp [rounds, greedy, alone]
  | succ left ih =>
    rw [rounds, greedy, if_pos (by rw [rolls, live]; rfl), round]
    simp only [advance_one rolls formed.isPlaced, liftM_bind, bind_assoc, map_bind]
    -- Both loops have asked for the same step, so they are compared after each answer that passes.
    refine bind_congr fun output => bind_congr fun _ => ?_
    cases htake : takeFirst oracle.vocabulary.control c output with
    | error failure => rfl
    | ok next =>
      obtain ⟨state, score, symbol, hnext⟩ := exists_of_takeFirst htake
      have hformed : next.Formed oracle.vocabulary.control :=
        hnext ▸ formed.step state score symbol
      change (if isRolling [next] = true then rounds oracle 1 left (done + 1) [next]
        else pure ⟨[next], done + 1⟩) = alone <$> greedy oracle left (done + 1) next
      have hrolling : isRolling [next] = (next.rolling && next.isLive) := by
        simp [isRolling, Bool.and_comm]
      rw [hrolling]
      split
      · next hgoes =>
        obtain ⟨hrolls, hlive⟩ := Bool.and_eq_true_iff.mp hgoes
        exact ih (done + 1) hrolls hlive hformed
      · next hended =>
        rw [greedy_of_ended oracle left (done + 1) (Bool.eq_false_iff.mpr hended), map_pure]
        rfl

/-- A search with one candidate is greedy decoding: in every world it ends with the same candidate
after the same number of rounds, or with the same failure, and it asks the oracle for the same steps
in the same order. -/
theorem run_one_eq_greedy (oracle : Oracle ω σ) (maxRounds : Nat) (state : σ) :
    run oracle ⟨1, maxRounds⟩ state =
      alone <$> greedy oracle maxRounds 0 (Candidate.start oracle.vocabulary.control state 0) ∧
    run oracle.recorded ⟨1, maxRounds⟩ state =
      alone <$> greedy oracle.recorded maxRounds 0
        (Candidate.start oracle.vocabulary.control state 0) := by
  have hrun {ω : Type} (oracle : Oracle ω σ) : run oracle ⟨1, maxRounds⟩ state =
      alone <$> greedy oracle maxRounds 0 (Candidate.start oracle.vocabulary.control state 0) :=
    rounds_one oracle maxRounds 0 rfl (by decide : Float32.isFinite 0 = true)
      (Candidate.formed_start state 0)
  exact ⟨hrun oracle, hrun oracle.recorded⟩

end Beam
end ProgramSearch
