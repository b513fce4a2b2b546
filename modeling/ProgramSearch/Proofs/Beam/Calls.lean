import ProgramSearch.Proofs.Beam.Run

/-!
# The calls of a search

An oracle can keep a record of the steps that it is asked for. This changes nothing else about a
search, and a search that succeeds has asked for one step in each round.
-/
namespace ProgramSearch

variable {ω σ : Type}

namespace Consult

variable {α ρ : Type}

/-- The question in a world with a record, to which some entries are added whatever the answer. -/
def noting (question : Consult ω α) (entries : List ρ) : Consult (ω × List ρ) α :=
  ExceptT.mk fun world => ((question.ask world.1).1, (question.ask world.1).2, world.2 ++ entries)

theorem ask_noting (question : Consult ω α) (entries : List ρ) (world : ω) (before : List ρ) :
    (question.noting entries).ask (world, before) =
      ((question.ask world).1, (question.ask world).2, before ++ entries) := rfl

end Consult

/-- The oracle with a record of the inputs of all steps that it is asked for, in order. -/
def Oracle.recorded (oracle : Oracle ω σ) : Oracle (ω × List (List (StepInput σ))) σ where
  batchSize := oracle.batchSize
  vocabulary := oracle.vocabulary
  encode evidence := (oracle.encode evidence).noting []
  initialState latent := (oracle.initialState latent).noting []
  step inputs := (oracle.step inputs).noting [inputs]

namespace Beam

/-- A round asks for one step. -/
theorem round_recorded (oracle : Oracle ω σ) (width : Nat) (beam : List (Candidate σ)) (world : ω)
    (before : List (List (StepInput σ))) :
    (round oracle.recorded width beam).ask (world, before) =
      (((round oracle width beam).ask world).1, ((round oracle width beam).ask world).2,
        before ++ [inputs beam]) := by
  have hstep := Consult.ask_noting (oracle.step (inputs beam)) [inputs beam] world before
  match hanswer : (oracle.step (inputs beam)).ask world with
  | (.error failure, world') =>
    rw [hanswer] at hstep
    rw [round, round, Consult.ask_bind_of_error _ hanswer]
    exact Consult.ask_bind_of_error _ hstep
  | (.ok output, world') =>
    rw [hanswer] at hstep
    rw [round, round, Consult.ask_bind_of_ok _ hanswer]
    exact Consult.ask_bind_of_ok _ hstep

theorem rounds_recorded (oracle : Oracle ω σ) (width left done : Nat) (beam : List (Candidate σ))
    (world : ω) (before : List (List (StepInput σ))) :
    ∃ calls,
      (rounds oracle.recorded width left done beam).ask (world, before) =
        (((rounds oracle width left done beam).ask world).1,
          ((rounds oracle width left done beam).ask world).2, before ++ calls) ∧
      ∀ outcome, ((rounds oracle width left done beam).ask world).1 = .ok outcome →
        outcome.rounds = done + calls.length := by
  induction left generalizing done beam world before with
  | zero =>
    refine ⟨[], by rw [List.append_nil]; rfl, fun outcome h => ?_⟩
    obtain rfl : ⟨beam, done⟩ = outcome := Except.ok.inj h
    rfl
  | succ left ih =>
    have hrecorded := round_recorded oracle width beam world before
    match hround : (round oracle width beam).ask world with
    | (.error failure, world') =>
      rw [hround] at hrecorded
      rw [rounds, rounds, Consult.ask_bind_of_error _ hround,
        Consult.ask_bind_of_error _ hrecorded]
      exact ⟨[inputs beam], rfl, fun outcome h => by contradiction⟩
    | (.ok next, world') =>
      rw [hround] at hrecorded
      rw [rounds, rounds, Consult.ask_bind_of_ok _ hround, Consult.ask_bind_of_ok _ hrecorded]
      split
      · obtain ⟨calls, hcalls, hlength⟩ := ih (done + 1) next world' (before ++ [inputs beam])
        refine ⟨inputs beam :: calls, by rw [hcalls, List.append_assoc]; rfl, fun outcome h => ?_⟩
        rw [hlength outcome h, List.length_cons]
        omega
      · refine ⟨[inputs beam], rfl, fun outcome h => ?_⟩
        obtain rfl : ⟨next, done + 1⟩ = outcome := Except.ok.inj h
        rfl

/-- A search that succeeds has asked for one step in each round. -/
theorem run_recorded {oracle : Oracle ω σ} {settings : BeamSettings} {state : σ}
    {world world' : ω} {outcome : BeamOutcome σ}
    (h : (run oracle settings state).ask world = (.ok outcome, world')) :
    ∃ calls, (run oracle.recorded settings state).ask (world, []) =
        (.ok outcome, world', calls) ∧ calls.length = outcome.rounds := by
  obtain ⟨calls, hcalls, hlength⟩ := rounds_recorded oracle settings.width settings.maxRounds 0
    (Beam.start oracle.vocabulary.control settings.width state) world []
  rw [← run, h] at hcalls hlength
  exact ⟨calls, hcalls, by rw [hlength outcome rfl, Nat.zero_add]⟩

end Beam
end ProgramSearch
