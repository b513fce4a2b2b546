import ProgramSearch.Proofs.Ast.Chains
import ProgramSearch.Proofs.Beam.Run

/-!
# Safety against the oracle

Whatever an oracle answers, decoding stays inside its lists and trees. It ends with a result, with
a failure of the oracle, or with the breach of contract that was found in an answer; and every
candidate that a search comes to hold, live or not, stands for a program.
-/
namespace ProgramSearch

variable {ω σ : Type}

theorem Candidate.symbol_mem_symbols {c : Candidate σ} {id : Nat} {node : Node} (hpos : 0 < id)
    (h : c.tree.node? id = some node) : node.symbol ∈ c.symbols := by
  obtain ⟨i, rfl⟩ : ∃ i, id = i + 1 := ⟨id - 1, by omega⟩
  refine List.mem_of_getElem? (i := i) ?_
  rw [← symbol_node?, h]
  rfl

/-- What has grown by known symbols stands for a program. -/
theorem Candidate.Grown.exists_ofTree {v : Vocabulary} {done : Nat} {c : Candidate σ}
    (h : c.Grown v done) : ∃ ast, Ast.ofTree v c.tree = .ok ast :=
  Ast.exists_ofTree h.formed.forward fun _ _ hpos hnode =>
    h.known _ (c.symbol_mem_symbols hpos hnode)

namespace Beam

/-- How decoding from a state may end: with a beam that was reached, with a failure of the oracle at
a step, or with the breach that was found in its answer to a step. -/
inductive RunEnd (oracle : Oracle ω σ) (settings : BeamSettings) (state : σ) (world : ω) :
    Except Failure (BeamOutcome σ) × ω → Prop
  | outcome {o : BeamOutcome σ} {world' : ω}
      (reached : Reached oracle settings state world o.rounds o.candidates world') :
      RunEnd oracle settings state world (.ok o, world')
  | stepFailed {done : Nat} {beam : List (Candidate σ)} {mid world' : ω} {failure : Failure}
      (reached : Reached oracle settings state world done beam mid)
      (failed : (oracle.step (inputs beam)).ask mid = (.error failure, world')) :
      RunEnd oracle settings state world (.error failure, world')
  | contractBroken {done : Nat} {beam : List (Candidate σ)} {mid world' : ω}
      {output : StepOutput σ} {breach : Breach}
      (reached : Reached oracle settings state world done beam mid)
      (answered : (oracle.step (inputs beam)).ask mid = (.ok output, world'))
      (broken : output.breach? settings.width settings.width oracle.vocabulary.size =
        some breach) :
      RunEnd oracle settings state world (.error (.contract breach), world')

/-- The oracle has encoded the evidence and made a decoder state of it. -/
structure Prepared (oracle : Oracle ω σ) (evidence : EvidenceSet) (world : ω) (latent : Latent)
    (between : ω) (state : σ) (mid : ω) : Prop where
  encoded : (oracle.encode evidence).ask world = (.ok latent, between)
  made : (oracle.initialState latent.mean).ask between = (.ok state, mid)

/-- How synthesis may end: before decoding, with refused settings or a failure of the oracle; with
a failure of decoding; without a finished candidate; or with the programs of all finished ones. -/
inductive SynthesisEnd (oracle : Oracle ω σ) (evidence : EvidenceSet) (settings : BeamSettings)
    (world : ω) : Except Failure (List Synthesized) × ω → Prop
  | refused {breach : Breach} (h : settingsFailure? oracle settings = some (.contract breach)) :
      SynthesisEnd oracle evidence settings world (.error (.contract breach), world)
  | encodeFailed {world' : ω} {failure : Failure}
      (failed : (oracle.encode evidence).ask world = (.error failure, world')) :
      SynthesisEnd oracle evidence settings world (.error failure, world')
  | stateFailed {latent : Latent} {mid world' : ω} {failure : Failure}
      (encoded : (oracle.encode evidence).ask world = (.ok latent, mid))
      (failed : (oracle.initialState latent.mean).ask mid = (.error failure, world')) :
      SynthesisEnd oracle evidence settings world (.error failure, world')
  | runFailed {latent : Latent} {state : σ} {between mid world' : ω} {failure : Failure}
      (prepared : Prepared oracle evidence world latent between state mid)
      (decoded : RunEnd oracle settings state mid (.error failure, world')) :
      SynthesisEnd oracle evidence settings world (.error failure, world')
  | exhausted {latent : Latent} {state : σ} {between mid world' : ω} {o : BeamOutcome σ}
      (prepared : Prepared oracle evidence world latent between state mid)
      (decoded : RunEnd oracle settings state mid (.ok o, world')) (unfinished : o.finished = []) :
      SynthesisEnd oracle evidence settings world (.error (.beamExhausted o.rounds), world')
  | programs {latent : Latent} {state : σ} {between mid world' : ω} {o : BeamOutcome σ}
      {programs : List Synthesized}
      (prepared : Prepared oracle evidence world latent between state mid)
      (decoded : RunEnd oracle settings state mid (.ok o, world')) (finished : o.finished ≠ [])
      (converted : o.finished.map (fun slot => synthesized oracle.vocabulary slot.2) =
        programs.map .ok) :
      SynthesisEnd oracle evidence settings world (.ok programs, world')

variable (oracle : Oracle ω σ) (evidence : EvidenceSet) (settings : BeamSettings) (state : σ)
  (world : ω)

theorem runEnd_run :
    RunEnd oracle settings state world ((run oracle settings state).ask world) := by
  match hrun : (run oracle settings state).ask world with
  | (.ok o, world') => exact .outcome (reached_of_run hrun)
  | (.error failure, world') =>
    obtain ⟨done, beam, mid, reached, hround⟩ := reached_of_run_error hrun
    rcases round_error reached.intact hround with failed | ⟨output, breach, answered, broken, rfl⟩
    · exact .stepFailed reached failed
    · exact .contractBroken reached answered broken

theorem exists_breach_of_settingsFailure? {failure : Failure}
    (h : settingsFailure? oracle settings = some failure) :
    ∃ breach, failure = .contract breach := by
  rw [settingsFailure?] at h
  split at h
  · exact ⟨_, (Option.some.inj h).symm⟩
  · split at h
    · exact ⟨_, (Option.some.inj h).symm⟩
    · contradiction

theorem exists_programs {o : BeamOutcome σ} {mid world' : ω}
    (reached : Reached oracle settings state mid o.rounds o.candidates world') :
    ∃ programs, o.finished.mapM (fun slot => synthesized oracle.vocabulary slot.2) =
      .ok programs := by
  refine exists_mapM_eq_ok fun (slot, c) hc => ?_
  obtain ⟨hslot, -⟩ := BeamOutcome.mem_finished.mp hc
  obtain ⟨ast, hast⟩ := (reached.intact.grown c (List.mem_of_getElem? hslot)).exists_ofTree
  exact ⟨_, by rw [synthesized, hast, ok_bind]; rfl⟩

theorem synthesisEnd_synthesize : SynthesisEnd oracle evidence settings world
    ((synthesize oracle evidence settings).ask world) := by
  rw [synthesize]
  split
  · next failure hfailure =>
    obtain ⟨breach, rfl⟩ := exists_breach_of_settingsFailure? oracle settings hfailure
    exact .refused hfailure
  · match hencode : (oracle.encode evidence).ask world with
    | (.error failure, world') =>
      rw [Consult.ask_bind_of_error _ hencode]
      exact .encodeFailed hencode
    | (.ok latent, mid) =>
      rw [Consult.ask_bind_of_ok _ hencode]
      match hstate : (oracle.initialState latent.mean).ask mid with
      | (.error failure, world') =>
        rw [Consult.ask_bind_of_error _ hstate]
        exact .stateFailed hencode hstate
      | (.ok state, mid') =>
        rw [Consult.ask_bind_of_ok _ hstate]
        have hend := runEnd_run oracle settings state mid'
        match hrun : (run oracle settings state).ask mid' with
        | (.error failure, world') =>
          rw [Consult.ask_bind_of_error _ hrun]
          exact .runFailed ⟨hencode, hstate⟩ (hrun ▸ hend)
        | (.ok o, world') =>
          rw [Consult.ask_bind_of_ok _ hrun]
          split
          · next hempty =>
            exact .exhausted ⟨hencode, hstate⟩ (hrun ▸ hend) (List.isEmpty_iff.mp hempty)
          · next hsome =>
            obtain ⟨programs, hprograms⟩ :=
              exists_programs oracle settings state (reached_of_run hrun)
            rw [hprograms]
            exact .programs ⟨hencode, hstate⟩ (hrun ▸ hend) (by simpa using hsome)
              (mapM_eq_ok_iff.mp hprograms)

/-- Decoding and synthesis end in one of these ways against every oracle, and whatever a search
holds in between lies in its tree and stands for a program. -/
theorem decoding_safe :
    RunEnd oracle settings state world ((run oracle settings state).ask world) ∧
      SynthesisEnd oracle evidence settings world
        ((synthesize oracle evidence settings).ask world) ∧
      ∀ done beam mid, Reached oracle settings state world done beam mid → ∀ c ∈ beam,
        c.isPlaced = true ∧ ∃ ast, Ast.ofTree oracle.vocabulary c.tree = .ok ast := by
  refine ⟨runEnd_run .., synthesisEnd_synthesize .., fun done beam mid reached c hc => ?_⟩
  have grown := reached.intact.grown c hc
  exact ⟨grown.formed.isPlaced, grown.exists_ofTree⟩

/-- Keeps its contract in one step and then answers with no number. -/
def rogueOracle : Oracle Bool Unit where
  batchSize := 1
  vocabulary := .small
  encode _ := return ⟨[], []⟩
  initialState _ := return ()
  step _ := do
    let spoiled ← get
    set true
    return ⟨[()], [[if spoiled then Float32.ofBits 0x7FC00000 else -1]], [[5]]⟩

def rogueBeam : List (Candidate Unit) :=
  [(Candidate.start Vocabulary.small.control () 0).step Vocabulary.small.control () (-1) 5]

theorem round_rogueOracle : (round rogueOracle 1
    (Beam.start Vocabulary.small.control 1 ())).ask false = (.ok rogueBeam, true) := by
  have hall : extensions 1 (Beam.start Vocabulary.small.control 1 ()) ⟨[()], [[-1]], [[5]]⟩ =
      .ok [⟨0 + -1, 0, 0⟩] := rfl
  have hadvance : advance 1 .small (Beam.start Vocabulary.small.control 1 ())
      ⟨[()], [[-1]], [[5]]⟩ = .ok rogueBeam :=
    (advance_of_sorted (by decide) hall (by decide)).trans rfl
  exact congrArg (·, true) hadvance

theorem round_rogueBeam :
    (round rogueOracle 1 rogueBeam).ask true = (.error (.contract (.notNumber 0)), true) :=
  rfl

theorem decoding_safe_rogue :
    RunEnd rogueOracle ⟨1, 5⟩ () false (.error (.contract (.notNumber 0)), true) ∧
      Reached rogueOracle ⟨1, 5⟩ () false 1 rogueBeam true ∧ ∀ c ∈ rogueBeam,
        c.isPlaced = true ∧ ∃ ast, Ast.ofTree .small c.tree = .ok ast := by
  have reached : Reached rogueOracle ⟨1, 5⟩ () false 1 rogueBeam true :=
    .round .start (by decide) (.inl rfl) round_rogueOracle
  have hrun : (run rogueOracle ⟨1, 5⟩ ()).ask false =
      (.error (.contract (.notNumber 0)), true) := by
    change (rounds rogueOracle 1 5 0 (Beam.start Vocabulary.small.control 1 ())).ask false = _
    have rolls : isRolling rogueBeam = true := rfl
    rw [rounds, Consult.ask_bind_of_ok _ round_rogueOracle, if_pos rolls, rounds]
    exact Consult.ask_bind_of_error _ round_rogueBeam
  obtain ⟨hend, -, hbeam⟩ := decoding_safe rogueOracle .empty ⟨1, 5⟩ () false
  exact ⟨hrun ▸ hend, reached, hbeam 1 rogueBeam true reached⟩

end Beam
end ProgramSearch
