import ProgramSearch.Ast
import ProgramSearch.Beam.Candidate
import ProgramSearch.Beam.Oracle

/-!
# Beam search

A beam holds a fixed number of candidates. In every round the oracle scores all of them in one
step, each candidate is extended by each of its continuations, and the best extensions form the
next beam. A stopped candidate extends to itself, once, at its old score, so that finished trees
compete with growing ones to the end. Equal scores keep the order of candidates and columns.
-/
namespace ProgramSearch

structure BeamSettings where
  width : Nat
  maxRounds : Nat
deriving Repr, DecidableEq

structure BeamOutcome (σ : Type) where
  candidates : List (Candidate σ)
  rounds : Nat

namespace BeamOutcome

/-- The finished candidates with their slots, best first. -/
def finished {σ : Type} (o : BeamOutcome σ) : List (Nat × Candidate σ) :=
  let slots := o.candidates.zipIdx.filterMap fun (c, slot) =>
    if c.isFinished then some (slot, c) else none
  slots.mergeSort fun a b => orderKey b.2.logProb ≤ orderKey a.2.logProb

end BeamOutcome

namespace Beam

variable {ω σ : Type}

def negInfinity : Float32 := Float32.ofBits 0xFF800000

/-- An extension of candidate `row` by continuation `col`. -/
structure Extension where
  score : Float32
  row : Nat
  col : Nat
deriving Repr, Inhabited

def lookup {α : Type} (xs : List α) (i : Nat) : Except Failure α :=
  match xs[i]? with
  | some a => .ok a
  | none => .error .outOfRange

/-- What a continuation adds to the score of a candidate. -/
def stepScore (c : Candidate σ) (scores : List Float32) (col : Nat) : Except Failure Float32 :=
  if c.rolling then lookup scores col
  else .ok (if col == 0 then 0 else negInfinity)

/-- All extensions, row by row. -/
def extensions (width : Nat) (beam : List (Candidate σ)) (output : StepOutput σ) :
    Except Failure (List Extension) := do
  let rows ← beam.zipIdx.mapM fun (c, row) => do
    let scores ← lookup output.scores row
    (List.range width).mapM fun col => do
      return ⟨c.logProb + (← stepScore c scores col), row, col⟩
  return rows.flatten

/-- The candidate that an extension leads to. -/
def extend (control : Control) (beam : List (Candidate σ)) (output : StepOutput σ)
    (e : Extension) : Except Failure (Candidate σ) := do
  let parent ← lookup beam e.row
  let scored := { parent with logProb := e.score }
  if parent.rolling then
    if !parent.isPlaced then .error .outOfRange
    else do
      let state ← lookup output.states e.row
      let ids ← lookup output.ids e.row
      let symbol ← lookup ids e.col
      return ({ scored with state }).grow control symbol
  else return scored

/-- The best extensions, better scores first and ties in the given order. -/
def select (width : Nat) (extensions : List Extension) : List Extension :=
  (extensions.mergeSort fun a b => orderKey b.score ≤ orderKey a.score).take width

/-- The next beam, for an answer of the oracle that keeps its contract. -/
def advance (width : Nat) (vocabulary : Vocabulary) (beam : List (Candidate σ))
    (output : StepOutput σ) : Except Failure (List (Candidate σ)) := do
  output.validate width width vocabulary.size
  let all ← extensions width beam output
  (select width all).mapM (extend vocabulary.control beam output)

def inputs (beam : List (Candidate σ)) : List (StepInput σ) :=
  beam.map fun c => ⟨c.lastSymbol, c.lastEdge, c.state⟩

/-- One round: a step of the oracle and the next beam. -/
def round (oracle : Oracle ω σ) (width : Nat) (beam : List (Candidate σ)) :
    Consult ω (List (Candidate σ)) := do
  let output ← oracle.step (inputs beam)
  liftM (advance width oracle.vocabulary beam output)

/-- Only slot 0 starts alive, so that the first round extends one candidate. -/
def start (control : Control) (width : Nat) (state : σ) : List (Candidate σ) :=
  (List.range width).map fun slot =>
    Candidate.start control state (if slot == 0 then 0 else negInfinity)

def isRolling (beam : List (Candidate σ)) : Bool := beam.any fun c => c.isLive && c.rolling

/-- Rounds go on until no live candidate is rolling, or none of them is left. -/
def rounds (oracle : Oracle ω σ) (width : Nat) :
    Nat → Nat → List (Candidate σ) → Consult ω (BeamOutcome σ)
  | 0, done, beam => return ⟨beam, done⟩
  | left + 1, done, beam => do
    let beam ← round oracle width beam
    if isRolling beam then rounds oracle width left (done + 1) beam
    else return ⟨beam, done + 1⟩

/-- Decodes from a state. -/
def run (oracle : Oracle ω σ) (settings : BeamSettings) (state : σ) :
    Consult ω (BeamOutcome σ) :=
  rounds oracle settings.width settings.maxRounds 0
    (start oracle.vocabulary.control settings.width state)

/-- The width must be positive and the oracle's own. -/
def settingsFailure? (oracle : Oracle ω σ) (settings : BeamSettings) : Option Failure :=
  if settings.width == 0 then some (.contract .widthZero)
  else if settings.width != oracle.batchSize then
    some (.contract (.widthMismatch settings.width oracle.batchSize))
  else none

/-- Checks the settings before decoding. -/
def search (oracle : Oracle ω σ) (settings : BeamSettings) (state : σ) :
    Consult ω (BeamOutcome σ) := do
  match settingsFailure? oracle settings with
  | some failure => throw failure
  | none => run oracle settings state

/-- The program of a candidate with its probability. -/
def synthesized (vocabulary : Vocabulary) (c : Candidate σ) : Except Failure Synthesized := do
  let ast ← Ast.ofTree vocabulary c.tree
  return ⟨ast, c.logProb.toFloat.exp, c.logProb⟩

/-- Encodes evidence, decodes from the mean of the latent distribution, and converts the finished
trees, best first. -/
def synthesize (oracle : Oracle ω σ) (evidence : EvidenceSet) (settings : BeamSettings) :
    Consult ω (List Synthesized) := do
  match settingsFailure? oracle settings with
  | some failure => throw failure
  | none =>
    let latent ← oracle.encode evidence
    let state ← oracle.initialState latent.mean
    let outcome ← run oracle settings state
    if outcome.finished.isEmpty then throw (.beamExhausted outcome.rounds)
    else liftM (outcome.finished.mapM fun (_, c) => synthesized oracle.vocabulary c)

end Beam

end ProgramSearch
