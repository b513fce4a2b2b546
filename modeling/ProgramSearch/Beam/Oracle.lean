import ProgramSearch.Decimal.Layout
import ProgramSearch.Embedding
import ProgramSearch.Evidence
import ProgramSearch.Symbols
import ProgramSearch.SymbolTree

/-!
# Scoring oracles

An oracle is a trained model seen from outside: it encodes evidence into a latent distribution,
turns a latent vector into a decoder state, and scores one decoding step for a whole beam. It may
keep a world of its own from one question to the next. What it answers to a step is checked
before it is used.
-/
namespace ProgramSearch

/-- A Gaussian over the latent space with diagonal covariance. -/
structure Latent where
  mean : Embedding
  covariance : Embedding
deriving Inhabited

/-- One row of a decoding step. -/
structure StepInput (σ : Type) where
  symbol : Nat
  edge : Edge
  state : σ
deriving Repr, Inhabited

/-- The continuations of each row: `ids[i][j]` is a symbol with log-probability `scores[i][j]`,
and `states[i]` the state behind row `i`. -/
structure StepOutput (σ : Type) where
  states : List σ
  scores : List (List Float32)
  ids : List (List Nat)
deriving Repr, Inhabited

/-- A question to an oracle: it may fail, and the oracle's world goes on either way. -/
abbrev Consult (ω α : Type) := ExceptT Failure (StateM ω) α

structure Oracle (ω σ : Type) where
  batchSize : Nat
  vocabulary : Vocabulary
  encode : EvidenceSet → Consult ω Latent
  initialState : Embedding → Consult ω σ
  step : List (StepInput σ) → Consult ω (StepOutput σ)

namespace StepOutput

/-- No score is below its successor. -/
def isDescending : List Float32 → Bool
  | a :: b :: rest => !(a < b) && isDescending (b :: rest)
  | _ => true

/-- What is wrong with one row of scores and ids. -/
def rowBreach? (width vocabulary row : Nat) (scores : List Float32) (ids : List Nat) :
    Option Breach :=
  if scores.length != width || ids.length != width then
    some (.rowLength row scores.length ids.length width)
  else match ids.find? (vocabulary ≤ ·) with
    | some id => some (.unknownId row id vocabulary)
    | none =>
      if scores.any (·.isNaN) then some (.notNumber row)
      else match scores.find? (0 < ·) with
        | some score => some (.aboveZero row (Decimal.readSingle score).plain)
        | none => if isDescending scores then none else some (.unsorted row)

/-- The first breach of the contract: the numbers of rows come first, then row by row the length,
the ids, and the scores, which must be numbers, at most zero, and descending. -/
def breach? {σ : Type} (output : StepOutput σ) (rows width vocabulary : Nat) : Option Breach :=
  if output.states.length != rows || output.scores.length != rows || output.ids.length != rows then
    some (.rowCount rows output.states.length output.scores.length output.ids.length)
  else
    (output.scores.zip output.ids).zipIdx.findSome? fun ((scores, ids), row) =>
      rowBreach? width vocabulary row scores ids

def validate {σ : Type} (output : StepOutput σ) (rows width vocabulary : Nat) :
    Except Failure Unit :=
  match output.breach? rows width vocabulary with
  | some breach => .error (.contract breach)
  | none => .ok ()

end StepOutput

end ProgramSearch
