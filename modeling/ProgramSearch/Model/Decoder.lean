import ProgramSearch.Beam.Search
import ProgramSearch.Model.Config
import ProgramSearch.Model.Layer

/-!
# Decoding steps

A decoder has one recurrent cell for each kind of edge over a shared embedding of symbols. A step
treats its rows independently and lists the best continuations of each.
-/
namespace ProgramSearch

structure Decoder where
  lift : Linear
  embedding : Matrix
  child : GatedCell
  sibling : GatedCell
  projection : Linear
  units : Nat
  batchSize : Nat
deriving Inhabited

namespace Decoder

def ofWeights (w : Weights) (config : ModelConfig) (symbols : Nat) :
    Except ModelFailure Decoder := do
  let lift ← Linear.ofWeights w "decoder.lift" config.latentSize config.units
  let embedding ← w.get "decoder.embedding.weight" [symbols, config.embeddingSize]
  let child ← GatedCell.ofWeights w "decoder.child" config.embeddingSize config.units
  let sibling ← GatedCell.ofWeights w "decoder.sibling" config.embeddingSize config.units
  let projection ← Linear.ofWeights w "decoder.projection" config.units symbols
  return ⟨lift, groupsOf config.embeddingSize embedding.values, child, sibling, projection,
    config.units, config.batchSize⟩

/-- The greatest value of a row. -/
def greatest (row : List Float32) : Float32 :=
  row.foldl (fun m x => if m < x then x else m) Beam.negInfinity

/-- Logarithms of the shares of the exponentials, shifted by the greatest value. -/
def logShares (row : List Float32) : List Float32 :=
  let m := greatest row
  let shifted := row.map (· - m)
  let total := (shifted.map (·.exp)).foldl (· + ·) 0
  shifted.map (· - total.log)

/-- The `k` best entries of a row with their ids, best first and ties by id, filled up with the
id 0 at minus infinity. -/
def topRow (k : Nat) (row : List Float32) : List (Float32 × Nat) :=
  let best := (row.zipIdx.mergeSort fun a b => orderKey b.1 ≤ orderKey a.1).take k
  best ++ List.replicate (k - best.length) (Beam.negInfinity, 0)

/-- The `k` best scores and ids of each row. -/
def topRows (k : Nat) (rows : Matrix) : List (List Float32) × List (List Nat) :=
  let best := rows.map (topRow k)
  (best.map (·.map (·.1)), best.map (·.map (·.2)))

/-- Symbol ids are kept in 32 bits. -/
def embed (d : Decoder) (symbol : Nat) : Except ModelFailure (List Float32) :=
  let id := symbol % 0x100000000
  match d.embedding[id]? with
  | some row => .ok row
  | none => .error (.tensor (.noRow id d.embedding.length))

/-- The next state of a row; the edge chooses between the cells by a factor of one or zero. -/
def nextState (d : Decoder) (edge : Edge) (x h : List Float32) : List Float32 :=
  let mask : Float32 := if edge == .child then 1 else 0
  List.zipWith (fun c s => mask * c + (mask * (-1) + 1) * s) (d.child.apply x h)
    (d.sibling.apply x h)

def checkState (d : Decoder) (input : StepInput (List Float32)) : Except ModelFailure Unit :=
  if input.state.length != d.units then .error (.dimension d.units input.state.length) else .ok ()

/-- One step for exactly as many rows as the batch size; as many continuations are listed. -/
def step (d : Decoder) (inputs : List (StepInput (List Float32))) :
    Except ModelFailure (StepOutput (List Float32)) := do
  if inputs.length != d.batchSize then .error (.batchSize d.batchSize inputs.length)
  else
    inputs.forM d.checkState
    let rows ← inputs.mapM fun input => do
      let x ← d.embed input.symbol
      return d.nextState input.edge x input.state
    let (scores, ids) := topRows d.batchSize (rows.map fun h => logShares (d.projection.apply h))
    return ⟨rows, scores, ids⟩

end Decoder

end ProgramSearch
