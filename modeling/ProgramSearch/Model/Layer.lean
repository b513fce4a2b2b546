import ProgramSearch.Embedding
import ProgramSearch.Group
import ProgramSearch.Model.Weights

/-!
# Layers

Linear maps and gated recurrent cells. A layer acts on one row at a time.
-/
namespace ProgramSearch

/-- A matrix by rows. -/
abbrev Matrix := List (List Float32)

structure Linear where
  weight : Matrix
  bias : List Float32
deriving Inhabited

namespace Linear

/-- Reads a map from `inputs` to `outputs` values. -/
def ofWeights (w : Weights) (name : String) (inputs outputs : Nat) : Except ModelFailure Linear := do
  let weight ← w.get (name ++ ".weight") [outputs, inputs]
  let bias ← w.get (name ++ ".bias") [outputs]
  return ⟨groupsOf inputs weight.values, bias.values⟩

def apply (l : Linear) (x : List Float32) : List Float32 :=
  List.zipWith (fun row b => Embedding.dot row x + b) l.weight l.bias

end Linear

def sigmoid (x : Float32) : Float32 := 1 / (1 + (-x).exp)

/-- A gated recurrent cell; each map yields the values of three gates, one after another. -/
structure GatedCell where
  input : Linear
  hidden : Linear
deriving Inhabited

namespace GatedCell

def ofWeights (w : Weights) (name : String) (inputs units : Nat) :
    Except ModelFailure GatedCell := do
  let input ← Linear.ofWeights w (name ++ ".input") inputs (3 * units)
  let hidden ← Linear.ofWeights w (name ++ ".hidden") units (3 * units)
  return ⟨input, hidden⟩

/-- The new value of one unit from its old value and what the maps give for the reset, update and
candidate gates. -/
def unit (h : Float32) (reset update candidate : Float32 × Float32) : Float32 :=
  let r := sigmoid (reset.1 + reset.2)
  let z := sigmoid (update.1 + update.2)
  let n := (candidate.1 + r * candidate.2).tanh
  (z * (-1) + 1) * n + z * h

/-- The next state. -/
def apply (c : GatedCell) (x h : List Float32) : List Float32 :=
  let gates := (c.input.apply x).zip (c.hidden.apply h)
  let units := h.length
  let reset := gates.take units
  let update := (gates.drop units).take units
  let candidate := gates.drop (2 * units)
  List.zipWith (fun h (r, u, n) => unit h r u n) h (reset.zip (update.zip candidate))

end GatedCell

end ProgramSearch
