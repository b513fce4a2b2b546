import ProgramSearch.Beam.Oracle
import ProgramSearch.Model.Config
import ProgramSearch.Model.Layer
import ProgramSearch.Model.Vocabulary

/-!
# Encoding evidence

Each configured kind of evidence is encoded on its own. The encodings are fused into a Gaussian,
weighted by precision against a standard normal prior.
-/
namespace ProgramSearch

structure KindEncoder where
  kind : EvidenceKind
  sigma : Float32
  index : TokenIndex
  hidden : Linear
  latent : Linear
deriving Inhabited

namespace KindEncoder

def ofWeights (w : Weights) (config : ModelConfig) (vocabulary : ModelVocabulary)
    (e : EvidenceConfig) : Except ModelFailure KindEncoder := do
  let index ← vocabulary.index e.kind
  let name := "encoder." ++ e.kind.name
  let hidden ← Linear.ofWeights w (name ++ ".hidden") index.size e.units
  let latent ← Linear.ofWeights w (name ++ ".latent") e.units config.latentSize
  return ⟨e.kind, e.sigma, index, hidden, latent⟩

/-- The encoding of a bag of tokens. -/
def apply (e : KindEncoder) (bag : List Float32) : List Float32 :=
  e.latent.apply ((e.hidden.apply bag).map (·.tanh))

/-- What this kind contributes: nothing when it is absent or none of its tokens is known. -/
def contribution? (e : KindEncoder) (evidence : EvidenceSet) : Option (List Float32 × Float32) := do
  let item ← evidence.get? e.kind
  let bag ← e.index.bag item.tokens
  return (e.apply bag, e.sigma)

end KindEncoder

structure Encoder where
  encoders : List KindEncoder
  latentSize : Nat
deriving Inhabited

namespace Encoder

def ofWeights (w : Weights) (config : ModelConfig) (vocabulary : ModelVocabulary) :
    Except ModelFailure Encoder := do
  let encoders ← config.evidence.mapM (KindEncoder.ofWeights w config vocabulary)
  return ⟨encoders, config.latentSize⟩

/-- Adds an encoding to the sum as far as it reaches. -/
def accumulate (precision : Float32) : List Float32 → List Float32 → List Float32
  | acc :: accs, x :: xs => (acc + x * precision) :: accumulate precision accs xs
  | accs, _ => accs

/-- Precision-weighted fusion of encodings with their deviations; none give the prior. -/
def combine (encodings : List (List Float32 × Float32)) (latentSize : Nat) : Latent :=
  let (weighted, precision) := encodings.foldl
    (fun (weighted, total) (encoding, sigma) =>
      let p := 1 / (sigma * sigma)
      (accumulate p weighted encoding, total + p))
    (List.replicate latentSize (0 : Float32), (1 : Float32))
  ⟨weighted.map (· / precision), List.replicate latentSize (1 / precision)⟩

def encode (e : Encoder) (evidence : EvidenceSet) : Latent :=
  combine (e.encoders.filterMap (·.contribution? evidence)) e.latentSize

end Encoder

end ProgramSearch
