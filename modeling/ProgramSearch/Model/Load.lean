import ProgramSearch.Corpus.FileTree
import ProgramSearch.Model.Decoder
import ProgramSearch.Model.Encoder

/-!
# Models

A model is read from a directory with its configuration, its vocabularies and its weights. It
serves as the scoring oracle of a beam search; it keeps no world.
-/
namespace ProgramSearch

structure Model where
  config : ModelConfig
  vocabulary : ModelVocabulary
  encoder : Encoder
  decoder : Decoder
deriving Inhabited

namespace Model

/-- Reads a text file of the model. -/
def readText (t : FileTree) (path : String) : Except ModelFailure String :=
  match t.readText path with
  | .ok text => .ok text
  | .error fault => .error (.file fault)

/-- A path inside a directory. -/
def within (directory name : String) : String :=
  if directory.endsWith "/" then directory ++ name else directory ++ "/" ++ name

def loadConfig (t : FileTree) (path : String) : Except ModelFailure ModelConfig := do
  ModelConfig.parse (← readText t path)

def loadVocabulary (t : FileTree) (path : String) : Except ModelFailure ModelVocabulary := do
  ModelVocabulary.parse (← readText t path)

def ofParts (config : ModelConfig) (vocabulary : ModelVocabulary) (weights : Weights) :
    Except ModelFailure Model := do
  config.validate
  let encoder ← Encoder.ofWeights weights config vocabulary
  let decoder ← Decoder.ofWeights weights config vocabulary.decoder.size
  return ⟨config, vocabulary, encoder, decoder⟩

/-- Loads the model of a directory. -/
def load (t : FileTree) (directory : String) : Except ModelFailure Model := do
  match t.find? directory with
  | none => .error (.notFound directory)
  | some _ =>
    let path := within directory "config.json"
    let config ← match loadConfig t path with
      | .ok config => .ok config
      | .error failure => .error (.config (.unreadable path failure.message))
    let vocabulary ← loadVocabulary t (within directory "vocab.json")
    let path := within directory "model.safetensors"
    match t.find? path with
    | none => .error (.weights (.noFile directory))
    | some _ =>
      match t.readBytes path with
      | .error fault => .error (.file fault)
      | .ok bytes =>
        match Weights.ofBytes bytes with
        | .error fault => .error (.weights fault)
        | .ok weights => ofParts config vocabulary weights

/-- The same model with another number of rows in a step, on which no weight depends. -/
def withBatchSize (m : Model) (batchSize : Nat) : Except ModelFailure Model :=
  if batchSize == 0 then .error (.config .batchSizeZero)
  else .ok { m with
    config := { m.config with batchSize }
    decoder := { m.decoder with batchSize } }

/-- A question that a model answers. -/
def answer {α : Type} (r : Except ModelFailure α) : Consult Unit α :=
  match r with
  | .ok a => pure a
  | .error failure => throw failure.toFailure

/-- The state for a latent vector. -/
def initialState (m : Model) (psi : Embedding) : Except Failure (List Float32) :=
  if psi.length != m.config.latentSize then
    .error (.dimensionMismatch m.config.latentSize psi.length)
  else .ok (m.decoder.lift.apply psi)

def oracle (m : Model) : Oracle Unit (List Float32) where
  batchSize := m.decoder.batchSize
  vocabulary := m.vocabulary.decoder
  encode evidence := pure (m.encoder.encode evidence)
  initialState psi := liftM (m.initialState psi)
  step inputs := answer (m.decoder.step inputs)

/-- Synthesizes programs with the model. -/
def synthesize (m : Model) (evidence : EvidenceSet) (settings : BeamSettings) :
    Except Failure (List Synthesized) :=
  ((Beam.synthesize m.oracle evidence settings).run.run ()).1

end Model

end ProgramSearch
