import ProgramSearch.Evidence
import ProgramSearch.Failure
import ProgramSearch.Json.Shape

/-!
# What can be wrong with a model

Failures of loading and of running a model. Towards a search they all count as failures of the
oracle.
-/
namespace ProgramSearch

/-- What a configuration or a change of it gets wrong. -/
inductive ConfigFault where
  | notPositive (size : String)
  | repeatedKind (kind : EvidenceKind)
  | badEvidence (kind : EvidenceKind)
  | batchSizeZero
  | unreadable (path reason : String)
deriving Repr, DecidableEq

def ConfigFault.message : ConfigFault → String
  | notPositive size => s!"{size} must be positive"
  | repeatedKind kind => s!"evidence '{kind.field}' is configured twice"
  | badEvidence kind => s!"evidence '{kind.field}' needs positive units and sigma"
  | batchSizeZero => "batch_size must be at least 1"
  | unreadable path reason => s!"Failed to load config from {path}: {reason}"

/-- Why weights cannot be used. -/
inductive WeightFault where
  | noFile (directory : String)
  /-- Too few bytes for the length of a header. -/
  | noHeader
  | headerTooLarge
  /-- The file ends inside its header. -/
  | headerCut
  | headerNotText
  | badHeader
  /-- A tensor that does not begin where the one before it ends. -/
  | misplaced (name : String)
  /-- A tensor whose place is not as long as its shape says. -/
  | wrongLength
  | shapeTooLarge
  /-- The tensors end before or behind the end of the file. -/
  | wrongEnd
deriving Repr, DecidableEq

def WeightFault.message : WeightFault → String
  | noFile directory => s!"No weights file found. Expected model.safetensors in {directory}"
  | noHeader => unread "HeaderTooSmall"
  | headerTooLarge => unread "HeaderTooLarge"
  | headerCut => unread "InvalidHeaderLength"
  | headerNotText => unread "InvalidHeader"
  | badHeader => unread "InvalidHeaderDeserialization"
  | misplaced name => unread ("InvalidOffset(" ++ Json.shown name ++ ")")
  | wrongLength => unread "TensorInvalidInfo"
  | shapeTooLarge => unread "ValidationOverflow"
  | wrongEnd => unread "MetadataIncompleteBuffer"
where
  unread (cause : String) : String := "Failed to load safetensors: " ++ cause

/-- Why a vocabulary file is refused. -/
inductive ModelVocabularyFault where
  | decoder (failure : Failure)
  | unknownKind (key : String)
  | noTokens (kind : EvidenceKind)
deriving Repr, DecidableEq

def ModelVocabularyFault.message : ModelVocabularyFault → String
  | decoder failure => failure.message
  | unknownKind key => EvidenceKind.unknownMessage key
  | noTokens kind => s!"no vocabulary for evidence '{kind.field}'"

/-- Why tensors do not fit together. -/
inductive TensorFault where
  | missing (name : String)
  | wrongShape (name : String) (expected actual : List Nat)
  | noRow (index rows : Nat)
deriving Repr, DecidableEq

def TensorFault.message : TensorFault → String
  | missing name => s!"cannot find tensor {name}"
  | wrongShape name expected actual =>
    s!"shape mismatch for {name}, expected: {expected}, got: {actual}"
  | noRow index rows => s!"index {index} out of range for {rows} rows"

inductive ModelFailure where
  | notFound (path : String)
  | weights (fault : WeightFault)
  | config (fault : ConfigFault)
  | vocabulary (fault : ModelVocabularyFault)
  | batchSize (expected actual : Nat)
  | dimension (expected actual : Nat)
  | file (fault : FileFault)
  | json (fault : Json.Fault)
  | tensor (fault : TensorFault)
deriving Repr, DecidableEq

namespace ModelFailure

def message : ModelFailure → String
  | notFound path => s!"Model file not found: {path}"
  | weights fault => "Failed to load model weights: " ++ fault.message
  | config fault => "Invalid model configuration: " ++ fault.message
  | vocabulary fault => "Vocabulary error: " ++ fault.message
  | batchSize expected actual =>
    s!"Batch size mismatch: got {actual} rows, model runs {expected}"
  | dimension expected actual => s!"Dimension mismatch: expected {expected}, got {actual}"
  | file fault => "IO error: " ++ fault.message
  | json fault => "JSON parse error: " ++ fault.message
  | tensor fault => "Tensor error: " ++ fault.message

/-- The wordings from the outermost to the innermost. -/
def causes (f : ModelFailure) : List String :=
  match f with
  | file fault => [f.message, fault.message]
  | json fault => [f.message, fault.message]
  | _ => [f.message]

/-- A failure of the model as a failure of the oracle. -/
def toFailure (f : ModelFailure) : Failure := .oracle f.message

end ModelFailure

end ProgramSearch
