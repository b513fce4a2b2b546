import ProgramSearch.Json.Fault

/-!
# What can go wrong

Each failure names its cause; `message` gives the one wording of each, and `causes` the wordings
from the outermost to the innermost.
-/
namespace ProgramSearch

/-- Why a file or directory could not be read or written. -/
inductive FileFault where
  | pathMissing (path : String)
  | notFound
  | isDirectory
  | notDirectory
  | notText
deriving Repr, DecidableEq

def FileFault.message : FileFault → String
  | pathMissing path => "Path does not exist: " ++ path
  | notFound => "No such file or directory (os error 2)"
  | isDirectory => "Is a directory (os error 21)"
  | notDirectory => "Not a directory (os error 20)"
  | notText => "stream did not contain valid UTF-8"

/-- Why a list of queries does not make batches. -/
inductive BatchFault where
  | sizeZero
  | wrongDimension (query actual expected : Nat)
  | notFinite (query position : Nat)
  | unfilled (queries size : Nat)
  | noField (query : Nat) (field : String)
  | notRanked
deriving Repr, DecidableEq

def BatchFault.message : BatchFault → String
  | sizeZero => "batch size must be at least 1"
  | wrongDimension query actual expected =>
    s!"query {query} has dimension {actual}, expected {expected}"
  | notFinite query position => s!"query {query} has a non-finite value at position {position}"
  | unfilled queries size => s!"{queries} queries do not fill batches of {size}"
  | noField query field => s!"query {query} has no '{field}' field"
  | notRanked => "query was not ranked"

/-- How a scoring oracle, or the search that uses it, breaks the contract of a step. -/
inductive Breach where
  | widthZero
  | widthMismatch (width batch : Nat)
  | rowCount (expected states scores ids : Nat)
  | rowLength (row scores ids expected : Nat)
  | unknownId (row id vocabulary : Nat)
  | notNumber (row : Nat)
  | aboveZero (row : Nat) (score : String)
  | unsorted (row : Nat)
deriving Repr, DecidableEq

def Breach.message : Breach → String
  | widthZero => "beam width must be at least 1"
  | widthMismatch width batch => s!"beam width {width} does not match oracle batch size {batch}"
  | rowCount expected states scores ids =>
    s!"expected {expected} rows, got {states} states, {scores} score rows, {ids} index rows"
  | rowLength row scores ids expected =>
    s!"row {row} has {scores} scores and {ids} ids, expected {expected}"
  | unknownId row id vocabulary =>
    s!"row {row} has symbol id {id} outside a vocabulary of {vocabulary}"
  | notNumber row => s!"row {row} has a NaN score"
  | aboveZero row score => s!"row {row} has log-probability {score} above zero"
  | unsorted row => s!"row {row} is not sorted by descending score"

/-- What is wrong with a decoder vocabulary. -/
inductive VocabularyFault where
  | duplicate (symbol : String)
  | missing (symbol : String)
  | unknownId (id : Nat)
deriving Repr, DecidableEq

def VocabularyFault.message : VocabularyFault → String
  | duplicate symbol => s!"duplicate symbol '{symbol}'"
  | missing symbol => s!"missing required symbol '{symbol}'"
  | unknownId id => s!"symbol id {id} is not in the vocabulary"

inductive Failure where
  | dimensionMismatch (expected actual : Nat)
  | notFinite (position : Nat)
  | shardFull (capacity : Nat)
  | batch (fault : BatchFault)
  | contract (breach : Breach)
  | beamExhausted (rounds : Nat)
  | emptyCorpus (location : String)
  | vocabulary (fault : VocabularyFault)
  | oracle (message : String)
  | file (fault : FileFault)
  | json (fault : Json.Fault)
  | outOfRange
deriving Repr, DecidableEq

namespace Failure

def message : Failure → String
  | dimensionMismatch expected actual => s!"Dimension mismatch: expected {expected}, got {actual}"
  | notFinite position => s!"Embedding has a non-finite value at position {position}"
  | shardFull capacity => s!"Shard is full ({capacity} rows)"
  | batch fault => "Invalid batch: " ++ fault.message
  | contract breach => "Scoring oracle contract violation: " ++ breach.message
  | beamExhausted rounds =>
    s!"Beam search exhausted after {rounds} rounds without a finished candidate"
  | emptyCorpus location => s!"Corpus at {location} produced no valid records"
  | vocabulary fault => "Invalid vocabulary: " ++ fault.message
  | oracle text => "Scoring oracle error: " ++ text
  | file fault => "IO error: " ++ fault.message
  | json fault => "JSON error: " ++ fault.message
  | outOfRange => "index out of range"

/-- A failure wraps at most one other, whose wording comes second. -/
def causes (f : Failure) : List String :=
  match f with
  | file fault => [f.message, fault.message]
  | json fault => [f.message, fault.message]
  | _ => [f.message]

end Failure

end ProgramSearch
