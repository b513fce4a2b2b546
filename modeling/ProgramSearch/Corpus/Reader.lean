import ProgramSearch.Corpus.Discovery
import ProgramSearch.Database
import ProgramSearch.Program

/-!
# Reading corpus files

A corpus file holds program objects: a JSON array of them, an object with such an array under
`programs`, or one object on each line. Reading goes from front to back. A malformed program is
skipped; a damaged file ends where the damage is, and what was read before it is kept.
-/
namespace ProgramSearch

/-- How a corpus is loaded. -/
structure LoadSettings where
  location : String
  dimension : Nat
  capacity : Nat
  threads : Nat
  window : Window
  embeddingField : String
  /-- Seconds after which no further file is started. -/
  timeLimit : Option Nat
deriving Repr, DecidableEq

inductive FileStatus where
  | parsed
  | failed
  | notStarted
deriving Repr, DecidableEq

structure FileOutcome where
  path : String
  shards : List Shard
  accepted : Nat
  skipped : Nat
  status : FileStatus

namespace Corpus

open Json

mutual

/-- The programs of a document, as far as it can be read, and what stopped the reading. `room` is
how many levels of containers may still be opened. -/
def programs (room : Nat) : Doc → List Value × Option Fault
  | .array items ending =>
    match room with
    | 0 => ([], some .tooDeep)
    | room + 1 => elements room ending items
  | .object members ending =>
    match room with
    | 0 => ([], some .tooDeep)
    | room + 1 => memberPrograms room ending members
  | .broken damage => ([], some damage.fault)
  | _ => ([], some (.wrongType "scalar" "an array of programs"))

/-- The elements of an array up to the first that cannot be read. -/
def elements (room : Nat) (ending : Option Damage) : List Doc → List Value × Option Fault
  | [] => ([], ending.map (·.fault))
  | d :: rest =>
    match d.value room with
    | .error fault => ([], some fault)
    | .ok v =>
      let (vs, fault) := elements room ending rest
      (v :: vs, fault)

/-- The programs of all members named `programs`; other members are skipped. -/
def memberPrograms (room : Nat) (ending : Option Damage) :
    List (Except Fault String × Doc) → List Value × Option Fault
  | [] => ([], ending.map (·.fault))
  | (.error fault, _) :: _ => ([], some fault)
  | (.ok key, d) :: rest =>
    let (vs, fault) :=
      if key == "programs" then programs room d
      else match d.skip with
        | .ok () => ([], none)
        | .error fault => ([], some fault)
    match fault with
    | some fault => (vs, some fault)
    | none =>
      let (more, fault) := memberPrograms room ending rest
      (vs ++ more, fault)

end

/-- What a file has to offer, in order: programs, and places where something that is no program
is skipped. -/
inductive Item where
  | program (v : Value)
  | malformed

/-- The items of a JSON file, and whether it could be read to its end. -/
def documentItems (bytes : List UInt8) : List Item × Bool :=
  let document := Document.ofBytes bytes
  let (vs, fault) := programs maxDepth document.root
  (vs.map .program, fault.isNone && !document.trailing)

/-- What a line offers; a blank one offers nothing. -/
def lineItem? (line : String) : Option Item :=
  if (Text.trim line).isEmpty then none
  else match Json.parse line with
    | .ok v => some (.program v)
    | .error _ => some .malformed

/-- The items of a file with one program on each line, and whether it could be read to its end. -/
def lineItems (bytes : List UInt8) : List Item × Bool :=
  let (lines, complete) := Text.lines bytes
  (lines.filterMap lineItem?, complete)

def items (path : String) (bytes : List UInt8) : List Item × Bool :=
  if isLineDelimited path then lineItems bytes else documentItems bytes

/-- Collects the records of one file into shards. -/
structure Sink where
  field : String
  dimension : Nat
  capacity : Nat
  builder : ShardBuilder
  shards : List Shard
  accepted : Nat
  skipped : Nat

namespace Sink

def start (s : LoadSettings) : Sink :=
  ⟨s.embeddingField, s.dimension, s.capacity, .empty s.dimension s.capacity, [], 0, 0⟩

/-- Closes the shard that is being filled; an empty one leaves only its count of refusals. -/
def flush (s : Sink) : Sink :=
  { s with
    builder := .empty s.dimension s.capacity
    shards := if s.builder.isEmpty then s.shards else s.shards ++ [s.builder.finish]
    skipped := s.skipped + s.builder.skipped }

/-- Stores a record, or has the builder count it as refused. -/
def store (s : Sink) (record : Record) (v : Embedding) : Sink :=
  let s := if s.builder.isFull then s.flush else s
  match s.builder.push record v with
  | (builder, none) => { s with builder, accepted := s.accepted + 1 }
  | (builder, some _) => { s with builder }

def accept (s : Sink) : Item → Sink
  | .malformed => { s with skipped := s.skipped + 1 }
  | .program v =>
    match Program.parse s.field v with
    | .error _ => { s with skipped := s.skipped + 1 }
    | .ok (record, v) => s.store record v

def finish (s : Sink) (path : String) (status : FileStatus) : FileOutcome :=
  let s := s.flush
  ⟨path, s.shards, s.accepted, s.skipped, status⟩

end Sink

/-- Reads one file into shards. It never fails: problems are counted. -/
def loadFile (t : FileTree) (settings : LoadSettings) (path : String) : FileOutcome :=
  match t.readBytes path with
  | .error _ => (Sink.start settings).finish path .failed
  | .ok bytes =>
    let (items, complete) := items path bytes
    (items.foldl Sink.accept (Sink.start settings)).finish path
      (if complete then .parsed else .failed)

end Corpus

end ProgramSearch
