import ProgramSearch.Corpus.Reader
import ProgramSearch.Metric
import ProgramSearch.Toml.Document

/-!
# Settings

Defaults for all commands, read from a TOML file with a section for each group. Every setting has
a default, unknown ones do not count, and a file with anything wrong in it counts as empty.
-/
namespace ProgramSearch

/-- How a corpus is loaded unless a command says otherwise. -/
structure DatabaseSettings where
  dimension : Nat := 256
  threads : Nat := 0
  capacity : Nat := 10000
  minFiles : Nat := 1
  maxFiles : Option Nat := none
  embeddingField : String := "embedding"
  timeLimit : Option Nat := none
deriving Repr, DecidableEq, Inhabited

structure SearchSettings where
  topK : Nat := 5
  batchSize : Nat := 10
  metric : Metric := .squaredEuclidean
deriving Repr, DecidableEq, Inhabited

/-- The width of the beam is that of the model unless one is set. -/
structure DecodingSettings where
  beamWidth : Option Nat := none
  maxRounds : Nat := 20
deriving Repr, DecidableEq, Inhabited

structure OutputSettings where
  format : Option String := none
  colored : Option Bool := none
deriving Repr, DecidableEq, Inhabited

structure Settings where
  database : DatabaseSettings := {}
  search : SearchSettings := {}
  beam : DecodingSettings := {}
  output : OutputSettings := {}
deriving Repr, DecidableEq, Inhabited

namespace Settings

open Toml

/-- The members of a section. An array gives the fields in order, and a date gives none. -/
def members? (fields : List String) : Value → Option (List (String × Value))
  | .table members => some members
  | .array items => some (fields.zip items)
  | .date _ => some []
  | _ => none

/-- Reads a member over its default; it may be missing but not wrong. -/
def member {α : Type} (members : List (String × Value)) (name : String) (default : α)
    (reader : Value → Option α) : Option α :=
  match members.lookup name with
  | some v => reader v
  | none => some default

def count? : Value → Option Nat
  | .integer n => if 0 ≤ n then some n.toNat else none
  | _ => none

def text? : Value → Option String
  | .string s => some s
  | _ => none

def flag? : Value → Option Bool
  | .bool b => some b
  | _ => none

/-- Reads a measure by its name, alone or as the only key of a table, over nothing. -/
def metric? : Value → Option Metric
  | .string s => Metric.ofName? s
  | .table [(name, .table [])] | .table [(name, .array [])] => Metric.ofName? name
  | _ => none

def database? (v : Value) : Option DatabaseSettings := do
  let default : DatabaseSettings := {}
  let members ← members? ["dimension", "threads", "shard_capacity", "min_files", "max_files",
    "embedding_field", "timeout_secs"] v
  return {
    dimension := ← member members "dimension" default.dimension count?
    threads := ← member members "threads" default.threads count?
    capacity := ← member members "shard_capacity" default.capacity count?
    minFiles := ← member members "min_files" default.minFiles count?
    maxFiles := ← member members "max_files" default.maxFiles fun v => some <$> count? v
    embeddingField := ← member members "embedding_field" default.embeddingField text?
    timeLimit := ← member members "timeout_secs" default.timeLimit fun v => some <$> count? v }

def search? (v : Value) : Option SearchSettings := do
  let default : SearchSettings := {}
  let members ← members? ["top_k", "batch_size", "metric"] v
  return {
    topK := ← member members "top_k" default.topK count?
    batchSize := ← member members "batch_size" default.batchSize count?
    metric := ← member members "metric" default.metric metric? }

def beam? (v : Value) : Option DecodingSettings := do
  let default : DecodingSettings := {}
  let members ← members? ["beam_width", "max_rounds"] v
  return {
    beamWidth := ← member members "beam_width" default.beamWidth fun v => some <$> count? v
    maxRounds := ← member members "max_rounds" default.maxRounds count? }

def output? (v : Value) : Option OutputSettings := do
  let default : OutputSettings := {}
  let members ← members? ["format", "color"] v
  return {
    format := ← member members "format" default.format fun v => some <$> text? v
    colored := ← member members "color" default.colored fun v => some <$> flag? v }

/-- Reads the settings of a text, if nothing in it is wrong. -/
def parse? (text : String) : Option Settings := do
  let v ← Toml.parse? text
  let members ← members? [] v
  return {
    database := ← member members "database" {} database?
    search := ← member members "search" {} search?
    beam := ← member members "beam" {} beam?
    output := ← member members "output" {} output? }

/-- The file that is looked for in the working directory. -/
def fileName : String := ".bayourc.toml"

/-- Loads the settings of a file; one that is missing or wrong leaves the defaults. -/
def load (t : FileTree) (path : String) : Settings :=
  match t.readText path with
  | .ok text => (parse? text).getD {}
  | .error _ => {}

end Settings

/-- What a command says about loading a corpus. -/
structure CorpusOptions where
  dimension : Option Nat := none
  threads : Option Nat := none
  capacity : Option Nat := none
  minFiles : Option Nat := none
  maxFiles : Option Nat := none
  embeddingField : Option String := none
  timeLimit : Option Nat := none
deriving Repr, DecidableEq, Inhabited

/-- The options of a command over the settings. -/
def CorpusOptions.over (o : CorpusOptions) (location : String) (s : DatabaseSettings) :
    LoadSettings where
  location := location
  dimension := o.dimension.getD s.dimension
  capacity := o.capacity.getD s.capacity
  threads := o.threads.getD s.threads
  window := ⟨o.minFiles.getD s.minFiles, o.maxFiles <|> s.maxFiles⟩
  embeddingField := o.embeddingField.getD s.embeddingField
  timeLimit := o.timeLimit <|> s.timeLimit

end ProgramSearch
