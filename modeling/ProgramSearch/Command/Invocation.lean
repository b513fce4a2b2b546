import ProgramSearch.Command.Words
import ProgramSearch.Settings

/-!
# Invocations

The commands and their options. Options that hold for every command may stand before it or behind
it; one that stands behind it wins.
-/
namespace ProgramSearch.Command

structure SearchOptions where
  topK : Option Nat
  batchSize : Option Nat
  metric : Option String
  timeLimit : Option Nat
deriving Repr, DecidableEq

structure PrecisionOptions where
  topK : Option Nat
  hitPoints : List Nat
  output : Option String
  timeLimit : Option Nat
deriving Repr, DecidableEq

structure SynthesisOptions where
  beamWidth : Option Nat
  maxRounds : Option Nat
deriving Repr, DecidableEq

/-- What is asked for. -/
inductive Request where
  | load (location : String) (corpus : CorpusOptions)
  | search (location queries : String) (corpus : CorpusOptions) (options : SearchOptions)
  | precision (location queries : String) (corpus : CorpusOptions) (options : PrecisionOptions)
  | synthesize (model evidence : String) (options : SynthesisOptions)
deriving Repr, DecidableEq

/-- The names of the commands. -/
inductive Name where
  | load
  | search
  | precision
  | synthesize
deriving Repr, DecidableEq

namespace Name

def all : List Name := [load, search, precision, synthesize]

def text : Name → String
  | load => "load"
  | search => "search"
  | precision => "precision"
  | synthesize => "synthesize"

/-- Reads a name, or the short name of the search. -/
def parse? (s : String) : Option Name :=
  if s == "s" then some search else all.find? (·.text == s)

end Name

def globalSpecs : List OptionSpec :=
  [⟨"verbose", some 'v', .flag⟩, ⟨"quiet", some 'q', .flag⟩, ⟨"format", none, .format⟩,
    ⟨"config", none, .path⟩, ⟨"help", some 'h', .help⟩, ⟨"version", some 'V', .version⟩]

def corpusSpecs : List OptionSpec :=
  [⟨"dimension", none, .count⟩, ⟨"threads", none, .count⟩, ⟨"shard-capacity", none, .count⟩,
    ⟨"min-files", none, .count⟩, ⟨"max-files", none, .count⟩, ⟨"embedding-field", none, .text⟩,
    ⟨"load-timeout-secs", none, .count⟩]

namespace Name

/-- The options of a command, those of every command included. -/
def specs : Name → List OptionSpec
  | load => globalSpecs ++ corpusSpecs
  | search => globalSpecs ++ corpusSpecs ++
    [⟨"top-k", some 'k', .positive⟩, ⟨"batch-size", none, .positive⟩, ⟨"metric", none, .text⟩,
      ⟨"timeout-secs", none, .count⟩]
  | precision => globalSpecs ++ corpusSpecs ++
    [⟨"top-k", some 'k', .positive⟩, ⟨"hit-points", none, .positives⟩, ⟨"output", some 'o', .path⟩,
      ⟨"timeout-secs", none, .count⟩]
  | synthesize => globalSpecs ++
    [⟨"beam-width", none, .positive⟩, ⟨"max-rounds", none, .positive⟩]

/-- How many positional words a command takes, all of which must be there. -/
def places : Name → Nat
  | load => 1
  | _ => 2

end Name

def corpusOptions (w : Words) : CorpusOptions where
  dimension := w.number? "dimension"
  threads := w.number? "threads"
  capacity := w.number? "shard-capacity"
  minFiles := w.number? "min-files"
  maxFiles := w.number? "max-files"
  embeddingField := w.text? "embedding-field"
  timeLimit := w.number? "load-timeout-secs"

/-- The request of a command that has all its words. -/
def Name.request (name : Name) (w : Words) : Request :=
  let first := w.positional 0
  let second := w.positional 1
  match name with
  | load => .load first (corpusOptions w)
  | search => .search first second (corpusOptions w)
      ⟨w.number? "top-k", w.number? "batch-size", w.text? "metric", w.number? "timeout-secs"⟩
  | precision => .precision first second (corpusOptions w)
      ⟨w.number? "top-k", w.numbers "hit-points", w.text? "output", w.number? "timeout-secs"⟩
  | synthesize => .synthesize first second ⟨w.number? "beam-width", w.number? "max-rounds"⟩

structure Invocation where
  verbose : Bool
  quiet : Bool
  format : Option Report.OutputFormat
  config : Option String
  /-- Without a request, the help is shown. -/
  request : Option Request
deriving Repr, DecidableEq

/-- An invocation whose options for every command stand in two places, the inner one first. -/
def Invocation.ofWords (inner outer : Words) (request : Option Request) : Invocation where
  verbose := inner.has "verbose" || outer.has "verbose"
  quiet := inner.has "quiet" || outer.has "quiet"
  format := inner.format? "format" <|> outer.format? "format"
  config := inner.text? "config" <|> outer.text? "config"
  request := request

/-- What a command line shows instead of running a command. -/
inductive Notice where
  | usage
  | help
  /-- The version of the program, or of one of its commands. -/
  | version (command : Option Name)
deriving Repr, DecidableEq

def Halt.notice (command : Option Name) : Halt → Notice
  | usage => .usage
  | help => .help
  | version => .version command

/-- The words behind `help` must name a command, if there are any. -/
def helpNotice : List String → Notice
  | [] => .help
  | [word] => if (Name.parse? word).isSome || word == "help" then .help else .usage
  | _ => .usage

/-- Reads the words before and including the name of a command, and hands on to the command. -/
def Invocation.readFrom (outer : Words) : List String → Except Notice Invocation
  | [] =>
    match outer.settle with
    | .ok outer => .ok (.ofWords {} outer none)
    | .error halt => .error (halt.notice none)
  | word :: rest =>
    if !outer.trailing && !outer.wantsValue && word == "help" then .error (helpNotice rest)
    else
      match (if outer.trailing || outer.wantsValue then none else Name.parse? word) with
      | some name =>
        match Words.read name.specs name.places rest with
        | .error halt => .error (halt.notice (some name))
        | .ok inner =>
          match outer.settle with
          | .error halt => .error (halt.notice none)
          | .ok outer => .ok (.ofWords inner outer (some (name.request inner)))
      | none =>
        match outer.step globalSpecs 0 word with
        | .error halt => .error (halt.notice none)
        | .ok outer => readFrom outer rest

/-- Reads a command line. -/
def Invocation.parse (words : List String) : Except Notice Invocation := readFrom {} words

end ProgramSearch.Command
