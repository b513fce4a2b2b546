import ProgramSearch.Command.Invocation
import ProgramSearch.Model.Load
import ProgramSearch.QueryFile
import ProgramSearch.Report.Load
import ProgramSearch.Report.Precision
import ProgramSearch.Report.Synthesis

/-!
# Running commands

A request is carried out on a file tree under some settings. What it has to show, and the file it
writes, are returned; times are told to the result when it is shown.
-/
namespace ProgramSearch.Command

open Report

/-- A failed command: what was to be done, and why it could not be, outermost first. -/
structure Complaint where
  outermost : String
  causes : List String
deriving Repr, DecidableEq

namespace Complaint

def ofCauses : List String → Complaint
  | [] => ⟨"", []⟩
  | first :: rest => ⟨first, rest⟩

def plain (text : String) : Complaint := ⟨text, []⟩

/-- The causes of something that was to be done. -/
def within (text : String) (causes : List String) : Complaint := ⟨text, causes⟩

/-- A cause behind its mark; further lines of it are indented as far. -/
def causeText (mark indent text : String) : String :=
  "\n" ++ mark ++ ("\n" ++ indent).intercalate (text.splitOn "\n")

def numberMark (n : Nat) : String :=
  let text := toString n
  Text.blanks (5 - text.length) ++ text ++ ": "

/-- The causes below a heading; several are numbered. -/
def causesText : List String → String
  | [] => ""
  | [cause] => "\n\nCaused by:" ++ causeText "    " "    " cause
  | causes => "\n\nCaused by:" ++ String.join (causes.zipIdx.map fun (cause, n) =>
      causeText (numberMark n) "       " cause)

def text (c : Complaint) : String := "Error: " ++ c.outermost ++ causesText c.causes ++ "\n"

end Complaint

/-- The complaint about a failure of something that was to be done. -/
def during {α : Type} (text : String) : Except Failure α → Except Complaint α
  | .ok a => .ok a
  | .error failure => .error (.within text failure.causes)

/-- The complaint about a failure that speaks for itself. -/
def orComplain {α : Type} : Except Failure α → Except Complaint α
  | .ok a => .ok a
  | .error failure => .error (.ofCauses failure.causes)

/-- What a command has to show. -/
inductive Result where
  | load (location : String) (dimension : Nat) (report : LoadReport)
  | search (report : SearchReport)
  | precision (result : PrecisionResult)
  | synthesis (report : SynthesisReport)

/-- When a command was carried out, and how long it took. -/
structure Timing where
  now : Moment
  milliseconds : Float

def Timing.whole (t : Timing) : Nat := t.milliseconds.floor.toUInt64.toNat

/-- Shows a result, with a line end behind it. -/
def Result.text (r : Result) (p : Presentation) (t : Timing) : String :=
  let text := match r with
    | .load location dimension report =>
      (⟨location, t.now, dimension, report, t.milliseconds⟩ : LoadSummary).render p
    | .search report => report.render p t.whole
    | .precision result => result.render p
    | .synthesis report => report.render p t.whole
  text ++ "\n"

/-- What came of a command: something to show, and perhaps a text for a file. -/
structure Outcome where
  result : Result
  written : Option (String × String) := none

/-- Reads the queries of a file, of which there must be some. -/
def readQueries (t : FileTree) (path field : String) : Except Complaint (List Query) := do
  let queries ← during s!"Failed to read queries from {path}" (QueryFile.load t path field)
  if queries.isEmpty then .error (.plain s!"No queries in {path}")
  else return queries

def loadCorpus (t : FileTree) (settings : LoadSettings) : Except Complaint LoadedCorpus :=
  during s!"Failed to load corpus from {settings.location}" (Corpus.readAll t settings)

def noneRanked (queries : Nat) : Complaint :=
  .plain s!"None of the {queries} queries could be ranked"

def runSearch (t : FileTree) (s : Settings) (location path : String) (corpus : CorpusOptions)
    (o : SearchOptions) : Except Complaint SearchReport := do
  let topK := o.topK.getD s.search.topK
  let metric ← match o.metric with
    | none => .ok s.search.metric
    | some name =>
      match Metric.parse? name with
      | some metric => .ok metric
      | none => .error (.plain (Metric.unknownMessage name))
  let settings := corpus.over location s.database
  let queries ← readQueries t path settings.embeddingField
  let loaded ← loadCorpus t settings
  let scanner : Scanner := ⟨loaded.database, topK, metric, 1⟩
  let outcomes ← orComplain
    (scanner.rankBatches queries (o.batchSize.getD s.search.batchSize) settings.threads)
  if outcomes.all (fun outcome => !outcome.isOk) then .error (noneRanked outcomes.length)
  else return .ofOutcomes metric topK outcomes

def isObject : Json.Value → Bool
  | .object _ => true
  | _ => false

/-- Evaluates labelled queries. The lines of the queries are written to a file if one is named. -/
def runPrecision (t : FileTree) (s : Settings) (location path : String) (corpus : CorpusOptions)
    (o : PrecisionOptions) : Except Complaint Outcome := do
  let topK := o.topK.getD s.search.topK
  let settings := corpus.over location s.database
  let queries ← readQueries t path settings.embeddingField
  if queries.any (fun q => !isObject q.metadata) then
    .error (.plain (path ++ " has no labelled programs; precision needs the `programs` layout"))
  else
    let desired := queries.map fun q => Desired.ofProgram q.metadata
    let loaded ← loadCorpus t settings
    let scanner : Scanner := ⟨loaded.database, topK, s.search.metric, 1⟩
    let outcomes ← orComplain (scanner.rankBatches queries s.search.batchSize settings.threads)
    let (report, dumps) := evaluate topK (resolveHitPoints o.hitPoints topK) desired outcomes
    let failed := (dumps.filter (·.hits.error.isSome)).map (·.hits.query)
    if report.queries == 0 then .error (noneRanked failed.length)
    else
      let result : PrecisionResult := ⟨report, failed, o.output⟩
      match o.output with
      | none => return ⟨.precision result, none⟩
      | some output =>
        let lines := jsonLines (dumps.map QueryDump.json) ++ "\n"
        match t.writeText output lines with
        | .ok _ => return ⟨.precision result, some (output, lines)⟩
        | .error fault => .error (.within s!"Failed to write {output}" [fault.message])

/-- Reads the evidence of a file; of a file with programs, the first one's. -/
def readEvidence (t : FileTree) (path : String) : Except Complaint EvidenceSet :=
  match t.readText path with
  | .error fault => .error (.within s!"Failed to read {path}" [fault.message])
  | .ok text =>
    match Json.parse text with
    | .error fault => .error (.within s!"Failed to parse {path}" [fault.message])
    | .ok v =>
      let first := ((v.get? "programs").bind (·.array?)).bind List.head?
      let evidence := EvidenceSet.ofProgram (first.getD v)
      if evidence.isEmpty then .error (.plain s!"No evidence found in {path}")
      else .ok evidence

def runSynthesis (t : FileTree) (s : Settings) (directory path : String) (o : SynthesisOptions) :
    Except Complaint SynthesisReport := do
  let evidence ← readEvidence t path
  let model ← match Model.load t directory with
    | .ok model => .ok model
    | .error failure =>
      .error (.within s!"Failed to load model from {directory}" failure.causes)
  let model ← match o.beamWidth <|> s.beam.beamWidth with
    | none => .ok model
    | some width =>
      if width == model.config.batchSize then .ok model
      else match model.withBatchSize width with
        | .ok model => .ok model
        | .error failure => .error (.within s!"Invalid beam width {width}" failure.causes)
  let width := model.config.batchSize
  let programs ← orComplain
    (model.synthesize evidence ⟨width, o.maxRounds.getD s.beam.maxRounds⟩)
  return ⟨evidence, width, programs⟩

/-- The files and directories that a request reads. -/
def Request.sources : Request → List String
  | .load location _ => [location]
  | .search location queries _ _ => [location, queries]
  | .precision location queries _ options => [location, queries] ++ options.output.toList
  | .synthesize model evidence _ => [model, evidence]

/-- The seconds that a request may take, if it says so. -/
def Request.timeLimit : Request → Option Nat
  | .search _ _ _ options => options.timeLimit
  | .precision _ _ _ options => options.timeLimit
  | _ => none

def Complaint.timedOut (seconds : Nat) : Complaint :=
  .plain s!"Operation timed out after {seconds}s"

/-- Carries out a request. -/
def Request.run (t : FileTree) (s : Settings) : Request → Except Complaint Outcome
  | .load location corpus => do
    let settings := corpus.over location s.database
    let loaded ← loadCorpus t settings
    return ⟨.load location settings.dimension loaded.report, none⟩
  | .search location queries corpus options => do
    return ⟨.search (← runSearch t s location queries corpus options), none⟩
  | .precision location queries corpus options =>
    runPrecision t s location queries corpus options
  | .synthesize model evidence options => do
    return ⟨.synthesis (← runSynthesis t s model evidence options), none⟩

namespace Invocation

/-- The settings of the file that is named, or else of the one in the working directory. -/
def settings (i : Invocation) (t : FileTree) : Settings :=
  .load t (i.config.getD Settings.fileName)

/-- The format that is asked for, or the default of the settings if that is one, or a table. On a
terminal, of the given width, there are colours unless the settings say otherwise. -/
def presentation (i : Invocation) (s : Settings) (terminal : Option Nat) : Presentation where
  format := (i.format <|> s.output.format.bind OutputFormat.parse?).getD .table
  wrap := terminal
  colored := s.output.colored.getD terminal.isSome

end Invocation

def programName : String := "bayou"

def programVersion : String := "0.1.0"

def helpText : String :=
  "Code search and synthesis over a corpus of programs\n\n" ++
  "Usage: " ++ programName ++ " [OPTIONS] [COMMAND]\n\n" ++
  "Commands:\n" ++
  "  load        Load a corpus and print the load report\n" ++
  "  search      Rank corpus programs for every query embedding [aliases: s]\n" ++
  "  precision   Evaluate retrieval against labelled queries\n" ++
  "  synthesize  Synthesize programs for evidence\n" ++
  "  help        Print this message\n"

/-- What a notice prints to the standard output. -/
def Notice.text : Notice → String
  | usage => ""
  | help => helpText
  | version none => programName ++ " " ++ programVersion ++ "\n"
  | version (some name) => programName ++ "-" ++ name.text ++ " " ++ programVersion ++ "\n"

/-- A wrong use of the program ends with the status 2. -/
def Notice.status : Notice → Nat
  | usage => 2
  | _ => 0

end ProgramSearch.Command
