import ProgramSearch.Corpus.Load
import ProgramSearch.Report.Moment
import ProgramSearch.Report.Presentation

/-!
# Load results

The counters of a load, with where and when the corpus was read.
-/
namespace ProgramSearch.Report

open Json

structure LoadSummary where
  location : String
  loadedAt : Moment
  dimension : Nat
  report : LoadReport
  milliseconds : Float

namespace LoadSummary

/-- The counters as members of an object. -/
def counters (r : LoadReport) : List (String × Value) :=
  [("files_seen", .nat r.filesSeen), ("files_parsed", .nat r.filesParsed),
    ("files_failed", .nat r.filesFailed), ("files_skipped", .nat r.filesSkipped),
    ("records_accepted", .nat r.recordsAccepted), ("records_skipped", .nat r.recordsSkipped),
    ("shards", .nat r.shards), ("timed_out", .bool r.timedOut)]

/-- Reads the counters of a load and its duration. -/
def readReport (v : Value) : Except Fault (LoadReport × Float) := do
  let v ← v.fields "LoadReport" ["files_seen", "files_parsed", "files_failed", "files_skipped",
    "records_accepted", "records_skipped", "shards", "timed_out", "duration_ms"]
  let milliseconds ← v.field? "duration_ms" Value.double
  let filesFailed ← v.field? "files_failed" Value.count
  let filesParsed ← v.field? "files_parsed" Value.count
  let filesSeen ← v.field? "files_seen" Value.count
  let filesSkipped ← v.field? "files_skipped" Value.count
  let recordsAccepted ← v.field? "records_accepted" Value.count
  let recordsSkipped ← v.field? "records_skipped" Value.count
  let shards ← v.field? "shards" Value.count
  let timedOut ← v.field? "timed_out" Value.flag
  let report : LoadReport :=
    { filesSeen := ← required "files_seen" filesSeen
      filesParsed := ← required "files_parsed" filesParsed
      filesFailed := ← required "files_failed" filesFailed
      filesSkipped := ← required "files_skipped" filesSkipped
      recordsAccepted := ← required "records_accepted" recordsAccepted
      recordsSkipped := ← required "records_skipped" recordsSkipped
      shards := ← required "shards" shards
      timedOut := ← required "timed_out" timedOut }
  return (report, ← required "duration_ms" milliseconds)

def json (s : LoadSummary) : Value :=
  .object ([("location", .string s.location), ("loaded_at", .string s.loadedAt.stamp),
    ("dimension", .nat s.dimension)] ++ counters s.report ++
    [("duration_ms", .number (.double s.milliseconds))])

def text (s : LoadSummary) (p : Presentation) : String :=
  let r := s.report
  let pairs := [("Files seen", toString r.filesSeen), ("Files parsed", toString r.filesParsed),
    ("Files failed", toString r.filesFailed), ("Files skipped", toString r.filesSkipped),
    ("Records", toString r.recordsAccepted), ("Records skipped", toString r.recordsSkipped),
    ("Shards", toString r.shards), ("Dimension", toString s.dimension),
    ("Duration", (Decimal.readDouble s.milliseconds).fixed 1 ++ "ms"),
    ("Loaded at", s.loadedAt.text)]
  let warning := if r.timedOut then
      "\n" ++ p.emphasize .caution "WARNING:" ++
        " load deadline passed; remaining files were skipped"
    else ""
  p.emphasize .title "CORPUS:" ++ " " ++ s.location ++ "\n" ++ labelled pairs ++ warning

def render (s : LoadSummary) (p : Presentation) : String :=
  match p.format with
  | .table => s.text p
  | .json => s.json.pretty

end LoadSummary

end ProgramSearch.Report
