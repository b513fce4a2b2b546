import ProgramSearch.Corpus.Reader

/-!
# Loading a corpus

The files of the window are read one by one, and their shards are joined in file order.
-/
namespace ProgramSearch

/-- Counters of a finished load. -/
structure LoadReport where
  filesSeen : Nat
  filesParsed : Nat
  filesFailed : Nat
  filesSkipped : Nat
  recordsAccepted : Nat
  recordsSkipped : Nat
  shards : Nat
  timedOut : Bool
deriving Repr, DecidableEq, Inhabited

structure LoadedCorpus where
  database : Database
  report : LoadReport

namespace Corpus

/-- A time limit of zero has passed before the first file is started. -/
def readOrSkip (t : FileTree) (settings : LoadSettings) (path : String) : FileOutcome :=
  if settings.timeLimit == some 0 then ⟨path, [], 0, 0, .notStarted⟩
  else loadFile t settings path

/-- The report on some outcomes. -/
def reportOf (seen : Nat) (outcomes : List FileOutcome) (shards : Nat) : LoadReport :=
  let count (status : FileStatus) := outcomes.countP fun o => o.status == status
  { filesSeen := seen
    filesParsed := count .parsed
    filesFailed := count .failed
    filesSkipped := count .notStarted
    recordsAccepted := (outcomes.map (·.accepted)).foldr (· + ·) 0
    recordsSkipped := (outcomes.map (·.skipped)).foldr (· + ·) 0
    shards
    timedOut := 0 < count .notStarted }

/-- Loads the files of the window. A load that yields nothing fails, unless time ran out. -/
def readAll (t : FileTree) (settings : LoadSettings) : Except Failure LoadedCorpus := do
  let (files, seen) ← discover t settings.location settings.window
  let outcomes := files.map (readOrSkip t settings)
  let database ← (outcomes.flatMap (·.shards)).foldlM Database.pushShard
    (Database.empty settings.dimension)
  let report := reportOf seen outcomes database.shards.size
  if database.isEmpty && !report.timedOut then .error (.emptyCorpus settings.location)
  else return ⟨database, report⟩

end Corpus

end ProgramSearch
