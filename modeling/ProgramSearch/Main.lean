import ProgramSearch.Command.Run
import Std.Time.DateTime.Timestamp

/-!
# The program

Reads what a command line names into a file tree, carries out the request on it, and shows what
came of it. All decisions are made by the modules it imports.
-/
namespace ProgramSearch.CommandLine

open Command Report

def attempt {α : Type} (action : IO α) : IO (Option α) := do
  try
    return some (← action)
  catch _ =>
    return none

/-- The names in a directory; none if it is no directory. -/
def names? (path : String) : IO (Option (List String)) :=
  attempt do
    let entries ← (← IO.FS.realPath path).readDir
    return entries.toList.map (·.fileName)

/-- Whether the bytes of a file inside a directory can matter. -/
def matters (name : String) : Bool :=
  Corpus.isCorpusFile name || name.endsWith ".safetensors" ||
    [".ignore", ".gitignore", "exclude"].contains name

/-- Adds a file to a tree. -/
def addFile (t : FileTree) (place : Path) (path : String) : IO FileTree := do
  match ← attempt (IO.FS.readBinFile path) with
  | some bytes => return t.makeFile place bytes.data.toList
  | none => return t

/-- Adds all below a directory to a tree, down to some depth. -/
def addBelow : Nat → FileTree → Path → String → IO FileTree
  | 0, t, _, _ => return t
  | depth + 1, t, place, path => do
    match ← names? path with
    | none =>
      if matters (place.getLast?.getD "") then addFile t place path
      else return t.makeFile place []
    | some names =>
      names.foldlM (fun t name => addBelow depth t (place ++ [name]) (path ++ "/" ++ name))
        (t.makeDirectory place)

/-- Adds what a written path leads to: a file, or a directory with all below it. -/
def addSource (t : FileTree) (path : String) : IO FileTree := do
  match Path.ofString? path with
  | none => return t
  | some place =>
    match ← names? path with
    | some _ => addBelow 64 t place path
    | none => addFile t place path

/-- The written path of a directory above. -/
def written (place : Path) : String :=
  if place.isEmpty then "." else "/".intercalate place

/-- Adds the ignore files of the directories above a path. -/
def addRules (t : FileTree) (path : String) : IO FileTree := do
  let place := (Path.ofString? path).getD []
  (List.range place.length).foldlM (fun t n => do
    let above := place.take n
    let add (t : FileTree) (name : Path) := addFile t (above ++ name) (written (above ++ name))
    let t ← add t [".ignore"]
    let t ← add t [".gitignore"]
    let t ← add t [".git", "info", "exclude"]
    match ← names? (written (above ++ [".git"])) with
    | some _ => return t.makeDirectory (above ++ [".git"])
    | none => return t) t

/-- The directory that a file would be written into. -/
def addParent (t : FileTree) (path : String) : IO FileTree := do
  match Path.ofString? path with
  | none => return t
  | some place =>
    match ← names? (written place.dropLast) with
    | some _ => return t.makeDirectory place.dropLast
    | none => return t

/-- The part of the file system that an invocation is about. -/
def snapshot (i : Invocation) : IO FileTree := do
  let t ← addSource .empty (i.config.getD Settings.fileName)
  match i.request with
  | none => return t
  | some request =>
    request.sources.foldlM (fun t path => do
      addSource (← addRules (← addParent t path) path) path) t

def moment : IO Moment := do
  let now := (← Std.Time.Timestamp.now).val
  return ⟨now.second.val, now.nano.val.toNat⟩

/-- Waits for a result until a number of milliseconds has passed. -/
partial def await {α : Type} (task : Task α) (deadline : Option Nat) : IO (Option α) := do
  if ← IO.hasFinished task then return some task.get
  match deadline with
  | none => return some (← IO.wait task)
  | some end_ =>
    if end_ ≤ (← IO.monoMsNow) then return none
    IO.sleep 5
    await task deadline

/-- Carries out a request, and gives up when its time is over. -/
def carryOut (t : FileTree) (settings : Settings) (request : Request) :
    IO (Except Complaint Outcome) := do
  let started ← IO.monoMsNow
  let task := Task.spawn fun _ => request.run t settings
  let deadline := request.timeLimit.map fun seconds => started + 1000 * seconds
  match ← await task deadline with
  | some outcome => return outcome
  | none => return .error (.timedOut (request.timeLimit.getD 0))

/-- The width that a terminal is taken to have. -/
def terminalWidth : Nat := 80

def complain (c : Complaint) : IO UInt32 := do
  IO.eprint c.text
  return 1

/-- Writes what there is to write, and shows the rest. -/
def present (i : Invocation) (settings : Settings) (outcome : Outcome) (timing : Timing) :
    IO UInt32 := do
  let refusal ← match outcome.written with
    | none => pure none
    | some (path, text) => do
      match ← attempt (IO.FS.writeFile path text) with
      | some () => pure none
      | none => pure (some (Complaint.plain s!"Failed to write {path}"))
  match refusal with
  | some c => complain c
  | none =>
    let terminal := if ← (← IO.getStdout).isTty then some terminalWidth else none
    IO.print (outcome.result.text (i.presentation settings terminal) timing)
    return 0

def invoke (i : Invocation) : IO UInt32 := do
  match i.request with
  | none =>
    IO.print helpText
    return 0
  | some request =>
    let t ← snapshot i
    let settings := i.settings t
    let started ← IO.monoMsNow
    match ← carryOut t settings request with
    | .error c => complain c
    | .ok outcome =>
      let finished ← IO.monoMsNow
      present i settings outcome ⟨← moment, (finished - started).toFloat⟩

end ProgramSearch.CommandLine

def main (words : List String) : IO UInt32 := do
  match ProgramSearch.Command.Invocation.parse words with
  | .ok i => ProgramSearch.CommandLine.invoke i
  | .error notice =>
    if notice == .usage then
      IO.eprint ProgramSearch.Command.helpText
    IO.print notice.text
    return notice.status.toUInt32
