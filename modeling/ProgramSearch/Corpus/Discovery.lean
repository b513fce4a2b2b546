import ProgramSearch.Corpus.Ignore

/-!
# Discovering corpus files

A corpus is a single file or all files below a directory whose extension marks them as corpus
files and which no ignore rule leaves out, sorted component by component. Only a window of them
is read.
-/
namespace ProgramSearch

/-- Which files of a corpus are read, counted from 1; no end means all that follow. -/
structure Window where
  first : Nat
  last : Option Nat
deriving Repr, DecidableEq

def Window.cut {α : Type} (w : Window) (files : List α) : List α :=
  (files.take (w.last.getD files.length)).drop (w.first - 1)

namespace Corpus

def lowerAscii (s : String) : String := s.map Char.toLower

/-- The extension of the last component of a written path, in lower case. -/
def extensionOf? (text : String) : Option String :=
  (((text.splitOn "/").filter fun part => part != "" && part != ".").getLast?.bind
    Path.extension?).map lowerAscii

def isCorpusFile (text : String) : Bool :=
  match extensionOf? text with
  | some e => ["json", "jsonl", "ndjson"].contains e
  | none => false

/-- Files that hold one program on each line. -/
def isLineDelimited (text : String) : Bool :=
  match extensionOf? text with
  | some e => e == "jsonl" || e == "ndjson"
  | none => false

/-- The lexicographic order of components. -/
def pathBefore : Path → Path → Bool
  | [], _ => true
  | _ :: _, [] => false
  | a :: as, b :: bs => if a == b then pathBefore as bs else decide (a < b)

/-- Whether a walk from `root` reaches a path: neither it nor a directory on the way to it is
left out. -/
def isReached (t : FileTree) (root path : Path) : Bool :=
  (List.range (path.length - root.length)).all fun i =>
    let n := root.length + i + 1
    !t.isLeftOut (path.take n) (n < path.length)

/-- The files below a directory that a walk reaches, relative to it, sorted. -/
def walk (t : FileTree) (root : Path) : List Path :=
  let below := t.nodes.filterMap fun (path, node) =>
    match node with
    | .file _ =>
      if root.isPrefixOf path && root.length < path.length && isReached t root path then
        some (path.drop root.length)
      else none
    | .directory => none
  below.mergeSort pathBefore

/-- The written path of a file below a location. -/
def join (location : String) (below : Path) : String :=
  (if location.endsWith "/" then location else location ++ "/") ++ "/".intercalate below

/-- All corpus files of a location, sorted. -/
def filesAt (t : FileTree) (location : String) : Except Failure (List String) :=
  match t.find? location with
  | none => .error (.file (.pathMissing location))
  | some (.file _) => .ok (if isCorpusFile location then [location] else [])
  | some .directory =>
    let root := (Path.ofString? location).getD []
    .ok (((walk t root).filter fun below => isCorpusFile ("/".intercalate below)).map (join location))

/-- The window of corpus files at a location, and how many there were. -/
def discover (t : FileTree) (location : String) (window : Window) :
    Except Failure (List String × Nat) := do
  let files ← filesAt t location
  return (window.cut files, files.length)

end Corpus

end ProgramSearch
