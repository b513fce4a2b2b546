import ProgramSearch.Failure

/-!
# File trees

Files with their bytes, and directories, held in memory. Paths are relative to the working
directory, whose own path is empty; `.` and empty components do not count, and `..` leads one level
up. An absolute path begins with the component `/`, and a path that leaves the working directory
with one or more `..`.
-/
namespace ProgramSearch

abbrev Path := List String

inductive FileNode where
  | file (bytes : List UInt8)
  | directory
deriving Inhabited

structure FileTree where
  nodes : List (Path × FileNode)
deriving Inhabited

namespace Path

/-- One level up. The root is above itself. -/
def parent : Path → Path
  | [] => [".."]
  | ["/"] => ["/"]
  | path => if path.getLast? == some ".." then path ++ [".."] else path.dropLast

/-- Follows one component of a written path. -/
def follow (path : Path) (part : String) : Path :=
  if part == "" || part == "." then path
  else if part == ".." then path.parent
  else path ++ [part]

/-- The components of a written path, which must not be empty. -/
def ofString? (text : String) : Option Path :=
  if text.isEmpty then none
  else some ((text.splitOn "/").foldl follow (if text.startsWith "/" then ["/"] else []))

/-- Whether a written path can only mean a directory. -/
def namesDirectory (text : String) : Bool := text.endsWith "/" || text.endsWith "/."

/-- The extension of a file name: what follows the last dot, unless that dot comes first. -/
def extension? (name : String) : Option String :=
  let cs := name.toList.reverse
  let ext := cs.takeWhile (· != '.')
  match cs.drop ext.length with
  | '.' :: _ :: _ => some (String.ofList ext.reverse)
  | _ => none

end Path

namespace FileTree

def empty : FileTree := ⟨[]⟩

def node? (t : FileTree) (path : Path) : Option FileNode :=
  if path.isEmpty then some .directory else t.nodes.lookup path

/-- Makes a directory with all those above it. -/
def makeDirectory (t : FileTree) (path : Path) : FileTree :=
  (List.range path.length).foldl (fun t i =>
    let above := path.take (i + 1)
    if (t.node? above).isSome then t else ⟨t.nodes ++ [(above, .directory)]⟩) t

/-- Writes a file, making the directories above it. -/
def makeFile (t : FileTree) (path : Path) (bytes : List UInt8) : FileTree :=
  let t := t.makeDirectory path.dropLast
  ⟨t.nodes.filter (·.1 != path) ++ [(path, .file bytes)]⟩

/-- The node that a written path leads to. -/
def find? (t : FileTree) (text : String) : Option FileNode :=
  match (Path.ofString? text).bind t.node? with
  | some (.file bytes) => if Path.namesDirectory text then none else some (.file bytes)
  | node => node

/-- Whether a file stands where a path wants a directory. -/
def isBlocked (t : FileTree) (path : Path) : Bool :=
  (List.range path.length).any fun n =>
    match t.node? (path.take n) with
    | some (.file _) => true
    | _ => false

/-- The bytes of a file. -/
def readBytes (t : FileTree) (text : String) : Except FileFault (List UInt8) :=
  match t.find? text with
  | some (.file bytes) => .ok bytes
  | some .directory => .error .isDirectory
  | none =>
    match Path.ofString? text with
    | some path =>
      if t.isBlocked path || (t.node? path).isSome then .error .notDirectory else .error .notFound
    | none => .error .notFound

/-- The text of a file, which must be UTF-8. -/
def readText (t : FileTree) (text : String) : Except FileFault String := do
  let bytes ← t.readBytes text
  match String.fromUTF8? ⟨bytes.toArray⟩ with
  | some s => .ok s
  | none => .error .notText

/-- Writes a file into a directory that must exist. -/
def writeText (t : FileTree) (text content : String) : Except FileFault FileTree :=
  match Path.ofString? text with
  | none | some [] => .error .notFound
  | some path =>
    match t.node? path, t.node? path.dropLast with
    | some .directory, _ => .error .isDirectory
    | _, some .directory => .ok (t.makeFile path content.toUTF8.data.toList)
    | _, some (.file _) => .error .notDirectory
    | _, none => .error .notFound

end FileTree

end ProgramSearch
