import ProgramSearch.Corpus.FileTree
import ProgramSearch.Corpus.Glob
import ProgramSearch.Text.Lines
import ProgramSearch.Text.Words

/-!
# Ignore files

An ignore file lists patterns for the paths below its directory; the last pattern that matches a
path decides. A pattern may take back what earlier ones ignore. The nearest directory whose file
has something to say about a path decides; `.ignore` files are asked before `.gitignore` files,
which count only inside a repository and only up to its top.
-/
namespace ProgramSearch

structure IgnoreRule where
  glob : Glob
  takesBack : Bool
  directoriesOnly : Bool
deriving Inhabited

inductive Verdict where
  | ignored
  | kept
deriving Repr, DecidableEq

namespace IgnoreRule

/-- A line without the blanks at its end; an escaped blank stays. -/
def trimLine (line : String) : List Char :=
  let cs := line.toList
  if line.endsWith "\\ " then cs else (cs.reverse.dropWhile Text.isBlank).reverse

/-- Splits the sign off a line: whether it takes back, whether it is anchored, and the pattern. -/
def splitSign (line : List Char) : Bool × Bool × List Char :=
  match line with
  | '\\' :: '!' :: rest => (false, false, '!' :: rest)
  | '\\' :: '#' :: rest => (false, false, '#' :: rest)
  | '!' :: '/' :: rest => (true, true, rest)
  | '!' :: rest => (true, false, rest)
  | '/' :: rest => (false, true, rest)
  | rest => (false, false, rest)

/-- Splits off the slash that restricts a pattern to directories. -/
def splitDirectory (pattern : List Char) : Bool × List Char :=
  match pattern.reverse with
  | '/' :: '\\' :: rest => (true, rest.reverse)
  | '/' :: rest => (true, rest.reverse)
  | _ => (false, pattern)

/-- Reads one line; comments, blank lines and malformed patterns give no rule. A pattern without
a slash matches at any depth, and one that ends in two stars matches only what lies inside. -/
def ofLine? (line : String) : Option IgnoreRule :=
  if line.startsWith "#" then none
  else
    let line := trimLine line
    if line.isEmpty then none
    else
      let (takesBack, anchored, pattern) := splitSign line
      let (directoriesOnly, pattern) := splitDirectory pattern
      let anywhere := !anchored && !pattern.contains '/' && pattern != ['*', '*']
      let pattern := if anywhere then ['*', '*', '/'] ++ pattern else pattern
      let pattern := if pattern.reverse.take 3 == ['*', '*', '/'] then pattern ++ ['/', '*'] else pattern
      (Glob.parse? (String.ofList pattern)).map fun glob => ⟨glob, takesBack, directoriesOnly⟩

/-- The rules of a file. Marks of byte order at its start do not count, and what follows a line
that is no text is not read. -/
def ofBytes (bytes : List UInt8) : List IgnoreRule :=
  match (Text.lines bytes).1 with
  | [] => []
  | line :: rest => ((line.dropWhile (· == '\uFEFF')).toString :: rest).filterMap ofLine?

/-- What the rules of one file say about a path below its directory. -/
def verdict? (rules : List IgnoreRule) (path : String) (isDirectory : Bool) : Option Verdict :=
  (rules.reverse.find? fun rule =>
    (!rule.directoriesOnly || isDirectory) && rule.glob.hits path).map fun rule =>
      if rule.takesBack then .kept else .ignored

end IgnoreRule

namespace FileTree

/-- The rules of an ignore file; a file that is not there has none. -/
def rules (t : FileTree) (path : Path) : List IgnoreRule :=
  match t.node? path with
  | some (.file bytes) => IgnoreRule.ofBytes bytes
  | _ => []

/-- The directories from the one that holds `path` up to the working directory, which holds no
path that leads out of it. -/
def holders (path : Path) : List Path :=
  let above := (List.range path.length).reverse.map fun n => path.take n
  if ["/", ".."].contains (path.headD "") then above.dropLast else above

def isRepository (t : FileTree) (directory : Path) : Bool :=
  (t.node? (directory ++ [".git"])).isSome

/-- The holders inside the repository of a path, up to the top of it. -/
def repositoryHolders (t : FileTree) : List Path → List Path
  | [] => []
  | directory :: above =>
    if t.isRepository directory then [directory] else directory :: t.repositoryHolders above

/-- The verdict of the nearest directory whose ignore file, at `name`, has one. -/
def nearest? (t : FileTree) (directories : List Path) (name : Path) (path : Path)
    (isDirectory : Bool) : Option Verdict :=
  directories.findSome? fun directory =>
    IgnoreRule.verdict? (t.rules (directory ++ name))
      ("/".intercalate (path.drop directory.length)) isDirectory

/-- Whether a walk leaves out an entry. A hidden entry is left out unless a pattern keeps it. -/
def isLeftOut (t : FileTree) (path : Path) (isDirectory : Bool) : Bool :=
  let holders := holders path
  let inRepository := holders.any t.isRepository
  let repository := if inRepository then t.repositoryHolders holders else []
  let verdict := t.nearest? holders [".ignore"] path isDirectory
    <|> t.nearest? repository [".gitignore"] path isDirectory
    <|> t.nearest? repository [".git", "info", "exclude"] path isDirectory
  match verdict with
  | some .ignored => true
  | some .kept => false
  | none => (path.getLast?.getD "").startsWith "."

end FileTree

end ProgramSearch
