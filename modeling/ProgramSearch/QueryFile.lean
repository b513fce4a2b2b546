import ProgramSearch.Corpus.FileTree
import ProgramSearch.Query

/-!
# Query files

A query file holds either encodings alone, under `psis_encs`, or programs, under `programs`, each
with its embedding in a field that the caller names. A program is kept whole as the metadata of
its query.
-/
namespace ProgramSearch.QueryFile

open Json

/-- The two layouts, of which the first that fits counts. -/
inductive Layout where
  | encodings (vectors : List Embedding)
  | programs (programs : List Value)

/-- The one member of a name in an object, as a layout wants it; a repeated member spoils the
layout. -/
def soleMember? (v : Value) (key : String) : Option Value :=
  match v with
  | .object members =>
    match members.filter (·.1 == key) with
    | [(_, v)] => some v
    | _ => none
  | _ => none

def encodings? (v : Value) : Option (List Embedding) :=
  match soleMember? v "psis_encs" with
  | some vectors => (vectors.list (Value.list Value.single)).toOption
  | none => none

def programs? (v : Value) : Option (List Value) :=
  match soleMember? v "programs" with
  | some (.array items) => some (items.map Value.normal)
  | _ => none

def layout (v : Value) : Except Fault Layout :=
  match encodings? v, programs? v with
  | some vectors, _ => .ok (.encodings vectors)
  | none, some programs => .ok (.programs programs)
  | none, none => .error (.noMatchingLayout "QueryFile")

/-- The query of one program, whose number is `index`. -/
def ofProgram (field : String) (index : Nat) (program : Value) : Except Failure Query :=
  match program.get? field with
  | none => .error (.batch (.noField index field))
  | some v =>
    match v.list Value.single with
    | .ok embedding => .ok ⟨embedding, program⟩
    | .error fault => .error (.json fault)

/-- Reads the queries of a file's text. -/
def parse (text : String) (field : String) : Except Failure (List Query) :=
  match (Document.ofString text).decode (Doc.content maxDepth) with
  | .error fault => .error (.json fault)
  | .ok v =>
    match layout v with
    | .error fault => .error (.json fault)
    | .ok (.encodings vectors) => .ok (vectors.map fun v => ⟨v, .null⟩)
    | .ok (.programs programs) =>
      programs.zipIdx.mapM fun (program, index) => ofProgram field index program

/-- Reads the queries of a file. -/
def load (t : FileTree) (path field : String) : Except Failure (List Query) :=
  match t.readText path with
  | .error fault => .error (.file fault)
  | .ok text => parse text field

end ProgramSearch.QueryFile
