import ProgramSearch.Proofs.Corpus.Layouts
import ProgramSearch.Proofs.Program
import ProgramSearch.QueryFile

/-!
# Programs as queries

A program object can stand in a corpus file and in a query file. The embedding of a program that
the loader accepts is read in the same way from a query file, unless it is written as a matrix with
one row, which the loader flattens and a query file must not hold.
-/
namespace ProgramSearch.QueryFile

open Json

/-- The text of a document with one program, from the text of the program. -/
def document (program : String) : String := "\x7b\"programs\":[" ++ program ++ "]\x7d"

/-- The document that such a text is read as. -/
def documentOf (program : Doc) : Doc := .object [(.ok "programs", .array [program] none)] none

theorem document_eq (program : String) : document program = Corpus.programsFile [program] := by
  have hfront : "\x7b\"programs\":[" = "\x7b\"programs\":" ++ "[" := rfl
  have hback : "]\x7d" = "]" ++ "\x7d" := rfl
  rw [document, Corpus.programsFile, Corpus.arrayFile, String.intercalate_singleton, hfront, hback]
  simp only [String.append_assoc]

theorem reads_document {program : String} {d : Doc} (h : Reads program.toUTF8.data.toList d) :
    Reads (document program).toUTF8.data.toList (documentOf d) := by
  rw [document_eq]
  exact Corpus.reads_programsFile (.cons h .nil)

theorem content_documentOf (d : Doc) (room : Nat) :
    (documentOf d).content (room + 2) =
      (d.content room).map fun v => .object [("programs", .array [v])] := by
  simp only [documentOf, Doc.content, contentMembers, contentItems]
  cases d.content room <;> rfl

theorem layout_program (v : Json.Value) :
    layout (.object [("programs", .array [v])]) = .ok (.programs [v.normal]) := by
  have hencodings : encodings? (.object [("programs", .array [v])]) = none := rfl
  have hprograms : programs? (.object [("programs", .array [v])]) = some [v.normal] := rfl
  rw [layout, hencodings, hprograms]

/-- A query file with one program gives the query of this program. -/
theorem parse_document {program : String} {d : Doc} (h : Reads program.toUTF8.data.toList d)
    (field : String) :
    parse (document program) field =
      match d.value (maxDepth - 2) with
      | .error fault => .error (.json fault)
      | .ok p => (ofProgram field 0 p).map fun q => [q] := by
  have hcontent : (documentOf d).content maxDepth =
      (d.content (maxDepth - 2)).map fun v => .object [("programs", .array [v])] :=
    content_documentOf d (maxDepth - 2)
  rw [parse, Document.ofString, (reads_document h).ofBytes, Document.decode, hcontent, Doc.value]
  cases d.content (maxDepth - 2) with
  | error fault => rfl
  | ok v =>
    change _ = (ofProgram field 0 v.normal).map fun q => [q]
    simp only [Except.map, ok_bind, layout_program, Bool.false_eq_true, if_false,
      List.zipIdx_singleton, List.mapM_cons, List.mapM_nil]
    cases ofProgram field 0 v.normal <;> rfl

theorem programs_documentOf (d : Doc) :
    Corpus.programs maxDepth (documentOf d) =
      match d.value (maxDepth - 2) with
      | .error fault => ([], some fault)
      | .ok p => ([p], none) := by
  simp only [documentOf, maxDepth, Corpus.programs, Corpus.memberPrograms, Corpus.elements,
    beq_self_eq_true, if_true]
  cases d.value 125 <;> rfl

/-- A corpus file with one program offers this program. -/
theorem documentItems_document {program : String} {d : Doc}
    (h : Reads program.toUTF8.data.toList d) :
    Corpus.documentItems (document program).toUTF8.data.toList =
      match d.value (maxDepth - 2) with
      | .error _ => ([], false)
      | .ok p => ([.program p], true) := by
  rw [Corpus.documentItems, (reads_document h).ofBytes, programs_documentOf]
  cases d.value (maxDepth - 2) <;> rfl

/-- A matrix with one row. -/
def isRow : Json.Value → Bool
  | .array [.array _] => true
  | _ => false

theorem embedding_of_flat {v : Json.Value} (flat : isRow v = false) :
    Program.embedding v = v.list Value.single := by
  rw [Program.embedding]
  intro row heq
  rw [heq] at flat
  contradiction

theorem list_of_row {v : Json.Value} (row : isRow v = true) :
    v.list Value.single = .error (.wrongType "sequence" "f32") := by
  unfold isRow at row
  split at row
  · rfl
  · contradiction

/-- The field of a program that the loader accepts. -/
theorem embedding_of_parse {field : String} {p : Json.Value} {record : Record} {e : Embedding}
    (accepted : Program.parse field p = .ok (record, e)) :
    ∃ v, p.get? field = some v ∧ Program.embedding v = .ok e := by
  obtain ⟨members, rfl⟩ := Program.exists_members_of_parse accepted
  obtain ⟨v, hv, he, -⟩ := Program.parse_object_eq_ok_iff.mp accepted
  exact ⟨v, hv, he⟩

theorem metadata_of_ofProgram {field : String} {index : Nat} {p : Json.Value} {q : Query}
    (h : ofProgram field index p = .ok q) : q.metadata = p := by
  rw [ofProgram] at h
  split at h
  · contradiction
  · split at h
    · rw [← Except.ok.inj h]
    · contradiction

/-- A program that the loader accepts makes a query unless its field is a matrix with one row. -/
theorem ofProgram_of_parse {field : String} {p : Json.Value} {record : Record} {e : Embedding}
    (accepted : Program.parse field p = .ok (record, e)) (index : Nat) :
    ofProgram field index p =
      if (p.get? field).any isRow then .error (.json (.wrongType "sequence" "f32"))
      else .ok ⟨e, p⟩ := by
  obtain ⟨v, hv, he⟩ := embedding_of_parse accepted
  rw [ofProgram, hv]
  cases row : isRow v with
  | true => simp [list_of_row row, row]
  | false =>
    rw [embedding_of_flat row] at he
    simp [he, row]

/-- Some text is that of a program which the loader accepts. Then the document with this program is
a query file with one query, which has the embedding that the loader finds and the program itself
as its metadata, exactly if the loader finds the program in the document too, so that this does not
nest too deep, and the field is not a matrix with one row. Such a matrix, which the loader
flattens, spoils the query file. -/
theorem parse_document_iff {program field : String} {p : Json.Value} {record : Record}
    {e : Embedding} (read : Json.parse program = .ok p)
    (accepted : Program.parse field p = .ok (record, e)) :
    (parse (document program) field = .ok [⟨e, p⟩] ↔
      Corpus.documentItems (document program).toUTF8.data.toList = ([.program p], true) ∧
        (p.get? field).any isRow = false) ∧
      (Corpus.documentItems (document program).toUTF8.data.toList = ([.program p], true) →
        (p.get? field).any isRow = true →
        parse (document program) field = .error (.json (.wrongType "sequence" "f32"))) := by
  have hreads := Reads.of_parse read
  have hquery := ofProgram_of_parse accepted 0
  rw [parse_document hreads, documentItems_document hreads]
  cases hvalue : (Document.ofString program).root.value (maxDepth - 2) with
  | error fault => simp
  | ok p' =>
    have hitems : ([.program p'], true) = ([Corpus.Item.program p], true) ↔ p' = p := by simp
    simp only [hitems]
    constructor
    · constructor
      · intro h
        cases hq : ofProgram field 0 p' with
        | error failure =>
          rw [hq] at h
          contradiction
        | ok q =>
          rw [hq] at h
          obtain rfl : q = ⟨e, p⟩ := by simpa [Except.map] using h
          obtain rfl : p = p' := metadata_of_ofProgram hq
          refine ⟨rfl, ?_⟩
          cases row : (p.get? field).any isRow with
          | false => rfl
          | true =>
            rw [hquery, row] at hq
            contradiction
      · rintro ⟨rfl, flat⟩
        rw [hquery, flat]
        rfl
    · rintro rfl row
      rw [hquery, row]
      rfl

/-- The text of a small program with the given text for its embedding. -/
def sampleText (embedding : String) : String :=
  "\x7b\"file\":\"A\",\"method\":\"m\",\"b2\":" ++ embedding ++ "\x7d"

/-- The program of such a text. -/
def sampleProgram (embedding : Json.Value) : Json.Value :=
  .object [("b2", embedding), ("file", .string "A"), ("method", .string "m")]

def sampleRecord : Record := ⟨"A", "m", "", ⟨sortedSet [], [], none⟩⟩

/-- A flat embedding is read alike by both. -/
theorem parse_document_of_flat :
    Json.parse (sampleText "[1,2]") = .ok (sampleProgram (.array [.nat 1, .nat 2])) ∧
      Program.parse "b2" (sampleProgram (.array [.nat 1, .nat 2])) =
        .ok (sampleRecord, [1.0, 2.0]) ∧
      parse (document (sampleText "[1,2]")) "b2" =
        .ok [⟨[1.0, 2.0], sampleProgram (.array [.nat 1, .nat 2])⟩] := by
  have read : Json.parse (sampleText "[1,2]") =
      .ok (sampleProgram (.array [.nat 1, .nat 2])) := rfl
  have accepted : Program.parse "b2" (sampleProgram (.array [.nat 1, .nat 2])) =
      .ok (sampleRecord, [1.0, 2.0]) := rfl
  exact ⟨read, accepted, (parse_document_iff read accepted).1.mpr ⟨rfl, rfl⟩⟩

/-- The loader takes a matrix with one row, and finds the program in the document too, which is no
query file. -/
theorem parse_document_of_row :
    Json.parse (sampleText "[[1,2]]") = .ok (sampleProgram (.array [.array [.nat 1, .nat 2]])) ∧
      Program.parse "b2" (sampleProgram (.array [.array [.nat 1, .nat 2]])) =
        .ok (sampleRecord, [1.0, 2.0]) ∧
      Corpus.documentItems (document (sampleText "[[1,2]]")).toUTF8.data.toList =
        ([.program (sampleProgram (.array [.array [.nat 1, .nat 2]]))], true) ∧
      parse (document (sampleText "[[1,2]]")) "b2" =
        .error (.json (.wrongType "sequence" "f32")) :=
  ⟨rfl, rfl, rfl, rfl⟩

end ProgramSearch.QueryFile
