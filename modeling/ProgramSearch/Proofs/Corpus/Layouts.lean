import ProgramSearch.Proofs.Corpus.Collecting
import ProgramSearch.Proofs.Corpus.Names
import ProgramSearch.Proofs.Json.Blanks
import ProgramSearch.Proofs.Json.Depth
import ProgramSearch.Proofs.Text.Lines

/-!
# The layouts of a corpus file

A corpus file is an array of programs, an object that holds such an array under `programs`, or has
one program on each line. The same texts lead to the same shards and counts in each of the three.
-/
namespace ProgramSearch.Corpus

open Json Text

/-- A text of one value that can stand on a line, and inside an array that is inside an object. -/
structure IsElement (text : String) : Prop where
  parses : ∃ v, Json.parse text = .ok v
  one_line : '\n' ∉ text.toList
  shallow : (Document.ofString text).root.depth ≤ 125

/-- A file with an array. -/
def arrayFile (texts : List String) : String := "[" ++ ",".intercalate texts ++ "]"

/-- A file with an object that holds an array of programs. -/
def programsFile (texts : List String) : String :=
  "\x7b\"programs\":" ++ arrayFile texts ++ "\x7d"

/-- A file with one text on each line; the last line may go without its end. -/
def linesFile (texts : List String) (ended : Bool) : String :=
  "\n".intercalate texts ++ if ended then "\n" else ""

section Documents

variable {texts : List String} {docs : List Doc} {vs : List Value}

theorem utf8_intercalate (text : String) (texts : List String) :
    utf8 (",".intercalate (text :: texts)) = utf8 text ++ othersText (texts.map utf8) := by
  induction texts generalizing text with
  | nil => simp [othersText]
  | cons next texts ih =>
    rw [String.intercalate_cons_cons, utf8_append, utf8_append, ih, List.append_assoc]
    rfl

theorem utf8_arrayFile (texts : List String) :
    utf8 (arrayFile texts) = arrayText (texts.map utf8) := by
  have hopen : utf8 "[" = [Byte.openBracket] := rfl
  have hclose : utf8 "]" = [Byte.closeBracket] := rfl
  rw [arrayFile, utf8_append, utf8_append, hopen, hclose]
  cases texts with
  | nil => rfl
  | cons text texts =>
    rw [utf8_intercalate, List.map_cons, arrayText, List.append_assoc, List.append_assoc]
    rfl

theorem utf8_programsFile (texts : List String) :
    utf8 (programsFile texts) =
      objectText [memberText (utf8 "programs") (utf8 (arrayFile texts))] := by
  have hfront : utf8 "\x7b\"programs\":" =
      Byte.openBrace :: Byte.quote :: (utf8 "programs" ++ [Byte.quote, Byte.colon]) := rfl
  have hback : utf8 "\x7d" = [Byte.closeBrace] := rfl
  rw [programsFile, utf8_append, utf8_append, hfront, hback, objectText, memberText, othersText]
  simp only [List.cons_append, List.append_assoc, List.nil_append, List.flatMap_nil]

theorem reads_arrayFile (h : List.Forall₂ Reads (texts.map utf8) docs) :
    Reads (utf8 (arrayFile texts)) (.array docs none) := by
  rw [utf8_arrayFile]
  exact Reads.array h

theorem reads_programsFile (h : List.Forall₂ Reads (texts.map utf8) docs) :
    Reads (utf8 (programsFile texts)) (.object [(.ok "programs", .array docs none)] none) := by
  rw [utf8_programsFile]
  have hmember := @ReadsMember.intro [] (utf8 "programs") _ _ _ rfl rfl (reads_arrayFile h)
  exact Reads.object (.cons hmember .nil)

theorem elements_of_values {room : Nat}
    (h : List.Forall₂ (fun d v => d.value room = .ok v) docs vs) :
    elements room none docs = (vs, none) := by
  induction h with
  | nil => rfl
  | cons hvalue _ ih => rw [elements, hvalue, ih]

/-- The programs of an object that holds nothing but an array of them. -/
theorem programs_member {room : Nat} {d : Doc} (h : programs room d = (vs, none)) :
    programs (room + 1) (.object [(.ok "programs", d)] none) = (vs, none) := by
  rw [programs, memberPrograms, if_pos (beq_self_eq_true _), h]
  simp [memberPrograms]

theorem documentItems_of_reads {bytes : List UInt8} {d : Doc} (h : Reads bytes d)
    (hprograms : programs maxDepth d = (vs, none)) :
    documentItems bytes = (vs.map .program, true) := by
  rw [documentItems, h.ofBytes, hprograms]
  rfl

/-- An element has the same value wherever it can stand. -/
theorem IsElement.exists_doc {text : String} (h : IsElement text) :
    ∃ d v, Reads (utf8 text) d ∧ Json.parse text = .ok v ∧
      ∀ room, 125 ≤ room → d.value room = .ok v := by
  obtain ⟨v, hparse⟩ := h.parses
  have hreads := Reads.of_parse hparse
  refine ⟨_, v, hreads, hparse, fun room enough => ?_⟩
  rw [hreads.parse] at hparse
  rw [← hparse]
  exact value_of_depth_le (h.shallow.trans enough) (h.shallow.trans (by decide))

theorem exists_docs (h : ∀ text ∈ texts, IsElement text) :
    ∃ docs vs, List.Forall₂ Reads (texts.map utf8) docs ∧
      List.Forall₂ (fun text v => Json.parse text = .ok v) texts vs ∧
      ∀ room, 125 ≤ room → List.Forall₂ (fun d v => d.value room = .ok v) docs vs := by
  induction texts with
  | nil => exact ⟨[], [], .nil, .nil, fun _ _ => .nil⟩
  | cons text texts ih =>
    obtain ⟨d, v, hreads, hparse, hvalue⟩ := (h text List.mem_cons_self).exists_doc
    obtain ⟨docs, vs, hdocs, hvs, hvalues⟩ :=
      ih fun text hmem => h text (List.mem_cons_of_mem _ hmem)
    exact ⟨d :: docs, v :: vs, .cons hreads hdocs, .cons hparse hvs,
      fun room enough => .cons (hvalue room enough) (hvalues room enough)⟩

theorem programs_array {room : Nat} (h : List.Forall₂ (fun d v => d.value room = .ok v) docs vs) :
    programs (room + 1) (.array docs none) = (vs, none) := by
  rw [programs]
  exact elements_of_values h

end Documents

section Lines

variable {texts : List String} {vs : List Value} {line : String} {v : Value}

theorem isBlank_of_isEmpty_trim (h : (trim line).isEmpty = true) :
    ∀ c ∈ line.toList, isBlank c = true := by
  have hnil : trim line = "" := by simpa using h
  have hlist := congrArg String.toList hnil
  rw [trim, String.toList_ofList] at hlist
  have hback := List.dropWhile_eq_nil_iff.mp (List.reverse_eq_nil_iff.mp hlist)
  intro c hc
  rw [← List.takeWhile_append_dropWhile (p := isBlank) (l := line.toList)] at hc
  rcases List.mem_append.mp hc with hfront | hbehind
  · exact List.mem_takeWhile_imp hfront
  · exact hback c (List.mem_reverse.mpr hbehind)

/-- The text of a value is not blank. -/
theorem lineItem?_of_parse (h : Json.parse line = .ok v) : lineItem? line = some (.program v) := by
  have hvisible : ¬ (trim line).isEmpty = true := by
    intro hempty
    obtain ⟨b, hb, hlow, hhigh⟩ := (Reads.of_parse h).exists_visible
    obtain ⟨c, hc, hnumber⟩ := exists_char_of_mem_utf8 hb (by omega)
    have hblank := isBlank_of_isEmpty_trim hempty c hc
    simp [isBlank] at hblank
    omega
  rw [lineItem?, if_neg hvisible, h]

/-- A carriage return behind the text of a value makes no difference. -/
theorem parse_of_parse_append_return (h : Json.parse (line ++ "\r") = .ok v) :
    Json.parse line = .ok v := by
  have hreads := Reads.of_parse h
  have hvalue := hreads.parse
  have hfront : utf8 (line ++ "\r") = utf8 line ++ [0x0D] := utf8_append line "\r"
  rw [← utf8, hfront] at hreads
  rw [((reads_append_blank_iff rfl).mp hreads).parse, ← hvalue, h]

theorem lineItems_line (one_line : '\n' ∉ line.toList) (h : Json.parse line = .ok v)
    (rest : List UInt8) :
    lineItems (utf8 line ++ 0x0A :: rest) =
      (.program v :: (lineItems rest).1, (lineItems rest).2) := by
  obtain ⟨t, ht, hlines⟩ := lines_utf8 one_line rest
  have hparse : Json.parse t = .ok v := by
    rcases ht with rfl | rfl
    · exact h
    · exact parse_of_parse_append_return h
  rw [lineItems, hlines, lineItems]
  simp only [List.filterMap_cons_some (lineItem?_of_parse hparse)]

theorem lineItems_last (one_line : '\n' ∉ line.toList) (h : Json.parse line = .ok v) :
    lineItems (utf8 line) = ([.program v], true) := by
  have hne : line ≠ "" := by
    rintro rfl
    contradiction
  rw [lineItems, lines_utf8_last one_line hne]
  simp [lineItem?_of_parse h]

theorem utf8_linesFile_cons (text next : String) (texts : List String) (ended : Bool) :
    utf8 (linesFile (text :: next :: texts) ended) =
      utf8 text ++ 0x0A :: utf8 (linesFile (next :: texts) ended) := by
  rw [linesFile, String.intercalate_cons_cons, String.append_assoc, String.append_assoc,
    utf8_append, utf8_append, linesFile]
  rfl

theorem lineItems_linesFile (one_line : ∀ text ∈ texts, '\n' ∉ text.toList)
    (h : List.Forall₂ (fun text v => Json.parse text = .ok v) texts vs) (ended : Bool) :
    lineItems (utf8 (linesFile texts ended)) = (vs.map .program, true) := by
  induction h with
  | nil => cases ended <;> rfl
  | @cons text v texts vs hparse hothers ih =>
    have htext := one_line text List.mem_cons_self
    cases hothers with
    | nil =>
      rw [linesFile, String.intercalate_singleton]
      cases ended with
      | false =>
        rw [if_neg Bool.false_ne_true, String.append_empty]
        exact lineItems_last htext hparse
      | true =>
        rw [if_pos rfl, utf8_append]
        exact lineItems_line htext hparse []
    | cons hnext hothers =>
      rw [utf8_linesFile_cons, lineItems_line htext hparse,
        ih fun text hmem => one_line text (List.mem_cons_of_mem _ hmem)]
      rfl

end Lines

section Layouts

variable {texts : List String}

/-- The programs of a list of texts can be laid out as an array, as an object with an array, or one
on each line: all of them are read, and the shards and the counts are the same. -/
theorem loadFile_layouts (h : ∀ text ∈ texts, IsElement text) (ended : Bool)
    (settings : LoadSettings) {t t' t'' : FileTree} {array programs lines : String}
    (document : isLineDelimited array = false) (document' : isLineDelimited programs = false)
    (delimited : isLineDelimited lines = true)
    (read : t.readBytes array = .ok (utf8 (arrayFile texts)))
    (read' : t'.readBytes programs = .ok (utf8 (programsFile texts)))
    (read'' : t''.readBytes lines = .ok (utf8 (linesFile texts ended))) :
    ∃ shards accepted skipped, accepted + skipped = texts.length ∧
      loadFile t settings array = ⟨array, shards, accepted, skipped, .parsed⟩ ∧
      loadFile t' settings programs = ⟨programs, shards, accepted, skipped, .parsed⟩ ∧
      loadFile t'' settings lines = ⟨lines, shards, accepted, skipped, .parsed⟩ := by
  obtain ⟨docs, vs, hdocs, hparse, hvalues⟩ := exists_docs h
  have harray : items array (utf8 (arrayFile texts)) = (vs.map .program, true) := by
    rw [items, document]
    exact documentItems_of_reads (reads_arrayFile hdocs) (programs_array (hvalues 126 (by decide)))
  have hprograms : items programs (utf8 (programsFile texts)) = (vs.map .program, true) := by
    rw [items, document']
    exact documentItems_of_reads (reads_programsFile hdocs)
      (programs_member (programs_array (hvalues 125 (by decide))))
  have hlines : items lines (utf8 (linesFile texts ended)) = (vs.map .program, true) := by
    rw [items, delimited]
    exact lineItems_linesFile (fun text hmem => (h text hmem).one_line) hparse ended
  rw [loadFile_of_readBytes read, loadFile_of_readBytes read', loadFile_of_readBytes read'',
    harray, hprograms, hlines]
  refine ⟨_, _, _, ?_, rfl, rfl, rfl⟩
  have hle := length_entriesOf_le settings.embeddingField settings.dimension
    (vs.map Item.program)
  rw [Nat.add_sub_cancel' hle, List.length_map, hparse.length_eq]

/-- A program and a text that is none, with a carriage return behind it. -/
def sampleTexts : List String :=
  ["\x7b\"file\":\"A\",\"method\":\"m\",\"e\":[]\x7d", "[[7]]\r"]

theorem isElement_sampleTexts : ∀ text ∈ sampleTexts, IsElement text := by
  simp only [sampleTexts, List.forall_mem_cons, List.not_mem_nil, false_imp_iff, implies_true,
    and_true]
  exact ⟨⟨⟨_, rfl⟩, by decide, by decide⟩, ⟨⟨_, rfl⟩, by decide, by decide⟩⟩

theorem loadFile_layouts_sample :
    (∀ text ∈ sampleTexts, IsElement text) ∧
      isLineDelimited "a.json" = false ∧ isLineDelimited "b.json" = false ∧
      isLineDelimited "c.jsonl" = true ∧
      ∃ shards, loadFile (.single "a.json" (utf8 (arrayFile sampleTexts))) (flatSettings ".")
          "a.json" = ⟨"a.json", shards, 1, 1, .parsed⟩ ∧
        loadFile (.single "b.json" (utf8 (programsFile sampleTexts))) (flatSettings ".")
          "b.json" = ⟨"b.json", shards, 1, 1, .parsed⟩ ∧
        loadFile (.single "c.jsonl" (utf8 (linesFile sampleTexts true))) (flatSettings ".")
          "c.jsonl" = ⟨"c.jsonl", shards, 1, 1, .parsed⟩ := by
  have array : Path.IsName "a.json" := by decide
  have programs : Path.IsName "b.json" := by decide
  have lines : Path.IsName "c.jsonl" := by decide
  have document := array.isLineDelimited (e := "json") rfl
  have read := FileTree.readBytes_single array (utf8 (arrayFile sampleTexts))
  obtain ⟨shards, accepted, skipped, hcount, harray, hprograms, hlines⟩ :=
    loadFile_layouts isElement_sampleTexts true (flatSettings ".") document
      (programs.isLineDelimited (e := "json") rfl) (lines.isLineDelimited (e := "jsonl") rfl) read
      (FileTree.readBytes_single programs _) (FileTree.readBytes_single lines _)
  have haccepted : accepted = 1 := by
    rw [loadFile_of_readBytes read, items, document] at harray
    exact (congrArg FileOutcome.accepted harray).symm
  subst haccepted
  obtain rfl : skipped = 1 := Nat.add_left_cancel hcount
  exact ⟨isElement_sampleTexts, document, programs.isLineDelimited rfl, lines.isLineDelimited rfl,
    shards, harray, hprograms, hlines⟩

end Layouts

end ProgramSearch.Corpus
