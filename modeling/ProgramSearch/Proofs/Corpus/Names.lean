import Mathlib.Data.String.Basic
import ProgramSearch.Corpus.Discovery

/-!
# File names

A written path has the components that its characters are split into at the slashes. So a name
without slashes is the path of a file in the working directory.
-/
namespace ProgramSearch

/-- A text that is the name of a file in a directory. -/
structure Path.IsName (name : String) : Prop where
  no_slash : '/' ∉ name.toList
  ne_empty : name ≠ ""
  ne_here : name ≠ "."
  ne_above : name ≠ ".."

instance (name : String) : Decidable (Path.IsName name) :=
  decidable_of_iff ('/' ∉ name.toList ∧ name ≠ "" ∧ name ≠ "." ∧ name ≠ "..")
    ⟨fun h => ⟨h.1, h.2.1, h.2.2.1, h.2.2.2⟩, fun h => ⟨h.1, h.2, h.3, h.4⟩⟩

variable {name : String}

/-- What is left of a written path behind the components before it and a part of the next one. -/
theorem splitOnAux_slash (before piece behind : List Char) (parts : List String) :
    String.splitOnAux (String.ofList (before ++ piece ++ behind)) "/" ⟨String.utf8Len before⟩
        ⟨String.utf8Len before + String.utf8Len piece⟩ 0 parts =
      parts.reverse ++
        (List.splitOnPPrepend (· == '/') behind piece.reverse).map String.ofList := by
  induction behind generalizing before piece parts with
  | nil =>
    have hend := (String.atEnd_of_valid (before ++ piece) []).mpr rfl
    rw [String.utf8Len_append] at hend
    rw [String.splitOnAux, if_pos hend, String.extract_of_valid before piece []]
    simp
  | cons c behind ih =>
    have hend : ¬ String.Pos.Raw.atEnd (String.ofList (before ++ piece ++ c :: behind))
        ⟨String.utf8Len (before ++ piece)⟩ = true := by
      rw [String.atEnd_of_valid]
      exact List.cons_ne_nil c behind
    have hget := String.get_of_valid (before ++ piece) (c :: behind)
    have hnext := String.next_of_valid (before ++ piece) c behind
    have hslash : String.Pos.Raw.get "/" 0 = '/' := rfl
    rw [List.headD_cons] at hget
    rw [String.utf8Len_append] at hend hget hnext
    rw [String.splitOnAux, if_neg hend, hget, hslash, List.splitOnPPrepend_cons_eq_if]
    by_cases hc : c = '/'
    · subst hc
      have hdone : String.Pos.Raw.atEnd "/" (String.Pos.Raw.next "/" 0) = true := rfl
      have hback : String.Pos.Raw.unoffsetBy
          ⟨String.utf8Len before + String.utf8Len piece + Char.utf8Size '/'⟩
          (String.Pos.Raw.next "/" 0) = ⟨String.utf8Len before + String.utf8Len piece⟩ := rfl
      have hrest := ih (before ++ piece ++ ['/']) [] (String.ofList piece :: parts)
      rw [if_pos (beq_self_eq_true _), if_pos hdone, hnext, hback,
        String.extract_of_valid before piece ('/' :: behind)]
      simpa [Nat.add_assoc, -String.ofList_append] using hrest
    · have hne : ¬ (c == '/') = true := by simpa using hc
      have hrest := ih before (piece ++ [c]) parts
      rw [if_neg hne, if_neg hne, String.Pos.Raw.unoffsetBy_zero, hnext, Nat.add_assoc]
      simpa [-String.ofList_append] using hrest

/-- The components of a written path are those of its list of characters. -/
theorem splitOn_eq (text : String) :
    text.splitOn "/" = (text.toList.splitOnP (· == '/')).map String.ofList := by
  have hsplit := splitOnAux_slash [] [] text.toList []
  simp only [List.nil_append, String.ofList_toList, List.reverse_nil] at hsplit
  rw [String.splitOn, if_neg (by decide)]
  exact hsplit

theorem splitOn_slash (h : '/' ∉ name.toList) : name.splitOn "/" = [name] := by
  have hone : name.toList.splitOnP (· == '/') = [name.toList] :=
    List.splitOnP_eq_singleton fun c hc => by
      simpa using fun heq : c = '/' => h (heq ▸ hc)
  rw [splitOn_eq, hone, List.map_singleton, String.ofList_toList]

namespace Path.IsName

variable (h : Path.IsName name)
include h

theorem follow (path : Path) : path.follow name = path ++ [name] := by
  simp [Path.follow, h.ne_empty, h.ne_here, h.ne_above]

theorem not_startsWith : name.startsWith "/" = false := by
  rw [String.startsWith_string_eq_false_iff]
  exact fun hfront => h.no_slash (hfront.subset List.mem_cons_self)

theorem not_endsWith {back : String} (slash : '/' ∈ back.toList) : name.endsWith back = false := by
  rw [Bool.eq_false_iff, ne_eq, String.endsWith_eq_endsWith_toSlice,
    String.Slice.endsWith_string_iff, String.copy_toSlice]
  exact fun hback => h.no_slash (hback.subset slash)

theorem namesDirectory : Path.namesDirectory name = false := by
  rw [Path.namesDirectory, h.not_endsWith (by decide), h.not_endsWith (by decide)]
  rfl

theorem ofString? : Path.ofString? name = some [name] := by
  have hempty : name.isEmpty = false := by simpa using h.ne_empty
  rw [Path.ofString?, hempty, splitOn_slash h.no_slash, h.not_startsWith]
  simp [h.follow]

/-- A file in the working directory is read by its name. -/
theorem readBytes {t : FileTree} {bytes : List UInt8}
    (file : t.nodes.lookup [name] = some (.file bytes)) : t.readBytes name = .ok bytes := by
  rw [FileTree.readBytes, FileTree.find?, h.ofString?]
  simp [FileTree.node?, file, h.namesDirectory]

theorem extensionOf? :
    Corpus.extensionOf? name = (Path.extension? name).map Corpus.lowerAscii := by
  simp [Corpus.extensionOf?, splitOn_slash h.no_slash, h.ne_empty, h.ne_here]

/-- Only the extension of a file tells whether it holds lines. -/
theorem isLineDelimited {e : String} (extension : Path.extension? name = some e) :
    Corpus.isLineDelimited name =
      ["jsonl", "ndjson"].contains (String.ofList (e.toList.map Char.toLower)) := by
  have hlower : Corpus.lowerAscii e = String.ofList (e.toList.map Char.toLower) := by
    rw [← String.toList_inj, Corpus.lowerAscii, String.toList_map, String.toList_ofList]
  rw [Corpus.isLineDelimited, h.extensionOf?, extension, Option.map_some, hlower,
    List.contains_cons, List.contains_cons, List.contains_nil, Bool.or_false]

end Path.IsName

/-- A directory with one file. -/
def FileTree.single (name : String) (bytes : List UInt8) : FileTree := ⟨[([name], .file bytes)]⟩

theorem FileTree.readBytes_single (h : Path.IsName name) (bytes : List UInt8) :
    (FileTree.single name bytes).readBytes name = .ok bytes :=
  h.readBytes (by simp [FileTree.single])

end ProgramSearch
