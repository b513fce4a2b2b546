import Mathlib.Data.List.Basic
import ProgramSearch.Text.Words

/-!
# Texts that differ in blanks only

Two texts that differ only in the blanks between their words, and behind the last of them, have the
same words. Every text differs in this way from its words with one blank between them, once the
blanks in front of it are dropped.
-/
namespace ProgramSearch.Text

/-- Texts that differ only in how long their runs of blanks are, and in blanks at the end. -/
inductive Spaced : List Char → List Char → Prop where
  | ends {s t : List Char} (hs : ∀ c ∈ s, isBlank c = true) (ht : ∀ c ∈ t, isBlank c = true) :
    Spaced s t
  | char {s t : List Char} (c : Char) (visible : isBlank c = false) (h : Spaced s t) :
    Spaced (c :: s) (c :: t)
  | gap {front back s t : List Char} (hfront : front ≠ []) (hback : back ≠ [])
    (blank : ∀ c ∈ front, isBlank c = true) (blank' : ∀ c ∈ back, isBlank c = true)
    (h : Spaced s t) : Spaced (front ++ s) (back ++ t)

section Blanks

variable {blanks : List Char} (blank : ∀ c ∈ blanks, isBlank c = true)
include blank

/-- Blanks end a word, however many they are. -/
theorem wordsFrom_blanks (ne : blanks ≠ []) (word s : List Char) :
    wordsFrom word (blanks ++ s) =
      if word.isEmpty then wordsFrom [] s else word.reverse :: wordsFrom [] s := by
  induction blanks generalizing word with
  | nil => exact absurd rfl ne
  | cons b blanks ih =>
    rw [List.cons_append, wordsFrom, if_pos (blank b List.mem_cons_self)]
    cases blanks with
    | nil => rfl
    | cons b' blanks =>
      rw [ih (fun c hc => blank c (List.mem_cons_of_mem b hc)) (List.cons_ne_nil _ _) []]
      rfl

/-- Blanks at the end add no word. -/
theorem wordsFrom_of_blanks (word : List Char) :
    wordsFrom word blanks = if word.isEmpty then [] else [word.reverse] := by
  cases blanks with
  | nil => rfl
  | cons b blanks =>
    have h := wordsFrom_blanks blank (List.cons_ne_nil b blanks) word []
    rwa [List.append_nil] at h

theorem filter_visible_of_blanks : blanks.filter (!isBlank ·) = [] := by
  rw [List.filter_eq_nil_iff]
  intro c hc
  simp [blank c hc]

end Blanks

namespace Spaced

variable {s t : List Char}

theorem wordsFrom_eq (h : Spaced s t) (word : List Char) : wordsFrom word s = wordsFrom word t := by
  induction h generalizing word with
  | ends hs ht => rw [wordsFrom_of_blanks hs, wordsFrom_of_blanks ht]
  | char c visible _ ih => simp only [wordsFrom, visible, Bool.false_eq_true, if_false, ih]
  | gap hfront hback blank blank' _ ih =>
    rw [wordsFrom_blanks blank hfront, wordsFrom_blanks blank' hback, ih]

theorem filter_visible_eq (h : Spaced s t) : s.filter (!isBlank ·) = t.filter (!isBlank ·) := by
  induction h with
  | ends hs ht => rw [filter_visible_of_blanks hs, filter_visible_of_blanks ht]
  | char c visible _ ih => rw [List.filter_cons, List.filter_cons, ih]
  | gap hfront hback blank blank' _ ih =>
    rw [List.filter_append, List.filter_append, filter_visible_of_blanks blank,
      filter_visible_of_blanks blank', ih]

end Spaced

/-- With one blank between its words a text differs in blanks only. This holds behind a word that
was begun, and, once the blanks in front are dropped, also where none was; either case rests on the
other for the text behind its first character. -/
theorem spaced_intercalate (s : List Char) :
    (∀ word, word ≠ [] →
        ∃ t, [' '].intercalate (wordsFrom word s) = word.reverse ++ t ∧ Spaced s t) ∧
      ∃ blanks rest, s = blanks ++ rest ∧ (∀ c ∈ blanks, isBlank c = true) ∧
        Spaced rest ([' '].intercalate (wordsFrom [] s)) := by
  induction s with
  | nil =>
    have hends : Spaced [] [] := .ends (by simp) (by simp)
    exact ⟨fun word ne => ⟨[], by simp [wordsFrom, ne], hends⟩, [], [], rfl, by simp, hends⟩
  | cons c s ih =>
    obtain ⟨hbegun, blanks, rest, hs, hblanks, hrest⟩ := ih
    cases visible : isBlank c with
    | false =>
      have hword (word : List Char) : wordsFrom word (c :: s) = wordsFrom (c :: word) s := by
        rw [wordsFrom, visible, if_neg Bool.false_ne_true]
      constructor
      · intro word _
        obtain ⟨t, ht, hspaced⟩ := hbegun (c :: word) (List.cons_ne_nil c word)
        exact ⟨c :: t, by rw [hword, ht]; simp, .char c visible hspaced⟩
      · obtain ⟨t, ht, hspaced⟩ := hbegun [c] (List.cons_ne_nil c [])
        refine ⟨[], c :: s, rfl, by simp, ?_⟩
        rw [hword, ht]
        exact .char c visible hspaced
    | true =>
      have hall : ∀ b ∈ c :: blanks, isBlank b = true := by simpa [visible] using hblanks
      constructor
      · intro word ne
        have hword : wordsFrom word (c :: s) = word.reverse :: wordsFrom [] s := by
          simp [wordsFrom, visible, ne]
        rw [hword]
        cases hwords : wordsFrom [] s with
        | nil =>
          rw [hwords] at hrest
          have hblank : ∀ d ∈ rest, isBlank d = true := by simpa using hrest.filter_visible_eq
          refine ⟨[], by simp, .ends ?_ (by simp)⟩
          simpa [hs, visible, or_imp, forall_and] using ⟨hblanks, hblank⟩
        | cons next others =>
          rw [hwords] at hrest
          refine ⟨' ' :: [' '].intercalate (next :: others), ?_, ?_⟩
          · rw [List.intercalate_cons_cons, List.append_assoc]
            rfl
          · have hone : ∀ c ∈ [' '], isBlank c = true := List.forall_mem_singleton.mpr rfl
            rw [hs]
            exact .gap (List.cons_ne_nil c blanks) (List.cons_ne_nil ' ' []) hall hone hrest
      · refine ⟨c :: blanks, rest, by rw [hs]; rfl, hall, ?_⟩
        rw [wordsFrom, if_pos visible]
        exact hrest

theorem collapse_ofList (l : List Char) :
    collapse (String.ofList l) = " ".intercalate ((wordsFrom [] l).map String.ofList) := by
  rw [collapse, words, String.toList_ofList]

theorem toList_collapse (s : String) :
    (collapse s).toList = [' '].intercalate (wordsFrom [] s.toList) := by
  have hid : String.toList ∘ String.ofList = id := funext fun _ => String.toList_ofList
  rw [collapse, String.toList_intercalate, words, List.map_map, hid, List.map_id]
  rfl

/-- A text and its collapsed form, but for the blanks in front of the text. -/
theorem exists_spaced_collapse (s : String) :
    ∃ blanks rest, s.toList = blanks ++ rest ∧ (∀ c ∈ blanks, isBlank c = true) ∧
      Spaced rest (collapse s).toList := by
  rw [toList_collapse]
  exact (spaced_intercalate s.toList).2

/-- Collapsing keeps the visible characters. -/
theorem filter_visible_collapse (s : String) :
    (collapse s).toList.filter (!isBlank ·) = s.toList.filter (!isBlank ·) := by
  obtain ⟨blanks, rest, hs, hblanks, hspaced⟩ := exists_spaced_collapse s
  rw [hs, List.filter_append, filter_visible_of_blanks hblanks, hspaced.filter_visible_eq]
  rfl

end ProgramSearch.Text
