import Mathlib.Data.Option.Basic
import ProgramSearch.Evaluation.Desired
import ProgramSearch.Proofs.Text.Comments
import ProgramSearch.Report.Search

/-!
# Bodies and their formatting

The starts and ends of documentation hold no blanks. So two texts that differ only in blanks have
them at corresponding places, and what is left without documentation differs again only in blanks.
Hence the comparable form of a body depends on the words of the body alone.
-/
namespace ProgramSearch.Text

section Blanks

variable {blanks : List Char} (blank : ∀ c ∈ blanks, isBlank c = true) (s : List Char)
include blank

theorem afterEnd?_blanks : afterEnd? (blanks ++ s) = afterEnd? s := by
  induction blanks with
  | nil => rfl
  | cons b blanks ih =>
    rw [List.forall_mem_cons] at blank
    have hstar : b ≠ '*' := by
      rintro rfl
      exact absurd blank.1 (by decide)
    rw [List.cons_append, afterEnd?.eq_3 _ _ fun tail hb => absurd hb hstar, ih blank.2]

theorem withoutDocs_blanks : withoutDocs (blanks ++ s) = blanks ++ withoutDocs s := by
  induction blanks with
  | nil => rfl
  | cons b blanks ih =>
    rw [List.forall_mem_cons] at blank
    have hslash : b ≠ '/' := by
      rintro rfl
      exact absurd blank.1 (by decide)
    rw [List.cons_append, withoutDocs.eq_3 _ _ fun tail hb => absurd hb hslash, ih blank.2]
    rfl

end Blanks

namespace Spaced

variable {s t : List Char}

theorem symm (h : Spaced s t) : Spaced t s := by
  induction h with
  | ends hs ht => exact .ends ht hs
  | char c visible _ ih => exact .char c visible ih
  | gap hfront hback blank blank' _ ih => exact .gap hback hfront blank' blank ih

/-- A visible character stands at the front of both texts. -/
theorem exists_of_visible {c : Char} (h : Spaced (c :: s) t) (visible : isBlank c = false) :
    ∃ t', t = c :: t' ∧ Spaced s t' := by
  generalize hs : c :: s = s' at h
  cases h with
  | ends blank _ =>
    subst hs
    exact absurd (blank c List.mem_cons_self) (by simp [visible])
  | char d _ h =>
    obtain ⟨rfl, rfl⟩ := List.cons.inj hs
    exact ⟨_, rfl, h⟩
  | @gap front _ _ _ hfront _ blank _ _ =>
    obtain ⟨b, front, rfl⟩ := List.exists_cons_of_ne_nil hfront
    obtain ⟨rfl, -⟩ := List.cons.inj hs
    exact absurd (blank c List.mem_cons_self) (by simp [visible])

/-- The first ends of both texts correspond. -/
theorem afterEnd? (h : Spaced s t) : Option.Rel Spaced (afterEnd? s) (afterEnd? t) := by
  induction h with
  | @ends s t hs ht =>
    have hnil : Option.Rel Spaced (Text.afterEnd? []) (Text.afterEnd? []) := .none
    rwa [← List.append_nil s, ← List.append_nil t, afterEnd?_blanks hs, afterEnd?_blanks ht]
  | @char s t c visible h ih =>
    by_cases hend : ∃ rest, c = '*' ∧ s = '/' :: rest
    · obtain ⟨rest, rfl, rfl⟩ := hend
      obtain ⟨rest', rfl, hrest⟩ := h.exists_of_visible (by decide)
      exact .some hrest
    · have hend' : ¬∃ rest, c = '*' ∧ t = '/' :: rest := by
        rintro ⟨rest, rfl, rfl⟩
        obtain ⟨rest', rfl, -⟩ := h.symm.exists_of_visible (by decide)
        exact hend ⟨rest', rfl, rfl⟩
      rw [afterEnd?.eq_3 _ _ fun rest hc hs => hend ⟨rest, hc, hs⟩,
        afterEnd?.eq_3 _ _ fun rest hc ht => hend' ⟨rest, hc, ht⟩]
      exact ih
  | gap _ _ blank blank' _ ih =>
    rw [afterEnd?_blanks blank, afterEnd?_blanks blank']
    exact ih

/-- What is left of both texts without their documentation corresponds. The induction is on the
length, since what stands behind a documentation is no tail of what stands behind its first
character in the sense of the relation. -/
theorem withoutDocs (h : Spaced s t) : Spaced (withoutDocs s) (withoutDocs t) := by
  induction hn : s.length using Nat.strongRecOn generalizing s t with
  | ind n ih =>
  subst hn
  cases h with
  | ends hs ht =>
    rw [← List.append_nil s, ← List.append_nil t, withoutDocs_blanks hs, withoutDocs_blanks ht,
      Text.withoutDocs, List.append_nil, List.append_nil]
    exact .ends hs ht
  | @gap front back s t hfront hback blank blank' h =>
    have hlt : s.length < (front ++ s).length := by
      have := List.length_pos_iff.mpr hfront
      rw [List.length_append]
      omega
    rw [withoutDocs_blanks blank, withoutDocs_blanks blank']
    exact .gap hfront hback blank blank' (ih _ hlt h rfl)
  | @char s t c visible h =>
    by_cases hstart : ∃ inside, c = '/' ∧ s = '*' :: '*' :: inside
    · obtain ⟨inside, rfl, rfl⟩ := hstart
      obtain ⟨t, rfl, hstar⟩ := h.exists_of_visible (by decide)
      obtain ⟨inside', rfl, hinside⟩ := hstar.exists_of_visible (by decide)
      rw [withoutDocs_start, withoutDocs_start]
      have hends := hinside.afterEnd?
      generalize hrest : Text.afterEnd? inside = rest at hends ⊢
      generalize Text.afterEnd? inside' = rest' at hends ⊢
      cases hends with
      | none => exact .char '/' visible h
      | some hspaced =>
        have hlt := afterEnd?_length hrest
        exact ih _ (by simp only [List.length_cons]; omega) hspaced rfl
    · have hstart' : ¬∃ inside, c = '/' ∧ t = '*' :: '*' :: inside := by
        rintro ⟨inside, rfl, rfl⟩
        obtain ⟨s, rfl, hstar⟩ := h.symm.exists_of_visible (by decide)
        obtain ⟨inside', rfl, -⟩ := hstar.exists_of_visible (by decide)
        exact hstart ⟨inside', rfl, rfl⟩
      rw [Text.withoutDocs.eq_3 _ _ fun inside hc hs => hstart ⟨inside, hc, hs⟩,
        Text.withoutDocs.eq_3 _ _ fun inside hc ht => hstart' ⟨inside, hc, ht⟩]
      exact .char c visible (ih _ (by simp) h rfl)

end Spaced

/-- A text and its collapsed form have the same comparable form. -/
theorem normalizeBody_collapse (s : String) : normalizeBody (collapse s) = normalizeBody s := by
  obtain ⟨blanks, rest, hs, hblanks, hspaced⟩ := exists_spaced_collapse s
  have hwords := hspaced.withoutDocs.wordsFrom_eq []
  have hfront : wordsFrom [] (withoutDocs s.toList) = wordsFrom [] (withoutDocs rest) := by
    rw [hs, withoutDocs_blanks hblanks]
    cases blanks with
    | nil => rfl
    | cons b blanks => exact wordsFrom_blanks hblanks (List.cons_ne_nil b blanks) [] _
  rw [normalizeBody, normalizeBody, collapse_ofList, collapse_ofList, hfront, hwords]

/-- Bodies with the same words have the same comparable form. -/
theorem normalizeBody_congr {s t : String} (h : words s = words t) :
    normalizeBody s = normalizeBody t := by
  rw [← normalizeBody_collapse s, ← normalizeBody_collapse t, collapse, collapse, h]

end ProgramSearch.Text

namespace ProgramSearch

/-- Formatting does not matter to the comparison of bodies: texts with the same words have the same
comparable form and fingerprint, whether a body matches depends on its words alone, and the bodies
in rows of results have the fingerprints of the stored ones. -/
theorem bodyFingerprint_formatting :
    (∀ s t : String, Text.words s = Text.words t →
        Text.normalizeBody s = Text.normalizeBody t ∧ bodyFingerprint s = bodyFingerprint t) ∧
      (∀ (d : Desired) (r r' : Record), Text.words r.body = Text.words r'.body →
        d.fits .body r = d.fits .body r') ∧
      ∀ r : Ranked, (Report.hitRows r).map (fun row => bodyFingerprint row.body) =
        r.hits.map fun hit => bodyFingerprint hit.record.body := by
  refine ⟨fun s t h => ?_, fun d r r' h => ?_, fun r => ?_⟩
  · have hbody := Text.normalizeBody_congr h
    exact ⟨hbody, by rw [bodyFingerprint, bodyFingerprint, hbody]⟩
  · rw [Desired.fits, Desired.fits, bodyFingerprint, bodyFingerprint, Text.normalizeBody_congr h]
  · have hrows : (Report.hitRows r).map (fun row => bodyFingerprint row.body) =
        r.hits.zipIdx.map ((fun hit => bodyFingerprint hit.record.body) ∘ Prod.fst) := by
      rw [Report.hitRows, List.map_map]
      refine List.map_congr_left fun placed _ => ?_
      exact congrArg Text.fingerprint (Text.normalizeBody_collapse placed.1.record.body)
    rw [hrows, ← List.map_map, List.zipIdx_map_fst]

/-- The documentation starts and ends within words, with blanks in between. -/
theorem bodyFingerprint_formatting_sample :
    Text.words "int/** a\n\tb*/eger x;" = Text.words "  int/** a b*/eger\nx; " ∧
      Text.normalizeBody "int/** a\n\tb*/eger x;" = "integer x;" ∧
      bodyFingerprint "int/** a\n\tb*/eger x;" = bodyFingerprint "  int/** a b*/eger\nx; " := by
  have hwords : Text.words "int/** a\n\tb*/eger x;" = Text.words "  int/** a b*/eger\nx; " := by
    decide +kernel
  exact ⟨hwords, by decide +kernel, (bodyFingerprint_formatting.1 _ _ hwords).2⟩

end ProgramSearch
