import Mathlib.Data.List.Infix
import ProgramSearch.Proofs.Text.Words
import ProgramSearch.Text.Comments

/-!
# Code and comments

A block comment runs from its start to the first end behind it, or to the end of the text. Removing
documentation follows a scan of its own: it looks for the first start of documentation, also inside
a comment, and for the first end behind that. Both scans stop at the same places, and then only text
of comments is removed, unless a start of documentation lies across the end of a comment. There the
text behind the comment is removed, be it code or not, up to the next end.
-/
namespace ProgramSearch.Text

/-- What a text consists of: characters outside comments, and comments, each given by the text from
its first character on and the text behind its last. -/
inductive Piece where
  | code (c : Char)
  | comment (start behind : List Char)
deriving DecidableEq

def Piece.code? : Piece → Option Char
  | code c => some c
  | comment .. => none

def pieces (s : List Char) : List Piece :=
  match s with
  | [] => []
  | '/' :: '*' :: inside =>
    match _h : afterEnd? inside with
    | some rest => .comment ('/' :: '*' :: inside) rest :: pieces rest
    | none => [.comment ('/' :: '*' :: inside) []]
  | c :: rest => .code c :: pieces rest
termination_by s.length
decreasing_by
  · have := afterEnd?_length _h
    simp only [List.length_cons]
    omega
  · simp only [List.length_cons]
    omega

/-- The characters outside comments. -/
def outside (s : List Char) : List Char := (pieces s).filterMap Piece.code?

/-- The first start of documentation: the text in front of it and the text behind it. -/
def firstDoc? : List Char → Option (List Char × List Char)
  | [] => none
  | '/' :: '*' :: '*' :: inside => some ([], inside)
  | c :: rest => (firstDoc? rest).map fun (front, inside) => (c :: front, inside)

/-- Whether the first start of documentation from the start of a comment on lies across the end of
the comment and has an end behind it. It may consist of the last characters of the comment but for
the slash, or of this slash and two characters behind the comment. -/
def Piece.overlapped : Piece → Bool
  | code _ => false
  | comment start behind =>
    match firstDoc? start with
    | some (_, inside) =>
      (inside == '/' :: behind || behind == '*' :: '*' :: inside) && (afterEnd? inside).isSome
    | none => false

section Ends

theorem end_prefix_iff {c : Char} {s : List Char} :
    ['*', '/'] <+: c :: s ↔ ∃ rest, c = '*' ∧ s = '/' :: rest := by
  constructor
  · rintro ⟨rest, h⟩
    obtain ⟨rfl, rfl⟩ := List.cons.inj h
    exact ⟨rest, rfl, rfl⟩
  · rintro ⟨rest, rfl, rfl⟩
    exact List.prefix_append ['*', '/'] rest

/-- The end that is found is the first: none begins in the text in front of it. -/
theorem afterEnd?_eq_some_iff {s rest : List Char} :
    afterEnd? s = some rest ↔
      ∃ body, s = body ++ '*' :: '/' :: rest ∧ ¬ ['*', '/'] <:+: body ++ ['*'] := by
  constructor
  · intro h
    fun_induction afterEnd? s with
    | case1 => contradiction
    | case2 tail =>
      obtain rfl := Option.some.inj h
      exact ⟨[], rfl, by decide⟩
    | case3 c tail other ih =>
      obtain ⟨body, rfl, first⟩ := ih h
      refine ⟨c :: body, rfl, ?_⟩
      rw [List.cons_append, List.infix_cons_iff, not_or, end_prefix_iff]
      refine ⟨?_, first⟩
      rintro ⟨_, rfl, htail⟩
      cases body with
      | nil => simp at htail
      | cons d body =>
        obtain ⟨rfl, -⟩ := List.cons.inj htail
        exact other _ rfl rfl
  · rintro ⟨body, rfl, first⟩
    induction body with
    | nil => rfl
    | cons c body ih =>
      rw [List.cons_append, List.infix_cons_iff, not_or, end_prefix_iff] at first
      rw [List.cons_append, afterEnd?.eq_3 _ _ ?_]
      · exact ih first.2
      · rintro tail rfl htail
        cases body with
        | nil => simp at htail
        | cons d body =>
          obtain ⟨rfl, -⟩ := List.cons.inj htail
          exact first.1 ⟨_, rfl, rfl⟩

theorem afterEnd?_eq_none_iff {s : List Char} : afterEnd? s = none ↔ ¬ ['*', '/'] <:+: s := by
  fun_induction afterEnd? s with
  | case1 => simp
  | case2 tail => simp [List.infix_cons_iff]
  | case3 c tail other ih =>
    rw [ih, List.infix_cons_iff, not_or, end_prefix_iff]
    refine ⟨fun h => ⟨?_, h⟩, fun h => h.2⟩
    rintro ⟨rest, hc, htail⟩
    exact other rest hc htail

/-- Whatever stands behind the first end. -/
theorem afterEnd?_replace {body rest : List Char}
    (h : afterEnd? (body ++ '*' :: '/' :: rest) = some rest) (other : List Char) :
    afterEnd? (body ++ '*' :: '/' :: other) = some other := by
  obtain ⟨body', heq, first⟩ := afterEnd?_eq_some_iff.mp h
  obtain rfl := List.append_cancel_right heq
  exact afterEnd?_eq_some_iff.mpr ⟨body, rfl, first⟩

/-- A part of the text in front of the first end leads to the same end. -/
theorem afterEnd?_of_suffix {body part rest : List Char}
    (h : afterEnd? (body ++ '*' :: '/' :: rest) = some rest) (hpart : part <:+ body) :
    afterEnd? (part ++ '*' :: '/' :: rest) = some rest := by
  obtain ⟨body', heq, first⟩ := afterEnd?_eq_some_iff.mp h
  obtain rfl := List.append_cancel_right heq
  refine afterEnd?_eq_some_iff.mpr ⟨part, rfl, fun hwithin => first ?_⟩
  obtain ⟨front, rfl⟩ := hpart
  rw [List.append_assoc]
  exact hwithin.trans (List.suffix_append _ _).isInfix

end Ends

section Docs

variable {s front inside rest : List Char}

/-- The first start of documentation stands at the front of the text or in the rest of it. -/
theorem firstDoc?_cons {c : Char} (h : firstDoc? (c :: s) = some (front, inside)) :
    (c = '/' ∧ s = '*' :: '*' :: inside ∧ front = []) ∨
      ∃ front', firstDoc? s = some (front', inside) ∧ front = c :: front' := by
  by_cases hstart : ∃ tail, c = '/' ∧ s = '*' :: '*' :: tail
  · obtain ⟨tail, rfl, rfl⟩ := hstart
    obtain ⟨rfl, rfl⟩ := Prod.mk.inj (Option.some.inj h)
    exact .inl ⟨rfl, rfl, rfl⟩
  · rw [firstDoc?.eq_3 _ _ fun tail hc hs => hstart ⟨tail, hc, hs⟩] at h
    obtain ⟨⟨front', inside'⟩, hfirst, heq⟩ := Option.map_eq_some_iff.mp h
    obtain ⟨rfl, rfl⟩ := Prod.mk.inj heq
    exact .inr ⟨front', hfirst, rfl⟩

theorem eq_of_firstDoc? (h : firstDoc? s = some (front, inside)) :
    s = front ++ '/' :: '*' :: '*' :: inside := by
  induction s generalizing front with
  | nil => contradiction
  | cons c s ih =>
    obtain ⟨rfl, rfl, rfl⟩ | ⟨front', hfirst, rfl⟩ := firstDoc?_cons h
    · rfl
    · rw [List.cons_append, ← ih hfirst]

/-- Without any start of documentation the text stays as it is. -/
theorem withoutDocs_of_none (h : firstDoc? s = none) : withoutDocs s = s := by
  fun_induction firstDoc? s with
  | case1 => rw [withoutDocs]
  | case2 tail => contradiction
  | case3 c tail other ih =>
    rw [withoutDocs.eq_3 c tail other, ih (Option.map_eq_none_iff.mp h)]

theorem withoutDocs_start (inside : List Char) :
    withoutDocs ('/' :: '*' :: '*' :: inside) =
      (afterEnd? inside).elim ('/' :: '*' :: '*' :: inside) withoutDocs := by
  rw [withoutDocs.eq_2]
  split <;> rename_i hend <;> rw [hend] <;> rfl

/-- The first documentation goes, with all up to the first end behind its start; without such an end
nothing goes. -/
theorem withoutDocs_of_firstDoc? (h : firstDoc? s = some (front, inside)) :
    withoutDocs s = (afterEnd? inside).elim s (front ++ withoutDocs ·) := by
  fun_induction firstDoc? s generalizing front with
  | case1 => contradiction
  | case2 tail =>
    obtain ⟨rfl, rfl⟩ := Prod.mk.inj (Option.some.inj h)
    rw [withoutDocs_start]
    rfl
  | case3 c tail other ih =>
    obtain ⟨⟨front', inside'⟩, hfirst, heq⟩ := Option.map_eq_some_iff.mp h
    obtain ⟨rfl, rfl⟩ := Prod.mk.inj heq
    rw [withoutDocs.eq_3 c tail other, ih hfirst]
    cases afterEnd? inside' <;> rfl

theorem withoutDocs_of_no_end (h : afterEnd? s = none) : withoutDocs s = s := by
  cases hfirst : firstDoc? s with
  | none => exact withoutDocs_of_none hfirst
  | some found =>
    have hnone : afterEnd? found.2 = none := by
      rw [afterEnd?_eq_none_iff] at h ⊢
      refine fun hwithin => h (hwithin.trans ?_)
      rw [eq_of_firstDoc? hfirst]
      exact ⟨found.1 ++ ['/', '*', '*'], [], by simp⟩
    rw [withoutDocs_of_firstDoc? hfirst, hnone]
    rfl

theorem firstDoc?_of_suffix {part : List Char} (h : firstDoc? s = none) (hpart : part <:+ s) :
    firstDoc? part = none := by
  obtain ⟨front, rfl⟩ := hpart
  induction front with
  | nil => exact h
  | cons c front ih =>
    rw [List.cons_append] at h
    by_cases hstart : ∃ tail, c = '/' ∧ front ++ part = '*' :: '*' :: tail
    · obtain ⟨tail, rfl, htail⟩ := hstart
      rw [htail] at h
      contradiction
    · rw [firstDoc?.eq_3 _ _ fun tail hc htail => hstart ⟨tail, hc, htail⟩] at h
      exact ih (Option.map_eq_none_iff.mp h)

/-- Where the first start of documentation can stand from the front of a comment on: within the
comment, then its end is that of the comment; across this end, in two ways; or behind it. -/
theorem firstDoc?_of_comment {x : List Char}
    (ends : ∀ part, part <:+ x.drop 2 → afterEnd? (part ++ '*' :: '/' :: rest) = some rest)
    (h : firstDoc? (x ++ '*' :: '/' :: rest) = some (front, inside)) :
    afterEnd? inside = some rest ∨ inside = '/' :: rest ∨ rest = '*' :: '*' :: inside ∨
      ∃ front', firstDoc? rest = some (front', inside) ∧ front = x ++ '*' :: '/' :: front' := by
  induction x generalizing front with
  | nil =>
    rw [List.nil_append] at h
    obtain ⟨hslash, -⟩ | ⟨front, hfirst, rfl⟩ := firstDoc?_cons h
    · exact absurd hslash (by decide)
    · obtain ⟨-, hstars, -⟩ | ⟨front, hbehind, rfl⟩ := firstDoc?_cons hfirst
      · exact .inr (.inr (.inl hstars))
      · exact .inr (.inr (.inr ⟨front, hbehind, rfl⟩))
  | cons c x ih =>
    rw [List.cons_append] at h
    obtain ⟨rfl, htail, rfl⟩ | ⟨front, hfirst, rfl⟩ := firstDoc?_cons h
    · match x, htail with
      | [], htail => simp at htail
      | [_], htail =>
        simp only [List.cons_append, List.nil_append, List.cons.injEq] at htail
        exact .inr (.inl htail.2.2.symm)
      | _ :: _ :: part, htail =>
        simp only [List.cons_append, List.cons.injEq] at htail
        rw [← htail.2.2]
        exact .inl (ends part (List.suffix_cons _ _))
    · have hdrop : x.drop 2 <:+ (c :: x).drop 2 := by
        rw [List.drop_succ_cons]
        exact List.drop_suffix_drop_left x (by omega)
      obtain hend | hslash | hstars | ⟨front, hbehind, rfl⟩ :=
        ih (fun part hpart => ends part (hpart.trans hdrop)) hfirst
      · exact .inl hend
      · exact .inr (.inl hslash)
      · exact .inr (.inr (.inl hstars))
      · exact .inr (.inr (.inr ⟨front, hbehind, rfl⟩))

end Docs

section Comments

theorem comment_append (body rest : List Char) :
    ('/' :: '*' :: body ++ ['*', '/']) ++ rest = '/' :: '*' :: body ++ '*' :: '/' :: rest := by
  simp

theorem overlapped_of_nothing_behind (start : List Char) :
    (Piece.comment start []).overlapped = false := by
  rw [Piece.overlapped]
  split
  · rename_i inside _
    by_cases hslash : inside = ['/']
    · rw [hslash]
      rfl
    · simp [hslash]
  · rfl

variable {body rest : List Char}
  (closed : afterEnd? (body ++ '*' :: '/' :: rest) = some rest)
include closed

theorem firstDoc?_of_closed {front inside : List Char}
    (hfirst : firstDoc? ('/' :: '*' :: body ++ '*' :: '/' :: rest) = some (front, inside)) :
    afterEnd? inside = some rest ∨ inside = '/' :: rest ∨ rest = '*' :: '*' :: inside ∨
      ∃ front', firstDoc? rest = some (front', inside) ∧
        front = '/' :: '*' :: body ++ '*' :: '/' :: front' := by
  refine firstDoc?_of_comment (fun part hpart => ?_) hfirst
  exact afterEnd?_of_suffix closed hpart

/-- Where the first start of documentation has no end, nothing goes from the text behind the
comment either. -/
theorem withoutDocs_behind {front inside : List Char}
    (hfirst : firstDoc? ('/' :: '*' :: body ++ '*' :: '/' :: rest) = some (front, inside))
    (unended : afterEnd? inside = none) : withoutDocs rest = rest := by
  obtain hwithin | rfl | rfl | ⟨front', hbehind, -⟩ := firstDoc?_of_closed closed hfirst
  · rw [unended] at hwithin
    contradiction
  · exact withoutDocs_of_no_end unended
  · rw [withoutDocs.eq_3 _ _ (by simp), withoutDocs.eq_3 _ _ (by simp),
      withoutDocs_of_no_end unended]
  · rw [withoutDocs_of_firstDoc? hbehind, unended]
    rfl

/-- The text of a comment and what stands behind it are treated apart, unless a start of
documentation lies across the end of the comment. -/
theorem withoutDocs_comment
    (apart : (Piece.comment ('/' :: '*' :: body ++ '*' :: '/' :: rest) rest).overlapped = false) :
    ∃ kept, kept.Sublist ('/' :: '*' :: body ++ ['*', '/']) ∧
      withoutDocs ('/' :: '*' :: body ++ '*' :: '/' :: rest) = kept ++ withoutDocs rest := by
  have hsplit := comment_append body rest
  cases hfirst : firstDoc? ('/' :: '*' :: body ++ '*' :: '/' :: rest) with
  | none =>
    have hnone := firstDoc?_of_suffix hfirst ⟨_, hsplit⟩
    refine ⟨_, List.Sublist.refl _, ?_⟩
    rw [withoutDocs_of_none hfirst, withoutDocs_of_none hnone, hsplit]
  | some found =>
    obtain ⟨front, inside⟩ := found
    have heq := withoutDocs_of_firstDoc? hfirst
    cases hend : afterEnd? inside with
    | none =>
      rw [hend] at heq
      refine ⟨_, List.Sublist.refl _, ?_⟩
      rw [heq, withoutDocs_behind closed hfirst hend, Option.elim_none, hsplit]
    | some back =>
      rw [hend] at heq
      simp only [Piece.overlapped, hfirst, hend, Option.isSome_some, Bool.and_true,
        Bool.or_eq_false_iff, beq_eq_false_iff_ne] at apart
      obtain hwithin | hslash | hstars | ⟨front', hbehind, rfl⟩ :=
        firstDoc?_of_closed closed hfirst
      · rw [hend] at hwithin
        obtain rfl := Option.some.inj hwithin
        obtain ⟨part, rfl, -⟩ := afterEnd?_eq_some_iff.mp hend
        have hcut : '/' :: '*' :: body ++ ['*', '/'] =
            front ++ ('/' :: '*' :: '*' :: part ++ ['*', '/']) := by
          refine (List.append_left_inj back).mp ?_
          rw [hsplit, eq_of_firstDoc? hfirst]
          simp
        exact ⟨front, hcut ▸ List.sublist_append_left _ _, heq⟩
      · exact absurd hslash apart.1
      · exact absurd hstars apart.2
      · refine ⟨_, List.Sublist.refl _, ?_⟩
        rw [heq, withoutDocs_of_firstDoc? hbehind, hend]
        simp

omit closed in
/-- Where a start of documentation lies across the end of the comment, the text behind the comment
goes, up to the next end. -/
theorem withoutDocs_overlapped
    (across : (Piece.comment ('/' :: '*' :: body ++ '*' :: '/' :: rest) rest).overlapped = true) :
    ∃ kept gap back, kept.Sublist ('/' :: '*' :: body ++ ['*', '/']) ∧
      rest = gap ++ '*' :: '/' :: back ∧
      withoutDocs ('/' :: '*' :: body ++ '*' :: '/' :: rest) = kept ++ withoutDocs back := by
  have hsplit := comment_append body rest
  cases hfirst : firstDoc? ('/' :: '*' :: body ++ '*' :: '/' :: rest) with
  | none => simp only [Piece.overlapped, hfirst, Bool.false_eq_true] at across
  | some found =>
    obtain ⟨front, inside⟩ := found
    simp only [Piece.overlapped, hfirst, Bool.and_eq_true, Bool.or_eq_true, beq_iff_eq] at across
    obtain ⟨hplace, hsome⟩ := across
    obtain ⟨back, hend⟩ := Option.isSome_iff_exists.mp hsome
    have heq := withoutDocs_of_firstDoc? hfirst
    rw [hend] at heq
    have hfront := eq_of_firstDoc? hfirst
    obtain ⟨part, hpart, -⟩ := afterEnd?_eq_some_iff.mp hend
    obtain rfl | rfl := hplace
    · have hcut : '/' :: '*' :: body ++ ['*', '/'] = front ++ ['/', '*', '*', '/'] := by
        refine (List.append_left_inj rest).mp ?_
        rw [hsplit, hfront]
        simp
      cases part with
      | nil => simp at hpart
      | cons c part =>
        exact ⟨front, part, back, hcut ▸ List.sublist_append_left _ _, (List.cons.inj hpart).2, heq⟩
    · have hcut : '/' :: '*' :: body ++ ['*', '/'] = front ++ ['/'] := by
        refine (List.append_left_inj ('*' :: '*' :: inside)).mp ?_
        rw [hsplit, hfront]
        simp
      exact ⟨front, '*' :: '*' :: part, back, hcut ▸ List.sublist_append_left _ _,
        by rw [hpart]; rfl, heq⟩

end Comments

section Pieces

theorem outside_nil : outside [] = [] := by
  rw [outside, pieces, List.filterMap_nil]

theorem pieces_comment {inside rest : List Char} (h : afterEnd? inside = some rest) :
    pieces ('/' :: '*' :: inside) = .comment ('/' :: '*' :: inside) rest :: pieces rest := by
  rw [pieces.eq_2]
  split <;> rename_i hend <;> rw [h] at hend
  · rw [Option.some.inj hend]
  · contradiction

theorem pieces_open {inside : List Char} (h : afterEnd? inside = none) :
    pieces ('/' :: '*' :: inside) = [.comment ('/' :: '*' :: inside) []] := by
  rw [pieces.eq_2]
  split
  · rename_i hend
    rw [h] at hend
    contradiction
  · rfl

theorem outside_comment {inside rest : List Char} (h : afterEnd? inside = some rest) :
    outside ('/' :: '*' :: inside) = outside rest := by
  rw [outside, pieces_comment h]
  rfl

theorem outside_code {c : Char} {rest : List Char}
    (other : ∀ inside, c = '/' → rest = '*' :: inside → False) :
    outside (c :: rest) = c :: outside rest := by
  rw [outside, pieces.eq_3 c rest other]
  rfl

/-- Only text of comments goes if no start of documentation lies across the end of one. -/
theorem outside_sublist_withoutDocs {s : List Char}
    (apart : ∀ piece ∈ pieces s, piece.overlapped = false) :
    (outside s).Sublist (withoutDocs s) := by
  induction s using pieces.induct with
  | case1 =>
    rw [outside_nil]
    exact List.nil_sublist _
  | case2 inside rest closed ih =>
    rw [pieces_comment closed, List.forall_mem_cons] at apart
    obtain ⟨body, rfl, -⟩ := afterEnd?_eq_some_iff.mp closed
    obtain ⟨kept, -, hkept⟩ := withoutDocs_comment closed apart.1
    rw [outside_comment closed]
    exact (ih apart.2).trans (hkept ▸ List.sublist_append_right _ _)
  | case3 inside unended =>
    rw [outside, pieces_open unended]
    exact List.nil_sublist _
  | case4 c rest other ih =>
    rw [pieces.eq_3 c rest other, List.forall_mem_cons] at apart
    rw [outside_code other, withoutDocs.eq_3 c rest fun inside hc htail => other _ hc htail]
    exact (ih apart.2).cons_cons c

/-- Otherwise a stretch of text goes that starts right behind a comment and ends with the next
end. -/
theorem exists_withoutDocs_of_overlapped {s : List Char}
    (across : ∃ piece ∈ pieces s, piece.overlapped = true) :
    ∃ front gap back kept, s = front ++ (gap ++ '*' :: '/' :: back) ∧
      outside s = outside front ++ outside (gap ++ '*' :: '/' :: back) ∧
      kept.Sublist front ∧ withoutDocs s = kept ++ withoutDocs back := by
  induction s using pieces.induct with
  | case1 =>
    rw [pieces] at across
    contradiction
  | case2 inside rest closed ih =>
    rw [pieces_comment closed, List.exists_mem_cons_iff] at across
    obtain ⟨body, rfl, -⟩ := afterEnd?_eq_some_iff.mp closed
    cases hover : (Piece.comment ('/' :: '*' :: body ++ '*' :: '/' :: rest) rest).overlapped with
    | true =>
      obtain ⟨kept, gap, back, hkept, rfl, heq⟩ := withoutDocs_overlapped hover
      refine ⟨_, gap, back, kept, ?_, ?_, hkept, heq⟩
      · simp
      · have hclosed : afterEnd? (body ++ ['*', '/']) = some [] := afterEnd?_replace closed []
        rw [outside_comment closed, List.cons_append, List.cons_append, outside_comment hclosed,
          outside_nil]
        rfl
    | false =>
      obtain ⟨kept, hkept, heq⟩ := withoutDocs_comment closed hover
      obtain hhead | hrest := across
      · exact absurd (hover.symm.trans hhead) Bool.false_ne_true
      obtain ⟨front, gap, back, kept', rfl, houtside, hkept', heq'⟩ := ih hrest
      refine ⟨'/' :: '*' :: body ++ ['*', '/'] ++ front, gap, back, kept ++ kept', ?_, ?_,
        hkept.append hkept', ?_⟩
      · simp
      · have hclosed : afterEnd? (body ++ '*' :: '/' :: front) = some front :=
          afterEnd?_replace closed front
        have hfront : outside ('/' :: '*' :: body ++ ['*', '/'] ++ front) = outside front := by
          rw [← outside_comment hclosed]
          simp
        rw [outside_comment closed, hfront, houtside]
      · have := heq.trans (congrArg (kept ++ ·) heq')
        simpa using this
  | case3 inside unended =>
    rw [pieces_open unended] at across
    simp [overlapped_of_nothing_behind] at across
  | case4 c rest other ih =>
    rw [pieces.eq_3 c rest other, List.exists_mem_cons_iff] at across
    obtain hhead | hrest := across
    · contradiction
    obtain ⟨front, gap, back, kept, rfl, houtside, hkept, heq⟩ := ih hrest
    refine ⟨c :: front, gap, back, c :: kept, rfl, ?_, hkept.cons_cons c, ?_⟩
    · have hother : ∀ inside, c = '/' → front = '*' :: inside → False := by
        rintro inside hc rfl
        exact other _ hc rfl
      rw [outside_code other, outside_code hother, houtside]
      rfl
    · rw [withoutDocs.eq_3 c _ fun inside hc htail => other _ hc htail, heq]
      rfl

/-- If no start of documentation lies across the end of a comment, then all visible characters
outside comments stay, in order. Otherwise a stretch of the text goes that starts right behind a
comment, whatever it holds. -/
theorem normalizeBody_keeps_outside (body : String) :
    ((∀ piece ∈ pieces body.toList, piece.overlapped = false) →
        ((outside body.toList).filter (!isBlank ·)).Sublist (normalizeBody body).toList) ∧
      ((∃ piece ∈ pieces body.toList, piece.overlapped = true) →
        ∃ front gap back kept, body.toList = front ++ (gap ++ '*' :: '/' :: back) ∧
          outside body.toList = outside front ++ outside (gap ++ '*' :: '/' :: back) ∧
          kept.Sublist front ∧
          normalizeBody body = collapse (String.ofList (kept ++ withoutDocs back))) := by
  constructor
  · intro apart
    have hsub := (outside_sublist_withoutDocs apart).filter (!isBlank ·)
    have hvisible := filter_visible_collapse (String.ofList (withoutDocs body.toList))
    rw [String.toList_ofList] at hvisible
    rw [← hvisible] at hsub
    exact hsub.trans List.filter_sublist
  · intro across
    obtain ⟨front, gap, back, kept, hbody, houtside, hkept, heq⟩ :=
      exists_withoutDocs_of_overlapped across
    exact ⟨front, gap, back, kept, hbody, houtside, hkept, by rw [normalizeBody, heq]⟩

/-- A comment, code, documentation and more code: both stretches of code stay. -/
theorem normalizeBody_keeps_outside_sample :
    (∀ piece ∈ pieces "/* a */ open(); /** b */ close();".toList, piece.overlapped = false) ∧
      "open();close();".toList.Sublist
        (normalizeBody "/* a */ open(); /** b */ close();").toList := by
  have apart : ∀ piece ∈ pieces "/* a */ open(); /** b */ close();".toList,
      piece.overlapped = false := by decide +kernel
  have houtside : (outside "/* a */ open(); /** b */ close();".toList).filter (!isBlank ·) =
      "open();close();".toList := by decide +kernel
  exact ⟨apart, houtside ▸ (normalizeBody_keeps_outside _).1 apart⟩

/-- An empty comment is taken for a start of documentation, and the code behind it goes. -/
theorem normalizeBody_swallows_code :
    ¬((outside "/**/ open(); /** closes */ close();".toList).filter (!isBlank ·)).Sublist
      (normalizeBody "/**/ open(); /** closes */ close();").toList := by
  decide +kernel

end Pieces

end ProgramSearch.Text
