import Mathlib.Data.List.Forall2
import ProgramSearch.Proofs.Program

/-!
# Sequences of programs

Which sequence a program object has, apart from the functions that find it. A flat list of texts is
a sequence itself. In any other list the sequence objects count, and the first of those with the
most calls has the sequence; all else is passed over. Without a list the sequence is empty.
-/
namespace ProgramSearch.Program

open Json

/-! ### Calls of a sequence object -/

/-- The texts among the elements of a list, one after another. -/
inductive TextsAmong : List Value → List String → Prop
  | nil : TextsAmong [] []
  | text (s : String) {items : List Value} {ss : List String} (rest : TextsAmong items ss) :
    TextsAmong (.string s :: items) (s :: ss)
  | other {v : Value} {items : List Value} {ss : List String} (noText : ∀ s, v ≠ .string s)
    (rest : TextsAmong items ss) : TextsAmong (v :: items) ss

/-- The calls of an element of a list of sequences; it need not have any. -/
inductive IsCallsOf (item : Value) : List String → Prop
  | listed {elements : List Value} {ss : List String}
    (calls : item.get? "calls" = some (.array elements)) (among : TextsAmong elements ss) :
    IsCallsOf item ss
  | none (absent : ∀ elements, item.get? "calls" ≠ some (.array elements)) : IsCallsOf item []

theorem string?_eq_none_iff {v : Value} : v.string? = none ↔ ∀ s, v ≠ .string s := by
  cases v <;> simp [Value.string?]

theorem textsAmong_iff {items : List Value} {ss : List String} :
    TextsAmong items ss ↔ items.filterMap (·.string?) = ss := by
  constructor
  · intro h
    induction h with
    | nil => rfl
    | text s rest ih => exact congrArg (s :: ·) ih
    | other noText rest ih => rwa [List.filterMap_cons_none (string?_eq_none_iff.mpr noText)]
  · rintro rfl
    induction items with
    | nil => exact .nil
    | cons v items ih =>
      cases v with
      | string s => exact .text s ih
      | _ => exact .other nofun ih

/-- What is read from a list, if one stands there; a reader of lists gives nothing for all else. -/
theorem map_getD_eq_iff {label : Option Value} {read : Value → List String} {ss : List String}
    (empty : ∀ v, v.array? = none → read v = []) :
    (label.map read).getD [] = ss ↔
      (∃ items, label = some (.array items) ∧ read (.array items) = ss) ∨
        (∀ items, label ≠ some (.array items)) ∧ ss = [] := by
  cases label with
  | none => simp [eq_comm]
  | some v =>
    cases v with
    | array items => simp
    | null | bool | number | string | object =>
      rw [Option.map_some, Option.getD_some, empty _ rfl]
      simp [eq_comm]

theorem isCallsOf_iff {item : Value} {ss : List String} :
    IsCallsOf item ss ↔ callsOf item = ss := by
  rw [callsOf, map_getD_eq_iff fun v hv => by rw [texts, hv]; rfl]
  constructor
  · intro h
    cases h with
    | listed calls among => exact .inl ⟨_, calls, textsAmong_iff.mp among⟩
    | none absent => exact .inr ⟨absent, rfl⟩
  · rintro (⟨elements, calls, hss⟩ | ⟨absent, rfl⟩)
    · exact .listed calls (textsAmong_iff.mpr hss)
    · exact .none absent

theorem forall₂_isCallsOf_iff {items : List Value} {lists : List (List String)} :
    List.Forall₂ IsCallsOf items lists ↔ items.map callsOf = lists := by
  constructor
  · intro h
    have heq := List.forall₂_map_left_iff.mpr (h.imp fun _ _ => isCallsOf_iff.mp)
    rwa [List.forall₂_eq_eq_eq] at heq
  · rintro rfl
    exact List.forall₂_map_right_iff.mpr (List.forall₂_same.mpr fun _ _ => isCallsOf_iff.mpr rfl)

/-! ### The first of the longest lists -/

/-- The first of the longest lists; of no lists, the empty one. -/
inductive Longest (lists : List (List String)) : List String → Prop
  | first (before after : List (List String)) {best : List String}
      (split : lists = before ++ best :: after)
      (shorter : ∀ calls ∈ before, calls.length < best.length)
      (noLonger : ∀ calls ∈ after, calls.length ≤ best.length) : Longest lists best
  | none (nil : lists = []) : Longest lists []

/-- The longer of two lists, or the first. -/
def longer (best calls : List String) : List String :=
  if best.length < calls.length then calls else best

theorem longest_concat {lists : List (List String)} {best : List String} (h : Longest lists best)
    (calls : List String) : Longest (lists ++ [calls]) (longer best calls) := by
  rw [longer]
  cases h with
  | none nil =>
    subst nil
    by_cases hlt : ([] : List String).length < calls.length
    · rw [if_pos hlt]
      exact .first [] [] rfl (by simp) (by simp)
    · obtain rfl : calls = [] := by simpa using hlt
      exact .first [] [] rfl (by simp) (by simp)
  | first before after split shorter noLonger =>
    subst split
    by_cases hlt : best.length < calls.length
    · rw [if_pos hlt]
      refine .first (before ++ best :: after) [] rfl ?_ (by simp)
      intro other hother
      rcases List.mem_append.mp hother with hbefore | hafter
      · exact Nat.lt_trans (shorter other hbefore) hlt
      · rcases List.mem_cons.mp hafter with rfl | hafter
        · exact hlt
        · exact Nat.lt_of_le_of_lt (noLonger other hafter) hlt
    · rw [if_neg hlt]
      refine .first before (after ++ [calls]) (by simp) shorter ?_
      intro other hother
      rcases List.mem_append.mp hother with hafter | hlast
      · exact noLonger other hafter
      · rw [List.mem_singleton.mp hlast]
        omega

theorem longest_foldl {lists others : List (List String)} {best : List String}
    (h : Longest lists best) : Longest (lists ++ others) (others.foldl longer best) := by
  induction others generalizing lists best with
  | nil => simpa using h
  | cons calls others ih =>
    have hrest := ih (longest_concat h calls)
    rwa [List.append_assoc] at hrest

theorem longest_firstLongest (lists : List (List String)) : Longest lists (firstLongest lists) :=
  longest_foldl (.none rfl)

/-- Of two lists that are both the first of the longest, neither stands before the other. -/
theorem Longest.unique {lists : List (List String)} {best best' : List String}
    (h : Longest lists best) (h' : Longest lists best') : best = best' := by
  cases h with
  | none nil =>
    cases h' with
    | none nil' => rfl
    | first before' after' split' shorter' noLonger' => simp [nil] at split'
  | first before after split shorter noLonger =>
    cases h' with
    | none nil' => simp [nil'] at split
    | first before' after' split' shorter' noLonger' =>
      rcases List.append_eq_append_iff.mp (split.symm.trans split') with
        ⟨between, rfl, hbetween⟩ | ⟨between, rfl, hbetween⟩
      · cases between with
        | nil => exact (List.cons.inj hbetween).1
        | cons calls between =>
          obtain ⟨rfl, rfl⟩ := List.cons.inj hbetween
          have hlt := shorter' best (by simp)
          have hle := noLonger best' (by simp)
          omega
      · cases between with
        | nil => exact (List.cons.inj hbetween).1.symm
        | cons calls between =>
          obtain ⟨rfl, rfl⟩ := List.cons.inj hbetween
          have hlt := shorter best' (by simp)
          have hle := noLonger' best (by simp)
          omega

/-! ### Sequences -/

/-- The call sequence of a program object. -/
def sequence (p : Value) : List String := ((p.get? "sequences").map longestSequence).getD []

/-- The sequence that a program object has. -/
inductive IsSequence (p : Value) : List String → Prop
  | flat {ss : List String} (texts : p.get? "sequences" = some (.array (ss.map .string))) :
    IsSequence p ss
  | longest {items : List Value} {lists : List (List String)} {best : List String}
    (list : p.get? "sequences" = some (.array items))
    (mixed : ∃ v ∈ items, ∀ s, v ≠ .string s)
    (calls : List.Forall₂ IsCallsOf items lists) (longest : Longest lists best) :
    IsSequence p best
  | none (absent : ∀ items, p.get? "sequences" ≠ some (.array items)) : IsSequence p []

theorem longestSequence_texts (ss : List String) :
    longestSequence (.array (ss.map .string)) = ss := by
  have flat : (ss.map Value.string).all (·.string?.isSome) := by simp [Value.string?]
  rw [longestSequence, if_pos flat]
  exact texts_strings ss

theorem longestSequence_mixed {items : List Value} (mixed : ∃ v ∈ items, ∀ s, v ≠ .string s) :
    longestSequence (.array items) = firstLongest (items.map callsOf) := by
  obtain ⟨v, hv, noText⟩ := mixed
  have hnone : v.string? = none := string?_eq_none_iff.mpr noText
  rw [longestSequence, if_neg]
  intro flat
  have hsome := List.all_eq_true.mp flat v hv
  simp [hnone] at hsome

theorem exists_texts_of_not_mixed {items : List Value} (h : ¬∃ v ∈ items, ∀ s, v ≠ .string s) :
    ∃ ss : List String, items = ss.map .string := by
  push Not at h
  refine ⟨items.filterMap (·.string?), ?_⟩
  induction items with
  | nil => rfl
  | cons v items ih =>
    obtain ⟨⟨s, rfl⟩, hrest⟩ := List.forall_mem_cons.mp h
    exact congrArg (Value.string s :: ·) (ih hrest)

theorem isSequence_iff {p : Value} {ss : List String} : IsSequence p ss ↔ sequence p = ss := by
  have hempty (v : Value) (hv : v.array? = none) : longestSequence v = [] := by
    cases v with
    | array items => contradiction
    | _ => rfl
  rw [sequence, map_getD_eq_iff hempty]
  constructor
  · intro h
    cases h with
    | flat texts => exact .inl ⟨_, texts, longestSequence_texts ss⟩
    | longest list mixed calls longest =>
      obtain rfl := forall₂_isCallsOf_iff.mp calls
      have hbest := (longest_firstLongest _).unique longest
      exact .inl ⟨_, list, (longestSequence_mixed mixed).trans hbest⟩
    | none absent => exact .inr ⟨absent, rfl⟩
  · rintro (⟨items, list, rfl⟩ | ⟨absent, rfl⟩)
    · by_cases mixed : ∃ v ∈ items, ∀ s, v ≠ .string s
      · rw [longestSequence_mixed mixed]
        exact .longest list mixed (forall₂_isCallsOf_iff.mpr rfl) (longest_firstLongest _)
      · obtain ⟨ss, rfl⟩ := exists_texts_of_not_mixed mixed
        rw [longestSequence_texts]
        exact .flat list
    · exact .none absent

end ProgramSearch.Program
