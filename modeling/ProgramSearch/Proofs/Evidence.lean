import Mathlib.Data.List.Nodup
import ProgramSearch.Evidence

/-!
# Sets of evidence

A set of evidence is a map from kinds: it has at most one item of each kind, the items stand in the
order of the kinds, and an insertion changes what is found under its own kind only. So a run of
insertions comes to the last one of each kind.
-/
namespace ProgramSearch

namespace EvidenceKind

theorem rank_inj {a b : EvidenceKind} (h : a.rank = b.rank) : a = b := by
  cases a <;> cases b <;> first | rfl | contradiction

theorem mem_all (kind : EvidenceKind) : kind ∈ all := by
  cases kind <;> decide

/-- The kinds of a list are in order, each at most once. -/
abbrev Increasing (kinds : List EvidenceKind) : Prop := kinds.Pairwise (·.rank < ·.rank)

theorem increasing_all : Increasing all := by decide

variable {kinds kinds' : List EvidenceKind}

theorem Increasing.nodup (h : Increasing kinds) : kinds.Nodup := by
  refine h.imp ?_
  rintro kind _ hlt rfl
  exact Nat.lt_irrefl _ hlt

theorem Increasing.eq_of_perm (h : Increasing kinds) (h' : Increasing kinds')
    (perm : kinds.Perm kinds') : kinds = kinds' :=
  perm.eq_of_pairwise (fun _ _ _ _ hab hba => absurd (Nat.lt_trans hab hba) (Nat.lt_irrefl _)) h h'

/-- Such a list is a part of the list of all kinds. -/
theorem Increasing.sublist_all (h : Increasing kinds) : kinds.Sublist all := by
  have hchosen : Increasing (all.filter (kinds.contains ·)) :=
    increasing_all.sublist List.filter_sublist
  have hperm : kinds.Perm (all.filter (kinds.contains ·)) :=
    (List.perm_ext_iff_of_nodup h.nodup hchosen.nodup).mpr fun kind => by simp [mem_all]
  rw [h.eq_of_perm hchosen hperm]
  exact List.filter_sublist

theorem kind_of_read? {kind : EvidenceKind} {program : Json.Value} {e : Evidence}
    (h : kind.read? program = some e) : e.kind = kind := by
  rw [read?] at h
  cases hfield : program.get? kind.field with
  | none =>
    rw [hfield] at h
    contradiction
  | some v =>
    simp only [hfield, Option.ite_none_left_eq_some, Option.some.injEq] at h
    rw [← h.2]

end EvidenceKind

namespace EvidenceSet

open EvidenceKind (Increasing)

/-- The items stand in the order of their kinds. -/
def Ordered (s : EvidenceSet) : Prop := Increasing (s.items.map (·.kind))

variable {s : EvidenceSet}

theorem ordered_empty : empty.Ordered := .nil

theorem ordered_ofProgram (program : Json.Value) : (ofProgram program).Ordered := by
  have hkinds : (ofProgram program).items.map (·.kind) =
      EvidenceKind.all.filter fun kind => (kind.read? program).isSome := by
    rw [ofProgram, List.map_filterMap, ← List.filterMap_eq_filter]
    refine List.filterMap_congr fun kind _ => ?_
    cases h : kind.read? program with
    | none => simp [Option.guard, h]
    | some e => simp [Option.guard, h, EvidenceKind.kind_of_read? h]
  rw [Ordered, hkinds]
  exact EvidenceKind.increasing_all.sublist List.filter_sublist

/-- Two items of one kind are the same. -/
theorem Ordered.eq_of_kind_eq (h : s.Ordered) {e f : Evidence} (he : e ∈ s.items)
    (hf : f ∈ s.items) (same : e.kind = f.kind) : e = f :=
  List.inj_on_of_nodup_map h.nodup he hf same

theorem Ordered.get?_eq_some_iff (h : s.Ordered) {kind : EvidenceKind} {e : Evidence} :
    s.get? kind = some e ↔ e ∈ s.items ∧ e.kind = kind := by
  constructor
  · intro hfound
    exact ⟨List.mem_of_find?_eq_some hfound, by simpa using List.find?_some hfound⟩
  · rintro ⟨hmem, rfl⟩
    have hsome : (s.get? e.kind).isSome := List.find?_isSome.mpr ⟨e, hmem, by simp⟩
    obtain ⟨f, hf⟩ := Option.isSome_iff_exists.mp hsome
    have hkind : f.kind = e.kind := by simpa using List.find?_some hf
    rw [hf, h.eq_of_kind_eq (List.mem_of_find?_eq_some hf) hmem hkind]

/-- Sets that hold the same under each kind are equal. -/
theorem Ordered.ext {s' : EvidenceSet} (h : s.Ordered) (h' : s'.Ordered)
    (same : ∀ kind, s.get? kind = s'.get? kind) : s = s' := by
  have hmem : ∀ e, e ∈ s.items ↔ e ∈ s'.items := fun e => by
    have hiff : s'.get? e.kind = some e ↔ e ∈ s'.items ∧ e.kind = e.kind := h'.get?_eq_some_iff
    rw [← same, h.get?_eq_some_iff] at hiff
    simpa using hiff
  have hperm : s.items.Perm s'.items :=
    (List.perm_ext_iff_of_nodup h.nodup.of_map h'.nodup.of_map).mpr hmem
  have hitems : s.items = s'.items := by
    have hrank := List.pairwise_map.mp h
    have hrank' := List.pairwise_map.mp h'
    refine hperm.eq_of_pairwise (fun a b _ _ hab hba => ?_) hrank hrank'
    exact absurd (Nat.lt_trans hab hba) (Nat.lt_irrefl _)
  cases s
  cases s'
  exact congrArg mk hitems

/-- An insertion replaces the item of its kind where it stands, or brings a kind that was not
there to its place. -/
theorem insert_cases (s : EvidenceSet) (e : Evidence) :
    (∃ before old after, s.items = before ++ old :: after ∧ old.kind = e.kind ∧
      (s.insert e).items = before ++ e :: after) ∨
    (∀ f ∈ s.items, f.kind ≠ e.kind) ∧ (s.insert e).items.Perm (s.items ++ [e]) ∧
      ((s.insert e).items.map (·.kind)).Pairwise (·.rank ≤ ·.rank) := by
  cases h : s.items.findIdx? (·.kind == e.kind) with
  | some i =>
    obtain ⟨hlt, hkind, -⟩ := List.findIdx?_eq_some_iff_getElem.mp h
    refine .inl ⟨s.items.take i, s.items[i], s.items.drop (i + 1), ?_, by simpa using hkind, ?_⟩
    · rw [← List.drop_eq_getElem_cons hlt, List.take_append_drop]
    · simp only [insert, h, List.set_eq_take_append_cons_drop, if_pos hlt]
  | none =>
    have hnew : ∀ f ∈ s.items, f.kind ≠ e.kind := by
      simpa using List.findIdx?_eq_none_iff.mp h
    refine .inr ⟨hnew, ?_, ?_⟩
    · rw [insert, h]
      exact List.mergeSort_perm _ _
    · rw [insert, h, List.pairwise_map]
      have hsorted : ((s.items ++ [e]).mergeSort
          fun a b => decide (a.kind.rank ≤ b.kind.rank)).Pairwise
            fun a b => decide (a.kind.rank ≤ b.kind.rank) :=
        List.pairwise_mergeSort (fun a b c => by simpa using Nat.le_trans)
          (fun a b => by simpa using Nat.le_total a.kind.rank b.kind.rank) (s.items ++ [e])
      exact hsorted.imp of_decide_eq_true

theorem Ordered.insert (h : s.Ordered) (e : Evidence) : (s.insert e).Ordered := by
  obtain ⟨before, old, after, hitems, hkind, hinsert⟩ | ⟨hnew, hperm, hsorted⟩ :=
    insert_cases s e
  · rw [Ordered, hitems] at h
    rw [Ordered, hinsert]
    rwa [List.map_append, List.map_cons, hkind, ← List.map_cons, ← List.map_append] at h
  · have hnodup : ((s.insert e).items.map (·.kind)).Nodup := by
      rw [(hperm.map _).nodup_iff, List.map_append, List.nodup_append]
      refine ⟨h.nodup, List.nodup_singleton _, fun kind hkind kind' hkind' => ?_⟩
      obtain ⟨f, hf, rfl⟩ := List.mem_map.mp hkind
      obtain rfl := List.mem_singleton.mp hkind'
      exact hnew f hf
    refine (hsorted.and hnodup).imp ?_
    rintro a b ⟨hle, hne⟩
    exact Nat.lt_of_le_of_ne hle fun heq => hne (EvidenceKind.rank_inj heq)

theorem Ordered.mem_insert (h : s.Ordered) {e f : Evidence} :
    f ∈ (s.insert e).items ↔ f = e ∨ f ∈ s.items ∧ f.kind ≠ e.kind := by
  obtain ⟨before, old, after, hitems, hkind, hinsert⟩ | ⟨hnew, hperm, -⟩ := insert_cases s e
  · -- What is replaced was the only item of its kind.
    have hnodup := h.nodup
    rw [hitems, List.map_append, List.map_cons, List.nodup_middle, ← List.map_append,
      List.nodup_cons, hkind] at hnodup
    have hothers : ∀ f ∈ before ++ after, f.kind ≠ e.kind := fun f hf heq =>
      hnodup.1 (heq ▸ List.mem_map_of_mem hf)
    rw [hinsert, hitems, List.perm_middle.mem_iff, List.perm_middle.mem_iff, List.mem_cons,
      List.mem_cons]
    constructor
    · rintro (rfl | hf)
      · exact .inl rfl
      · exact .inr ⟨.inr hf, hothers f hf⟩
    · rintro (rfl | ⟨rfl | hf, hne⟩)
      · exact .inl rfl
      · exact absurd hkind hne
      · exact .inr hf
  · rw [hperm.mem_iff, List.mem_append, List.mem_singleton]
    constructor
    · rintro (hf | rfl)
      · exact .inr ⟨hf, hnew f hf⟩
      · exact .inl rfl
    · rintro (rfl | ⟨hf, -⟩)
      · exact .inr rfl
      · exact .inl hf

/-- An insertion changes what is found under its own kind, and nothing else. -/
theorem Ordered.get?_insert (h : s.Ordered) (e : Evidence) (kind : EvidenceKind) :
    (s.insert e).get? kind = if e.kind = kind then some e else s.get? kind := by
  ext f
  rw [(h.insert e).get?_eq_some_iff, h.mem_insert]
  by_cases hkind : e.kind = kind
  · rw [if_pos hkind, Option.some.injEq]
    constructor
    · rintro ⟨rfl | ⟨-, hne⟩, hf⟩
      · rfl
      · exact absurd (hf.trans hkind.symm) hne
    · rintro rfl
      exact ⟨.inl rfl, hkind⟩
  · rw [if_neg hkind, h.get?_eq_some_iff]
    constructor
    · rintro ⟨rfl | ⟨hf, -⟩, hfkind⟩
      · exact absurd hfkind hkind
      · exact ⟨hf, hfkind⟩
    · rintro ⟨hf, rfl⟩
      exact ⟨.inr ⟨hf, fun heq => hkind heq.symm⟩, rfl⟩

/-! ### Runs of insertions -/

/-- The set after some insertions. -/
def insertAll (s : EvidenceSet) (inserted : List Evidence) : EvidenceSet :=
  inserted.foldl insert s

/-- What was inserted last of a kind. -/
def last? (kind : EvidenceKind) (inserted : List Evidence) : Option Evidence :=
  (inserted.filter fun e => e.kind = kind).getLast?

theorem last?_cons (kind : EvidenceKind) (e : Evidence) (rest : List Evidence) :
    last? kind (e :: rest) = (last? kind rest).or (if e.kind = kind then some e else none) := by
  by_cases hkind : e.kind = kind
  · rw [last?, List.filter_cons_of_pos (by simpa using hkind), List.getLast?_cons, if_pos hkind,
      last?]
    cases (rest.filter fun e => e.kind = kind).getLast? <;> rfl
  · rw [last?, List.filter_cons_of_neg (by simpa using hkind), if_neg hkind, Option.or_none, last?]

theorem Ordered.insertAll (h : s.Ordered) (inserted : List Evidence) :
    (s.insertAll inserted).Ordered := by
  induction inserted generalizing s with
  | nil => exact h
  | cons e rest ih => exact ih (h.insert e)

theorem Ordered.get?_insertAll (h : s.Ordered) (inserted : List Evidence) (kind : EvidenceKind) :
    (s.insertAll inserted).get? kind = (last? kind inserted).or (s.get? kind) := by
  induction inserted generalizing s with
  | nil => rfl
  | cons e rest ih =>
    refine (ih (h.insert e)).trans ?_
    rw [h.get?_insert, last?_cons, Option.or_assoc]
    split <;> rfl

/-- The sets that insertions start from. -/
inductive Initial : EvidenceSet → Prop where
  | empty : Initial .empty
  | ofProgram (program : Json.Value) : Initial (.ofProgram program)

theorem Initial.ordered (h : s.Initial) : s.Ordered := by
  cases h with
  | empty => exact ordered_empty
  | ofProgram program => exact ordered_ofProgram program

/-- After any insertions the items are of different kinds and in the order of all kinds. Under each
kind the last insertion of it is found, or else what was there at first; so insertions that agree on
the last one of each kind lead to the same set. -/
theorem insertAll_of_initial (h : s.Initial) (inserted : List Evidence) :
    ((s.insertAll inserted).items.map (·.kind)).Sublist EvidenceKind.all ∧
      (∀ kind, (s.insertAll inserted).get? kind = (last? kind inserted).or (s.get? kind)) ∧
      ∀ inserted', (∀ kind, last? kind inserted' = last? kind inserted) →
        s.insertAll inserted' = s.insertAll inserted := by
  have hordered := h.ordered
  refine ⟨(hordered.insertAll inserted).sublist_all, hordered.get?_insertAll inserted,
    fun inserted' same => ?_⟩
  refine (hordered.insertAll inserted').ext (hordered.insertAll inserted) fun kind => ?_
  rw [hordered.get?_insertAll, hordered.get?_insertAll, same]

/-- Keywords inserted twice around a call, over the keywords and parameters of a program. -/
theorem insertAll_of_program :
    let program := Json.Value.object
      [("keywords", .string "old"), ("formalParam", .array [.string "path", .string "mode"])]
    let inserted := [⟨.keywords, ["file"]⟩, ⟨.apiCalls, ["open"]⟩, ⟨.keywords, ["read"]⟩]
    let s := ofProgram program
    s.Initial ∧ (∀ kind, last? kind inserted.tail = last? kind inserted) ∧
      (s.insertAll inserted).get? .keywords = some ⟨.keywords, ["read"]⟩ ∧
      (s.insertAll inserted).get? .formalParams = some ⟨.formalParams, ["path", "mode"]⟩ ∧
      s.insertAll inserted.tail = s.insertAll inserted := by
  intro program inserted s
  have hinitial : s.Initial := .ofProgram program
  have hlast : ∀ kind, last? kind inserted.tail = last? kind inserted := by
    intro kind
    cases kind <;> rfl
  have hparams : s.get? .formalParams = some ⟨.formalParams, ["path", "mode"]⟩ :=
    hinitial.ordered.get?_eq_some_iff.mpr
      ⟨List.mem_filterMap.mpr ⟨.formalParams, EvidenceKind.mem_all _, rfl⟩, rfl⟩
  obtain ⟨-, hget, hsame⟩ := insertAll_of_initial hinitial inserted
  refine ⟨hinitial, hlast, ?_, ?_, hsame _ hlast⟩
  · rw [hget]
    rfl
  · rw [hget, hparams]
    rfl

end EvidenceSet
end ProgramSearch
