import ProgramSearch.Proofs.Evidence
import ProgramSearch.Proofs.SortedSet

/-!
# Evidence from the fields of a program

A kind is found in a program exactly if its field holds some text: a text of its own, for
documentation one with a word, or a list with a text in it. An empty text counts, so a field that
says nothing may still be evidence. Where the order of tokens does not matter, they are a set.
-/
namespace ProgramSearch

namespace EvidenceKind

/-- The value of a field holds a token that says something: a word of a documentation text, or a
text that is not empty, alone or in a list. -/
inductive Informs : EvidenceKind → Json.Value → Prop where
  | word {text : String} (h : Text.words text ≠ []) : Informs javaDoc (.string text)
  | text {kind : EvidenceKind} {token : String} (other : kind ≠ javaDoc) (h : token ≠ "") :
    Informs kind (.string token)
  | item {kind : EvidenceKind} {items : List Json.Value} {token : String}
    (listed : .string token ∈ items) (h : token ≠ "") : Informs kind (.array items)

/-- The value of a field holds texts, and all of them are empty. A documentation text is split into
words, of which none is empty. -/
inductive Blank : EvidenceKind → Json.Value → Prop where
  | text {kind : EvidenceKind} (other : kind ≠ javaDoc) : Blank kind (.string "")
  | items {kind : EvidenceKind} {items : List Json.Value} (listed : .string "" ∈ items)
    (h : ∀ token, .string token ∈ items → token = "") : Blank kind (.array items)

variable {kind : EvidenceKind} {v : Json.Value} {program : Json.Value} {e : Evidence}

theorem Blank.not_informs (h : Blank kind v) : ¬ Informs kind v := by
  cases h with
  | text other =>
    rintro (h | ⟨-, h⟩)
    · exact other rfl
    · exact h rfl
  | items _ h =>
    rintro (_ | _ | ⟨listed, hne⟩)
    exact hne (h _ listed)

theorem tokens_text (other : kind ≠ javaDoc) (token : String) :
    kind.tokens (.string token) = [token] := by
  cases kind with
  | javaDoc => contradiction
  | _ => rfl

theorem mem_tokens_array {items : List Json.Value} {token : String} :
    token ∈ kind.tokens (.array items) ↔ .string token ∈ items := by
  have htokens : kind.tokens (.array items) = items.filterMap (·.string?) := by cases kind <;> rfl
  rw [htokens, List.mem_filterMap]
  constructor
  · rintro ⟨item, hitem, htoken⟩
    cases item with
    | string text => exact Option.some.inj htoken ▸ hitem
    | _ => contradiction
  · exact fun h => ⟨_, h, rfl⟩

/-- A field has tokens exactly if it holds a text. -/
theorem tokens_ne_nil_iff : kind.tokens v ≠ [] ↔ Informs kind v ∨ Blank kind v := by
  constructor
  · intro h
    cases v with
    | string text =>
      by_cases hkind : kind = javaDoc
      · subst hkind
        exact .inl (.word fun hnone => h (by rw [tokens, hnone, List.map_nil]))
      · by_cases htext : text = ""
        · exact .inr (htext ▸ .text hkind)
        · exact .inl (.text hkind htext)
    | array items =>
      obtain ⟨token, htoken⟩ := List.exists_mem_of_ne_nil _ h
      by_cases hsome : ∃ token, .string token ∈ items ∧ token ≠ ""
      · obtain ⟨token, hlisted, hne⟩ := hsome
        exact .inl (.item hlisted hne)
      · have hempty : ∀ token, .string token ∈ items → token = "" := fun token hlisted =>
          Classical.not_not.mp fun hne => hsome ⟨token, hlisted, hne⟩
        have hlisted := mem_tokens_array.mp htoken
        exact .inr (.items (hempty token hlisted ▸ hlisted) hempty)
    | _ => cases kind <;> contradiction
  · rintro ((h | ⟨other, -⟩ | ⟨listed, -⟩) | (other | ⟨listed, -⟩))
    · exact fun hnone => h (List.map_eq_nil_iff.mp hnone)
    · exact tokens_text other _ ▸ List.cons_ne_nil _ _
    · exact List.ne_nil_of_mem (mem_tokens_array.mpr listed)
    · exact tokens_text other _ ▸ List.cons_ne_nil _ _
    · exact List.ne_nil_of_mem (mem_tokens_array.mpr listed)

theorem Blank.eq_empty (h : Blank kind v) {token : String} (htoken : token ∈ kind.tokens v) :
    token = "" := by
  cases h with
  | text other =>
    rw [tokens_text other] at htoken
    exact List.mem_singleton.mp htoken
  | items _ h => exact h token (mem_tokens_array.mp htoken)

/-- What is read of a kind: the tokens of its field, as a set unless their order matters. -/
theorem read?_eq_some_iff : kind.read? program = some e ↔
    ∃ v, program.get? kind.field = some v ∧ kind.tokens v ≠ [] ∧
      e = ⟨kind, if kind.isSequence then kind.tokens v else sortedSet (kind.tokens v)⟩ := by
  have hempty (tokens : List String) :
      (if kind.isSequence then tokens else sortedSet tokens).isEmpty = true ↔ tokens = [] := by
    rw [List.isEmpty_iff]
    split
    · rfl
    · rw [List.eq_nil_iff_forall_not_mem, List.eq_nil_iff_forall_not_mem]
      simp only [mem_sortedSet]
  rw [read?]
  cases program.get? kind.field with
  | none => simp
  | some v =>
    simp only [Option.ite_none_left_eq_some, hempty, Option.some.injEq, exists_eq_left']
    exact and_congr_right fun _ => eq_comm

end EvidenceKind

namespace EvidenceSet

open EvidenceKind

variable (program : Json.Value) (kind : EvidenceKind)

theorem get?_ofProgram : (ofProgram program).get? kind = kind.read? program := by
  ext e
  rw [(ordered_ofProgram program).get?_eq_some_iff, ofProgram, List.mem_filterMap]
  constructor
  · rintro ⟨⟨kind', -, hread⟩, rfl⟩
    rwa [kind_of_read? hread]
  · exact fun hread => ⟨⟨kind, mem_all kind, hread⟩, kind_of_read? hread⟩

/-- A kind is found in a program exactly if its field holds a text, be it empty. So it is found
exactly if its field holds a token that says something, unless the field holds empty texts only,
which are then all there is. The tokens of a kind whose order does not matter increase strictly. -/
theorem get?_ofProgram_isSome_iff :
    (((ofProgram program).get? kind).isSome ↔
      ∃ v, program.get? kind.field = some v ∧ (kind.Informs v ∨ kind.Blank v)) ∧
    ((((ofProgram program).get? kind).isSome ↔
        ∃ v, program.get? kind.field = some v ∧ kind.Informs v) ↔
      ∀ v, program.get? kind.field = some v → ¬ kind.Blank v) ∧
    ∀ e, (ofProgram program).get? kind = some e →
      (kind ≠ formalParams → kind ≠ javaDoc → e.tokens.Pairwise (· < ·)) ∧
      ∀ v, program.get? kind.field = some v → kind.Blank v → ∀ token ∈ e.tokens, token = "" := by
  have hsome : ((ofProgram program).get? kind).isSome ↔
      ∃ v, program.get? kind.field = some v ∧ (kind.Informs v ∨ kind.Blank v) := by
    rw [get?_ofProgram, Option.isSome_iff_exists]
    simp only [read?_eq_some_iff, ← tokens_ne_nil_iff]
    constructor
    · rintro ⟨_, v, hv, htokens, -⟩
      exact ⟨v, hv, htokens⟩
    · rintro ⟨v, hv, htokens⟩
      exact ⟨_, v, hv, htokens, rfl⟩
  refine ⟨hsome, ?_, fun e he => ?_⟩
  · rw [hsome]
    constructor
    · intro h v hv hblank
      obtain ⟨w, hw, hinforms⟩ := h.mp ⟨v, hv, .inr hblank⟩
      obtain rfl := Option.some.inj (hv.symm.trans hw)
      exact hblank.not_informs hinforms
    · intro h
      refine exists_congr fun v => and_congr_right fun hv => ?_
      exact or_iff_left (h v hv)
  · rw [get?_ofProgram, read?_eq_some_iff] at he
    obtain ⟨v, hv, -, rfl⟩ := he
    refine ⟨fun hparams hdoc => ?_, fun w hw hblank token htoken => ?_⟩
    · have hset : kind.isSequence = false := by cases kind <;> first | rfl | contradiction
      rw [hset]
      exact pairwise_sortedSet _
    · obtain rfl := Option.some.inj (hv.symm.trans hw)
      apply hblank.eq_empty
      dsimp only at htoken
      split at htoken
      · exact htoken
      · exact mem_sortedSet.mp htoken

/-- An empty return type is evidence, though it says nothing. -/
theorem ofProgram_of_blank :
    let program := Json.Value.object [("returnType", .string "")]
    (ofProgram program).get? .returnType = some ⟨.returnType, [""]⟩ ∧
      ¬ ∃ v, program.get? EvidenceKind.returnType.field = some v ∧ returnType.Informs v := by
  intro program
  have hset : sortedSet [""] = [""] := sortedSet_eq (List.pairwise_singleton _ _) fun _ => Iff.rfl
  constructor
  · rw [get?_ofProgram, read?_eq_some_iff]
    exact ⟨.string "", rfl, by decide, congrArg (Evidence.mk .returnType) hset.symm⟩
  · rintro ⟨v, hv, hinforms⟩
    obtain rfl := Option.some.inj hv
    exact (Blank.text (by decide)).not_informs hinforms

end EvidenceSet
end ProgramSearch
