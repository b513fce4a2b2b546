import Mathlib.Data.List.Basic
import ProgramSearch.Model.Encoder

/-!
# What an encoding depends on

An encoder sees of each configured kind which of the tokens it knows occur, and nothing else. The
order and number of tokens, unknown tokens and other kinds make no difference, nor does it matter
whether a kind is absent or none of its tokens is known.
-/
namespace ProgramSearch

namespace TokenIndex

variable (t : TokenIndex)

theorem isSome_index?_iff {token : String} : (t.index? token).isSome ↔ token ∈ t.tokens := by
  rw [index?, List.isSome_idxOf?]

/-- After some tokens a place is marked if one of them stands there, and else as it was. -/
theorem getElem?_foldl_mark (tokens : List String) (marked : List Float32 × Bool) (i : Nat) :
    (tokens.foldl t.mark marked).1[i]? =
      if ∃ token ∈ tokens, t.index? token = some i then marked.1[i]?.map fun _ => 1
      else marked.1[i]? := by
  induction tokens generalizing marked with
  | nil => simp
  | cons token tokens ih =>
    rw [List.foldl_cons, ih]
    cases hindex : t.index? token with
    | none => simp [mark, hindex]
    | some j =>
      by_cases hj : j = i
      · subst j
        by_cases hi : i < marked.1.length <;> simp [mark, hindex, hi]
      · simp [mark, hindex, hj]

theorem foldl_mark_known (tokens : List String) (marked : List Float32 × Bool) :
    (tokens.foldl t.mark marked).2 = true ↔
      marked.2 = true ∨ ∃ token ∈ tokens, token ∈ t.tokens := by
  induction tokens generalizing marked with
  | nil => simp
  | cons token tokens ih =>
    have hknown : (t.index? token).isSome ↔ token ∈ t.tokens := t.isSome_index?_iff
    rw [List.foldl_cons, ih]
    cases hindex : t.index? token <;> simp_all [mark]

/-- A bag has a mark at the places of the tokens that occur, and zeros elsewhere; without a known
token there is no bag. -/
theorem bag_eq (tokens : List String) :
    t.bag tokens = if ∃ token ∈ tokens, token ∈ t.tokens then
      some ((List.range t.size).map fun i =>
        if ∃ token ∈ tokens, t.index? token = some i then 1 else 0) else none := by
  have hbag : (tokens.foldl t.mark (List.replicate t.size 0, false)).1 =
      (List.range t.size).map fun i =>
        if ∃ token ∈ tokens, t.index? token = some i then 1 else 0 := by
    apply List.ext_getElem?
    intro i
    rw [getElem?_foldl_mark]
    by_cases hi : i < t.size
    · simp only [List.getElem?_replicate, hi, if_true, List.getElem?_map, List.getElem?_range,
        Option.map_some]
      split <;> rfl
    · simp [hi]
  have hknown := t.foldl_mark_known tokens (List.replicate t.size 0, false)
  simp only [Bool.false_eq_true, false_or] at hknown
  simp only [bag, hbag, hknown]

/-- A bag depends on the known tokens that occur. -/
theorem bag_congr {tokens tokens' : List String}
    (same : ∀ token ∈ t.tokens, token ∈ tokens ↔ token ∈ tokens') :
    t.bag tokens = t.bag tokens' := by
  have hoccur : (∃ token ∈ tokens, token ∈ t.tokens) ↔ ∃ token ∈ tokens', token ∈ t.tokens :=
    exists_congr fun token => and_congr_left (same token)
  have hplaced : ∀ i, (∃ token ∈ tokens, t.index? token = some i) ↔
      ∃ token ∈ tokens', t.index? token = some i := by
    intro i
    refine exists_congr fun token => and_congr_left fun hindex => same token ?_
    exact t.isSome_index?_iff.mp (Option.isSome_of_eq_some hindex)
  simp only [bag_eq, hoccur, hplaced]

end TokenIndex

namespace EvidenceSet

/-- The tokens of a kind; none if the kind is absent. -/
def tokens (s : EvidenceSet) (kind : EvidenceKind) : List String :=
  ((s.get? kind).map (·.tokens)).getD []

end EvidenceSet

namespace KindEncoder

/-- An absent kind contributes what no tokens do, which is nothing. -/
theorem contribution?_eq (e : KindEncoder) (s : EvidenceSet) :
    e.contribution? s = (e.index.bag (s.tokens e.kind)).map fun bag => (e.apply bag, e.sigma) := by
  rw [contribution?, EvidenceSet.tokens]
  cases s.get? e.kind with
  | none => rfl
  | some item =>
    change (e.index.bag item.tokens >>= fun bag => some (e.apply bag, e.sigma)) = _
    cases hbag : e.index.bag item.tokens <;> simp [hbag]

/-- The kind has the same known tokens in both sets. -/
def Agree (e : KindEncoder) (s s' : EvidenceSet) : Prop :=
  ∀ token ∈ e.index.tokens, token ∈ s.tokens e.kind ↔ token ∈ s'.tokens e.kind

instance decidableAgree (e : KindEncoder) (s s' : EvidenceSet) : Decidable (e.Agree s s') :=
  inferInstanceAs (Decidable (∀ token ∈ e.index.tokens, _ ↔ _))

theorem contribution?_congr {e : KindEncoder} {s s' : EvidenceSet} (same : e.Agree s s') :
    e.contribution? s = e.contribution? s' := by
  rw [contribution?_eq, contribution?_eq, e.index.bag_congr same]

end KindEncoder

namespace Encoder

/-- Sets of evidence with the same known tokens of each configured kind have the same encoding. -/
theorem encode_of_agree (e : Encoder) {s s' : EvidenceSet}
    (same : ∀ k ∈ e.encoders, k.Agree s s') : e.encode s = e.encode s' := by
  have hcontributions : e.encoders.filterMap (·.contribution? s) =
      e.encoders.filterMap (·.contribution? s') :=
    List.filterMap_congr fun k hk => KindEncoder.contribution?_congr (same k hk)
  rw [encode, encode, hcontributions]

/-- Calls in another order with an unknown one and a repetition, a kind that is not configured, and
keywords of which none is known, beside the two known calls alone. -/
theorem encode_of_agree_calls :
    let layer : Linear := ⟨[[1, -1], [0.5, 2]], [0, 1]⟩
    let e : Encoder := ⟨[⟨.apiCalls, 0.5, .ofTokens ["open", "close", "open"], layer, layer⟩,
      ⟨.keywords, 1, .ofTokens ["file", "path"], layer, layer⟩], 2⟩
    let s : EvidenceSet := ⟨[⟨.apiCalls, ["close", "zip", "open", "close"]⟩, ⟨.types, ["File"]⟩,
      ⟨.keywords, ["disk"]⟩]⟩
    let s' : EvidenceSet := ⟨[⟨.apiCalls, ["open", "close"]⟩]⟩
    (∀ k ∈ e.encoders, k.Agree s s') ∧ e.encode s = e.encode s' := by
  intro layer e s s'
  have same : ∀ k ∈ e.encoders, k.Agree s s' := by decide
  exact ⟨same, e.encode_of_agree same⟩

end Encoder
end ProgramSearch
