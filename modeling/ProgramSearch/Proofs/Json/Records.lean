import ProgramSearch.Json.Shape
import ProgramSearch.Proofs.Results

/-!
# What a success of a reader says

A list of texts is read from an array of texts only. In a record each field stands once at most, so
what is kept for a field is what its one member was read as.
-/
namespace ProgramSearch.Json

theorem scalar_mismatch_ne_ok {α : Type} (d : Doc) (expected : String) (a : α) :
    d.scalar (·.mismatch expected) ≠ .ok a := by
  intro h
  unfold Doc.scalar at h
  split at h
  · contradiction
  · contradiction
  · obtain ⟨v, -, hv⟩ := bind_ok h
    contradiction

theorem list_eq_ok_iff {α : Type} {reader : Doc → Except Fault α} {d : Doc} {as : List α} :
    d.list reader = .ok as ↔ ∃ items, d = .array items none ∧ items.mapM reader = .ok as := by
  constructor
  · intro h
    unfold Doc.list at h
    split at h
    · next items ending =>
      obtain ⟨bs, hbs, h⟩ := bind_ok h
      cases ending with
      | some damage => contradiction
      | none => exact ⟨items, rfl, Except.ok.inj h ▸ hbs⟩
    · exact absurd h (scalar_mismatch_ne_ok d _ as)
  · rintro ⟨items, rfl, h⟩
    rw [Doc.list, h]
    rfl

theorem scalar_text_eq_ok_iff {d : Doc} {text : String} :
    d.scalar Value.text = .ok text ↔ d = .string (.ok text) := by
  constructor
  · intro h
    cases d with
    | string s =>
      cases s with
      | error fault => contradiction
      | ok s => exact congrArg (Doc.string ∘ .ok) (Except.ok.inj h)
    | number n =>
      obtain ⟨v, hv, h⟩ := bind_ok h
      obtain ⟨n, -, rfl⟩ := map_ok hv
      contradiction
    | _ => contradiction
  · rintro rfl
    rfl

/-- The array of some texts. -/
def Doc.texts (texts : List String) : Doc := .array (texts.map fun text => .string (.ok text)) none

theorem Doc.texts_inj {texts texts' : List String} (h : Doc.texts texts = .texts texts') :
    texts = texts' :=
  (List.map_inj_right fun _ _ heq => Except.ok.inj (Doc.string.inj heq)).mp (Doc.array.inj h).1

theorem list_scalar_text_eq_ok_iff {d : Doc} {texts : List String} :
    d.list (·.scalar Value.text) = .ok texts ↔ d = Doc.texts texts := by
  rw [list_eq_ok_iff]
  simp only [mapM_eq_ok_iff_eq_map fun _ _ => scalar_text_eq_ok_iff, Doc.texts]
  constructor
  · rintro ⟨_, rfl, rfl⟩
    rfl
  · rintro rfl
    exact ⟨_, rfl, rfl⟩

section Records

variable {σ β : Type} {fields : List String} {step : σ → String → Doc → Except Fault σ}
  {field : String} {seen : List String} {state final : σ}
  {members : List (Except Fault String × Doc)}

/-- What a walk does with the next member. -/
theorem walkMembers_cons_ok {key : Except Fault String} {d : Doc}
    (h : walkMembers fields step seen state ((key, d) :: members) = .ok final) :
    ∃ name, key = .ok name ∧
      ((name ∈ fields ∧ name ∉ seen ∧ ∃ next, step state name d = .ok next ∧
          walkMembers fields step (name :: seen) next members = .ok final) ∨
        name ∉ fields ∧ walkMembers fields step seen state members = .ok final) := by
  rw [walkMembers] at h
  obtain ⟨name, rfl, hwalk⟩ := bind_ok h
  refine ⟨name, rfl, ?_⟩
  split at hwalk
  · next hfield =>
    split at hwalk
    · contradiction
    · next hseen =>
      obtain ⟨next, hstep, hrest⟩ := bind_ok hwalk
      exact .inl ⟨by simpa using hfield, by simpa using hseen, next, hstep, hrest⟩
  · next hfield =>
    obtain ⟨⟨⟩, -, hrest⟩ := bind_ok hwalk
    exact .inr ⟨by simpa using hfield, hrest⟩

variable (view : σ → β) (known : field ∈ fields)
  (frame : ∀ s name d s', name ∈ fields → name ≠ field → step s name d = .ok s' →
    view s' = view s)

include known frame

/-- A field that was seen does not come again, so what is kept for it stays. -/
theorem walkMembers_of_seen (was : field ∈ seen)
    (h : walkMembers fields step seen state members = .ok final) :
    view final = view state ∧ ∀ d, (.ok field, d) ∉ members := by
  induction members generalizing seen state with
  | nil =>
    obtain rfl := Except.ok.inj h
    exact ⟨rfl, fun d => List.not_mem_nil⟩
  | cons member members ih =>
    obtain ⟨name, hkey, ⟨hname, hnew, next, hstep, hrest⟩ | ⟨hother, hrest⟩⟩ :=
      walkMembers_cons_ok h
    · have hne : name ≠ field := fun heq => hnew (heq ▸ was)
      obtain ⟨hview, hnone⟩ := ih (List.mem_cons_of_mem name was) hrest
      refine ⟨hview.trans (frame _ _ _ _ hname hne hstep), fun d hmem => ?_⟩
      rcases List.mem_cons.mp hmem with rfl | hmem
      · exact hne (Except.ok.inj hkey).symm
      · exact hnone d hmem
    · have hne : name ≠ field := fun heq => hother (heq ▸ known)
      obtain ⟨hview, hnone⟩ := ih was hrest
      refine ⟨hview, fun d hmem => ?_⟩
      rcases List.mem_cons.mp hmem with rfl | hmem
      · exact hne (Except.ok.inj hkey).symm
      · exact hnone d hmem

/-- What is kept for a field is what the member of that name was read as. -/
theorem walkMembers_of_mem {d : Doc} (hmem : (.ok field, d) ∈ members)
    (h : walkMembers fields step seen state members = .ok final) :
    ∃ s s', step s field d = .ok s' ∧ view final = view s' := by
  induction members generalizing seen state with
  | nil => contradiction
  | cons member members ih =>
    obtain ⟨name, hkey, ⟨-, hnew, next, hstep, hrest⟩ | ⟨hother, hrest⟩⟩ := walkMembers_cons_ok h
    · rcases List.mem_cons.mp hmem with rfl | hmem
      · obtain rfl := Except.ok.inj hkey
        exact ⟨state, next, hstep,
          (walkMembers_of_seen view known frame List.mem_cons_self hrest).1⟩
      · exact ih hmem hrest
    · rcases List.mem_cons.mp hmem with rfl | hmem
      · exact absurd (Except.ok.inj hkey ▸ known) hother
      · exact ih hmem hrest

end Records

/-- Behind the last field of a record written as an array there is nothing. -/
theorem walkElements_nil_ok {σ : Type} {name : String} {total position : Nat}
    {optional : List String} {step : σ → String → Doc → Except Fault σ} {ending : Option Damage}
    {state final : σ} {items : List Doc}
    (h : walkElements name total optional step ending position state [] items = .ok final) :
    final = state := by
  cases items with
  | nil =>
    rw [walkElements] at h
    split at h
    · contradiction
    · contradiction
    · contradiction
    · exact (Except.ok.inj h).symm
  | cons item items => contradiction

end ProgramSearch.Json
