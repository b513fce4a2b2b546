import ProgramSearch.Failure

/-!
# Results

Sequences of computations that may fail, and lists of them: what a success says about each part.
-/
namespace ProgramSearch

variable {ε : Type}

theorem ok_bind {α β : Type} (a : α) (f : α → Except ε β) : (.ok a >>= f) = f a := rfl

theorem bind_ok {α β : Type} {x : Except ε α} {f : α → Except ε β} {b : β}
    (h : (x >>= f) = .ok b) : ∃ a, x = .ok a ∧ f a = .ok b := by
  cases x with
  | error e => contradiction
  | ok a => exact ⟨a, rfl, h⟩

theorem bind_error {α β : Type} {x : Except ε α} {f : α → Except ε β} {e : ε}
    (h : (x >>= f) = .error e) : x = .error e ∨ ∃ a, x = .ok a ∧ f a = .error e := by
  cases x with
  | error e' => exact .inl (congrArg Except.error (Except.error.inj h))
  | ok a => exact .inr ⟨a, rfl, h⟩

theorem map_ok {α β : Type} {f : α → β} {x : Except ε α} {b : β} (h : f <$> x = .ok b) :
    ∃ a, x = .ok a ∧ f a = b := by
  cases x with
  | error e => contradiction
  | ok a => exact ⟨a, rfl, Except.ok.inj h⟩

section MapM

variable {α β γ : Type} {f : α → Except ε β} {xs : List α} {ys : List β}

theorem mapM_eq_ok_iff : xs.mapM f = .ok ys ↔ xs.map f = ys.map .ok := by
  induction xs generalizing ys with
  | nil =>
    cases ys with
    | nil => exact ⟨fun _ => rfl, fun _ => rfl⟩
    | cons y ys =>
      exact ⟨fun h => absurd (Except.ok.inj h) (by simp), fun h => by contradiction⟩
  | cons x xs ih =>
    rw [List.mapM_cons]
    constructor
    · intro h
      obtain ⟨y, hy, h⟩ := bind_ok h
      obtain ⟨rest, hrest, h⟩ := bind_ok h
      obtain rfl : y :: rest = ys := Except.ok.inj h
      rw [List.map_cons, List.map_cons, hy, ih.mp hrest]
    · intro h
      cases ys with
      | nil => contradiction
      | cons y ys =>
        rw [List.map_cons, List.map_cons, List.cons.injEq] at h
        rw [h.1, ok_bind, ih.mpr h.2, ok_bind]
        rfl

/-- If each result comes from one element only, the results tell the list. -/
theorem mapM_eq_ok_iff_eq_map {g : β → α} (h : ∀ x y, f x = .ok y ↔ x = g y) :
    xs.mapM f = .ok ys ↔ xs = ys.map g := by
  rw [mapM_eq_ok_iff]
  constructor
  · intro hresults
    induction xs generalizing ys with
    | nil => rw [List.map_eq_nil_iff.mp hresults.symm, List.map_nil]
    | cons x xs ih =>
      obtain ⟨y, rest, rfl, hy, hrest⟩ := List.map_eq_cons_iff.mp hresults.symm
      rw [List.map_cons, (h x y).mp hy.symm, ih hrest.symm]
  · rintro rfl
    rw [List.map_map]
    exact List.map_congr_left fun y _ => (h (g y) y).mpr rfl

theorem exists_mapM_eq_ok (h : ∀ x ∈ xs, ∃ y, f x = .ok y) : ∃ ys, xs.mapM f = .ok ys := by
  induction xs with
  | nil => exact ⟨[], rfl⟩
  | cons x xs ih =>
    obtain ⟨y, hy⟩ := h x List.mem_cons_self
    obtain ⟨ys, hys⟩ := ih fun z hz => h z (List.mem_cons_of_mem x hz)
    exact ⟨y :: ys, by rw [List.mapM_cons, hy, ok_bind, hys, ok_bind]; rfl⟩

theorem getElem?_of_mapM (h : xs.mapM f = .ok ys) {i : Nat} {y : β} :
    ys[i]? = some y ↔ ∃ x, xs[i]? = some x ∧ f x = .ok y := by
  have hslot := congrArg (·[i]?) (mapM_eq_ok_iff.mp h)
  simp only [List.getElem?_map] at hslot
  cases hx : xs[i]? <;> cases hy : ys[i]? <;> simp_all

theorem mem_of_mapM (h : xs.mapM f = .ok ys) {y : β} : y ∈ ys ↔ ∃ x ∈ xs, f x = .ok y := by
  rw [← List.mem_map, mapM_eq_ok_iff.mp h]
  simp

theorem length_of_mapM (h : xs.mapM f = .ok ys) : ys.length = xs.length := by
  have hlength := congrArg List.length (mapM_eq_ok_iff.mp h)
  simpa using hlength.symm

theorem exists_of_mapM (h : xs.mapM f = .ok ys) {x : α} (hx : x ∈ xs) : ∃ y ∈ ys, f x = .ok y := by
  have hmem : f x ∈ ys.map .ok := mapM_eq_ok_iff.mp h ▸ List.mem_map_of_mem hx
  obtain ⟨y, hy, hfx⟩ := List.mem_map.mp hmem
  exact ⟨y, hy, hfx.symm⟩

theorem map_of_mapM (h : xs.mapM f = .ok ys) {g : β → γ} {g' : α → γ}
    (hg : ∀ x ∈ xs, ∀ y, f x = .ok y → g y = g' x) : ys.map g = xs.map g' := by
  apply List.ext_getElem?
  intro i
  rw [List.getElem?_map, List.getElem?_map]
  cases hy : ys[i]? with
  | some y =>
    obtain ⟨x, hx, hfx⟩ := (getElem?_of_mapM h).mp hy
    rw [hx, Option.map_some, Option.map_some, hg x (List.mem_of_getElem? hx) y hfx]
  | none =>
    rw [List.getElem?_eq_none_iff, length_of_mapM h] at hy
    rw [List.getElem?_eq_none_iff.mpr hy]
    rfl

/-- What becomes of some of the elements, if the results tell which. -/
theorem filter_mapM (h : xs.mapM f = .ok ys) {p : α → Bool} {q : β → Bool}
    (hpq : ∀ x y, f x = .ok y → q y = p x) : (xs.filter p).mapM f = .ok (ys.filter q) := by
  rw [mapM_eq_ok_iff] at h ⊢
  induction xs generalizing ys with
  | nil =>
    obtain rfl : ys = [] := List.map_eq_nil_iff.mp h.symm
    rfl
  | cons x xs ih =>
    obtain ⟨y, rest, rfl, hy, hrest⟩ := List.map_eq_cons_iff.mp h.symm
    have hq := hpq x y hy.symm
    rw [List.filter_cons, List.filter_cons, hq]
    split
    · rw [List.map_cons, List.map_cons, ih hrest.symm, hy]
    · exact ih hrest.symm

end MapM
end ProgramSearch
