import ProgramSearch.Beam.Candidate

/-!
# Outlines of symbol sequences

How the symbols of a chain nest when a candidate grows them: which node each symbol becomes, and
which symbols stand below it. An outline lists the symbols that it consumes and the nodes that
they append to a tree.
-/
namespace ProgramSearch

/-- A chain of symbols up to the stop symbol that closes it. A `flat` symbol only has successors; a
`nest` also has a chain below it, which comes before its successors. -/
inductive Outline where
  | stop
  | flat (symbol : Nat) (rest : Outline)
  | nest (symbol : Nat) (inner rest : Outline)
deriving Repr, DecidableEq

namespace Outline

variable (k : Control)

def symbols : Outline → List Nat
  | stop => [k.stop]
  | flat s rest => s :: rest.symbols
  | nest s inner rest => s :: (inner.symbols ++ rest.symbols)

/-- What the growth of candidates makes of symbols: the first symbol below a construct nests, and
so does every construct; elsewhere a stop closes the chain. -/
def Fits : Bool → Outline → Prop
  | below, stop => below = false
  | below, flat s rest =>
    below = false ∧ k.isConstruct s = false ∧ s ≠ k.stop ∧ rest.Fits false
  | below, nest s inner rest =>
    (below || k.isConstruct s) = true ∧ inner.Fits (k.isConstruct s) ∧ rest.Fits false

instance decidableFits : (below : Bool) → (o : Outline) → Decidable (o.Fits k below)
  | below, stop => inferInstanceAs (Decidable (below = false))
  | below, flat s rest =>
    let := decidableFits false rest
    inferInstanceAs (Decidable
      (below = false ∧ k.isConstruct s = false ∧ s ≠ k.stop ∧ rest.Fits k false))
  | below, nest s inner rest =>
    let := decidableFits (k.isConstruct s) inner
    let := decidableFits false rest
    inferInstanceAs (Decidable ((below || k.isConstruct s) = true ∧
      inner.Fits k (k.isConstruct s) ∧ rest.Fits k false))

def size : Outline → Nat
  | stop => 1
  | flat _ rest => rest.size + 1
  | nest _ inner rest => inner.size + rest.size + 1

/-- The nodes of an outline whose first node has the id `base`. -/
def nodes (base : Nat) : Outline → List Node
  | stop => [⟨k.stop, none, none⟩]
  | flat s rest => ⟨s, none, some (base + 1)⟩ :: rest.nodes (base + 1)
  | nest s inner rest =>
    ⟨s, some (base + 1), some (base + 1 + inner.size)⟩ ::
      (inner.nodes (base + 1) ++ rest.nodes (base + 1 + inner.size))

@[simp] theorem length_symbols (o : Outline) : (o.symbols k).length = o.size := by
  induction o with
  | stop => rfl
  | flat s rest ih => simp [symbols, size, ih]
  | nest s inner rest ihi ihr => simp [symbols, size, ihi, ihr]

@[simp] theorem length_nodes (o : Outline) (base : Nat) : (o.nodes k base).length = o.size := by
  induction o generalizing base with
  | stop => rfl
  | flat s rest ih => simp [nodes, size, ih]
  | nest s inner rest ihi ihr => simp [nodes, size, ihi, ihr]

/-- Elsewhere than directly below a construct, only constructs nest. -/
theorem isConstruct_of_nest {s : Nat} {below : Bool} {inner rest : Outline}
    (fits : (nest s inner rest).Fits k below) (hb : below = false) : k.isConstruct s = true := by
  have h := fits.1
  rwa [hb, Bool.false_or] at h

/-- No outline is a beginning of another one in the same position. -/
theorem symbols_append_inj (hstop : k.isConstruct k.stop = false) {below : Bool} {o o' : Outline}
    (fits : o.Fits k below) (fits' : o'.Fits k below) {more more' : List Nat}
    (h : o.symbols k ++ more = o'.symbols k ++ more') : o = o' ∧ more = more' := by
  induction o generalizing below o' more more' with
  | stop =>
    cases o' with
    | stop => exact ⟨rfl, (List.cons.inj h).2⟩
    | flat s rest => exact absurd (List.cons.inj h).1.symm fits'.2.2.1
    | nest s inner rest =>
      have hc := isConstruct_of_nest k fits' fits
      rw [← (List.cons.inj h).1, hstop] at hc
      contradiction
  | flat s rest ih =>
    cases o' with
    | stop => exact absurd (List.cons.inj h).1 fits.2.2.1
    | flat s' rest' =>
      obtain ⟨rfl, htail⟩ := List.cons.inj h
      obtain ⟨rfl, hmore⟩ := ih fits.2.2.2 fits'.2.2.2 htail
      exact ⟨rfl, hmore⟩
    | nest s' inner' rest' =>
      have hc := isConstruct_of_nest k fits' fits.1
      rw [← (List.cons.inj h).1, fits.2.1] at hc
      contradiction
  | nest s inner rest ihi ihr =>
    cases o' with
    | stop =>
      have hc := isConstruct_of_nest k fits fits'
      rw [(List.cons.inj h).1, hstop] at hc
      contradiction
    | flat s' rest' =>
      have hc := isConstruct_of_nest k fits fits'.1
      rw [(List.cons.inj h).1, fits'.2.1] at hc
      contradiction
    | nest s' inner' rest' =>
      simp only [symbols, List.cons_append, List.append_assoc, List.cons.injEq] at h
      obtain ⟨rfl, htail⟩ := h
      obtain ⟨rfl, hrest⟩ := ihi fits.2.1 fits'.2.1 htail
      obtain ⟨rfl, hmore⟩ := ihr fits.2.2 fits'.2.2 hrest
      exact ⟨rfl, hmore⟩

/-- The symbols determine the outline. -/
theorem symbols_inj (hstop : k.isConstruct k.stop = false) {below : Bool} {o o' : Outline}
    (fits : o.Fits k below) (fits' : o'.Fits k below) (h : o.symbols k = o'.symbols k) : o = o' :=
  (symbols_append_inj k hstop fits fits' (congrArg (· ++ []) h)).1

end Outline
end ProgramSearch
