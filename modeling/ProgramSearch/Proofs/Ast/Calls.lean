import ProgramSearch.Proofs.Ast.Reading

/-!
# Calls of a grown program

Which of the grown symbols are calls of the program that is read off the tree. A stop that is the
first symbol below a construct cuts off what is grown beside it. A construct that is the first
symbol below another one has its first part read twice: as its own first part, and as the second
part of the construct above it.
-/
namespace ProgramSearch

theorem perm_iff_of_append_perm {α : Type} {a b lost more : List α}
    (h : (a ++ lost).Perm (b ++ more)) : a.Perm b ↔ lost.Perm more := by
  constructor
  · intro hab
    exact (List.perm_append_left_iff b).mp ((hab.symm.append_right lost).trans h)
  · intro hlost
    exact (List.perm_append_right_iff more).mp ((hlost.symm.append_left a).trans h)

/-- A symbol that stands for a call: no stop and no construct. -/
def Vocabulary.isCall (v : Vocabulary) (symbol : Nat) : Bool :=
  !(symbol == v.control.stop || v.control.isConstruct symbol)

/-- The texts of the symbols that stand for calls. -/
def Vocabulary.callNames (v : Vocabulary) (symbols : List Nat) : List String :=
  (symbols.filter v.isCall).map v.nameOf

namespace Vocabulary

variable (v : Vocabulary)

@[simp] theorem callNames_append (xs ys : List Nat) :
    v.callNames (xs ++ ys) = v.callNames xs ++ v.callNames ys := by
  simp [callNames]

theorem callNames_cons_call {s : Nat} (h : v.isCall s = true) (rest : List Nat) :
    v.callNames (s :: rest) = v.nameOf s :: v.callNames rest := by
  simp [callNames, h]

theorem callNames_cons_control {s : Nat} (h : v.isCall s = false) (rest : List Nat) :
    v.callNames (s :: rest) = v.callNames rest := by
  simp [callNames, h]

end Vocabulary

namespace Ast

theorem calls_head_construct {v : Vocabulary} (hv : v.Controlled) {s : Nat}
    (h : v.control.isConstruct s = true) (first second : List Ast) :
    (head v s first second).calls = callsOf first ++ callsOf second := by
  rcases Vocabulary.isConstruct_iff.mp h with rfl | rfl | rfl
  · rw [head_branch]
    rfl
  · rw [head_loop hv]
    rfl
  · rw [head_except hv]
    rfl

theorem calls_head_call {v : Vocabulary} {s : Nat} (h : v.control.isConstruct s = false)
    (first second : List Ast) : (head v s first second).calls = [v.nameOf s] := by
  rw [head_of_call h, calls]

end Ast

namespace Outline

open Ast

variable (v : Vocabulary)

/-- The calls grown beside a stop that is the first symbol below a construct. -/
def lost : Outline → List String
  | stop => []
  | flat _ rest => rest.lost
  | nest s inner rest =>
    inner.lost ++ if s = v.control.stop then v.callNames (rest.symbols v.control) else rest.lost

/-- The calls of the first part of each construct that is the first symbol below a construct.
Nothing beside a cutting stop is read, let alone twice. -/
def repeated : Bool → Outline → List String
  | _, stop => []
  | _, flat _ rest => rest.repeated false
  | below, nest s inner rest =>
    (if below && v.control.isConstruct s then callsOf (inner.chain v) else []) ++
      (inner.repeated (v.control.isConstruct s) ++
        if s = v.control.stop then [] else rest.repeated false)

/-- The calls that are read off an outline: its chain, and directly below a construct also the
chain below its first symbol. -/
def readCalls (below : Bool) (o : Outline) : List String :=
  callsOf (o.chain v) ++ if below then callsOf (o.under v) else []

/-- What is read is what was grown, but for the lost and the repeated calls. -/
def Balanced (below : Bool) (o : Outline) : Prop :=
  (o.readCalls v below ++ o.lost v).Perm
    (v.callNames (o.symbols v.control) ++ o.repeated v below)

variable {v : Vocabulary} {s : Nat} {inner rest : Outline}

/-- A construct reads both chains below it. -/
theorem balanced_construct (hv : v.Controlled) (hc : v.control.isConstruct s = true)
    (below : Bool) (hinner : inner.Balanced v true) (hrest : rest.Balanced v false) :
    (nest s inner rest).Balanced v below := by
  have hs : s ≠ v.control.stop := by
    rintro rfl
    rw [hv.isConstruct_stop] at hc
    contradiction
  have hcall : v.isCall s = false := by simp [Vocabulary.isCall, hc]
  rw [Balanced, List.perm_iff_count] at hinner hrest ⊢
  intro x
  specialize hinner x
  specialize hrest x
  simp only [readCalls, List.count_append, if_true, Bool.false_eq_true, if_false,
    List.count_nil] at hinner hrest
  simp only [readCalls, chain, under, lost, symbols, repeated, hs, hc, if_false, callsOf,
    calls_head_construct hv hc, v.callNames_cons_control hcall, Vocabulary.callNames_append,
    List.count_append, Bool.and_true]
  omega

/-- Below a stop there may be a chain, which the construct above reads; nothing beside the stop is
read. -/
theorem balanced_stop (hv : v.Controlled) (hinner : inner.Balanced v false) :
    (nest v.control.stop inner rest).Balanced v true := by
  have hcall : v.isCall v.control.stop = false := by simp [Vocabulary.isCall]
  rw [Balanced, List.perm_iff_count] at hinner ⊢
  intro x
  specialize hinner x
  simp only [readCalls, List.count_append, Bool.false_eq_true, if_false,
    List.count_nil] at hinner
  simp only [readCalls, chain, under, lost, symbols, repeated, hv.isConstruct_stop, if_true,
    callsOf, v.callNames_cons_control hcall, Vocabulary.callNames_append, List.count_append,
    List.count_nil, Bool.and_false, Bool.false_eq_true, if_false]
  omega

/-- Below a call there is a chain, which the construct above reads. -/
theorem balanced_call (hc : v.control.isConstruct s = false) (hs : s ≠ v.control.stop)
    (hinner : inner.Balanced v false) (hrest : rest.Balanced v false) :
    (nest s inner rest).Balanced v true := by
  have hcall : v.isCall s = true := by simp [Vocabulary.isCall, hc, hs]
  rw [Balanced, List.perm_iff_count] at hinner hrest ⊢
  intro x
  specialize hinner x
  specialize hrest x
  simp only [readCalls, List.count_append, Bool.false_eq_true, if_false,
    List.count_nil] at hinner hrest
  simp only [readCalls, chain, under, lost, symbols, repeated, hs, hc, if_true, if_false, callsOf,
    calls_head_call hc, v.callNames_cons_call hcall, Vocabulary.callNames_append,
    List.count_append, List.count_cons, List.count_nil, Bool.and_false, Bool.false_eq_true]
  omega

theorem balanced_of_fits (hv : v.Controlled) {o : Outline} {below : Bool}
    (fits : o.Fits v.control below) : o.Balanced v below := by
  induction o generalizing below with
  | stop =>
    obtain rfl : below = false := fits
    have hcall : v.isCall v.control.stop = false := by simp [Vocabulary.isCall]
    rw [Balanced, symbols, v.callNames_cons_control hcall]
    exact List.Perm.refl []
  | flat s rest ih =>
    obtain ⟨rfl, hc, hs, hrest⟩ := fits
    have hcall : v.isCall s = true := by simp [Vocabulary.isCall, hc, hs]
    rw [Balanced, symbols, v.callNames_cons_call hcall]
    exact (ih hrest).cons (v.nameOf s)
  | nest s inner rest ihi ihr =>
    obtain ⟨hnest, hinner, hrest⟩ := fits
    by_cases hc : v.control.isConstruct s = true
    · rw [hc] at hinner
      exact balanced_construct hv hc below (ihi hinner) (ihr hrest)
    · -- only the first symbol below a construct nests without being one
      rw [Bool.not_eq_true] at hc
      rw [hc] at hinner
      obtain rfl : below = true := by rwa [hc, Bool.or_false] at hnest
      by_cases hs : s = v.control.stop
      · rw [hs]
        exact balanced_stop hv (ihi hinner)
      · exact balanced_call hc hs (ihi hinner) (ihr hrest)

/-- If only calls come right after constructs, nothing is lost and nothing is repeated. -/
theorem lost_repeated_eq_nil (hv : v.Controlled) {o : Outline} {below : Bool}
    (fits : o.Fits v.control below)
    (hfirst : below = true → ∀ x tail, o.symbols v.control = x :: tail → v.isCall x = true)
    (hnext : ∀ a b, [a, b] <:+: o.symbols v.control → v.control.isConstruct a = true →
      v.isCall b = true) :
    o.lost v = [] ∧ o.repeated v below = [] := by
  induction o generalizing below with
  | stop => exact ⟨rfl, rfl⟩
  | flat s rest ih =>
    have hrest : rest.symbols v.control <:+: (flat s rest).symbols v.control :=
      (List.suffix_cons s _).isInfix
    exact ih fits.2.2.2 (fun h => by contradiction) fun a b h => hnext a b (h.trans hrest)
  | nest s inner rest ihi ihr =>
    have hinner : inner.symbols v.control <:+: (nest s inner rest).symbols v.control :=
      ⟨[s], rest.symbols v.control, rfl⟩
    have hrest : rest.symbols v.control <:+: (nest s inner rest).symbols v.control :=
      (List.suffix_append (s :: inner.symbols v.control) _).isInfix
    obtain ⟨hli, hri⟩ := ihi fits.2.1
      (fun hc x tail hx => hnext s x ⟨[], tail ++ rest.symbols v.control, by simp [symbols, hx]⟩ hc)
      fun a b h => hnext a b (h.trans hinner)
    obtain ⟨hlr, hrr⟩ := ihr fits.2.2 (fun h => by contradiction)
      fun a b h => hnext a b (h.trans hrest)
    have hs : s ≠ v.control.stop ∧ (below && v.control.isConstruct s) = false := by
      cases below with
      | false =>
        refine ⟨?_, rfl⟩
        rintro rfl
        have hc := isConstruct_of_nest v.control fits rfl
        rw [hv.isConstruct_stop] at hc
        contradiction
      | true =>
        have hcall := hfirst rfl s _ rfl
        simpa [Vocabulary.isCall] using hcall
    simp [lost, repeated, hli, hri, hlr, hrr, hs]

end Outline

namespace Candidate

open Ast

variable {σ : Type} (state : σ) (logProb : Float32)

/-- The calls of a grown program. The outline `o` is the only one that has the grown symbols; it
says which symbols stand below a construct. -/
theorem ofTree_calls_perm {names : List String} {v : Vocabulary}
    (accepted : Vocabulary.ofSymbols names = .ok v) {symbols : List Nat}
    (known : ∀ s ∈ symbols, s < v.size)
    (stops : (start v.control state logProb).StopsAtLast v.control symbols) :
    ∃ ast, ofTree v ((start v.control state logProb).growAll v.control symbols).tree = .ok ast ∧
      ∃ o : Outline, o.Fits v.control false ∧ o.symbols v.control = symbols ∧
        (∀ o' : Outline, o'.Fits v.control false → o'.symbols v.control = symbols → o' = o) ∧
        (ast.calls ++ o.lost v).Perm (v.callNames symbols ++ o.repeated v false) ∧
        (ast.calls.Perm (v.callNames symbols) ↔ (o.lost v).Perm (o.repeated v false)) ∧
        ((∀ a b, [a, b] <:+: symbols → v.control.isConstruct a = true → v.isCall b = true) →
          ast.calls.Perm (v.callNames symbols)) := by
  have hv := Vocabulary.controlled_of_ofSymbols accepted
  have hstop := hv.isConstruct_stop
  obtain ⟨o, fits, rfl⟩ := (start_stopsAtLast_iff state logProb hstop symbols).mp stops
  have hperm := Outline.balanced_of_fits hv fits
  rw [Outline.Balanced, Outline.readCalls, if_neg Bool.false_ne_true, List.append_nil] at hperm
  have hiff := perm_iff_of_append_perm hperm
  refine ⟨subtree (o.chain v), ofTree_growAll state logProb hv fits known, o, fits, rfl,
    fun o' fits' h => o'.symbols_inj _ hstop fits' fits h, hperm, hiff, fun hnext => ?_⟩
  obtain ⟨hlost, hrepeated⟩ :=
    Outline.lost_repeated_eq_nil hv fits (fun h => by contradiction) hnext
  exact hiff.mpr (by rw [hlost, hrepeated])

/-- A branch that opens, and closes otherwise. -/
theorem ofTree_calls_perm_of_branch :
    ∃ ast, ofTree .small ((start Vocabulary.small.control () 0).growAll Vocabulary.small.control
        [2, 5, 6, 1, 1, 1]).tree = .ok ast ∧
      ast.calls.Perm ["open", "close"] := by
  have accepted : Vocabulary.ofSymbols Vocabulary.small.symbols = .ok .small := rfl
  have known : ∀ s ∈ [2, 5, 6, 1, 1, 1], s < Vocabulary.small.size := by decide
  have stops : (start Vocabulary.small.control () 0).StopsAtLast Vocabulary.small.control
      [2, 5, 6, 1, 1, 1] := by decide
  obtain ⟨ast, hast, o, -, -, unique, -, hiff, -⟩ := ofTree_calls_perm () 0 accepted known stops
  obtain rfl := unique (.nest 2 (.nest 5 (.flat 6 .stop) .stop) .stop) (by decide) (by decide)
  exact ⟨ast, hast, hiff.mpr (by decide)⟩

/-- Directly below a construct, a stop loses a call, and a construct repeats one. -/
theorem ofTree_calls_not_perm :
    Vocabulary.ofSymbols Vocabulary.small.symbols = .ok .small ∧
    ((∀ s ∈ [2, 1, 5, 1, 6, 1, 1], s < Vocabulary.small.size) ∧
      (start Vocabulary.small.control () 0).StopsAtLast Vocabulary.small.control
        [2, 1, 5, 1, 6, 1, 1] ∧
      ofTree .small ((start Vocabulary.small.control () 0).growAll Vocabulary.small.control
        [2, 1, 5, 1, 6, 1, 1]).tree = .ok (subtree [branch [] [] [call "open"]]) ∧
      ¬ (subtree [branch [] [] [call "open"]]).calls.Perm
        (Vocabulary.small.callNames [2, 1, 5, 1, 6, 1, 1])) ∧
    (∀ s ∈ [2, 3, 5, 1, 1, 1, 1], s < Vocabulary.small.size) ∧
      (start Vocabulary.small.control () 0).StopsAtLast Vocabulary.small.control
        [2, 3, 5, 1, 1, 1, 1] ∧
      ofTree .small ((start Vocabulary.small.control () 0).growAll Vocabulary.small.control
        [2, 3, 5, 1, 1, 1, 1]).tree =
          .ok (subtree [branch [] [loop [call "open"] []] [call "open"]]) ∧
      ¬ (subtree [branch [] [loop [call "open"] []] [call "open"]]).calls.Perm
        (Vocabulary.small.callNames [2, 3, 5, 1, 1, 1, 1]) := by
  have accepted : Vocabulary.ofSymbols Vocabulary.small.symbols = .ok .small := rfl
  have hv := Vocabulary.controlled_of_ofSymbols accepted
  have fits : (Outline.nest 2 (.nest 1 (.flat 5 .stop) (.flat 6 .stop)) .stop).Fits
      Vocabulary.small.control false := by decide
  have fits' : (Outline.nest 2 (.nest 3 (.nest 5 .stop .stop) .stop) .stop).Fits
      Vocabulary.small.control false := by decide
  exact ⟨accepted,
    ⟨by decide, by decide, ofTree_growAll () 0 hv fits (by decide), by decide⟩,
    by decide, by decide, ofTree_growAll () 0 hv fits' (by decide), by decide⟩

end Candidate
end ProgramSearch
