import ProgramSearch.Proofs.Beam.Outline

/-!
# Growing an outline

A candidate that is fed the symbols of an outline appends exactly the nodes of the outline and
returns to the node that was open before. Conversely, every sequence of symbols on which a
candidate stops at the last one is the sequence of exactly one outline.
-/
namespace ProgramSearch

theorem modify_append_left {α : Type} (f : α → α) {xs : List α} {i : Nat} (h : i < xs.length)
    (ys : List α) : (xs ++ ys).modify i f = xs.modify i f ++ ys := by
  induction xs generalizing i with
  | nil => exact absurd h (Nat.not_lt_zero i)
  | cons x xs ih =>
    cases i with
    | zero => rfl
    | succ i => simp [ih (Nat.lt_of_succ_lt_succ h)]

theorem modify_append_cons {α : Type} (f : α → α) {xs : List α} {i : Nat} (h : xs.length = i)
    (y : α) (ys : List α) : (xs ++ y :: ys).modify i f = xs ++ f y :: ys := by
  subst h
  induction xs with
  | nil => rfl
  | cons x xs ih => simp [ih]

/-- Attaching leaves the nodes in place but for the link of the source, and appends one. -/
theorem SymbolTree.attach_toList (t : SymbolTree) (edge : Edge) {source : Nat}
    (h : source < t.size) (symbol : Nat) :
    (t.attach edge source symbol).nodes.toList =
      t.nodes.toList.modify source (Node.link edge t.size) ++ [⟨symbol, none, none⟩] := by
  simp only [attach, Array.toList_modify, Array.toList_push]
  exact modify_append_left _ h _

namespace Candidate

variable {σ : Type} (k : Control)

/-- Grows symbols one by one. -/
def growAll (c : Candidate σ) (symbols : List Nat) : Candidate σ := symbols.foldl (grow k) c

/-- The candidate is rolling before each of the symbols and no longer after the last. -/
def StopsAtLast (c : Candidate σ) : List Nat → Prop
  | [] => c.rolling = false
  | s :: rest => c.rolling = true ∧ (c.grow k s).StopsAtLast rest

instance decidableStopsAtLast (c : Candidate σ) :
    (symbols : List Nat) → Decidable (c.StopsAtLast k symbols)
  | [] => inferInstanceAs (Decidable (c.rolling = false))
  | s :: rest =>
    let := decidableStopsAtLast (c.grow k s) rest
    inferInstanceAs (Decidable (c.rolling = true ∧ (c.grow k s).StopsAtLast k rest))

@[simp] theorem growAll_cons (c : Candidate σ) (s : Nat) (rest : List Nat) :
    c.growAll k (s :: rest) = (c.grow k s).growAll k rest := rfl

theorem growAll_append (c : Candidate σ) (xs ys : List Nat) :
    c.growAll k (xs ++ ys) = (c.growAll k xs).growAll k ys := List.foldl_append

/-- Whether the next symbol is the first one below a construct. -/
def below (c : Candidate σ) : Bool := c.lastEdge == .child && k.isConstruct c.lastSymbol

theorem grow_tree (c : Candidate σ) (s : Nat) :
    (c.grow k s).tree = c.tree.attach c.lastEdge c.cursor s := by
  dsimp only [grow]
  split
  · rfl
  · split
    · split <;> rfl
    · rfl

theorem grow_size (c : Candidate σ) (s : Nat) : (c.grow k s).tree.size = c.tree.size + 1 := by
  rw [grow_tree]
  simp [SymbolTree.attach, SymbolTree.size]

theorem growAll_size (c : Candidate σ) (symbols : List Nat) :
    (c.growAll k symbols).tree.size = c.tree.size + symbols.length := by
  induction symbols generalizing c with
  | nil => rfl
  | cons s rest ih =>
    rw [growAll_cons, ih, grow_size, List.length_cons]
    omega

/-- The nodes of a tree whose cursor has been linked to new nodes. -/
def linked (c : Candidate σ) (nodes : List Node) : List Node :=
  c.tree.nodes.toList.modify c.cursor (SymbolTree.Node.link c.lastEdge c.tree.size) ++ nodes

/-- Linking from the first of the nodes that were appended before. -/
theorem linked_linked {c c' : Candidate σ} {node : Node} {nodes : List Node}
    (h : c'.tree.nodes.toList = c.linked (node :: nodes)) (hcursor : c'.cursor = c.tree.size)
    (more : List Node) :
    c'.linked more =
      c.linked (SymbolTree.Node.link c'.lastEdge c'.tree.size node :: (nodes ++ more)) := by
  rw [linked, h, hcursor, linked, modify_append_cons _ (by simp [SymbolTree.size])]
  simp [linked]

theorem grow_nodes (c : Candidate σ) (placed : c.cursor < c.tree.size) (s : Nat) :
    (c.grow k s).tree.nodes.toList = c.linked [⟨s, none, none⟩] := by
  rw [grow_tree, SymbolTree.attach_toList _ _ placed]
  rfl

/-- The candidate has grown a node, and what was nested below it; it goes on beside that node. -/
structure Beside (c d : Candidate σ) : Prop where
  rolling : d.rolling = true
  cursor : d.cursor = c.tree.size
  edge : d.lastEdge = .sibling
  open_ : d.open_ = c.open_

/-- The candidate has opened a node with the symbol `s` and goes on below it. -/
structure Under (c : Candidate σ) (s : Nat) (d : Candidate σ) : Prop where
  rolling : d.rolling = true
  cursor : d.cursor = c.tree.size
  edge : d.lastEdge = .child
  symbol : d.lastSymbol = s
  open_ : d.open_ = c.tree.size :: c.open_

/-- Where a chain ends: beside the innermost open node, or with a stop if there is none. -/
def Returns (c d : Candidate σ) : Prop :=
  match c.open_ with
  | [] => d.rolling = false ∧ d.open_ = []
  | top :: rest => d.rolling = true ∧ d.open_ = rest ∧ d.cursor = top ∧ d.lastEdge = .sibling

theorem grow_flat {c : Candidate σ} {s : Nat} (rolls : c.rolling = true) (hb : c.below k = false)
    (hc : k.isConstruct s = false) (hs : s ≠ k.stop) : c.Beside (c.grow k s) := by
  rw [below] at hb
  simp only [grow, hb, hc, Bool.or_self, Bool.false_eq_true, if_false, beq_eq_false_iff_ne.mpr hs]
  exact ⟨rolls, rfl, rfl, rfl⟩

theorem grow_nest {c : Candidate σ} {s : Nat} (rolls : c.rolling = true)
    (h : (c.below k || k.isConstruct s) = true) : c.Under s (c.grow k s) := by
  rw [below] at h
  simp only [grow, h, if_true]
  exact ⟨rolls, rfl, rfl, rfl, rfl⟩

theorem grow_stop {c : Candidate σ} (rolls : c.rolling = true) (hb : c.below k = false)
    (hc : k.isConstruct k.stop = false) : c.Returns (c.grow k k.stop) := by
  rw [below] at hb
  simp only [grow, hb, hc, Bool.or_self, Bool.false_eq_true, if_false, beq_self_eq_true, if_true,
    Returns]
  cases ho : c.open_ with
  | nil => exact ⟨rfl, rfl⟩
  | cons top rest => exact ⟨rolls, rfl, rfl, rfl⟩

theorem Beside.below_eq {c d : Candidate σ} (h : c.Beside d) : d.below k = false := by
  rw [below, h.edge]
  rfl

theorem Under.below_eq {c d : Candidate σ} {s : Nat} (h : c.Under s d) :
    d.below k = k.isConstruct s := by
  rw [below, h.edge, h.symbol]
  rfl

/-- The chain below an open node ends beside that node. -/
theorem Under.beside {c d e : Candidate σ} {s : Nat} (h : c.Under s d) (hr : d.Returns e) :
    c.Beside e := by
  rw [Returns, h.open_] at hr
  exact ⟨hr.1, hr.2.2.1, hr.2.2.2, hr.2.1⟩

theorem Beside.returns {c d e : Candidate σ} (h : c.Beside d) (hr : d.Returns e) : c.Returns e := by
  rwa [Returns, h.open_] at hr

/-- The candidate can be fed the symbols of the outline. -/
structure Ready (c : Candidate σ) (o : Outline) : Prop where
  rolling : c.rolling = true
  placed : c.cursor < c.tree.size
  fits : o.Fits k (c.below k)

variable {k}

theorem Ready.flat {c : Candidate σ} {s : Nat} {rest : Outline}
    (h : c.Ready k (.flat s rest)) : c.Beside (c.grow k s) ∧ (c.grow k s).Ready k rest := by
  have hbeside := grow_flat k h.rolling h.fits.1 h.fits.2.1 h.fits.2.2.1
  refine ⟨hbeside, hbeside.rolling, ?_, ?_⟩
  · rw [hbeside.cursor, grow_size]
    omega
  · rw [hbeside.below_eq]
    exact h.fits.2.2.2

theorem Ready.inner {c : Candidate σ} {s : Nat} {inner rest : Outline}
    (h : c.Ready k (.nest s inner rest)) : c.Under s (c.grow k s) ∧ (c.grow k s).Ready k inner := by
  have hunder := grow_nest k h.rolling h.fits.1
  refine ⟨hunder, hunder.rolling, ?_, ?_⟩
  · rw [hunder.cursor, grow_size]
    omega
  · rw [hunder.below_eq]
    exact h.fits.2.1

theorem Ready.rest {c d : Candidate σ} {s : Nat} {inner rest : Outline}
    (h : c.Ready k (.nest s inner rest)) (hbeside : c.Beside d)
    (hsize : c.tree.size < d.tree.size) :
    d.Ready k rest := by
  refine ⟨hbeside.rolling, ?_, ?_⟩
  · rw [hbeside.cursor]
    exact hsize
  · rw [hbeside.below_eq]
    exact h.fits.2.2

/-- A candidate that is fed an outline appends the nodes of the outline and returns. -/
theorem Ready.growAll (hstop : k.isConstruct k.stop = false) {o : Outline} {c : Candidate σ}
    (h : c.Ready k o) :
    (c.growAll k (o.symbols k)).tree.nodes.toList = c.linked (o.nodes k c.tree.size) ∧
      c.Returns (c.growAll k (o.symbols k)) := by
  induction o generalizing c with
  | stop => exact ⟨grow_nodes k c h.placed k.stop, grow_stop k h.rolling h.fits hstop⟩
  | flat s rest ih =>
    obtain ⟨hbeside, hready⟩ := h.flat
    obtain ⟨hrest, hreturns⟩ := ih hready
    rw [Outline.symbols, growAll_cons]
    refine ⟨?_, hbeside.returns hreturns⟩
    rw [hrest, linked_linked (grow_nodes k c h.placed s) hbeside.cursor, hbeside.edge, grow_size]
    rfl
  | nest s inner rest ihi ihr =>
    obtain ⟨hunder, hready⟩ := h.inner
    obtain ⟨hinner, hreturns⟩ := ihi hready
    have hbeside := hunder.beside hreturns
    have hsize := growAll_size k c (s :: inner.symbols k)
    rw [Outline.symbols, growAll_cons, growAll_append]
    rw [growAll_cons, List.length_cons, Outline.length_symbols] at hsize
    rw [linked_linked (grow_nodes k c h.placed s) hunder.cursor, hunder.edge, grow_size] at hinner
    obtain ⟨hrest, hreturns⟩ := ihr (h.rest hbeside (by omega))
    refine ⟨?_, hbeside.returns hreturns⟩
    rw [hrest, linked_linked hinner hbeside.cursor, hbeside.edge, hsize, Nat.add_comm inner.size,
      ← Nat.add_assoc]
    rfl

/-- The candidate keeps rolling until the last symbol of an outline. -/
theorem Ready.stopsAtLast_append (hstop : k.isConstruct k.stop = false) {o : Outline}
    {c : Candidate σ} (h : c.Ready k o) (more : List Nat) :
    c.StopsAtLast k (o.symbols k ++ more) ↔ (c.growAll k (o.symbols k)).StopsAtLast k more := by
  induction o generalizing c more with
  | stop => exact ⟨fun hs => hs.2, fun hs => ⟨h.rolling, hs⟩⟩
  | flat s rest ih =>
    rw [Outline.symbols, growAll_cons, ← ih h.flat.2 more]
    exact ⟨fun hs => hs.2, fun hs => ⟨h.rolling, hs⟩⟩
  | nest s inner rest ihi ihr =>
    obtain ⟨hunder, hready⟩ := h.inner
    have hbeside := hunder.beside (hready.growAll hstop).2
    have hsize := growAll_size k (c.grow k s) (inner.symbols k)
    rw [grow_size] at hsize
    rw [Outline.symbols, growAll_cons, growAll_append, ← ihr (h.rest hbeside (by omega)) more,
      ← ihi hready, List.cons_append, List.append_assoc]
    exact ⟨fun hs => hs.2, fun hs => ⟨h.rolling, hs⟩⟩

/-- Symbols on which a rolling candidate stops begin with the symbols of an outline. The recursion
is on what is left of the symbols: behind a symbol that nests there is first the chain below it,
then the chain beside it. -/
theorem exists_ready (hstop : k.isConstruct k.stop = false) (symbols : List Nat)
    (c : Candidate σ) (rolls : c.rolling = true) (placed : c.cursor < c.tree.size)
    (stops : c.StopsAtLast k symbols) :
    ∃ (o : Outline) (more : List Nat), c.Ready k o ∧ symbols = o.symbols k ++ more := by
  induction hn : symbols.length using Nat.strongRecOn generalizing symbols c with
  | _ n ih =>
  cases symbols with
  | nil => exact absurd stops (by simp [StopsAtLast, rolls])
  | cons s tail =>
    rw [List.length_cons] at hn
    by_cases hnest : (c.below k || k.isConstruct s) = true
    · have hunder := grow_nest k rolls hnest
      obtain ⟨inner, more, hready, rfl⟩ := ih tail.length (by omega) tail (c.grow k s)
        hunder.rolling (by rw [hunder.cursor, grow_size]; omega) stops.2 rfl
      have hbeside := hunder.beside (hready.growAll hstop).2
      have hsize := growAll_size k (c.grow k s) (inner.symbols k)
      rw [grow_size] at hsize
      rw [List.length_append] at hn
      obtain ⟨rest, more', hready', rfl⟩ := ih more.length (by omega) more _ hbeside.rolling
        (by rw [hbeside.cursor]; omega) ((hready.stopsAtLast_append hstop more).mp stops.2) rfl
      have hinner := hready.fits
      have hrest := hready'.fits
      rw [hunder.below_eq] at hinner
      rw [hbeside.below_eq] at hrest
      exact ⟨.nest s inner rest, more', ⟨rolls, placed, hnest, hinner, hrest⟩,
        by simp [Outline.symbols]⟩
    · simp only [Bool.or_eq_true, not_or, Bool.not_eq_true] at hnest
      by_cases hs : s = k.stop
      · exact ⟨.stop, tail, ⟨rolls, placed, hnest.1⟩, by rw [hs]; rfl⟩
      · have hbeside := grow_flat k rolls hnest.1 hnest.2 hs
        obtain ⟨rest, more, hready, rfl⟩ := ih tail.length (by omega) tail (c.grow k s)
          hbeside.rolling (by rw [hbeside.cursor, grow_size]; omega) stops.2 rfl
        have hrest := hready.fits
        rw [hbeside.below_eq] at hrest
        exact ⟨.flat s rest, more, ⟨rolls, placed, hnest.1, hnest.2, hs, hrest⟩, rfl⟩

variable (state : σ) (logProb : Float32)

theorem start_ready {o : Outline} (fits : o.Fits k false) : (start k state logProb).Ready k o :=
  ⟨rfl, Nat.zero_lt_one, fits⟩

/-- The nodes after the growth of a whole outline: the root, with the outline beside it. -/
theorem start_growAll_nodes (hstop : k.isConstruct k.stop = false) {o : Outline}
    (fits : o.Fits k false) :
    ((start k state logProb).growAll k (o.symbols k)).tree.nodes.toList =
      ⟨k.subtree, none, some 1⟩ :: o.nodes k 1 :=
  ((start_ready state logProb fits).growAll hstop).1

theorem start_growAll_open (hstop : k.isConstruct k.stop = false) {o : Outline}
    (fits : o.Fits k false) : ((start k state logProb).growAll k (o.symbols k)).open_ = [] :=
  ((start_ready state logProb fits).growAll hstop).2.2

/-- A new candidate stops at the last of some symbols exactly when they are those of an outline. -/
theorem start_stopsAtLast_iff (hstop : k.isConstruct k.stop = false) (symbols : List Nat) :
    (start k state logProb).StopsAtLast k symbols ↔
      ∃ o : Outline, o.Fits k false ∧ o.symbols k = symbols := by
  constructor
  · intro stops
    obtain ⟨o, more, hready, rfl⟩ := exists_ready hstop symbols (start k state logProb) rfl
      Nat.zero_lt_one stops
    have hstopped := (hready.growAll hstop).2.1
    have hmore := (hready.stopsAtLast_append hstop more).mp stops
    cases more with
    | nil => exact ⟨o, hready.fits, (List.append_nil _).symm⟩
    | cons s more => exact absurd hmore.1 (by simp [hstopped])
  · rintro ⟨o, fits, rfl⟩
    have hready := start_ready state logProb fits
    have h := (hready.stopsAtLast_append hstop []).mpr (hready.growAll hstop).2.1
    rwa [List.append_nil] at h

end Candidate
end ProgramSearch
