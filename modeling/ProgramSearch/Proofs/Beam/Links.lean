import ProgramSearch.Proofs.Beam.Shape

/-!
# Links of a growing candidate

A candidate that grows from a new one never replaces a link: the link that the next symbol will set
is free, because every open node still waits for its sibling and the cursor is either the innermost
open node, which waits for its child, or no open node at all. So the links of its tree form a tree.
-/
namespace ProgramSearch

namespace Candidate

variable {σ : Type} {k : Control}

/-- What a growth does to the position. -/
inductive Moves (k : Control) (c : Candidate σ) (s : Nat) (d : Candidate σ) : Prop
  /-- The new node is opened. -/
  | opened (rolling : d.rolling = c.rolling) (cursor : d.cursor = c.tree.size)
      (edge : d.lastEdge = .child) (open_ : d.open_ = c.tree.size :: c.open_)
  /-- The chain goes on beside the new node. -/
  | went (rolling : d.rolling = c.rolling) (cursor : d.cursor = c.tree.size)
      (edge : d.lastEdge = .sibling) (open_ : d.open_ = c.open_)
  /-- A stop returns to the innermost open node. -/
  | returned (stop : s = k.stop) {top : Nat} {rest : List Nat} (before : c.open_ = top :: rest)
      (rolling : d.rolling = c.rolling) (cursor : d.cursor = top) (edge : d.lastEdge = .sibling)
      (open_ : d.open_ = rest)
  /-- A stop closes the outermost chain. -/
  | closed (stop : s = k.stop) (before : c.open_ = []) (rolling : d.rolling = false)
      (cursor : d.cursor = c.tree.size) (edge : d.lastEdge = c.lastEdge) (open_ : d.open_ = [])

theorem moves_grow (k : Control) (c : Candidate σ) (s : Nat) : c.Moves k s (c.grow k s) := by
  dsimp only [grow]
  split
  · exact .opened rfl rfl rfl rfl
  · split
    · next hstop =>
      split
      · next hopen => exact .closed (beq_iff_eq.mp hstop) hopen rfl rfl rfl hopen
      · next top rest hopen => exact .returned (beq_iff_eq.mp hstop) hopen rfl rfl rfl rfl
    · exact .went rfl rfl rfl rfl

theorem grow_length (c : Candidate σ) (s : Nat) : (c.grow k s).length = c.length + 1 := by
  dsimp only [grow]
  split
  · rfl
  · split
    · split <;> rfl
    · rfl

/-- The links form a tree, the link that grows next is free, and so are the sibling links of the
open nodes. Open nodes are later ones the further inside they are; the cursor is the innermost of
them where a child grows next, and none of them where a sibling does. -/
structure WellLinked (c : Candidate σ) : Prop where
  tree : c.tree.IsTree
  placed : c.isPlaced = true
  length : c.tree.size = c.length
  free : c.tree.link? c.cursor c.lastEdge = none
  unlinked : ∀ id ∈ c.open_, c.tree.link? id .sibling = none
  ascending : c.open_.Pairwise (· > ·)
  innermost : c.lastEdge = .child → c.open_.head? = some c.cursor
  outside : c.lastEdge = .sibling → c.cursor ∉ c.open_

namespace WellLinked

variable {c : Candidate σ}

theorem cursor_lt (h : c.WellLinked) : c.cursor < c.tree.size := by
  have hplaced := h.placed
  simp only [isPlaced, Bool.and_eq_true, decide_eq_true_eq] at hplaced
  exact hplaced.1

theorem open_lt (h : c.WellLinked) : ∀ id ∈ c.open_, id < c.tree.size := by
  have hplaced := h.placed
  simp only [isPlaced, Bool.and_eq_true, List.all_eq_true, decide_eq_true_eq] at hplaced
  exact hplaced.2

/-- Nothing was linked where a growth sets a link. -/
theorem link?_grow (h : c.WellLinked) (s id : Nat) (edge : Edge) :
    (c.grow k s).tree.link? id edge =
      if id = c.cursor ∧ edge = c.lastEdge then some c.tree.size else c.tree.link? id edge := by
  rw [grow_tree, SymbolTree.link?_attach _ _ h.cursor_lt]

/-- Growth keeps all links. -/
theorem link?_kept (h : c.WellLinked) (s : Nat) {id n : Nat} {edge : Edge}
    (hlink : c.tree.link? id edge = some n) : (c.grow k s).tree.link? id edge = some n := by
  rw [h.link?_grow, if_neg, hlink]
  rintro ⟨rfl, rfl⟩
  rw [h.free] at hlink
  contradiction

/-- The new node has no links. -/
theorem link?_new (h : c.WellLinked) (s : Nat) (edge : Edge) :
    (c.grow k s).tree.link? c.tree.size edge = none := by
  rw [h.link?_grow, if_neg fun hnew => Nat.ne_of_gt h.cursor_lt hnew.1]
  cases hlink : c.tree.link? c.tree.size edge with
  | none => rfl
  | some n => exact absurd (SymbolTree.lt_size_of_link? hlink) (Nat.lt_irrefl _)

/-- Open nodes keep waiting for their siblings. -/
theorem unlinked_grow (h : c.WellLinked) (s : Nat) :
    ∀ id ∈ c.open_, (c.grow k s).tree.link? id .sibling = none := by
  intro id hid
  rw [h.link?_grow, if_neg, h.unlinked id hid]
  rintro ⟨rfl, hedge⟩
  exact h.outside hedge.symm hid

/-- With no node open, the next symbol becomes a sibling. -/
theorem lastEdge_of_open_nil (h : c.WellLinked) (hopen : c.open_ = []) : c.lastEdge = .sibling := by
  cases hedge : c.lastEdge with
  | sibling => rfl
  | child =>
    have hhead := h.innermost hedge
    rw [hopen] at hhead
    contradiction

theorem grow (h : c.WellLinked) (s : Nat) : (c.grow k s).WellLinked := by
  have tree : (c.grow k s).tree.IsTree := by
    rw [grow_tree]
    exact h.tree.attach h.cursor_lt h.free s
  have length : (c.grow k s).tree.size = (c.grow k s).length := by
    rw [grow_size, grow_length, h.length]
  have later : ∀ id ∈ c.open_, c.tree.size > id := h.open_lt
  have outside : c.tree.size ∉ c.open_ := fun hmem => Nat.lt_irrefl _ (h.open_lt _ hmem)
  have hunlinked := h.unlinked_grow (k := k) s
  have hnew := h.link?_new (k := k) s
  have placed := isPlaced_grow (k := k) h.placed s
  cases moves_grow k c s with
  | opened _ hcursor hedge hopen =>
    refine ⟨tree, placed, length, ?_, ?_, ?_, ?_, ?_⟩
    · rw [hcursor]
      exact hnew _
    · rw [hopen, List.forall_mem_cons]
      exact ⟨hnew .sibling, hunlinked⟩
    · rw [hopen, List.pairwise_cons]
      exact ⟨later, h.ascending⟩
    · intro _
      rw [hopen, hcursor]
      rfl
    · intro hsibling
      rw [hedge] at hsibling
      contradiction
  | went _ hcursor hedge hopen =>
    refine ⟨tree, placed, length, ?_, ?_, ?_, ?_, ?_⟩
    · rw [hcursor]
      exact hnew _
    · rw [hopen]
      exact hunlinked
    · rw [hopen]
      exact h.ascending
    · intro hchild
      rw [hedge] at hchild
      contradiction
    · intro _
      rw [hcursor, hopen]
      exact outside
  | returned _ before _ hcursor hedge hopen =>
    have hascending := h.ascending
    rw [before, List.pairwise_cons] at hascending
    rw [before, List.forall_mem_cons] at hunlinked
    refine ⟨tree, placed, length, ?_, ?_, ?_, ?_, ?_⟩
    · rw [hcursor, hedge]
      exact hunlinked.1
    · rw [hopen]
      exact hunlinked.2
    · rw [hopen]
      exact hascending.2
    · intro hchild
      rw [hedge] at hchild
      contradiction
    · intro _ hmem
      rw [hcursor, hopen] at hmem
      exact Nat.lt_irrefl _ (hascending.1 _ hmem)
  | closed _ before _ hcursor hedge hopen =>
    have hsibling := h.lastEdge_of_open_nil before
    refine ⟨tree, placed, length, ?_, ?_, ?_, ?_, ?_⟩
    · rw [hcursor]
      exact hnew _
    · rw [hopen]
      exact fun _ hid => absurd hid List.not_mem_nil
    · rw [hopen]
      exact .nil
    · intro hchild
      rw [hedge, hsibling] at hchild
      contradiction
    · intro _
      rw [hopen]
      exact List.not_mem_nil

theorem start (k : Control) (state : σ) (logProb : Float32) :
    (start k state logProb).WellLinked where
  tree := SymbolTree.isTree_ofRoot k.subtree
  placed := rfl
  length := rfl
  free := rfl
  unlinked _ hid := absurd hid List.not_mem_nil
  ascending := .nil
  innermost hchild := by contradiction
  outside _ := List.not_mem_nil

theorem growAll (h : c.WellLinked) (symbols : List Nat) : (c.growAll k symbols).WellLinked := by
  induction symbols generalizing c with
  | nil => exact h
  | cons s rest ih => exact ih (h.grow s)

end WellLinked

theorem growAll_length (c : Candidate σ) (symbols : List Nat) :
    (c.growAll k symbols).length = c.length + symbols.length := by
  induction symbols generalizing c with
  | nil => rfl
  | cons s rest ih =>
    rw [growAll_cons, ih, grow_length, List.length_cons]
    omega

theorem symbols_growAll {c : Candidate σ} (h : 0 < c.tree.size) (symbols : List Nat) :
    (c.growAll k symbols).symbols = c.symbols ++ symbols := by
  induction symbols generalizing c with
  | nil => exact (List.append_nil _).symm
  | cons s rest ih =>
    have hpos : 0 < (c.grow k s).tree.size := by
      rw [grow_size]
      exact Nat.succ_pos _
    rw [growAll_cons, ih hpos, symbols_grow k h, List.append_assoc]
    rfl

/-- A candidate ends beside a node, and with no node open. -/
theorem WellLinked.of_stop {c : Candidate σ} (h : c.WellLinked) {s : Nat} (rolls : c.rolling = true)
    (stops : (c.grow k s).rolling = false) :
    s = k.stop ∧ c.open_ = [] ∧ c.lastEdge = .sibling := by
  cases moves_grow k c s with
  | opened rolling => exact absurd (rolling.symm.trans stops) (by simp [rolls])
  | went rolling => exact absurd (rolling.symm.trans stops) (by simp [rolls])
  | returned _ _ rolling => exact absurd (rolling.symm.trans stops) (by simp [rolls])
  | closed stop before => exact ⟨stop, before, h.lastEdge_of_open_nil before⟩

/-- Whatever symbols a new candidate has grown, it has a node for each of them behind the root, in
their order, its links form a tree with one path to each node, and the position fits the links. The
next symbol keeps all links, and ends the candidate only beside a node, with no node open. -/
theorem wellLinked_of_growth (k : Control) (state : σ) (logProb : Float32) (symbols : List Nat) :
    let c := (start k state logProb).growAll k symbols
    c.length = symbols.length + 1 ∧
      (∀ i, (c.tree.node? (i + 1)).map Node.symbol = symbols[i]?) ∧ c.WellLinked ∧
      (∀ n, n < c.tree.size → ∃! path, c.tree.follow SymbolTree.root path = some n) ∧
      ∀ s, (∀ id edge n, c.tree.link? id edge = some n →
          (c.grow k s).tree.link? id edge = some n) ∧
        (c.rolling = true → (c.grow k s).rolling = false →
          s = k.stop ∧ c.open_ = [] ∧ c.lastEdge = .sibling) := by
  intro c
  have h : c.WellLinked := (WellLinked.start k state logProb).growAll symbols
  have hsymbols : c.symbols = symbols :=
    symbols_growAll (c := start k state logProb) Nat.zero_lt_one symbols
  refine ⟨?_, fun i => ?_, h, h.tree.existsUnique_path, fun s => ⟨fun id edge n => ?_, ?_⟩⟩
  · exact (growAll_length _ symbols).trans (Nat.add_comm 1 _)
  · rw [symbol_node?, hsymbols]
  · exact h.link?_kept s
  · exact h.of_stop

end Candidate
end ProgramSearch
