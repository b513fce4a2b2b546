import ProgramSearch.Proofs.Beam.Growth
import ProgramSearch.Proofs.SymbolTree

/-!
# Candidates by their symbols

The symbols of a candidate are those behind the root of its tree, in the order of growth. They
determine what has grown from a new candidate up to its score and its state; such a candidate lies
in its tree, and all links of the tree lead forward.
-/
namespace ProgramSearch

namespace Candidate

variable {σ : Type} (k : Control)

/-- The symbols behind the root, in the order of growth. -/
def symbols (c : Candidate σ) : List Nat := (c.tree.nodes.toList.map Node.symbol).tail

/-- The symbol of a node other than the root. -/
theorem symbol_node? (c : Candidate σ) (i : Nat) :
    (c.tree.node? (i + 1)).map Node.symbol = c.symbols[i]? := by
  rw [symbols, List.getElem?_tail, List.getElem?_map, Array.getElem?_toList]
  rfl

/-- A candidate without its score and its state. -/
def shape (c : Candidate σ) : Candidate Unit := { c with logProb := 0, state := () }

/-- The candidate has grown from a new one by its symbols. -/
def Formed (c : Candidate σ) : Prop := c.shape = (start k () 0).growAll k c.symbols

theorem symbols_grow {c : Candidate σ} (h : 0 < c.tree.size) (s : Nat) :
    (c.grow k s).symbols = c.symbols ++ [s] := by
  have hne : c.tree.nodes.toList.map Node.symbol ≠ [] := by
    simpa [SymbolTree.size, Array.size_pos_iff] using h
  rw [symbols, grow_tree, SymbolTree.map_symbol_attach, List.tail_append_of_ne_nil hne, symbols]

theorem shape_grow (c : Candidate σ) (s : Nat) : (c.grow k s).shape = c.shape.grow k s := by
  dsimp only [grow, shape]
  split
  · rfl
  · split
    · split <;> rfl
    · rfl

variable {k}

theorem symbols_eq_of_tree_eq {c d : Candidate σ} (h : c.tree = d.tree) :
    c.symbols = d.symbols := by
  rw [symbols, symbols, h]

theorem formed_start (state : σ) (logProb : Float32) : (start k state logProb).Formed k := rfl

/-! ### What grows from a new candidate -/

theorem tree_size_of_formed {c : Candidate σ} (h : c.Formed k) :
    c.tree.size = c.symbols.length + 1 := by
  have hsize : c.shape.tree.size = _ := congrArg (fun d => d.tree.size) h
  rw [growAll_size] at hsize
  exact hsize.trans (Nat.add_comm 1 _)

theorem Formed.grow {c : Candidate σ} (h : c.Formed k) (s : Nat) : (c.grow k s).Formed k := by
  have hsize := tree_size_of_formed h
  rw [Formed, shape_grow, symbols_grow k (by omega), growAll_append, ← h]
  rfl

/-- Formed candidates with the same symbols differ in score and state only. -/
theorem Formed.shape_eq {c d : Candidate σ} (hc : c.Formed k) (hd : d.Formed k)
    (h : c.symbols = d.symbols) : c.shape = d.shape := by
  rw [hc, hd, h]

theorem isPlaced_grow {c : Candidate σ} (h : c.isPlaced = true) (s : Nat) :
    (c.grow k s).isPlaced = true := by
  simp only [isPlaced, Bool.and_eq_true, decide_eq_true_eq, List.all_eq_true] at h ⊢
  obtain ⟨hcursor, hopen⟩ := h
  rw [grow_size]
  have hlater : ∀ id ∈ c.open_, id < c.tree.size + 1 :=
    fun id hid => Nat.lt_succ_of_lt (hopen id hid)
  simp only [grow]
  split
  · exact ⟨Nat.lt_succ_self _, List.forall_mem_cons.mpr ⟨Nat.lt_succ_self _, hlater⟩⟩
  · split
    · split
      · exact ⟨Nat.lt_succ_self _, hlater⟩
      · next top rest htop =>
        rw [htop, List.forall_mem_cons] at hlater
        exact hlater
    · exact ⟨Nat.lt_succ_self _, hlater⟩

theorem isPlaced_growAll {c : Candidate σ} (h : c.isPlaced = true) (symbols : List Nat) :
    (c.growAll k symbols).isPlaced = true := by
  induction symbols generalizing c with
  | nil => exact h
  | cons s rest ih => exact ih (isPlaced_grow h s)

theorem forward_growAll {c : Candidate σ} (h : c.tree.Forward) (placed : c.isPlaced = true)
    (symbols : List Nat) : (c.growAll k symbols).tree.Forward := by
  induction symbols generalizing c with
  | nil => exact h
  | cons s rest ih =>
    refine ih ?_ (isPlaced_grow placed s)
    rw [grow_tree]
    exact h.attach _ (by simp_all [isPlaced]) s

theorem Formed.isPlaced {c : Candidate σ} (h : c.Formed k) : c.isPlaced = true := by
  have hplaced : c.shape.isPlaced = true := h ▸ isPlaced_growAll rfl c.symbols
  exact hplaced

theorem Formed.forward {c : Candidate σ} (h : c.Formed k) : c.tree.Forward := by
  have hforward : c.shape.tree.Forward :=
    h ▸ forward_growAll (SymbolTree.forward_ofRoot _) rfl c.symbols
  exact hforward

/-! ### Steps -/

/-- A rolling candidate after a step: a state and a continuation with its score. -/
def step (k : Control) (c : Candidate σ) (state : σ) (score : Float32) (symbol : Nat) :
    Candidate σ :=
  ({ c with logProb := c.logProb + score, state }).grow k symbol

/-- What growth leaves alone. -/
theorem grow_kept (k : Control) (c : Candidate σ) (s : Nat) :
    (c.grow k s).logProb = c.logProb ∧ (c.grow k s).state = c.state := by
  dsimp only [grow]
  split
  · exact ⟨rfl, rfl⟩
  · split
    · split <;> exact ⟨rfl, rfl⟩
    · exact ⟨rfl, rfl⟩

@[simp] theorem step_logProb (k : Control) (c : Candidate σ) (state : σ) (score : Float32)
    (symbol : Nat) : (c.step k state score symbol).logProb = c.logProb + score :=
  (grow_kept k _ symbol).1

theorem Formed.step {c : Candidate σ} (h : c.Formed k) (state : σ) (score : Float32)
    (symbol : Nat) : (c.step k state score symbol).Formed k :=
  Formed.grow (c := { c with logProb := c.logProb + score, state }) h symbol

theorem Formed.symbols_step {c : Candidate σ} (h : c.Formed k) (state : σ) (score : Float32)
    (symbol : Nat) : (c.step k state score symbol).symbols = c.symbols ++ [symbol] :=
  symbols_grow k (c := { c with logProb := c.logProb + score, state })
    (tree_size_of_formed h ▸ Nat.succ_pos _) symbol

end Candidate
end ProgramSearch
