import ProgramSearch.Ast
import ProgramSearch.Proofs.Beam.Growth
import ProgramSearch.Proofs.Symbols

/-!
# Reading outlines

A tree that holds the nodes of an outline one after the other is read without failure, and what is
read is a function of the outline alone.
-/
namespace ProgramSearch

namespace Ast

/-- The chain behind a link. -/
def chainAt (v : Vocabulary) (t : SymbolTree) : Option Nat → Except Failure (List Ast)
  | none => .ok []
  | some id => chainFrom v t id

@[simp] theorem chainAt_none (v : Vocabulary) (t : SymbolTree) : chainAt v t none = .ok [] := rfl

@[simp] theorem chainAt_some (v : Vocabulary) (t : SymbolTree) (id : Nat) :
    chainAt v t (some id) = chainFrom v t id := rfl

/-- The child of the node behind a link. -/
def childBehind (t : SymbolTree) (link : Option Nat) : Option Nat :=
  link.bind fun c => (t.node? c).bind (·.child)

theorem forward?_ok {id : Nat} {link : Option Nat} (h : ∀ n ∈ link, id < n) :
    ∃ next, forward? id link = .ok next ∧ next.map Subtype.val = link := by
  cases link with
  | none => exact ⟨none, rfl, rfl⟩
  | some n => exact ⟨some ⟨n, h n rfl⟩, by simp [forward?, h n rfl], rfl⟩

theorem beyond?_ok {t : SymbolTree} {id : Nat} {link : Option { next : Nat // id < next }}
    (h : ∀ c ∈ link.map Subtype.val, ∀ n ∈ childBehind t (some c), c < n) :
    ∃ next, beyond? t id link = .ok next ∧
      next.map Subtype.val = childBehind t (link.map Subtype.val) := by
  cases link with
  | none => exact ⟨none, rfl, rfl⟩
  | some c =>
    obtain ⟨next, hnext, hval⟩ := forward?_ok (h c.val rfl)
    refine ⟨next.map fun n => ⟨n.val, Nat.lt_trans c.property n.property⟩, ?_, ?_⟩
    · rw [childBehind, Option.bind_some] at hnext
      simp only [beyond?, hnext]
      rfl
    · rw [Option.map_some, ← hval, Option.map_map]
      rfl

theorem chainFrom_stop (v : Vocabulary) (t : SymbolTree) {id : Nat} {node : Node}
    (h : t.node? id = some node) (hs : node.symbol = v.control.stop) :
    chainFrom v t id = .ok [] := by
  obtain ⟨inside, hnode⟩ : ∃ inside : id < t.size, getElem t.nodes id inside = node :=
    Array.getElem?_eq_some_iff.mp h
  rw [chainFrom, dif_pos inside]
  simp [hnode, hs]

/-- One step along a chain whose links lead forward. -/
theorem chainFrom_eq (v : Vocabulary) (t : SymbolTree) {id : Nat} {node : Node}
    (h : t.node? id = some node) (hs : node.symbol ≠ v.control.stop)
    (hchild : ∀ c ∈ node.child, id < c) (hsibling : ∀ n ∈ node.sibling, id < n)
    (hbehind : ∀ c ∈ node.child, ∀ n ∈ childBehind t (some c), c < n) :
    chainFrom v t id = (do
      let head ← headOf v node.symbol (fun _ => chainAt v t node.child)
        (fun _ => chainAt v t (childBehind t node.child))
      let rest ← chainAt v t node.sibling
      return head :: rest) := by
  obtain ⟨inside, hnode⟩ : ∃ inside : id < t.size, getElem t.nodes id inside = node :=
    Array.getElem?_eq_some_iff.mp h
  have hs' : (node.symbol == v.control.stop) = false := beq_eq_false_iff_ne.mpr hs
  obtain ⟨first, hfirst, hchildval⟩ := forward?_ok hchild
  obtain ⟨second, hsecond, hbehindval⟩ := beyond?_ok (t := t) (by rwa [hchildval])
  obtain ⟨next, hnext, hsiblingval⟩ := forward?_ok hsibling
  rw [hchildval] at hbehindval
  rw [chainFrom, dif_pos inside, ← hbehindval, ← hchildval, ← hsiblingval]
  simp only [hnode, hs', Bool.false_eq_true, if_false, hfirst, hsecond, hnext,
    ok_bind]
  cases first <;> cases second <;> cases next <;> rfl

/-- The syntax tree of a symbol with its two parts, if it has any. -/
def head (v : Vocabulary) (symbol : Nat) (first second : List Ast) : Ast :=
  if symbol = v.control.branch then branch [] first second
  else if symbol = v.control.except then except first second
  else if symbol = v.control.loop then loop first second
  else call (v.nameOf symbol)

theorem head_branch (v : Vocabulary) (first second : List Ast) :
    head v v.control.branch first second = branch [] first second :=
  if_pos rfl

theorem head_except {v : Vocabulary} (hv : v.Controlled) (first second : List Ast) :
    head v v.control.except first second = except first second := by
  have hb : v.control.except ≠ v.control.branch :=
    Vocabulary.id_ne_of_name_ne hv.except hv.branch (by decide)
  rw [head, if_neg hb, if_pos rfl]

theorem head_loop {v : Vocabulary} (hv : v.Controlled) (first second : List Ast) :
    head v v.control.loop first second = loop first second := by
  have hb : v.control.loop ≠ v.control.branch :=
    Vocabulary.id_ne_of_name_ne hv.loop hv.branch (by decide)
  have he : v.control.loop ≠ v.control.except :=
    Vocabulary.id_ne_of_name_ne hv.loop hv.except (by decide)
  rw [head, if_neg hb, if_neg he, if_pos rfl]

theorem head_of_call {v : Vocabulary} {symbol : Nat} (h : v.control.isConstruct symbol = false)
    (first second : List Ast) : head v symbol first second = call (v.nameOf symbol) := by
  simp only [Control.isConstruct, Bool.or_eq_false_iff, beq_eq_false_iff_ne] at h
  simp [head, h]

theorem headOf_ok {v : Vocabulary} {symbol : Nat} (known : symbol < v.size)
    (first second : List Ast) :
    headOf v symbol (fun _ => .ok first) (fun _ => .ok second) =
      .ok (head v symbol first second) := by
  simp only [headOf, head, beq_iff_eq, Vocabulary.symbol?_eq_nameOf known]
  split
  · rfl
  · split
    · rfl
    · split <;> rfl

end Ast

/-- The nodes stand in a tree, one after the other, from the id `base` on. -/
def SymbolTree.Holds (t : SymbolTree) (base : Nat) (nodes : List Node) : Prop :=
  ∃ front back, front.length = base ∧ t.nodes.toList = front ++ (nodes ++ back)

namespace SymbolTree.Holds

variable {t : SymbolTree} {base : Nat} {node : Node} {nodes more : List Node}

theorem head (h : t.Holds base (node :: nodes)) : t.node? base = some node := by
  obtain ⟨front, back, rfl, hnodes⟩ := h
  rw [node?, ← Array.getElem?_toList, hnodes, List.getElem?_append_right (Nat.le_refl _),
    Nat.sub_self]
  rfl

theorem left (h : t.Holds base (nodes ++ more)) : t.Holds base nodes := by
  obtain ⟨front, back, hlength, hnodes⟩ := h
  exact ⟨front, more ++ back, hlength, by rw [hnodes, List.append_assoc]⟩

theorem right (h : t.Holds base (nodes ++ more)) : t.Holds (base + nodes.length) more := by
  obtain ⟨front, back, rfl, hnodes⟩ := h
  exact ⟨front ++ nodes, back, List.length_append, by rw [hnodes]; simp⟩

theorem tail (h : t.Holds base (node :: nodes)) : t.Holds (base + 1) nodes := by
  have hcons : t.Holds base ([node] ++ nodes) := h
  exact hcons.right

end SymbolTree.Holds

namespace Outline

open Ast

mutual

/-- The chain that is read off an outline. It is cut at a stop. -/
def chain (v : Vocabulary) : Outline → List Ast
  | stop => []
  | flat s rest => call (v.nameOf s) :: rest.chain v
  | nest s inner rest =>
    if s = v.control.stop then []
    else Ast.head v s (inner.chain v) (inner.under v) :: rest.chain v

/-- The chain that is read below the first symbol. -/
def under (v : Vocabulary) : Outline → List Ast
  | stop => []
  | flat _ _ => []
  | nest _ inner _ => inner.chain v

end

variable {v : Vocabulary} {t : SymbolTree}

/-- The child of the first node is the node right after it, so it lies ahead. -/
theorem ahead_of_holds {k : Control} {o : Outline} {base : Nat}
    (h : t.Holds base (o.nodes k base)) : ∀ n ∈ childBehind t (some base), base < n := by
  intro n hn
  cases o with
  | stop =>
    rw [childBehind, Option.bind_some, h.head] at hn
    contradiction
  | flat s rest =>
    rw [childBehind, Option.bind_some, h.head] at hn
    contradiction
  | nest s inner rest =>
    rw [childBehind, Option.bind_some, h.head] at hn
    obtain rfl : base + 1 = n := Option.some.inj hn
    exact Nat.lt_succ_self base

/-- A tree that holds the nodes of an outline is read without failure. The chain below the first
node is part of the statement, because the construct above that node asks for it. -/
theorem chainFrom_of_holds {o : Outline} {below : Bool} {base : Nat}
    (fits : o.Fits v.control below) (known : ∀ s ∈ o.symbols v.control, s < v.size)
    (h : t.Holds base (o.nodes v.control base)) :
    chainFrom v t base = .ok (o.chain v) ∧
      chainAt v t (childBehind t (some base)) = .ok (o.under v) := by
  induction o generalizing below base with
  | stop =>
    refine ⟨chainFrom_stop v t h.head rfl, ?_⟩
    rw [childBehind, Option.bind_some, h.head]
    rfl
  | flat s rest ih =>
    have hs : s < v.size := known s List.mem_cons_self
    have hrest := (ih fits.2.2.2 (fun x hx => known x (List.mem_cons_of_mem s hx)) h.tail).1
    have hhead := head_of_call fits.2.1 [] []
    constructor
    · rw [chainFrom_eq v t h.head fits.2.2.1 (by simp) (by simp) (by simp), chain, ← hhead]
      simp only [chainAt_none, chainAt_some, childBehind, Option.bind_none, headOf_ok hs, ok_bind,
        hrest]
      rfl
    · rw [childBehind, Option.bind_some, h.head]
      rfl
  | nest s inner rest ihi ihr =>
    have hs : s < v.size := known s List.mem_cons_self
    have hinner := h.tail.left
    have hrest := h.tail.right
    rw [length_nodes] at hrest
    obtain ⟨hfirst, hsecond⟩ := ihi fits.2.1
      (fun x hx => known x (List.mem_cons_of_mem s (List.mem_append_left _ hx))) hinner
    have hbeside := (ihr fits.2.2
      (fun x hx => known x (List.mem_cons_of_mem s (List.mem_append_right _ hx))) hrest).1
    constructor
    · by_cases hstop : s = v.control.stop
      · rw [chainFrom_stop v t h.head hstop, chain, if_pos hstop]
      · rw [chainFrom_eq v t h.head hstop (by simp) (by simp; omega)
          (by simpa using ahead_of_holds hinner), chain, if_neg hstop]
        simp only [chainAt_some, hfirst, hsecond, headOf_ok hs, ok_bind, hbeside]
        rfl
    · rw [childBehind, Option.bind_some, h.head]
      exact hfirst

end Outline

namespace Ast

variable {v : Vocabulary} {t : SymbolTree}

/-- The program of a tree whose root has an outline beside it. -/
theorem ofTree_of_nodes {o : Outline} {symbol : Nat}
    (fits : o.Fits v.control false) (known : ∀ s ∈ o.symbols v.control, s < v.size)
    (h : t.nodes.toList = ⟨symbol, none, some 1⟩ :: o.nodes v.control 1) :
    ofTree v t = .ok (subtree (o.chain v)) := by
  have hroot : t.Holds 0 (⟨symbol, none, some 1⟩ :: o.nodes v.control 1) :=
    ⟨[], [], rfl, by rw [h]; simp⟩
  have hchain := (Outline.chainFrom_of_holds fits known hroot.tail).1
  rw [ofTree, SymbolTree.root, hroot.head]
  simp only [Option.bind_some, hchain]
  rfl

/-- The program of a candidate that was fed an outline. -/
theorem ofTree_growAll {σ : Type} (state : σ) (logProb : Float32) (hv : v.Controlled)
    {o : Outline} (fits : o.Fits v.control false) (known : ∀ s ∈ o.symbols v.control, s < v.size) :
    ofTree v ((Candidate.start v.control state logProb).growAll v.control
      (o.symbols v.control)).tree = .ok (subtree (o.chain v)) :=
  ofTree_of_nodes fits known
    (Candidate.start_growAll_nodes state logProb hv.isConstruct_stop fits)

end Ast
end ProgramSearch
