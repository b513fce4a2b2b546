import Mathlib.Logic.ExistsUnique
import ProgramSearch.SymbolTree

/-!
# Links of symbol trees

An attachment changes one link and adds one node. Whatever is attached to the nodes of a tree, and
whichever links it replaces, all links lead to later nodes; so a walk along sibling links ends. If
no link is replaced, each node but the root has one link to it, and there is one path to each node.
-/
namespace ProgramSearch

/-- A modification that a map does not see. -/
theorem map_modify_of_eq {α β : Type} {f : α → α} {g : α → β} (h : ∀ a, g (f a) = g a)
    (xs : List α) (i : Nat) : (xs.modify i f).map g = xs.map g := by
  induction xs generalizing i with
  | nil => cases i <;> rfl
  | cons x xs ih =>
    cases i with
    | zero => simp [h]
    | succ i => simp [ih]

namespace SymbolTree

/-- The link of a node through an edge. -/
def Node.target (n : Node) : Edge → Option Nat
  | .child => n.child
  | .sibling => n.sibling

theorem Node.target_link (edge edge' : Edge) (new : Nat) (n : Node) :
    Node.target (Node.link edge new n) edge' =
      if edge' = edge then some new else Node.target n edge' := by
  cases edge <;> cases edge' <;> rfl

/-- Where a link of a tree leads. -/
def link? (t : SymbolTree) (id : Nat) (edge : Edge) : Option Nat :=
  (t.node? id).bind (Node.target · edge)

theorem link?_eq_some_iff {t : SymbolTree} {id : Nat} {edge : Edge} {n : Nat} :
    t.link? id edge = some n ↔
      ∃ node, t.node? id = some node ∧ Node.target node edge = some n :=
  Option.bind_eq_some_iff

theorem link?_of_node? {t : SymbolTree} {id : Nat} {node : Node} (h : t.node? id = some node)
    (edge : Edge) : t.link? id edge = Node.target node edge := by
  rw [link?, h]
  rfl

theorem lt_size_of_link? {t : SymbolTree} {id : Nat} {edge : Edge} {n : Nat}
    (h : t.link? id edge = some n) : id < t.size := by
  obtain ⟨node, hnode, -⟩ := link?_eq_some_iff.mp h
  exact (Array.getElem?_eq_some_iff.mp hnode).1

/-! ### Attachments -/

theorem size_attach (t : SymbolTree) (edge : Edge) (source symbol : Nat) :
    (t.attach edge source symbol).size = t.size + 1 := by
  simp [attach, size]

/-- The source has a new link, and the new node has none. -/
theorem link?_attach (t : SymbolTree) (edge : Edge) {source : Nat} (placed : source < t.size)
    (symbol id : Nat) (edge' : Edge) :
    (t.attach edge source symbol).link? id edge' =
      if id = source ∧ edge' = edge then some t.size else t.link? id edge' := by
  have hnode : (t.attach edge source symbol).node? id =
      if source = id then (t.node? id).map (Node.link edge t.size)
      else if id = t.size then some ⟨symbol, none, none⟩ else t.node? id := by
    rw [node?, attach, Array.getElem?_modify, Array.getElem?_push]
    split
    · next hsource =>
      rw [if_neg (show ¬ id = t.nodes.size from hsource ▸ Nat.ne_of_lt placed)]
      rfl
    · rfl
  rw [link?, hnode, link?]
  by_cases hsource : source = id
  · subst hsource
    obtain ⟨node, hnode⟩ : ∃ node, t.node? source = some node :=
      ⟨_, Array.getElem?_eq_getElem placed⟩
    simp [hnode, Node.target_link]
  · have hother : ¬ (id = source ∧ edge' = edge) := fun h => hsource h.1.symm
    rw [if_neg hsource, if_neg hother]
    split
    · next hid =>
      subst hid
      have hnone : t.node? t.size = none := Array.getElem?_eq_none (Nat.le_refl _)
      rw [hnone]
      cases edge' <;> rfl
    · rfl

/-- An attachment leaves the symbols in place and appends one. -/
theorem map_symbol_attach (t : SymbolTree) (edge : Edge) (source symbol : Nat) :
    (t.attach edge source symbol).nodes.toList.map Node.symbol =
      t.nodes.toList.map Node.symbol ++ [symbol] := by
  have hlink (n : Node) : (Node.link edge t.size n).symbol = n.symbol := by
    cases edge <;> rfl
  rw [attach, Array.toList_modify, map_modify_of_eq hlink, Array.toList_push, List.map_append]
  rfl

/-- The trees that attachments to existing nodes lead to. -/
inductive Built : SymbolTree → Prop
  | root (symbol : Nat) : Built (ofRoot symbol)
  | attach {t : SymbolTree} (before : Built t) (edge : Edge) {source : Nat}
      (placed : source < t.size) (symbol : Nat) : Built (t.attach edge source symbol)

/-! ### Links lead forward -/

/-- All links lead to later nodes of the tree. -/
def Forward (t : SymbolTree) : Prop :=
  ∀ id edge n, t.link? id edge = some n → id < n ∧ n < t.size

theorem link?_ofRoot (symbol id : Nat) (edge : Edge) : (ofRoot symbol).link? id edge = none := by
  cases id with
  | zero => cases edge <;> rfl
  | succ id => rfl

theorem forward_ofRoot (symbol : Nat) : (ofRoot symbol).Forward := by
  intro id edge n h
  rw [link?_ofRoot] at h
  contradiction

theorem Forward.attach {t : SymbolTree} (h : t.Forward) (edge : Edge) {source : Nat}
    (placed : source < t.size) (symbol : Nat) : (t.attach edge source symbol).Forward := by
  intro id edge' n hlink
  rw [link?_attach t edge placed] at hlink
  rw [size_attach]
  split at hlink
  · next hnew =>
    obtain rfl := Option.some.inj hlink
    omega
  · have hlater := h id edge' n hlink
    omega

theorem Built.forward {t : SymbolTree} (h : t.Built) : t.Forward := by
  induction h with
  | root symbol => exact forward_ofRoot symbol
  | attach _ edge placed symbol ih => exact ih.attach edge placed symbol

/-! ### Walks along siblings -/

/-- The node after `k` steps along sibling links, as long as there are links. -/
def siblingAfter (t : SymbolTree) (id : Nat) : Nat → Option Nat
  | 0 => some id
  | k + 1 => (t.siblingAfter id k).bind (t.link? · .sibling)

theorem siblingAfter_succ (t : SymbolTree) (id k : Nat) :
    t.siblingAfter id (k + 1) = (t.link? id .sibling).bind (t.siblingAfter · k) := by
  induction k with
  | zero =>
    change (some id).bind (t.link? · .sibling) = (t.link? id .sibling).bind some
    rw [Option.bind_some, Option.bind_fun_some]
  | succ k ih =>
    rw [siblingAfter, ih, Option.bind_assoc]
    rfl

/-- In a tree whose links lead forward a walk ends at a missing link only. -/
theorem siblingsFrom_eq {t : SymbolTree} (h : t.Forward) {id : Nat} (inside : id < t.size) :
    t.siblingsFrom id = id :: ((t.link? id .sibling).map t.siblingsFrom).getD [] := by
  obtain ⟨node, hnode⟩ : ∃ node, t.node? id = some node := ⟨_, Array.getElem?_eq_getElem inside⟩
  have hlink : t.link? id .sibling = node.sibling := link?_of_node? hnode .sibling
  rw [siblingsFrom, hnode, hlink]
  cases hnext : node.sibling with
  | none => simp [hnext]
  | some next =>
    rw [hnext] at hlink
    simp [hnext, h id .sibling next hlink]

/-- The walk from a node passes later and later nodes of the tree. -/
theorem siblingsFrom_ascends {t : SymbolTree} (h : t.Forward) {id : Nat} (inside : id < t.size) :
    (t.siblingsFrom id).Pairwise (· < ·) ∧ ∀ n ∈ t.siblingsFrom id, id ≤ n ∧ n < t.size := by
  induction hleft : t.size - id using Nat.strongRecOn generalizing id with
  | _ left ih =>
  rw [siblingsFrom_eq h inside]
  cases hlink : t.link? id .sibling with
  | none => simpa using inside
  | some next =>
    obtain ⟨hlater, hinside⟩ := h id .sibling next hlink
    obtain ⟨hpairwise, hbounds⟩ := ih (t.size - next) (by omega) hinside rfl
    rw [Option.map_some, Option.getD_some, List.pairwise_cons, List.forall_mem_cons]
    refine ⟨⟨fun n hn => ?_, hpairwise⟩, ⟨Nat.le_refl id, inside⟩, fun n hn => ?_⟩
    · exact Nat.lt_of_lt_of_le hlater (hbounds n hn).1
    · exact ⟨Nat.le_of_lt (Nat.lt_of_lt_of_le hlater (hbounds n hn).1), (hbounds n hn).2⟩

/-- The nodes of the walk, one after the other. -/
theorem siblingAfter_eq {t : SymbolTree} (h : t.Forward) {id : Nat} (inside : id < t.size)
    (k : Nat) : t.siblingAfter id k = (t.siblingsFrom id)[k]? := by
  induction k generalizing id with
  | zero =>
    rw [siblingsFrom_eq h inside]
    rfl
  | succ k ih =>
    rw [siblingsFrom_eq h inside, siblingAfter_succ, List.getElem?_cons_succ]
    cases hlink : t.link? id .sibling with
    | none => rfl
    | some next => exact ih (h id .sibling next hlink).2

/-! ### Trees -/

/-- Each node but the root is where just one link leads to, and links lead forward. -/
structure IsTree (t : SymbolTree) : Prop where
  forward : t.Forward
  existsUnique_source : ∀ n, 0 < n → n < t.size →
    ∃! source : Nat × Edge, t.link? source.1 source.2 = some n

theorem isTree_ofRoot (symbol : Nat) : (ofRoot symbol).IsTree := by
  refine ⟨forward_ofRoot symbol, fun n hpos hlt => ?_⟩
  have hone : n < 1 := hlt
  omega

theorem IsTree.attach {t : SymbolTree} (h : t.IsTree) {edge : Edge} {source : Nat}
    (placed : source < t.size) (free : t.link? source edge = none) (symbol : Nat) :
    (t.attach edge source symbol).IsTree := by
  refine ⟨h.forward.attach edge placed symbol, fun n hpos hlt => ?_⟩
  rw [size_attach] at hlt
  simp only [link?_attach t edge placed]
  rcases Nat.lt_succ_iff_lt_or_eq.mp hlt with hold | rfl
  · obtain ⟨⟨a, e⟩, hlink, hunique⟩ := h.existsUnique_source n hpos hold
    refine ⟨(a, e), ?_, ?_⟩
    · dsimp only
      rw [if_neg, hlink]
      rintro ⟨rfl, rfl⟩
      rw [free] at hlink
      contradiction
    · rintro ⟨b, f⟩ hother
      dsimp only at hother
      split at hother
      · exact absurd (Option.some.inj hother) (Nat.ne_of_gt hold)
      · exact hunique (b, f) hother
  · refine ⟨(source, edge), if_pos ⟨rfl, rfl⟩, ?_⟩
    rintro ⟨b, f⟩ hother
    dsimp only at hother
    split at hother
    · next hsame => rw [hsame.1, hsame.2]
    · exact absurd (h.forward b f _ hother).2 (Nat.lt_irrefl _)

/-- The node at the end of a path of links. -/
def follow (t : SymbolTree) : Nat → List Edge → Option Nat
  | id, [] => some id
  | id, edge :: path => (t.link? id edge).bind (t.follow · path)

theorem follow_append (t : SymbolTree) (id : Nat) (path path' : List Edge) :
    t.follow id (path ++ path') = (t.follow id path).bind (t.follow · path') := by
  induction path generalizing id with
  | nil => rfl
  | cons edge path ih =>
    rw [List.cons_append, follow, follow, Option.bind_assoc]
    congr 1
    funext next
    exact ih next

theorem follow_concat (t : SymbolTree) (id : Nat) (path : List Edge) (edge : Edge) :
    t.follow id (path ++ [edge]) = (t.follow id path).bind (t.link? · edge) := by
  rw [follow_append]
  congr 1
  funext next
  exact Option.bind_fun_some _

/-- There is one path from the root to each node. -/
theorem IsTree.existsUnique_path {t : SymbolTree} (h : t.IsTree) (n : Nat) (inside : n < t.size) :
    ∃! path, t.follow root path = some n := by
  induction n using Nat.strongRecOn with
  | _ n ih =>
  rcases Nat.eq_zero_or_pos n with rfl | hpos
  · refine ⟨[], rfl, fun path hpath => ?_⟩
    rcases List.eq_nil_or_concat path with rfl | ⟨front, edge, rfl⟩
    · rfl
    · rw [List.concat_eq_append, follow_concat] at hpath
      obtain ⟨a, -, hlink⟩ := Option.bind_eq_some_iff.mp hpath
      exact absurd (h.forward a edge 0 hlink).1 (Nat.not_lt_zero a)
  · obtain ⟨⟨a, e⟩, hlink, hunique⟩ := h.existsUnique_source n hpos inside
    obtain ⟨hlater, -⟩ := h.forward a e n hlink
    obtain ⟨path, hpath, hpaths⟩ := ih a hlater (Nat.lt_trans hlater inside)
    refine ⟨path ++ [e], ?_, fun other hother => ?_⟩
    · dsimp only at hpath ⊢
      rw [follow_concat, hpath]
      exact hlink
    · rcases List.eq_nil_or_concat other with rfl | ⟨front, edge, rfl⟩
      · exact absurd (Option.some.inj hother) (Nat.ne_of_lt hpos)
      · rw [List.concat_eq_append, follow_concat] at hother
        obtain ⟨b, hfront, hlast⟩ := Option.bind_eq_some_iff.mp hother
        obtain ⟨rfl, rfl⟩ := Prod.mk.inj (hunique (b, edge) hlast)
        rw [List.concat_eq_append, hpaths front hfront]

end SymbolTree
end ProgramSearch
