import Mathlib.Tactic.SplitIfs
import ProgramSearch.Proofs.Ast.Reading
import ProgramSearch.Proofs.SymbolTree

/-!
# Reading along links

Chains of a tree are read by following its links, whatever these are. If all links lead forward, as
they do in every tree that attachments lead to, then each chain has a reading: following the links
comes to an end and stays inside the tree. The only failure is a symbol that the vocabulary does not
have.
-/
namespace ProgramSearch

namespace Ast

/-- The reading of a chain by its links alone. A node that is no stop has the chains below it,
behind that one and beside it, all of which are read, and lies in the tree, as does its child. -/
inductive Reading (v : Vocabulary) (t : SymbolTree) :
    Option Nat → Except Failure (List Ast) → Prop
  | ends : Reading v t none (.ok [])
  | stop {id : Nat} {node : Node} (here : t.node? id = some node)
      (stops : node.symbol = v.control.stop) : Reading v t (some id) (.ok [])
  | node {id : Nat} {node : Node} {first second others : Except Failure (List Ast)}
      (here : t.node? id = some node) (goes : node.symbol ≠ v.control.stop)
      (inside : ∀ c ∈ node.child, c < t.size) (below : Reading v t node.child first)
      (behind : Reading v t (childBehind t node.child) second)
      (beside : Reading v t node.sibling others) :
      Reading v t (some id) (do
        let head ← headOf v node.symbol (fun _ => first) (fun _ => second)
        let rest ← others
        return head :: rest)

/-- The failure that a symbol of the tree is not in the vocabulary. -/
def Unknown (v : Vocabulary) (t : SymbolTree) (failure : Failure) : Prop :=
  ∃ id node, 0 < id ∧ t.node? id = some node ∧ v.size ≤ node.symbol ∧
    failure = .vocabulary (.unknownId node.symbol)

variable {v : Vocabulary} {t : SymbolTree}

theorem childBehind_eq_some {link : Option Nat} {n : Nat} (h : childBehind t link = some n) :
    ∃ c, link = some c ∧ t.link? c .child = some n := by
  obtain ⟨c, rfl, h⟩ := Option.bind_eq_some_iff.mp h
  exact ⟨c, rfl, h⟩

/-- The links of a node and of its child lead to later nodes. -/
theorem later_of_links (forward : t.Forward) {id : Nat} {node : Node}
    (here : t.node? id = some node) :
    (∀ n ∈ node.child, id < n ∧ n < t.size) ∧ (∀ n ∈ node.sibling, id < n ∧ n < t.size) ∧
      ∀ n ∈ childBehind t node.child, id < n ∧ n < t.size := by
  have hchild : ∀ n ∈ node.child, id < n ∧ n < t.size := fun n hn =>
    forward id .child n ((SymbolTree.link?_of_node? here .child).trans hn)
  have hsibling : ∀ n ∈ node.sibling, id < n ∧ n < t.size := fun n hn =>
    forward id .sibling n ((SymbolTree.link?_of_node? here .sibling).trans hn)
  refine ⟨hchild, hsibling, fun n hn => ?_⟩
  obtain ⟨c, hc, hn⟩ := childBehind_eq_some hn
  obtain ⟨hafter, -⟩ := hchild c hc
  obtain ⟨hlater, hinside⟩ := forward c .child n hn
  exact ⟨Nat.lt_trans hafter hlater, hinside⟩

/-- Where links lead forward, each chain has a reading. The recursion is on the nodes that lie
ahead. -/
theorem reading_chainAt (forward : t.Forward) {link : Option Nat}
    (inside : ∀ n ∈ link, n < t.size) : Reading v t link (chainAt v t link) := by
  have hchain (left : Nat) : ∀ id, id < t.size → t.size - id = left →
      Reading v t (some id) (chainFrom v t id) := by
    induction left using Nat.strongRecOn with
    | _ left ih =>
    intro id inside hleft
    have hnext : ∀ link, (∀ n ∈ link, id < n ∧ n < t.size) →
        Reading v t link (chainAt v t link) := by
      intro link hlink
      cases link with
      | none => exact .ends
      | some n =>
        obtain ⟨hlater, hinside⟩ := hlink n rfl
        exact ih (t.size - n) (by omega) n hinside rfl
    obtain ⟨node, here⟩ : ∃ node, t.node? id = some node := ⟨_, Array.getElem?_eq_getElem inside⟩
    by_cases hstop : node.symbol = v.control.stop
    · rw [chainFrom_stop v t here hstop]
      exact .stop here hstop
    · obtain ⟨hchild, hsibling, hbehind⟩ := later_of_links forward here
      rw [chainFrom_eq v t here hstop (fun n hn => (hchild n hn).1) (fun n hn => (hsibling n hn).1)
        fun c _ n hn => (forward c .child n hn).1]
      exact .node here hstop (fun n hn => (hchild n hn).2) (hnext _ hchild) (hnext _ hbehind)
        (hnext _ hsibling)
  cases link with
  | none => exact .ends
  | some id => exact hchain _ id (inside id rfl) rfl

/-- A node fails with its first part, with its second part, or because its symbol is unknown. -/
theorem headOf_error {symbol : Nat} {first second : Except Failure (List Ast)} {failure : Failure}
    (h : headOf v symbol (fun _ => first) (fun _ => second) = .error failure) :
    first = .error failure ∨ second = .error failure ∨
      v.size ≤ symbol ∧ failure = .vocabulary (.unknownId symbol) := by
  have hparts (build : List Ast → List Ast → Ast)
      (h : (do return build (← first) (← second)) = Except.error failure) :
      first = .error failure ∨ second = .error failure := by
    rcases bind_error h with hfirst | ⟨a, -, h⟩
    · exact .inl hfirst
    · rcases bind_error h with hsecond | ⟨b, -, h⟩
      · exact .inr hsecond
      · contradiction
  rw [headOf] at h
  split_ifs at h
  · exact (hparts (branch []) h).imp_right .inl
  · exact (hparts except h).imp_right .inl
  · exact (hparts loop h).imp_right .inl
  · split at h
    · contradiction
    · next hunknown =>
      exact .inr (.inr ⟨List.getElem?_eq_none_iff.mp hunknown, (Except.error.inj h).symm⟩)

/-- A reading that starts behind the root fails for unknown symbols only. -/
theorem Reading.unknown_of_error (forward : t.Forward) {link : Option Nat}
    {result : Except Failure (List Ast)} (h : Reading v t link result) (later : ∀ n ∈ link, 0 < n)
    {failure : Failure} (failed : result = .error failure) : Unknown v t failure := by
  induction h with
  | ends => contradiction
  | stop => contradiction
  | @node id node first second others here goes inside below behind beside ihf ihs iho =>
    obtain ⟨hchild, hsibling, hbehind⟩ := later_of_links forward here
    rcases bind_error failed with hhead | ⟨head, -, failed⟩
    · rcases headOf_error hhead with hfirst | hsecond | ⟨hunknown, rfl⟩
      · exact ihf (fun n hn => Nat.zero_lt_of_lt (hchild n hn).1) hfirst
      · exact ihs (fun n hn => Nat.zero_lt_of_lt (hbehind n hn).1) hsecond
      · exact ⟨id, node, later id rfl, here, hunknown, rfl⟩
    · rcases bind_error failed with hothers | ⟨rest, -, failed⟩
      · exact iho (fun n hn => Nat.zero_lt_of_lt (hsibling n hn).1) hothers
      · contradiction

/-! ### Programs -/

/-- The program of a tree comes from the reading of the chain beside its root. -/
theorem ofTree_eq (v : Vocabulary) (t : SymbolTree) :
    ofTree v t = subtree <$> chainAt v t (t.link? SymbolTree.root .sibling) := by
  rw [ofTree]
  change _ = subtree <$> chainAt v t ((t.node? SymbolTree.root).bind (·.sibling))
  cases (t.node? SymbolTree.root).bind (·.sibling) <;> rfl

theorem reading_ofTree (forward : t.Forward) :
    ∃ result, Reading v t (t.link? SymbolTree.root .sibling) result ∧
      ofTree v t = subtree <$> result :=
  ⟨_, reading_chainAt forward fun n hn => (forward _ _ n hn).2, ofTree_eq v t⟩

theorem unknown_of_ofTree_error (forward : t.Forward) {failure : Failure}
    (h : ofTree v t = .error failure) : Unknown v t failure := by
  obtain ⟨result, hreading, hresult⟩ := reading_ofTree (v := v) forward
  have failed : result = .error failure := by
    cases result with
    | error e => exact congrArg Except.error (Except.error.inj (hresult.symm.trans h))
    | ok chain =>
      rw [hresult] at h
      contradiction
  exact hreading.unknown_of_error forward
    (fun n hn => Nat.zero_lt_of_lt (forward _ _ n hn).1) failed

theorem exists_ofTree (forward : t.Forward)
    (known : ∀ id node, 0 < id → t.node? id = some node → node.symbol < v.size) :
    ∃ ast, ofTree v t = .ok ast := by
  cases h : ofTree v t with
  | ok ast => exact ⟨ast, rfl⟩
  | error failure =>
    obtain ⟨id, node, hpos, hnode, hunknown, -⟩ := unknown_of_ofTree_error forward h
    exact absurd (known id node hpos hnode) (Nat.not_lt_of_le hunknown)

/-- In a tree that attachments lead to, all links lead to later nodes. A walk along siblings passes
later and later nodes up to one without a sibling. The program of the tree comes from following the
links, and is there if the vocabulary knows the symbols; otherwise an unknown symbol is reported. -/
theorem walks_of_built (h : t.Built) :
    t.Forward ∧
      (∀ id, id < t.size → (t.siblingsFrom id).Pairwise (· < ·) ∧
        (∀ n ∈ t.siblingsFrom id, n < t.size) ∧
          ∀ k, t.siblingAfter id k = (t.siblingsFrom id)[k]?) ∧
      ∀ v : Vocabulary,
        (∃ result, Reading v t (t.link? SymbolTree.root .sibling) result ∧
          ofTree v t = subtree <$> result) ∧
        (∀ failure, ofTree v t = .error failure → Unknown v t failure) ∧
        ((∀ id node, t.node? id = some node → node.symbol < v.size) →
          ∃ ast, ofTree v t = .ok ast) := by
  have forward := h.forward
  refine ⟨forward, fun id inside => ?_, fun v => ?_⟩
  · obtain ⟨hpairwise, hbounds⟩ := SymbolTree.siblingsFrom_ascends forward inside
    exact ⟨hpairwise, fun n hn => (hbounds n hn).2, SymbolTree.siblingAfter_eq forward inside⟩
  · refine ⟨reading_ofTree forward, fun failure => unknown_of_ofTree_error forward, fun known => ?_⟩
    exact exists_ofTree forward fun id node _ => known id node

/-- A tree with a branch beside its root, where another symbol stood before. -/
def relinked : SymbolTree :=
  (((SymbolTree.ofRoot 0).attach .sibling 0 5).attach .sibling 0 2).attach .child 2 6

theorem walks_of_built_relinked :
    relinked.Built ∧ (relinked.siblingsFrom 0)[1]? = some 2 ∧ (relinked.siblingsFrom 0)[2]? = none ∧
      (∀ id node, relinked.node? id = some node → node.symbol < Vocabulary.small.size) ∧
      ∃ ast, ofTree .small relinked = .ok ast := by
  have built : relinked.Built :=
    .attach (.attach (.attach (.root 0) .sibling (by decide) 5) .sibling (by decide) 2) .child
      (by decide) 6
  obtain ⟨-, hwalk, hprograms⟩ := walks_of_built built
  obtain ⟨-, -, hafter⟩ := hwalk 0 (by decide)
  have known : ∀ id node, relinked.node? id = some node → node.symbol < Vocabulary.small.size := by
    intro id node hnode
    have hall : ∀ node ∈ relinked.nodes.toList, node.symbol < Vocabulary.small.size := by decide
    rw [SymbolTree.node?, ← Array.getElem?_toList] at hnode
    exact hall node (List.mem_of_getElem? hnode)
  exact ⟨built, (hafter 1).symm.trans rfl, (hafter 2).symm.trans rfl, known,
    (hprograms .small).2.2 known⟩

end Ast
end ProgramSearch
