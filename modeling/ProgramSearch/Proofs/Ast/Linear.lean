import ProgramSearch.Proofs.Ast.Reading

/-!
# Linearization

The symbols that a decoder has to emit for a program. After the symbol of a construct comes the
head of its first part, then the whole second part, then the rest of the first part; a first part
without a head starts with a stop. A candidate that is fed these symbols stops at the last one,
and its tree is read as the program.
-/
namespace ProgramSearch

namespace Vocabulary

/-- The id of a name. -/
def idOf (v : Vocabulary) (name : String) : Nat := (v.id? name).getD 0

/-- Whether a name is a symbol that stands for a call. -/
def isCallName (v : Vocabulary) (name : String) : Bool :=
  v.symbols.contains name && name != Control.stopName && name != Control.branchName &&
    name != Control.loopName && name != Control.exceptName

/-- The id of the name of a call, with what sets it apart. -/
theorem Controlled.idOf_call {v : Vocabulary} (hv : v.Controlled) {name : String}
    (h : v.isCallName name = true) :
    v.idOf name < v.size ∧ v.nameOf (v.idOf name) = name ∧ v.idOf name ≠ v.control.stop ∧
      v.control.isConstruct (v.idOf name) = false := by
  simp only [isCallName, Bool.and_eq_true, bne_iff_ne, List.contains_iff_mem] at h
  obtain ⟨⟨⟨⟨hmem, hs⟩, hb⟩, hl⟩, he⟩ := h
  obtain ⟨id, hname⟩ : ∃ id, v.symbol? id = some name := List.mem_iff_getElem?.mp hmem
  have hid : v.id? name = some id := hv.id?_eq_some_iff.mpr hname
  rw [idOf, hid, Option.getD_some]
  refine ⟨(List.getElem?_eq_some_iff.mp hname).1, ?_, id_ne_of_name_ne hname hv.stop hs,
    hv.isConstruct_eq_false hname hb hl he⟩
  rw [nameOf, hname]
  rfl

end Vocabulary

namespace Ast

mutual

/-- The symbols of a node of a chain. -/
def linear (v : Vocabulary) : Ast → List Nat
  | subtree nodes => linearChain v nodes
  | call name => [v.idOf name]
  | branch _ yes no =>
    v.control.branch :: (linearHead v yes ++ (linearChain v no ++ linearTail v yes))
  | except body handler =>
    v.control.except :: (linearHead v body ++ (linearChain v handler ++ linearTail v body))
  | loop condition body =>
    v.control.loop :: (linearHead v condition ++ (linearChain v body ++ linearTail v condition))

/-- The symbols of a chain. -/
def linearChain (v : Vocabulary) : List Ast → List Nat
  | [] => [v.control.stop]
  | node :: rest => node.linear v ++ linearChain v rest

/-- What comes right after a construct with this first part. -/
def linearHead (v : Vocabulary) : List Ast → List Nat
  | [] => [v.control.stop]
  | node :: _ => node.linear v

/-- What comes after the second part of a construct with this first part. -/
def linearTail (v : Vocabulary) : List Ast → List Nat
  | [] => [v.control.stop]
  | _ :: rest => linearChain v rest

end

/-- A first part that a decoder can emit is empty or begins with a call. -/
def startsWithCall : List Ast → Bool
  | [] => true
  | call _ :: _ => true
  | _ => false

mutual

/-- A node that a decoder can emit: a call, or a construct whose first part starts with a call. -/
def isRegular (v : Vocabulary) : Ast → Bool
  | subtree _ => false
  | call name => v.isCallName name
  | branch condition yes no =>
    condition.isEmpty && startsWithCall yes && areRegular v yes && areRegular v no
  | except body handler => startsWithCall body && areRegular v body && areRegular v handler
  | loop condition body => startsWithCall condition && areRegular v condition && areRegular v body

def areRegular (v : Vocabulary) : List Ast → Bool
  | [] => true
  | node :: rest => node.isRegular v && areRegular v rest

end

/-- An outline that has the symbols and is read as the nodes. -/
structure Outlines (v : Vocabulary) (o : Outline) (symbols : List Nat) (nodes : List Ast) :
    Prop where
  fits : o.Fits v.control false
  known : ∀ s ∈ o.symbols v.control, s < v.size
  symbols_eq : o.symbols v.control = symbols
  chain_eq : o.chain v = nodes

/-- The head of a first part, as the symbol below the construct. If it is a stop, it cuts the
chain that it stands in. -/
theorem exists_head {v : Vocabulary} (hv : v.Controlled) {first : List Ast}
    (hfirst : startsWithCall first = true) (hregular : areRegular v first = true) :
    ∃ h, linearHead v first = [h] ∧ h < v.size ∧ v.control.isConstruct h = false ∧
      ∀ a b, (if h = v.control.stop then [] else head v h a b :: first.tail) = first := by
  cases first with
  | nil =>
    exact ⟨v.control.stop, rfl, Vocabulary.lt_size_of_symbol? hv.stop, hv.isConstruct_stop,
      fun a b => if_pos rfl⟩
  | cons node rest =>
    cases node with
    | call name =>
      simp only [areRegular, isRegular, Bool.and_eq_true] at hregular
      obtain ⟨hlt, hname, hstop, hc⟩ := hv.idOf_call hregular.1
      refine ⟨v.idOf name, rfl, hlt, hc, fun a b => ?_⟩
      rw [if_neg hstop, head_of_call hc, hname, List.tail_cons]
    | _ => contradiction

namespace Outlines

variable {v : Vocabulary} {o : Outline} {symbols : List Nat} {nodes : List Ast}

theorem nil (hv : v.Controlled) : Outlines v .stop [v.control.stop] [] := by
  refine ⟨rfl, ?_, rfl, rfl⟩
  intro s hs
  rw [List.mem_singleton.mp hs]
  exact Vocabulary.lt_size_of_symbol? hv.stop

/-- A call in front. -/
theorem call (hv : v.Controlled) (h : Outlines v o symbols nodes) {name : String}
    (hname : v.isCallName name = true) :
    Outlines v (.flat (v.idOf name) o) (v.idOf name :: symbols) (.call name :: nodes) := by
  obtain ⟨hlt, hnameOf, hstop, hc⟩ := hv.idOf_call hname
  refine ⟨⟨rfl, hc, hstop, h.fits⟩, ?_, ?_, ?_⟩
  · intro x hx
    rcases List.mem_cons.mp hx with rfl | hx
    · exact hlt
    · exact h.known x hx
  · rw [Outline.symbols, h.symbols_eq]
  · rw [Outline.chain, h.chain_eq, hnameOf]

/-- A construct in front. The outlines `second` and `tail` are those of its second part and of the
rest of its first part. -/
theorem construct (hv : v.Controlled) (h : Outlines v o symbols nodes) {s : Nat}
    (hs : v.control.isConstruct s = true) {first : List Ast} (hfirst : startsWithCall first = true)
    (hregular : areRegular v first = true) {second tail : Outline} {secondNodes : List Ast}
    (hsecond : Outlines v second (linearChain v secondNodes) secondNodes)
    (htail : Outlines v tail (linearTail v first) first.tail) :
    ∃ o', Outlines v o' (s :: (linearHead v first ++ (linearChain v secondNodes ++
      linearTail v first)) ++ symbols) (head v s first secondNodes :: nodes) := by
  obtain ⟨c, hhead, hlt, hc, hcut⟩ := exists_head hv hfirst hregular
  have hstop : s ≠ v.control.stop := by
    rintro rfl
    rw [hv.isConstruct_stop] at hs
    contradiction
  have hsecondFits := hsecond.fits
  rw [← hc] at hsecondFits
  refine ⟨.nest s (.nest c second tail) o, ?_, ?_, ?_, ?_⟩
  · exact ⟨hs, by rw [hs]; exact ⟨rfl, hsecondFits, htail.fits⟩, h.fits⟩
  · intro x hx
    simp only [Outline.symbols, List.mem_cons, List.mem_append] at hx
    rcases hx with rfl | (rfl | hx | hx) | hx
    · exact hv.lt_size_of_isConstruct hs
    · exact hlt
    · exact hsecond.known x hx
    · exact htail.known x hx
    · exact h.known x hx
  · simp only [Outline.symbols, hsecond.symbols_eq, htail.symbols_eq, h.symbols_eq, hhead]
    simp
  · simp only [Outline.chain, Outline.under, if_neg hstop, hsecond.chain_eq, htail.chain_eq,
      h.chain_eq, hcut]

end Outlines

variable {v : Vocabulary}

mutual

/-- A regular node in front of a chain that has an outline. -/
theorem exists_outlines_cons (hv : v.Controlled) (node : Ast) (hnode : node.isRegular v = true)
    {o : Outline} {symbols : List Nat} {nodes : List Ast} (h : Outlines v o symbols nodes) :
    ∃ o', Outlines v o' (node.linear v ++ symbols) (node :: nodes) := by
  cases node with
  | subtree _ => contradiction
  | call name => exact ⟨_, h.call hv hnode⟩
  | branch condition yes no =>
    simp only [isRegular, Bool.and_eq_true, List.isEmpty_iff] at hnode
    obtain ⟨⟨⟨rfl, hfirst⟩, hyes⟩, hno⟩ := hnode
    obtain ⟨tail, htail⟩ := exists_outlines_tail hv yes hyes
    obtain ⟨second, hsecond⟩ := exists_outlines hv no hno
    rw [linear, ← head_branch]
    exact h.construct hv (by simp [Control.isConstruct]) hfirst hyes hsecond htail
  | except body handler =>
    simp only [isRegular, Bool.and_eq_true] at hnode
    obtain ⟨⟨hfirst, hbody⟩, hhandler⟩ := hnode
    obtain ⟨tail, htail⟩ := exists_outlines_tail hv body hbody
    obtain ⟨second, hsecond⟩ := exists_outlines hv handler hhandler
    rw [linear, ← head_except hv]
    exact h.construct hv (by simp [Control.isConstruct]) hfirst hbody hsecond htail
  | loop condition body =>
    simp only [isRegular, Bool.and_eq_true] at hnode
    obtain ⟨⟨hfirst, hcondition⟩, hbody⟩ := hnode
    obtain ⟨tail, htail⟩ := exists_outlines_tail hv condition hcondition
    obtain ⟨second, hsecond⟩ := exists_outlines hv body hbody
    rw [linear, ← head_loop hv]
    exact h.construct hv (by simp [Control.isConstruct]) hfirst hcondition hsecond htail

theorem exists_outlines (hv : v.Controlled) (nodes : List Ast) (h : areRegular v nodes = true) :
    ∃ o, Outlines v o (linearChain v nodes) nodes := by
  cases nodes with
  | nil => exact ⟨_, .nil hv⟩
  | cons node rest =>
    rw [areRegular, Bool.and_eq_true] at h
    obtain ⟨o, ho⟩ := exists_outlines hv rest h.2
    exact exists_outlines_cons hv node h.1 ho

theorem exists_outlines_tail (hv : v.Controlled) (nodes : List Ast)
    (h : areRegular v nodes = true) : ∃ o, Outlines v o (linearTail v nodes) nodes.tail := by
  cases nodes with
  | nil => exact ⟨_, .nil hv⟩
  | cons node rest =>
    rw [areRegular, Bool.and_eq_true] at h
    exact exists_outlines hv rest h.2

end

/-- A candidate that is fed the linearization of a regular program stops at the last symbol with
no open node, and its tree is read as that program. -/
theorem ofTree_linearChain {σ : Type} (state : σ) (logProb : Float32) {names : List String}
    (accepted : Vocabulary.ofSymbols names = .ok v) {nodes : List Ast}
    (regular : areRegular v nodes = true) :
    (Candidate.start v.control state logProb).StopsAtLast v.control (linearChain v nodes) ∧
      ((Candidate.start v.control state logProb).growAll v.control
        (linearChain v nodes)).open_ = [] ∧
      ofTree v ((Candidate.start v.control state logProb).growAll v.control
        (linearChain v nodes)).tree = .ok (subtree nodes) := by
  have hv := Vocabulary.controlled_of_ofSymbols accepted
  obtain ⟨o, ho⟩ := exists_outlines hv nodes regular
  have hstops := (Candidate.start_stopsAtLast_iff state logProb hv.isConstruct_stop _).mpr
    ⟨o, ho.fits, rfl⟩
  have hopen := Candidate.start_growAll_open state logProb hv.isConstruct_stop ho.fits
  have htree := ofTree_growAll state logProb hv ho.fits ho.known
  rw [ho.symbols_eq] at hstops hopen htree
  rw [ho.chain_eq] at htree
  exact ⟨hstops, hopen, htree⟩

/-- A loop with a branch in its condition, whose first part is empty, and a body. -/
theorem ofTree_linearChain_of_loop :
    (Candidate.start Vocabulary.small.control () 0).StopsAtLast Vocabulary.small.control
        [5, 3, 5, 4, 6, 1, 1, 1, 2, 1, 6, 1, 1, 1, 1] ∧
      ((Candidate.start Vocabulary.small.control () 0).growAll Vocabulary.small.control
        [5, 3, 5, 4, 6, 1, 1, 1, 2, 1, 6, 1, 1, 1, 1]).open_ = [] ∧
      ofTree .small ((Candidate.start Vocabulary.small.control () 0).growAll
        Vocabulary.small.control [5, 3, 5, 4, 6, 1, 1, 1, 2, 1, 6, 1, 1, 1, 1]).tree =
          .ok (subtree [call "open", loop [call "open", branch [] [] [call "close"]]
            [except [call "close"] []]]) := by
  have accepted : Vocabulary.ofSymbols Vocabulary.small.symbols = .ok .small := rfl
  have regular : areRegular .small [call "open", loop [call "open", branch [] [] [call "close"]]
      [except [call "close"] []]] = true := by decide
  exact ofTree_linearChain () 0 accepted regular

end Ast
end ProgramSearch
