import Mathlib.Data.List.Perm.Basic
import ProgramSearch.Ast.Json
import ProgramSearch.Evaluation.Desired
import ProgramSearch.Proofs.Json.Contents
import ProgramSearch.Proofs.Json.Written

/-!
# Syntax trees come back from their JSON

A tree is read from its own value, and from any text of it that nests no deeper than values may be
read, whatever the order of the members. So its value tells the tree.
-/
namespace ProgramSearch.Ast

open Json

section Keys

variable {α : Type} {entries others : List (String × α)} {key : String} {a : α}

theorem lookup_eq_some_iff_mem (distinct : (entries.map (·.1)).Nodup) :
    entries.lookup key = some a ↔ (key, a) ∈ entries := by
  rw [List.lookup_eq_some_iff]
  constructor
  · rintro ⟨front, back, rfl, -⟩
    simp
  · intro hmem
    obtain ⟨front, back, rfl⟩ := List.append_of_mem hmem
    rw [List.map_append, List.map_cons, List.nodup_middle, List.nodup_cons, List.mem_append]
      at distinct
    refine ⟨front, back, rfl, fun entry hentry => bne_iff_ne.mpr fun heq => ?_⟩
    exact distinct.1 (.inl (List.mem_map.mpr ⟨entry, hentry, heq.symm⟩))

theorem lookup_of_perm (perm : entries.Perm others) (distinct : (entries.map (·.1)).Nodup)
    (key : String) : entries.lookup key = others.lookup key := by
  ext a
  rw [lookup_eq_some_iff_mem distinct,
    lookup_eq_some_iff_mem ((perm.map (·.1)).nodup_iff.mp distinct), perm.mem_iff]

end Keys

/-! ### Kinds -/

namespace Kind

theorem ofName_name (kind : Kind) : ofName kind.name = .ok kind := by
  cases kind <;> rfl

/-- The members of a node have different names. -/
theorem nodup_tag_fields (kind : Kind) : (tag :: kind.fields).Nodup := by
  cases kind <;> decide

end Kind

section Kinds

variable {α : Type} {kindOf : α → Except Fault Kind} {content : α → Except Fault Value}
  {docs : List (Except Fault String × α)} {members : List (String × Value)}

/-- What a member was read as. -/
def ReadAs (content : α → Except Fault Value) (d : Except Fault String × α)
    (m : String × Value) : Prop := d.1 = .ok m.1 ∧ content d.2 = .ok m.2

theorem splitKind_of_untagged (h : List.Forall₂ (ReadAs content) docs members)
    (untagged : ∀ m ∈ members, m.1 ≠ Kind.tag) (kind : Option Kind)
    (others : List (String × Value)) :
    splitKind kindOf content kind others docs = .ok (kind, others.reverse ++ members) := by
  induction h generalizing others with
  | nil => rw [splitKind, List.append_nil]
  | @cons d m _ _ head _ ih =>
    obtain ⟨key, a⟩ := d
    obtain ⟨rfl, hcontent⟩ := head
    obtain ⟨hm, hrest⟩ := List.forall_mem_cons.mp untagged
    rw [splitKind, ok_bind, if_neg (mt eq_of_beq hm), hcontent, ok_bind, ih hrest,
      List.reverse_cons, List.append_assoc]
    rfl

/-- The kind is found wherever it stands, and the other members keep their order. -/
theorem splitKind_of_tagged {kind : Kind} (h : List.Forall₂ (ReadAs content) docs members)
    (names : ∀ a, content a = .ok (.string kind.name) → kindOf a = .ok kind)
    (distinct : (members.map (·.1)).Nodup) (tagged : (Kind.tag, .string kind.name) ∈ members)
    (others : List (String × Value)) :
    splitKind kindOf content none others docs =
      .ok (some kind, others.reverse ++ members.filter (·.1 != Kind.tag)) := by
  induction h generalizing others with
  | nil => contradiction
  | @cons d m docs members head hrest ih =>
    obtain ⟨key, a⟩ := d
    obtain ⟨rfl, hcontent⟩ := head
    rw [List.map_cons, List.nodup_cons] at distinct
    rw [splitKind, ok_bind]
    by_cases hm : m.1 = Kind.tag
    · have huntagged : ∀ m' ∈ members, m'.1 ≠ Kind.tag := fun m' hm' heq =>
        distinct.1 (hm.trans heq.symm ▸ List.mem_map_of_mem hm')
      have hvalue : m.2 = .string kind.name := by
        rcases List.mem_cons.mp tagged with rfl | hmem
        · rfl
        · exact absurd rfl (huntagged _ hmem)
      have hfilter : (m :: members).filter (·.1 != Kind.tag) = members := by
        rw [List.filter_cons_of_neg (by simp [hm]), List.filter_eq_self]
        exact fun m' hm' => bne_iff_ne.mpr (huntagged m' hm')
      rw [if_pos (beq_iff_eq.mpr hm), Option.isSome_none, if_neg Bool.false_ne_true,
        names a (hvalue ▸ hcontent), ok_bind, splitKind_of_untagged hrest huntagged, hfilter]
    · have hmem : (Kind.tag, .string kind.name) ∈ members := by
        rcases List.mem_cons.mp tagged with rfl | hmem
        · exact absurd rfl hm
        · exact hmem
      have hfilter : (m :: members).filter (·.1 != Kind.tag) =
          m :: members.filter (·.1 != Kind.tag) :=
        List.filter_cons_of_pos (bne_iff_ne.mpr hm)
      rw [if_neg (mt eq_of_beq hm), hcontent, ok_bind, ih distinct.2 hmem, List.reverse_cons,
        List.append_assoc, hfilter]
      rfl

/-- Where the kind was split off, each member was read, as the kind or as a part. -/
theorem forall_of_splitKind {P : α → Prop} (ofKind : ∀ a kind, kindOf a = .ok kind → P a)
    (ofContent : ∀ a v, content a = .ok v → P a) {kind : Option Kind}
    {others : List (String × Value)} {result : Option Kind × List (String × Value)}
    (h : splitKind kindOf content kind others docs = .ok result) : ∀ d ∈ docs, P d.2 := by
  induction docs generalizing kind others with
  | nil => exact fun d hd => absurd hd List.not_mem_nil
  | cons d docs ih =>
    obtain ⟨key, a⟩ := d
    rw [splitKind] at h
    obtain ⟨key, rfl, hread⟩ := bind_ok h
    rw [List.forall_mem_cons]
    split at hread
    · split at hread
      · contradiction
      · obtain ⟨k, hk, hrest⟩ := bind_ok hread
        exact ⟨ofKind a k hk, ih hrest⟩
    · obtain ⟨v, hv, hrest⟩ := bind_ok hread
      exact ⟨ofContent a v hv, ih hrest⟩

theorem readAs_map {f : String × Value → Except Fault String × Value}
    (hf : ∀ m, f m = (.ok m.1, m.2)) : List.Forall₂ (ReadAs .ok) (members.map f) members := by
  rw [List.forall₂_map_left_iff, List.forall₂_same]
  intro m _
  rw [hf]
  exact ⟨rfl, rfl⟩

theorem kindOfMembers_of_tagged {kind : Kind} (inner : Bool)
    (distinct : (members.map (·.1)).Nodup) (tagged : (Kind.tag, .string kind.name) ∈ members) :
    kindOfMembers inner members = .ok kind := by
  have hnames (v : Value) (hv : (.ok v : Except Fault Value) = .ok (.string kind.name)) :
      Kind.ofValue inner v = .ok kind := by
    rw [Except.ok.inj hv]
    exact kind.ofName_name
  rw [kindOfMembers, splitKind_of_tagged (readAs_map fun _ => rfl) hnames distinct tagged]
  rfl

end Kinds

/-! ### Parts -/

section Parts

variable {α : Type} {reader : Part → Except Fault α} {members canonical : List (String × Part)}
  {found values : List (String × α)}

/-- What the part of a member was read as. -/
def HasPart (reader : Part → Except Fault α) (m : String × Part) (value : String × α) : Prop :=
  m.1 = value.1 ∧ reader m.2 = .ok value.2

theorem collect_of_hasPart {names : List String}
    (h : List.Forall₂ (HasPart reader) members values) (named : ∀ value ∈ values, value.1 ∈ names)
    (distinct : ((found ++ values).map (·.1)).Nodup) :
    collect names reader found members = .ok (found ++ values) := by
  induction h generalizing found with
  | nil => rw [collect, List.append_nil]
  | @cons m value _ values head _ ih =>
    obtain ⟨key, part⟩ := m
    obtain ⟨rfl, hread⟩ := head
    obtain ⟨hvalue, hvalues⟩ := List.forall_mem_cons.mp named
    have hfresh : (found.lookup value.1).isSome = false := by
      rw [Option.isSome_eq_false_iff, Option.isNone_iff_eq_none, List.lookup_eq_none_iff]
      rw [List.map_append, List.map_cons, List.nodup_middle, List.nodup_cons] at distinct
      intro entry hentry
      rw [bne_iff_ne]
      exact fun heq => distinct.1 (heq ▸ List.mem_append_left _ (List.mem_map_of_mem hentry))
    rw [collect, if_pos (List.contains_iff_mem.mpr hvalue), if_neg (by simp [hfresh]), hread,
      ok_bind, ih hvalues (by simpa using distinct), List.append_assoc]
    rfl

/-- The parts of a node are found under their names, whatever their order. -/
theorem exists_read_named {kind : Kind} (perm : members.Perm canonical)
    (h : List.Forall₂ (HasPart reader) canonical values)
    (keys : values.map (·.1) = kind.fields) :
    ∃ found, (Parts.named members).read kind reader = .ok found ∧
      ∀ name, found.lookup name = values.lookup name := by
  obtain ⟨found, hfound, hperm⟩ := List.perm_comp_forall₂ perm h
  have hkeys : (found.map (·.1)).Perm kind.fields := keys ▸ hperm.map (·.1)
  have hdistinct : (found.map (·.1)).Nodup :=
    hkeys.nodup_iff.mpr (List.nodup_cons.mp kind.nodup_tag_fields).2
  refine ⟨found, ?_, lookup_of_perm hperm hdistinct⟩
  exact collect_of_hasPart hfound
    (fun value hvalue => hkeys.mem_iff.mp (List.mem_map_of_mem hvalue)) hdistinct

end Parts

/-! ### Trees and their values -/

section Values

variable {inner : Bool} {kind : Kind} {members parts : List (String × Value)}

/-- A member as it is handed to the reader of a node. -/
def partOf (m : String × Value) : String × Part := (m.1, ⟨m.2, nodesOfValue m.2⟩)

theorem partsOfMembers_eq (members : List (String × Value)) :
    partsOfMembers members = members.map partOf := by
  induction members with
  | nil => rw [partsOfMembers, List.map_nil]
  | cons m rest ih => rw [partsOfMembers, ih, List.map_cons, partOf]

/-- A node is read from its kind and the other members. -/
theorem ofValue_object (hkind : kindOfMembers inner members = .ok kind) :
    ofValue inner (.object members) =
      assemble kind (.named (partsOfMembers (members.filter (·.1 != Kind.tag)))) := by
  rw [ofValue, hkind, ok_bind, partsOfMembers_eq, partsOfMembers_eq, List.filter_map]
  rfl

/-- The members of a node of some kind, in any order. -/
structure IsNode (kind : Kind) (parts members : List (String × Value)) : Prop where
  perm : members.Perm ((Kind.tag, .string kind.name) :: parts)
  keys : parts.map (·.1) = kind.fields

namespace IsNode

variable (h : IsNode kind parts members)
include h

theorem distinct : (members.map (·.1)).Nodup := by
  rw [(h.perm.map (·.1)).nodup_iff, List.map_cons, h.keys]
  exact kind.nodup_tag_fields

theorem tagged : (Kind.tag, .string kind.name) ∈ members :=
  h.perm.mem_iff.mpr List.mem_cons_self

theorem others_perm : (members.filter (·.1 != Kind.tag)).Perm parts := by
  have hfilter : ((Kind.tag, Value.string kind.name) :: parts).filter (·.1 != Kind.tag) =
      parts := by
    rw [List.filter_cons_of_neg (by simp), List.filter_eq_self]
    intro m hm
    rw [bne_iff_ne]
    have hfield : m.1 ∈ kind.fields := h.keys ▸ List.mem_map_of_mem hm
    exact fun heq => (List.nodup_cons.mp kind.nodup_tag_fields).1 (heq ▸ hfield)
  rw [← hfilter]
  exact h.perm.filter _

theorem ofValue_eq (inner : Bool) :
    ofValue inner (.object members) =
      assemble kind (.named (partsOfMembers (members.filter (·.1 != Kind.tag)))) :=
  ofValue_object (kindOfMembers_of_tagged inner h.distinct h.tagged)

/-- Each part is found under its name. -/
theorem exists_read {α : Type} {reader : Part → Except Fault α} {values : List (String × α)}
    (hparts : List.Forall₂ (HasPart reader) (parts.map partOf) values)
    (hkeys : values.map (·.1) = kind.fields) :
    ∃ found, (Parts.named (partsOfMembers (members.filter (·.1 != Kind.tag)))).read kind reader =
        .ok found ∧ ∀ name, found.lookup name = values.lookup name := by
  rw [partsOfMembers_eq]
  exact exists_read_named (h.others_perm.map partOf) hparts hkeys

end IsNode

theorem isNode_of_reordered {canonical : List (String × Value)} {v : Value}
    (h : v.Reordered (.object ((Kind.tag, .string kind.name) :: canonical)))
    (keys : canonical.map (·.1) = kind.fields) :
    ∃ parts members, v = .object members ∧ IsNode kind parts members ∧
      ReorderedMembers parts canonical := by
  cases h with
  | object perm each =>
    cases each with
    | cons head tail =>
      cases head
      exact ⟨_, _, rfl, ⟨perm, tail.keys.trans keys⟩, tail⟩

theorem nodesOfValue_array {items : List Value} {nodes : List Ast}
    (h : nodesOfItems items = .ok nodes) : nodesOfValue (.array items) = .ok nodes := by
  rw [nodesOfValue, h]

/-- The members of a node that hold lists of nodes. -/
def listMembers (named : List (String × List Ast)) : List (String × Value) :=
  named.map fun p => (p.1, .array (jsonOf p.2))

theorem keys_listMembers (named : List (String × List Ast)) :
    (listMembers named).map (·.1) = named.map (·.1) := by
  rw [listMembers, List.map_map]
  rfl

/-- Nodes that are read from their values, whatever the order of the members. -/
def Readable (nodes : List Ast) : Prop :=
  ∀ items, ReorderedItems items (jsonOf nodes) → nodesOfItems items = .ok nodes

theorem hasPart_of_reordered {named : List (String × List Ast)}
    (each : ReorderedMembers parts (listMembers named)) (readable : ∀ p ∈ named, Readable p.2) :
    List.Forall₂ (HasPart (·.nodes)) (parts.map partOf) named := by
  induction named generalizing parts with
  | nil =>
    cases each
    exact .nil
  | cons p named ih =>
    obtain ⟨hp, hnamed⟩ := List.forall_mem_cons.mp readable
    cases each with
    | cons head tail =>
      cases head with
      | array items => exact .cons ⟨rfl, nodesOfValue_array (hp _ items)⟩ (ih tail hnamed)

/-- A node whose parts are lists of nodes is put together from these lists. -/
theorem exists_read_of_reordered {named : List (String × List Ast)} {v : Value}
    (h : v.Reordered (.object ((Kind.tag, .string kind.name) :: listMembers named)))
    (keys : named.map (·.1) = kind.fields) (readable : ∀ p ∈ named, Readable p.2) (inner : Bool) :
    ∃ (parts : Parts) (found : List (String × List Ast)),
      ofValue inner v = assemble kind parts ∧ parts.read kind (·.nodes) = .ok found ∧
        ∀ name, found.lookup name = named.lookup name := by
  obtain ⟨parts, members, rfl, hnode, each⟩ :=
    isNode_of_reordered h ((keys_listMembers named).trans keys)
  obtain ⟨found, hfound, hlookup⟩ := hnode.exists_read (hasPart_of_reordered each readable) keys
  exact ⟨_, found, hnode.ofValue_eq inner, hfound, hlookup⟩

theorem ofValue_call {name : String} {v : Value} (h : v.Reordered (call name).json)
    (inner : Bool) : ofValue inner v = .ok (call name) := by
  have hmembers : v.Reordered (.object ((Kind.tag, .string Kind.call.name) ::
    [("_call", .string name)])) := h
  obtain ⟨parts, members, rfl, hnode, each⟩ := isNode_of_reordered hmembers rfl
  have hparts : List.Forall₂ (HasPart (·.value.text)) (parts.map partOf) [("_call", name)] := by
    cases each with
    | cons head tail =>
      cases head
      cases tail
      exact .cons ⟨rfl, rfl⟩ .nil
  obtain ⟨found, hfound, hlookup⟩ := hnode.exists_read hparts rfl
  rw [hnode.ofValue_eq, assemble, hfound, ok_bind, hlookup]
  rfl

mutual

/-- A tree is read from its value, whatever the order of the members. -/
theorem ofValue_of_reordered : ∀ (a : Ast) (inner : Bool) {v : Value}, v.Reordered a.json →
    ofValue inner v = .ok a
  | subtree nodes, inner, v, h => by
    have hmembers : v.Reordered (.object ((Kind.tag, .string Kind.subtree.name) ::
      listMembers [("_nodes", nodes)])) := h
    have hnodes : Readable nodes := fun _ => nodesOfItems_of_reordered nodes
    obtain ⟨parts, found, hvalue, hfound, hlookup⟩ :=
      exists_read_of_reordered hmembers rfl (by simp [hnodes]) inner
    rw [hvalue, assemble, hfound, ok_bind, hlookup]
    rfl
  | call name, inner, v, h => ofValue_call h inner
  | branch condition yes no, inner, v, h => by
    have hmembers : v.Reordered (.object ((Kind.tag, .string Kind.branch.name) ::
      listMembers [("_cond", condition), ("_then", yes), ("_else", no)])) := h
    have hcondition : Readable condition := fun _ => nodesOfItems_of_reordered condition
    have hyes : Readable yes := fun _ => nodesOfItems_of_reordered yes
    have hno : Readable no := fun _ => nodesOfItems_of_reordered no
    obtain ⟨parts, found, hvalue, hfound, hlookup⟩ :=
      exists_read_of_reordered hmembers rfl (by simp [hcondition, hyes, hno]) inner
    rw [hvalue, assemble, hfound, ok_bind, hlookup, hlookup, hlookup]
    rfl
  | except body handler, inner, v, h => by
    have hmembers : v.Reordered (.object ((Kind.tag, .string Kind.except.name) ::
      listMembers [("_try", body), ("_catch", handler)])) := h
    have hbody : Readable body := fun _ => nodesOfItems_of_reordered body
    have hhandler : Readable handler := fun _ => nodesOfItems_of_reordered handler
    obtain ⟨parts, found, hvalue, hfound, hlookup⟩ :=
      exists_read_of_reordered hmembers rfl (by simp [hbody, hhandler]) inner
    rw [hvalue, assemble, hfound, ok_bind, hlookup, hlookup]
    rfl
  | loop condition body, inner, v, h => by
    have hmembers : v.Reordered (.object ((Kind.tag, .string Kind.loop.name) ::
      listMembers [("_cond", condition), ("_body", body)])) := h
    have hcondition : Readable condition := fun _ => nodesOfItems_of_reordered condition
    have hbody : Readable body := fun _ => nodesOfItems_of_reordered body
    obtain ⟨parts, found, hvalue, hfound, hlookup⟩ :=
      exists_read_of_reordered hmembers rfl (by simp [hcondition, hbody]) inner
    rw [hvalue, assemble, hfound, ok_bind, hlookup, hlookup]
    rfl

theorem nodesOfItems_of_reordered : ∀ (nodes : List Ast) {items : List Value},
    ReorderedItems items (jsonOf nodes) → nodesOfItems items = .ok nodes
  | [], _, .nil => rfl
  | a :: nodes, _, .cons head tail => by
    rw [nodesOfItems, ofValue_of_reordered a true head, ok_bind,
      nodesOfItems_of_reordered nodes tail]
    rfl

end

theorem exists_json (a : Ast) : ∃ (kind : Kind) (parts : List (String × Value)),
    a.json = .object ((Kind.tag, .string kind.name) :: parts) ∧
      parts.map (·.1) = kind.fields := by
  cases a with
  | subtree nodes => exact ⟨.subtree, _, rfl, rfl⟩
  | call name => exact ⟨.call, _, rfl, rfl⟩
  | branch condition yes no => exact ⟨.branch, _, rfl, rfl⟩
  | except body handler => exact ⟨.except, _, rfl, rfl⟩
  | loop condition body => exact ⟨.loop, _, rfl, rfl⟩

mutual

theorem plain_json : ∀ a : Ast, a.json.Plain
  | subtree nodes => ⟨Kind.subtree.nodup_tag_fields, trivial, plain_jsonOf nodes, trivial⟩
  | call _ => ⟨Kind.call.nodup_tag_fields, trivial, trivial, trivial⟩
  | branch condition yes no => ⟨Kind.branch.nodup_tag_fields, trivial, plain_jsonOf condition,
      plain_jsonOf yes, plain_jsonOf no, trivial⟩
  | except body handler => ⟨Kind.except.nodup_tag_fields, trivial, plain_jsonOf body,
      plain_jsonOf handler, trivial⟩
  | loop condition body => ⟨Kind.loop.nodup_tag_fields, trivial, plain_jsonOf condition,
      plain_jsonOf body, trivial⟩

theorem plain_jsonOf : ∀ nodes : List Ast, PlainItems (jsonOf nodes)
  | [] => trivial
  | a :: nodes => ⟨plain_json a, plain_jsonOf nodes⟩

end

end Values

/-! ### Texts of trees -/

section Texts

variable {kind : Kind} {members parts : List (String × Value)}
  {docs : List (Except Fault String × Doc)}

/-- The members of a node are read from a document as they are from its value. -/
theorem readMembers_eq (hnode : IsNode kind parts members)
    (h : contentMembers (maxDepth - 1) docs = .ok members) :
    readMembers docs none = ofValue false (.object members) := by
  have hnames (d : Doc) (hd : d.content (maxDepth - 1) = .ok (.string kind.name)) :
      d.scalar (Kind.ofValue false) = .ok kind := by
    rw [content_eq_string hd]
    exact kind.ofName_name
  have hread : List.Forall₂ (ReadAs (·.content (maxDepth - 1))) docs members :=
    forall₂_of_contentMembers h
  rw [readMembers, splitKind_of_tagged hread hnames hnode.distinct hnode.tagged, hnode.ofValue_eq]
  rfl

theorem parse_of_isTextOf {a : Ast} {v : Value} (h : v.Reordered a.json) {text : String}
    (htext : IsTextOf text v) (shallow : (Document.ofString text).root.depth ≤ maxDepth) :
    parse text = .ok a := by
  obtain ⟨kind, canonical, hjson, keys⟩ := exists_json a
  obtain ⟨parts, members, rfl, hnode, -⟩ := isNode_of_reordered (hjson ▸ h) keys
  obtain ⟨docs, left, hroot, hroom, hmembers⟩ := content_eq_object (htext.holds maxDepth shallow)
  obtain rfl : left = maxDepth - 1 := (Nat.succ.inj hroom).symm
  rw [parse, Document.decode, hroot, readDoc, readMembers_eq hnode hmembers,
    ofValue_of_reordered a false h, ok_bind, htext.complete]
  rfl

theorem depth_of_scalar {d : Doc} {kind : Kind} (h : d.scalar (Kind.ofValue false) = .ok kind) :
    d.depth = 0 := by
  cases d with
  | array items ending => contradiction
  | object docs ending => contradiction
  | _ => rfl

/-- Nothing is read from a document that nests deeper than values may. -/
theorem depth_of_readDoc {d : Doc} {a : Ast} (h : readDoc d = .ok a) : d.depth ≤ maxDepth := by
  cases d with
  | object docs ending =>
    obtain ⟨_, hsplit, -⟩ := bind_ok h
    have hshallow := forall_of_splitKind (P := fun d : Doc => d.depth ≤ maxDepth - 1)
      (fun d kind hkind => (depth_of_scalar hkind).trans_le (Nat.zero_le _))
      (fun d v hv => depth_le_of_content hv) hsplit
    exact Nat.succ_le_succ (depthMembers_le_iff.mpr hshallow)
  | array items ending =>
    cases items with
    | nil => exact Nat.le_of_ble_eq_true rfl
    | cons d rest =>
      rw [readDoc, readElements] at h
      obtain ⟨_, -, h⟩ := bind_ok h
      obtain ⟨vs, hvs, -⟩ := bind_ok h
      obtain ⟨hdepth, hroom⟩ := depth_of_contentItems (d :: rest) hvs
      rw [Doc.depth, hdepth]
      exact Nat.succ_le_succ hroom
  | _ => exact Nat.zero_le _

theorem depth_of_parse {text : String} {a : Ast} (h : parse text = .ok a) :
    (Document.ofString text).root.depth ≤ maxDepth := by
  obtain ⟨_, hread, -⟩ := bind_ok h
  exact depth_of_readDoc hread

theorem json_parse_of_isTextOf {text : String} {v : Value} (htext : IsTextOf text v)
    (shallow : (Document.ofString text).root.depth ≤ maxDepth) :
    Json.parse text = .ok v.normal := by
  have hvalue : (Document.ofString text).root.value maxDepth = .ok v.normal := by
    rw [Doc.value, htext.holds maxDepth shallow]
    rfl
  rw [Json.parse, Document.decode, hvalue, ok_bind, htext.complete]
  rfl

theorem depth_of_json_parse {text : String} {v : Value} (h : Json.parse text = .ok v) :
    (Document.ofString text).root.depth ≤ maxDepth := by
  obtain ⟨_, hvalue, -⟩ := bind_ok h
  obtain ⟨_, hcontent, -⟩ := map_ok hvalue
  exact depth_le_of_content hcontent

end Texts

/-- A tree comes back from its value in any order of the members, among them the normal form, and
from exactly those texts of such a value that nest no deeper than values may be read; the written
forms are texts of it. So two trees are equal exactly if their values are, and this is when they
match. -/
theorem read_of_reordered {a : Ast} {v : Value} (h : v.Reordered a.json) :
    (read v = .ok a ∧ read v.normal = .ok a) ∧
      (IsTextOf v.compact v ∧ IsTextOf v.pretty v) ∧
      (∀ text, IsTextOf text v →
        (parse text = .ok a ↔ (Document.ofString text).root.depth ≤ maxDepth) ∧
        (Json.parse text = .ok v.normal ↔ (Document.ofString text).root.depth ≤ maxDepth)) ∧
      ∀ (b : Ast) (w : Value), w.Reordered b.json → (a = b ↔ v.normal = w.normal) ∧
        ∀ (d : Desired) (r : Record), d.ast = some v.normal → r.labels.ast = some w.normal →
          (d.fits .ast r = true ↔ a = b) := by
  have hread : ∀ {a : Ast} {v : Value}, v.Reordered a.json → read v.normal = .ok a := by
    intro a v h
    rw [h.normal_eq a.json (plain_json a)]
    exact ofValue_of_reordered a false (a.json.normal_reordered (plain_json a))
  have hplain : v.Plain := h.plain a.json (plain_json a)
  refine ⟨⟨ofValue_of_reordered a false h, hread h⟩,
    ⟨isTextOf_laid Layout.blank_compact hplain 0, isTextOf_laid Layout.blank_pretty hplain 0⟩,
    fun text htext => ⟨⟨depth_of_parse, parse_of_isTextOf h htext⟩,
      ⟨depth_of_json_parse, json_parse_of_isTextOf htext⟩⟩, fun b w hw => ?_⟩
  have hequal : a = b ↔ v.normal = w.normal := by
    constructor
    · rintro rfl
      rw [h.normal_eq a.json (plain_json a), hw.normal_eq a.json (plain_json a)]
    · intro heq
      have hb := hread hw
      rw [← heq, hread h] at hb
      exact Except.ok.inj hb
  refine ⟨hequal, fun d r hd hr => ?_⟩
  have hnormal : w.normal.Plain := by
    have hw' := hw.plain b.json (plain_json b)
    exact (w.normal_reordered hw').plain w hw'
  rw [hequal, Desired.fits, hd, hr]
  exact (Value.same_iff hnormal).trans eq_comm

/-- A loop whose members stand in another order than they are written in. -/
theorem read_of_reordered_loop :
    let a := loop [call "next"] []
    let v := Value.object [("_body", .array []), ("node", .string "DLoop"),
      ("_cond", .array [.object [("_call", .string "next"), ("node", .string "DAPICall")]])]
    v.Reordered a.json ∧ read v = .ok a ∧ parse v.pretty = .ok a := by
  intro a v
  have hcall : (Value.object [("_call", .string "next"), ("node", .string "DAPICall")]).Reordered
      (call "next").json :=
    .object (.swap _ _ _) (.cons (.string _) (.cons (.string _) .nil))
  have hloop : v.Reordered a.json :=
    .object (List.perm_append_singleton _ _).symm (.cons (.string _)
      (.cons (.array (.cons hcall .nil)) (.cons (.array .nil) .nil)))
  obtain ⟨⟨hread, -⟩, ⟨-, hpretty⟩, hparse, -⟩ := read_of_reordered hloop
  have hdepth : (Document.ofString v.pretty).root.depth = v.depth :=
    (depth_of_content _ (hpretty.holds _ (Nat.le_refl _))).1
  have shallow : v.depth ≤ maxDepth := by decide
  exact ⟨hloop, hread, (hparse v.pretty hpretty).1.mpr (hdepth ▸ shallow)⟩

end ProgramSearch.Ast
