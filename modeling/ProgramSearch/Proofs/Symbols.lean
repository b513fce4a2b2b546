import Mathlib.Data.List.Nodup
import ProgramSearch.Proofs.Results
import ProgramSearch.Symbols

/-!
# Symbols and their ids

A list of symbols makes a vocabulary exactly if no symbol is listed twice and the control symbols
are all there. Then symbols and ids stand for each other, and the control ids belong to the control
names.
-/
namespace ProgramSearch

namespace Control

/-- The control names, in the order in which they are looked up. -/
def names : List String := [subtreeName, stopName, branchName, loopName, exceptName]

/-- The control ids, in the order of the names. -/
def ids (c : Control) : List Nat := [c.subtree, c.stop, c.branch, c.loop, c.except]

end Control

namespace SymbolIndex

/-- The index leads from each symbol to its position, and from nothing else to an id. -/
def Inverts (index : SymbolIndex) (symbols : List String) : Prop :=
  ∀ s id, index.lookup s = some id ↔ symbols[id]? = some s

variable {index next : SymbolIndex} {symbols done : List String} {s name : String} {id : Nat}
  {failure : Failure}

theorem getElem?_concat_eq_some_iff {x : String} :
    (done ++ [s])[id]? = some x ↔ done[id]? = some x ∨ id = done.length ∧ x = s := by
  grind

namespace Inverts

theorem empty : Inverts [] [] := fun s id => by simp

/-- A symbol at two positions would have two ids. -/
theorem nodup (h : index.Inverts symbols) : symbols.Nodup := by
  refine List.nodup_iff_getElem?_ne_getElem?.mpr fun i j hlt hj heq => ?_
  have hlast : index.lookup symbols[j] = some j := (h _ _).mpr (List.getElem?_eq_getElem hj)
  have hfirst : index.lookup symbols[j] = some i :=
    (h _ _).mpr (heq.trans (List.getElem?_eq_getElem hj))
  exact absurd (Option.some.inj (hfirst.symm.trans hlast)) (Nat.ne_of_lt hlt)

theorem lookup_eq_none_iff (h : index.Inverts symbols) : index.lookup s = none ↔ s ∉ symbols := by
  rw [Option.eq_none_iff_forall_ne_some, List.mem_iff_getElem?, not_exists]
  exact forall_congr' fun id => not_congr (h s id)

/-- A new symbol takes the position behind the others. -/
theorem enter (h : index.Inverts done) (hstep : index.enter (s, done.length) = .ok next) :
    next.Inverts (done ++ [s]) := by
  unfold SymbolIndex.enter at hstep
  split at hstep
  · contradiction
  · next hfresh =>
    obtain rfl := Except.ok.inj hstep
    intro x id
    rw [getElem?_concat_eq_some_iff, ← h x id, List.lookup_cons]
    by_cases hx : x = s
    · obtain rfl := hx
      simp [hfresh, eq_comm]
    · rw [beq_false_of_ne hx]
      simp [hx]

/-- Only a symbol that is listed already is refused. -/
theorem mem_of_enter (h : index.Inverts done) (hstep : index.enter (s, id) = .error failure) :
    s ∈ done ∧ failure = .vocabulary (.duplicate s) := by
  unfold SymbolIndex.enter at hstep
  split at hstep
  · next i hi =>
    exact ⟨List.mem_of_getElem? ((h s i).mp hi), (Except.error.inj hstep).symm⟩
  · contradiction

/-- Symbols that are entered one after the other take the positions that follow. -/
theorem foldlM (h : index.Inverts done)
    (hrun : (symbols.zipIdx done.length).foldlM SymbolIndex.enter index = .ok next) :
    next.Inverts (done ++ symbols) := by
  induction symbols generalizing index done with
  | nil =>
    obtain rfl := Except.ok.inj hrun
    rwa [List.append_nil]
  | cons s rest ih =>
    rw [List.zipIdx_cons, List.foldlM_cons] at hrun
    obtain ⟨entered, hstep, hrun⟩ := bind_ok hrun
    -- The run goes on from an index of `done ++ [s]`, whose length is the next id.
    rw [List.append_cons]
    exact ih (h.enter hstep) (by rwa [List.length_append, List.length_singleton])

/-- A run is refused at the first symbol that was listed before. -/
theorem repeated_of_foldlM (h : index.Inverts done)
    (hrun : (symbols.zipIdx done.length).foldlM SymbolIndex.enter index = .error failure) :
    ∃ before s after, done ++ symbols = before ++ s :: after ∧ before.Nodup ∧ s ∈ before ∧
      failure = .vocabulary (.duplicate s) := by
  induction symbols generalizing index done with
  | nil => contradiction
  | cons s rest ih =>
    rw [List.zipIdx_cons, List.foldlM_cons] at hrun
    obtain hstep | ⟨entered, hstep, hrun⟩ := bind_error hrun
    · obtain ⟨again, hfailure⟩ := h.mem_of_enter hstep
      exact ⟨done, s, rest, rfl, h.nodup, again, hfailure⟩
    · rw [List.append_cons]
      exact ih (h.enter hstep) (by rwa [List.length_append, List.length_singleton])

theorem find_eq_ok_iff (h : index.Inverts symbols) :
    index.find name = .ok id ↔ symbols[id]? = some name := by
  rw [← h name id, SymbolIndex.find]
  cases index.lookup name <;> simp

theorem mem_of_find (h : index.Inverts symbols) (hfind : index.find name = .ok id) :
    name ∈ symbols :=
  List.mem_of_getElem? (h.find_eq_ok_iff.mp hfind)

theorem not_mem_of_find (h : index.Inverts symbols) (hfind : index.find name = .error failure) :
    name ∉ symbols ∧ failure = .vocabulary (.missing name) := by
  unfold SymbolIndex.find at hfind
  split at hfind
  · contradiction
  · next hnone =>
    exact ⟨h.lookup_eq_none_iff.mp hnone, (Except.error.inj hfind).symm⟩

end Inverts

theorem inverts_ofSymbols (h : ofSymbols symbols = .ok index) : index.Inverts symbols :=
  Inverts.empty.foldlM h

end SymbolIndex

namespace Vocabulary

/-- Why symbols make no vocabulary: the first that is listed again or, if there is none, the first
control symbol that is not listed. -/
inductive Refusal (symbols : List String) : Failure → Prop where
  | duplicate (before : List String) (s : String) (after : List String)
    (split : symbols = before ++ s :: after) (distinct : before.Nodup) (again : s ∈ before) :
    Refusal symbols (.vocabulary (.duplicate s))
  | missing (before : List String) (name : String) (after : List String)
    (distinct : symbols.Nodup) (split : Control.names = before ++ name :: after)
    (listed : ∀ n ∈ before, n ∈ symbols) (unlisted : name ∉ symbols) :
    Refusal symbols (.vocabulary (.missing name))

/-- The index leads back from the symbols to their ids, and the control ids belong to the control
names. -/
structure Controlled (v : Vocabulary) : Prop where
  inverts : v.index.Inverts v.symbols
  subtree : v.symbol? v.control.subtree = some Control.subtreeName
  stop : v.symbol? v.control.stop = some Control.stopName
  branch : v.symbol? v.control.branch = some Control.branchName
  loop : v.symbol? v.control.loop = some Control.loopName
  except : v.symbol? v.control.except = some Control.exceptName

section Making

variable {symbols : List String} {v : Vocabulary} {index : SymbolIndex} {failure : Failure}

theorem symbols_of_ofSymbols (h : ofSymbols symbols = .ok v) : v.symbols = symbols := by
  obtain ⟨index, -, h⟩ := bind_ok h
  obtain ⟨control, -, h⟩ := bind_ok h
  obtain rfl := Except.ok.inj h
  rfl

theorem controlled_of_ofSymbols (h : ofSymbols symbols = .ok v) : v.Controlled := by
  obtain ⟨index, hindex, h⟩ := bind_ok h
  obtain ⟨control, hcontrol, h⟩ := bind_ok h
  obtain rfl := Except.ok.inj h
  have hinverts := SymbolIndex.inverts_ofSymbols hindex
  obtain ⟨subtree, hsubtree, hcontrol⟩ := bind_ok hcontrol
  obtain ⟨stop, hstop, hcontrol⟩ := bind_ok hcontrol
  obtain ⟨branch, hbranch, hcontrol⟩ := bind_ok hcontrol
  obtain ⟨loop, hloop, hcontrol⟩ := bind_ok hcontrol
  obtain ⟨except, hexcept, hcontrol⟩ := bind_ok hcontrol
  obtain rfl := Except.ok.inj hcontrol
  exact ⟨hinverts, hinverts.find_eq_ok_iff.mp hsubtree, hinverts.find_eq_ok_iff.mp hstop,
    hinverts.find_eq_ok_iff.mp hbranch, hinverts.find_eq_ok_iff.mp hloop,
    hinverts.find_eq_ok_iff.mp hexcept⟩

theorem refusal_of_find (h : index.Inverts symbols) (before : List String) {name : String}
    {after : List String} (split : Control.names = before ++ name :: after)
    (listed : ∀ n ∈ before, n ∈ symbols) (hfind : index.find name = .error failure) :
    Refusal symbols failure := by
  obtain ⟨unlisted, rfl⟩ := h.not_mem_of_find hfind
  exact .missing before name after h.nodup split listed unlisted

theorem refusal_of_control (h : index.Inverts symbols) (hcontrol : index.control = .error failure) :
    Refusal symbols failure := by
  obtain hfind | ⟨_, hfind, hcontrol⟩ := bind_error hcontrol
  · exact refusal_of_find h [] rfl (by simp) hfind
  have hsubtree := h.mem_of_find hfind
  obtain hfind | ⟨_, hfind, hcontrol⟩ := bind_error hcontrol
  · exact refusal_of_find h [Control.subtreeName] rfl (by simp [hsubtree]) hfind
  have hstop := h.mem_of_find hfind
  obtain hfind | ⟨_, hfind, hcontrol⟩ := bind_error hcontrol
  · exact refusal_of_find h [Control.subtreeName, Control.stopName] rfl
      (by simp [hsubtree, hstop]) hfind
  have hbranch := h.mem_of_find hfind
  obtain hfind | ⟨_, hfind, hcontrol⟩ := bind_error hcontrol
  · exact refusal_of_find h [Control.subtreeName, Control.stopName, Control.branchName] rfl
      (by simp [hsubtree, hstop, hbranch]) hfind
  have hloop := h.mem_of_find hfind
  obtain hfind | ⟨_, -, hcontrol⟩ := bind_error hcontrol
  · exact refusal_of_find h
      [Control.subtreeName, Control.stopName, Control.branchName, Control.loopName] rfl
      (by simp [hsubtree, hstop, hbranch, hloop]) hfind
  · contradiction

theorem refusal_of_ofSymbols (h : ofSymbols symbols = .error failure) : Refusal symbols failure := by
  obtain hindex | ⟨index, hindex, h⟩ := bind_error h
  · obtain ⟨before, s, after, split, distinct, again, rfl⟩ :=
      SymbolIndex.Inverts.empty.repeated_of_foldlM hindex
    exact .duplicate before s after split distinct again
  obtain hcontrol | ⟨control, -, h⟩ := bind_error h
  · exact refusal_of_control (SymbolIndex.inverts_ofSymbols hindex) hcontrol
  · contradiction

/-- A repeated symbol is reported also where control symbols are missing. -/
example : ofSymbols ["open", "STOP", "open"] = .error (.vocabulary (.duplicate "open")) := rfl

/-- If no symbol is repeated, a refusal is for a control symbol that is missing. -/
theorem Refusal.unfit (h : Refusal symbols failure) (distinct : symbols.Nodup) :
    ∃ name ∈ Control.names, name ∉ symbols := by
  cases h with
  | duplicate before s after split _ again =>
    rw [split, List.nodup_middle, List.nodup_cons] at distinct
    exact absurd (List.mem_append_left after again) distinct.1
  | missing before name after _ split _ unlisted =>
    exact ⟨name, split ▸ List.mem_append_right before List.mem_cons_self, unlisted⟩

end Making

/-- Ids of different names differ. -/
theorem id_ne_of_name_ne {v : Vocabulary} {a b : Nat} {x y : String}
    (ha : v.symbol? a = some x) (hb : v.symbol? b = some y) (h : x ≠ y) : a ≠ b := by
  rintro rfl
  exact h (Option.some.inj (ha.symm.trans hb))

theorem lt_size_of_symbol? {v : Vocabulary} {id : Nat} {name : String}
    (h : v.symbol? id = some name) : id < v.size :=
  (List.getElem?_eq_some_iff.mp h).1

theorem isConstruct_iff {v : Vocabulary} {id : Nat} :
    v.control.isConstruct id = true ↔
      id = v.control.branch ∨ id = v.control.loop ∨ id = v.control.except := by
  simp [Control.isConstruct, or_assoc]

namespace Controlled

variable {v : Vocabulary} {id : Nat} {s name : String}

theorem id?_eq_some_iff (hv : v.Controlled) : v.id? s = some id ↔ v.symbol? id = some s :=
  hv.inverts s id

theorem id?_of_symbol? (hv : v.Controlled) (h : id < v.size) :
    (v.symbol? id).bind v.id? = some id := by
  have hsymbol : v.symbol? id = some v.symbols[id] := List.getElem?_eq_getElem h
  rw [hsymbol, Option.bind_some, hv.id?_eq_some_iff, hsymbol]

theorem symbol?_of_id? (hv : v.Controlled) (h : s ∈ v.symbols) :
    (v.id? s).bind v.symbol? = some s := by
  obtain ⟨id, hsymbol⟩ := List.mem_iff_getElem?.mp h
  rw [hv.id?_eq_some_iff.mpr hsymbol, Option.bind_some]
  exact hsymbol

theorem map_symbol?_ids (hv : v.Controlled) :
    v.control.ids.map v.symbol? = Control.names.map some := by
  simp [Control.ids, Control.names, hv.subtree, hv.stop, hv.branch, hv.loop, hv.except]

theorem mem_symbols (hv : v.Controlled) (h : name ∈ Control.names) : name ∈ v.symbols := by
  have hmem : some name ∈ v.control.ids.map v.symbol? :=
    hv.map_symbol?_ids ▸ List.mem_map_of_mem h
  obtain ⟨id, -, hsymbol⟩ := List.mem_map.mp hmem
  exact List.mem_of_getElem? hsymbol

theorem lt_size_of_mem_ids (hv : v.Controlled) (h : id ∈ v.control.ids) : id < v.size := by
  have hmem : v.symbol? id ∈ Control.names.map some :=
    hv.map_symbol?_ids ▸ List.mem_map_of_mem h
  obtain ⟨name, -, hname⟩ := List.mem_map.mp hmem
  exact lt_size_of_symbol? hname.symm

theorem nodup_ids (hv : v.Controlled) : v.control.ids.Nodup := by
  have hnames : (Control.names.map some).Nodup := by decide
  rw [← hv.map_symbol?_ids] at hnames
  exact hnames.of_map

/-- A symbol with none of the names of constructs is no construct. -/
theorem isConstruct_eq_false (hv : v.Controlled) (h : v.symbol? id = some name)
    (hb : name ≠ Control.branchName) (hl : name ≠ Control.loopName)
    (he : name ≠ Control.exceptName) : v.control.isConstruct id = false := by
  simp [Control.isConstruct, id_ne_of_name_ne h hv.branch hb, id_ne_of_name_ne h hv.loop hl,
    id_ne_of_name_ne h hv.except he]

theorem isConstruct_stop (hv : v.Controlled) : v.control.isConstruct v.control.stop = false :=
  hv.isConstruct_eq_false hv.stop (by decide) (by decide) (by decide)

theorem isConstruct_subtree (hv : v.Controlled) :
    v.control.isConstruct v.control.subtree = false :=
  hv.isConstruct_eq_false hv.subtree (by decide) (by decide) (by decide)

theorem lt_size_of_isConstruct (hv : v.Controlled) (h : v.control.isConstruct id = true) :
    id < v.size := by
  rcases isConstruct_iff.mp h with rfl | rfl | rfl
  · exact lt_size_of_symbol? hv.branch
  · exact lt_size_of_symbol? hv.loop
  · exact lt_size_of_symbol? hv.except

end Controlled

/-- Symbols make a vocabulary exactly if none is listed twice and the control symbols are listed.
Then symbols and ids lead to each other, and nothing else leads anywhere; the control ids are those
of the control names, in range and all different, so that neither the root nor a stop opens a
construct. -/
theorem ofSymbols_bijection (symbols : List String) :
    ((∃ v, ofSymbols symbols = .ok v) ↔
      symbols.Nodup ∧ ∀ name ∈ Control.names, name ∈ symbols) ∧
    ∀ v, ofSymbols symbols = .ok v →
      v.symbols = symbols ∧
      (∀ id < v.size, (v.symbol? id).bind v.id? = some id) ∧
      (∀ id, v.size ≤ id → v.symbol? id = none) ∧
      (∀ s ∈ symbols, (v.id? s).bind v.symbol? = some s) ∧
      (∀ s, s ∉ symbols → v.id? s = none) ∧
      v.control.ids.map v.symbol? = Control.names.map some ∧
      (∀ id ∈ v.control.ids, id < v.size) ∧ v.control.ids.Nodup ∧
      v.control.isConstruct v.control.stop = false ∧
      v.control.isConstruct v.control.subtree = false := by
  refine ⟨⟨?_, fun ⟨distinct, listed⟩ => ?_⟩, fun v h => ?_⟩
  · rintro ⟨v, h⟩
    have hv := controlled_of_ofSymbols h
    rw [← symbols_of_ofSymbols h]
    exact ⟨hv.inverts.nodup, fun name => hv.mem_symbols⟩
  · cases h : ofSymbols symbols with
    | ok v => exact ⟨v, rfl⟩
    | error failure =>
      obtain ⟨name, hname, unlisted⟩ := (refusal_of_ofSymbols h).unfit distinct
      exact absurd (listed name hname) unlisted
  · have hv := controlled_of_ofSymbols h
    obtain rfl := symbols_of_ofSymbols h
    exact ⟨rfl, fun id => hv.id?_of_symbol?, fun id => List.getElem?_eq_none,
      fun s => hv.symbol?_of_id?, fun s => hv.inverts.lookup_eq_none_iff.mpr,
      hv.map_symbol?_ids, fun id => hv.lt_size_of_mem_ids, hv.nodup_ids, hv.isConstruct_stop,
      hv.isConstruct_subtree⟩

/-- The control symbols in another order and among others, one of which is empty. -/
theorem ofSymbols_bijection_of_scattered :
    ∃ v, ofSymbols ["open", "DExcept", "", "DLoop", "STOP", "DBranch", "DSubTree"] = .ok v ∧
      v.control = ⟨6, 4, 5, 3, 1⟩ ∧
      (∀ id < v.size, (v.symbol? id).bind v.id? = some id) ∧
      (∀ s ∈ v.symbols, (v.id? s).bind v.symbol? = some s) ∧
      v.control.ids.Nodup := by
  have h : ofSymbols ["open", "DExcept", "", "DLoop", "STOP", "DBranch", "DSubTree"] =
      .ok ⟨["open", "DExcept", "", "DLoop", "STOP", "DBranch", "DSubTree"],
        [("DSubTree", 6), ("DBranch", 5), ("STOP", 4), ("DLoop", 3), ("", 2), ("DExcept", 1),
          ("open", 0)], ⟨6, 4, 5, 3, 1⟩⟩ := rfl
  obtain ⟨-, hsymbol, -, hid, -, -, -, hnodup, -⟩ := (ofSymbols_bijection _).2 _ h
  exact ⟨_, h, rfl, hsymbol, hid, hnodup⟩

/-- The text of a symbol. -/
def nameOf (v : Vocabulary) (id : Nat) : String := (v.symbol? id).getD ""

theorem symbol?_eq_nameOf {v : Vocabulary} {id : Nat} (h : id < v.size) :
    v.symbol? id = some (v.nameOf id) := by
  rw [nameOf, symbol?, List.getElem?_eq_getElem h]
  rfl

/-- The control symbols and two others. -/
def small : Vocabulary :=
  ⟨["DSubTree", "STOP", "DBranch", "DLoop", "DExcept", "open", "close"],
    [("close", 6), ("open", 5), ("DExcept", 4), ("DLoop", 3), ("DBranch", 2), ("STOP", 1),
      ("DSubTree", 0)],
    ⟨0, 1, 2, 3, 4⟩⟩

end Vocabulary
end ProgramSearch
