import Mathlib.Tactic.SplitIfs
import ProgramSearch.Program
import ProgramSearch.Proofs.Results

/-!
# Programs that the loader accepts

What the members of an accepted program say about its record, and which programs are accepted at
all: where every part has the type that the loader wants, only a part that goes by two names at once
is a reason to refuse a program.
-/
namespace ProgramSearch.Program

open Json

section Members

variable {members : List (String × Value)} {names : List String} {name a b field : String}
  {found : Option Value} {v : Value}

theorem lookup_cons_of_ne {key : String} (h : name ≠ key) :
    ((key, v) :: members).lookup name = members.lookup name := by
  have hbeq : (name == key) = false := by simpa using h
  rw [List.lookup_cons, hbeq]

theorem exists_lookup_of_mem {m : String × Value} (h : m ∈ members) :
    ∃ v, members.lookup m.1 = some v := by
  cases hlookup : members.lookup m.1 with
  | some v => exact ⟨v, rfl⟩
  | none =>
    have hne := List.lookup_eq_none_iff.mp hlookup m h
    simp at hne

/-- The members whose key is kept answer a look-up for such a key. -/
theorem lookup_filter (keep : String → Bool) (h : keep name = true) :
    (members.filter (keep ·.1)).lookup name = members.lookup name := by
  induction members with
  | nil => rfl
  | cons m members ih =>
    rcases m with ⟨key, v⟩
    by_cases hkey : name = key
    · subst hkey
      simp [h]
    · by_cases hkeep : keep key <;> simp [hkeep, ih, lookup_cons_of_ne hkey]

/-- The members that a record is read from: all but the embedding. -/
def others (field : String) (members : List (String × Value)) : List (String × Value) :=
  members.filter (·.1 != field)

theorem lookup_others (h : name ≠ field) :
    (others field members).lookup name = members.lookup name :=
  lookup_filter (· != field) (by simpa using h)

/-- The members that go by one of some names. -/
def named (members : List (String × Value)) (names : List String) : List (String × Value) :=
  members.filter (names.contains ·.1)

theorem lookup_named (h : name ∈ names) : (named members names).lookup name = members.lookup name :=
  lookup_filter names.contains (by simpa using h)

theorem memberOf_eq (members : List (String × Value)) (names : List String) :
    memberOf members names =
      match named members names with
      | [] => .ok none
      | [(_, v)] => .ok (some v)
      | _ => .error (.duplicateField (names.headD "")) := rfl

theorem fault_of_memberOf {fault : Fault} (h : memberOf members names = .error fault) :
    fault = .duplicateField (names.headD "") := by
  rw [memberOf_eq] at h
  split at h
  · contradiction
  · contradiction
  · exact (Except.error.inj h).symm

/-- A part that is not refused goes by at most one of its names. -/
theorem memberOf_cases (h : memberOf members names = .ok found) :
    (found = none ∧ ∀ name ∈ names, members.lookup name = none) ∨
      ∃ key ∈ names, (∃ v, found = some v ∧ members.lookup key = some v) ∧
        ∀ name ∈ names, name ≠ key → members.lookup name = none := by
  rw [memberOf_eq] at h
  split at h
  · rename_i hnil
    refine .inl ⟨(Except.ok.inj h).symm, fun name hname => ?_⟩
    rw [← lookup_named hname, hnil]
    rfl
  · rename_i key v hone
    have hmem : (key, v) ∈ named members names := hone ▸ List.mem_cons_self
    have hkey : key ∈ names := by simpa [named] using (List.mem_filter.mp hmem).2
    refine .inr ⟨key, hkey, ⟨v, (Except.ok.inj h).symm, ?_⟩, fun name hname hne => ?_⟩
    · rw [← lookup_named hkey, hone, List.lookup_cons_self]
    · rw [← lookup_named hname, hone, lookup_cons_of_ne hne]
      rfl
  · contradiction

theorem lookup_of_memberOf (h : memberOf members [a] = .ok found) : members.lookup a = found := by
  rcases memberOf_cases h with ⟨rfl, hnone⟩ | ⟨key, hkey, ⟨v, rfl, hv⟩, -⟩
  · exact hnone a List.mem_cons_self
  · rwa [← List.mem_singleton.mp hkey]

/-- Of two names of which one is used, either may be tried first. -/
theorem orElse_of_memberOf (h : memberOf members [a, b] = .ok found) :
    (members.lookup b <|> members.lookup a) = found := by
  rcases memberOf_cases h with ⟨rfl, hnone⟩ | ⟨key, hkey, ⟨v, rfl, hv⟩, hnone⟩
  · simp [hnone]
  · by_cases hb : b = key
    · simp [hb, hv]
    · obtain rfl : key = a := by simpa [Ne.symm hb] using hkey
      simp [hnone b (by simp) hb, hv]

theorem memberOf_of_none (h : ∀ name ∈ names, members.lookup name = none) :
    memberOf members names = .ok none := by
  have hnil : named members names = [] := by
    rw [named, List.filter_eq_nil_iff]
    intro m hm hname
    obtain ⟨v, hv⟩ := exists_lookup_of_mem hm
    rw [h m.1 (by simpa using hname)] at hv
    contradiction
  rw [memberOf_eq, hnil]

/-- Two names at once are a reason to refuse. -/
theorem memberOf_of_both (ha : a ∈ names) (hb : b ∈ names) (hne : a ≠ b)
    (hsome : (members.lookup a).isSome) (hsome' : (members.lookup b).isSome) :
    memberOf members names = .error (.duplicateField (names.headD "")) := by
  cases h : memberOf members names with
  | error fault => rw [fault_of_memberOf h]
  | ok found =>
    rcases memberOf_cases h with ⟨-, hnone⟩ | ⟨key, -, -, hnone⟩
    · simp [hnone a ha] at hsome
    · by_cases hkey : a = key
      · simp [hnone b hb (by rw [← hkey]; exact Ne.symm hne)] at hsome'
      · simp [hnone a ha hkey] at hsome

theorem filter_key_of_lookup (distinct : (members.map (·.1)).Nodup)
    (h : members.lookup name = some v) : members.filter (·.1 == name) = [(name, v)] := by
  induction members with
  | nil => contradiction
  | cons m members ih =>
    rcases m with ⟨key, w⟩
    rw [List.map_cons, List.nodup_cons] at distinct
    by_cases hkey : name = key
    · subst hkey
      have hrest : members.filter (·.1 == name) = [] := by
        rw [List.filter_eq_nil_iff]
        intro m hm hname
        exact distinct.1 (List.mem_map.mpr ⟨m, hm, by simpa using hname⟩)
      rw [List.lookup_cons_self, Option.some.injEq] at h
      rw [List.filter_cons_of_pos (by simp), hrest, h]
    · rw [lookup_cons_of_ne hkey] at h
      rw [List.filter_cons_of_neg (by simpa using Ne.symm hkey), ih distinct.2 h]

theorem memberOf_of_some (distinct : (members.map (·.1)).Nodup) (hname : name ∈ names)
    (h : members.lookup name = some v)
    (hnone : ∀ other ∈ names, other ≠ name → members.lookup other = none) :
    memberOf members names = .ok (some v) := by
  have hone : named members names = members.filter (·.1 == name) := by
    apply List.filter_congr
    intro m hm
    obtain ⟨w, hw⟩ := exists_lookup_of_mem hm
    by_cases hkey : m.1 = name
    · simp [hkey, hname]
    · have hout : m.1 ∉ names := fun hmem => by simp [hnone m.1 hmem hkey] at hw
      simp [hkey, hout]
  rw [memberOf_eq, hone, filter_key_of_lookup distinct h]

theorem memberOf_single (distinct : (members.map (·.1)).Nodup) (a : String) :
    memberOf members [a] = .ok (members.lookup a) := by
  cases h : members.lookup a with
  | none => exact memberOf_of_none (by simpa using h)
  | some v =>
    refine memberOf_of_some distinct List.mem_cons_self h fun other hother hne => ?_
    exact absurd (List.mem_singleton.mp hother) hne

/-- Which of two names is used does not matter, as long as they are not used both. -/
theorem memberOf_pair (distinct : (members.map (·.1)).Nodup)
    (hone : ¬((members.lookup a).isSome ∧ (members.lookup b).isSome)) :
    memberOf members [a, b] = .ok (members.lookup b <|> members.lookup a) := by
  cases hb : members.lookup b with
  | some w =>
    have ha : members.lookup a = none := by
      rw [← Option.not_isSome_iff_eq_none]
      exact fun ha => hone ⟨ha, by rw [hb]; rfl⟩
    refine memberOf_of_some distinct (by simp) hb fun other hother hne => ?_
    rcases List.mem_cons.mp hother with rfl | hother
    · exact ha
    · exact absurd (List.mem_singleton.mp hother) hne
  | none =>
    cases ha : members.lookup a with
    | some v =>
      refine memberOf_of_some distinct (by simp) ha fun other hother hne => ?_
      rcases List.mem_cons.mp hother with rfl | hother
      · exact absurd rfl hne
      · rwa [List.mem_singleton.mp hother]
    | none =>
      refine memberOf_of_none fun other hother => ?_
      rcases List.mem_cons.mp hother with rfl | hother
      · exact ha
      · rwa [List.mem_singleton.mp hother]

end Members

/-- The names of the calls of a program. -/
def callNames : List String := ["apicalls", "testapicalls"]

/-- The calls of a label; a label that is null counts as absent. -/
def callsOfLabel (label : Option Value) : Except Fault (List String) :=
  match present label with
  | some v => v.list Value.text
  | none => .ok []

/-- The text of a body, which must not be null. -/
def textOfBody (body : Option Value) : Except Fault String :=
  match body with
  | some v => v.text
  | none => .ok ""

/-- What the members of an accepted program say about its record. -/
structure Describes (members : List (String × Value)) (r : Record) : Prop where
  file : memberOf members ["file", "fileName"] = .ok (some (.string r.fileName))
  method : memberOf members ["method", "methodName"] = .ok (some (.string r.methodName))
  body : ∃ body, memberOf members ["body"] = .ok body ∧ textOfBody body = .ok r.body
  calls : ∃ label calls, memberOf members callNames = .ok label ∧
    callsOfLabel label = .ok calls ∧ r.labels.apiCalls = sortedSet calls
  sequence : ∃ label, memberOf members ["sequences"] = .ok label ∧
    r.labels.sequence = ((present label).map longestSequence).getD []
  ast : ∃ label, memberOf members ["ast"] = .ok label ∧ r.labels.ast = present label

section Record

variable {members : List (String × Value)} {field : String} {r : Record} {e : Embedding}

theorem text_eq_ok_iff {v : Value} {s : String} : v.text = .ok s ↔ v = .string s := by
  constructor
  · intro h
    cases v with
    | string t => rw [Except.ok.inj h]
    | _ => contradiction
  · rintro rfl
    rfl

theorem required_eq_ok_iff {α : Type} {name : String} {o : Option α} {a : α} :
    required name o = .ok a ↔ o = some a := by
  cases o with
  | none => exact ⟨nofun, nofun⟩
  | some b => rw [required, Except.ok.injEq, Option.some.injEq]

/-- The reading of a record, one part after another. -/
theorem record_eq (members : List (String × Value)) :
    record members = (do
      let file ← required "file" (← memberOf members ["file", "fileName"])
      let method ← required "method" (← memberOf members ["method", "methodName"])
      let body ← memberOf members ["body"]
      let label ← memberOf members callNames
      let sequences ← memberOf members ["sequences"]
      let ast ← memberOf members ["ast"]
      let calls ← callsOfLabel label
      let fileName ← file.text
      let methodName ← method.text
      let body ← textOfBody body
      return ⟨fileName, methodName, body,
        ⟨sortedSet calls, ((present sequences).map longestSequence).getD [], present ast⟩⟩) := by
  rw [record]
  repeat refine bind_congr fun _ => ?_
  rename_i body label _ _
  rw [callsOfLabel]
  cases present label <;> cases body <;> rfl

theorem record_eq_ok_iff : record members = .ok r ↔ Describes members r := by
  rw [record_eq]
  constructor
  · intro h
    obtain ⟨fileMember, hfileMember, h⟩ := bind_ok h
    obtain ⟨file, hfile, h⟩ := bind_ok h
    obtain ⟨methodMember, hmethodMember, h⟩ := bind_ok h
    obtain ⟨method, hmethod, h⟩ := bind_ok h
    obtain ⟨bodyMember, hbodyMember, h⟩ := bind_ok h
    obtain ⟨label, hlabel, h⟩ := bind_ok h
    obtain ⟨sequences, hsequences, h⟩ := bind_ok h
    obtain ⟨ast, hast, h⟩ := bind_ok h
    obtain ⟨calls, hcalls, h⟩ := bind_ok h
    obtain ⟨fileName, hfileName, h⟩ := bind_ok h
    obtain ⟨methodName, hmethodName, h⟩ := bind_ok h
    obtain ⟨body, hbody, h⟩ := bind_ok h
    obtain rfl := Except.ok.inj h
    rw [required_eq_ok_iff] at hfile hmethod
    rw [text_eq_ok_iff] at hfileName hmethodName
    subst hfile hmethod hfileName hmethodName
    exact ⟨hfileMember, hmethodMember, ⟨bodyMember, hbodyMember, hbody⟩,
      ⟨label, calls, hlabel, hcalls, rfl⟩, ⟨sequences, hsequences, rfl⟩, ⟨ast, hast, rfl⟩⟩
  · rintro ⟨hfile, hmethod, ⟨body, hbody, hbodyText⟩, ⟨label, calls, hlabel, hcalls, hsorted⟩,
      ⟨sequences, hsequences, hsequence⟩, ⟨ast, hast, hpresent⟩⟩
    simp only [hfile, hmethod, hbody, hlabel, hsequences, hast, ok_bind, required, hcalls,
      hbodyText, Value.text, ← hsorted, ← hsequence, ← hpresent]
    rfl

/-- The reading of a program, one part after another. -/
theorem parse_object (field : String) (members : List (String × Value)) :
    parse field (.object members) = (do
      let v ← required field (members.lookup field)
      let e ← embedding v
      let r ← record (others field members)
      return (r, e)) := rfl

theorem parse_object_eq_ok_iff : parse field (.object members) = .ok (r, e) ↔
    ∃ v, members.lookup field = some v ∧ embedding v = .ok e ∧
      Describes (others field members) r := by
  rw [parse_object]
  constructor
  · intro h
    obtain ⟨v, hv, h⟩ := bind_ok h
    obtain ⟨e', he, h⟩ := bind_ok h
    obtain ⟨r', hr, h⟩ := bind_ok h
    obtain ⟨rfl, rfl⟩ := Prod.mk.inj (Except.ok.inj h)
    exact ⟨v, required_eq_ok_iff.mp hv, he, record_eq_ok_iff.mp hr⟩
  · rintro ⟨v, hv, he, hr⟩
    rw [hv, required, ok_bind, he, ok_bind, record_eq_ok_iff.mpr hr, ok_bind]
    rfl

/-- Only objects are programs. -/
theorem exists_members_of_parse {p : Value} (h : parse field p = .ok (r, e)) :
    ∃ members, p = .object members := by
  cases p with
  | object members => exact ⟨members, rfl⟩
  | _ => contradiction

theorem list_text_eq_ok_iff {v : Value} {ss : List String} :
    v.list Value.text = .ok ss ↔ v = .strings ss := by
  constructor
  · intro h
    cases v with
    | array items =>
      have hitems : items = ss.map .string :=
        (mapM_eq_ok_iff_eq_map fun _ _ => text_eq_ok_iff).mp h
      rw [hitems]
    | _ => contradiction
  · rintro rfl
    exact (mapM_eq_ok_iff_eq_map fun _ _ => text_eq_ok_iff).mpr rfl

theorem texts_strings (ss : List String) : texts (.strings ss) = ss := by
  have hstring : Value.string? ∘ Value.string = some := rfl
  have htexts : texts (.strings ss) = (ss.map Value.string).filterMap (·.string?) := rfl
  rw [htexts, List.filterMap_map, hstring, List.filterMap_some]

end Record

/-- An object in which every part of a program has its type. Each part may go by either of its
names; `sequences`, `ast` and further members may hold anything. -/
structure WellTyped (field : String) (members : List (String × Value)) : Prop where
  distinct : (members.map (·.1)).Nodup
  apart : field ∉ callNames
  embedding : ∃ numbers : List Number, members.lookup field = some (.array (numbers.map .number))
  file : ∃ name ∈ ["file", "fileName"], ∃ s,
    (others field members).lookup name = some (.string s)
  method : ∃ name ∈ ["method", "methodName"], ∃ s,
    (others field members).lookup name = some (.string s)
  body : ∀ v, (others field members).lookup "body" = some v → ∃ s, v = .string s
  calls : ∀ name ∈ callNames, ∀ v, members.lookup name = some v → ∃ ss, v = .strings ss

/-- Whether a part goes by both of two names. -/
def GoesByBoth (members : List (String × Value)) (a b : String) : Prop :=
  (members.lookup a).isSome ∧ (members.lookup b).isSome

instance (members : List (String × Value)) (a b : String) : Decidable (GoesByBoth members a b) :=
  inferInstanceAs (Decidable (_ ∧ _))

/-- No part goes by both of its names. -/
def Unambiguous (members : List (String × Value)) : Prop :=
  ¬GoesByBoth members "file" "fileName" ∧ ¬GoesByBoth members "method" "methodName" ∧
    ¬GoesByBoth members "apicalls" "testapicalls"

instance (members : List (String × Value)) : Decidable (Unambiguous members) :=
  inferInstanceAs (Decidable (_ ∧ _ ∧ _))

section Acceptance

variable {field a b : String} {members : List (String × Value)}

theorem embedding_numbers (numbers : List Number) :
    embedding (.array (numbers.map .number)) = .ok (numbers.map Number.toSingle) := by
  rw [embedding]
  · exact mapM_eq_ok_iff.mpr (by simp [Value.single])
  · intro row heq
    have hmem : Value.array row ∈ numbers.map .number := by
      rw [Value.array.inj heq]
      exact List.mem_cons_self
    simp at hmem

theorem nodup_others (field : String) (distinct : (members.map (·.1)).Nodup) :
    ((others field members).map (·.1)).Nodup :=
  distinct.sublist (List.filter_sublist.map _)

theorem memberOf_text (distinct : (members.map (·.1)).Nodup) (hone : ¬GoesByBoth members a b)
    (h : ∃ name ∈ [a, b], ∃ s, members.lookup name = some (.string s)) :
    ∃ s, memberOf members [a, b] = .ok (some (.string s)) := by
  obtain ⟨name, hname, s, hs⟩ := h
  refine ⟨s, memberOf_of_some distinct hname hs fun other hother hne => ?_⟩
  rw [← Option.not_isSome_iff_eq_none]
  intro hsome
  have hboth : (members.lookup name).isSome := by rw [hs]; rfl
  simp only [List.mem_cons, List.not_mem_nil, or_false] at hname hother
  rcases hname with rfl | rfl <;> rcases hother with rfl | rfl
  · exact hne rfl
  · exact hone ⟨hboth, hsome⟩
  · exact hone ⟨hsome, hboth⟩
  · exact hne rfl

/-- A program with well-typed parts, none of which goes by both of its names, is accepted. -/
theorem exists_parse_of_wellTyped (h : WellTyped field members)
    (unambiguous : Unambiguous (others field members)) :
    ∃ r e, parse field (.object members) = .ok (r, e) := by
  have distinct := nodup_others field h.distinct
  obtain ⟨numbers, hnumbers⟩ := h.embedding
  obtain ⟨file, hfile⟩ := memberOf_text distinct unambiguous.1 h.file
  obtain ⟨method, hmethod⟩ := memberOf_text distinct unambiguous.2.1 h.method
  obtain ⟨body, hbody⟩ : ∃ s, textOfBody ((others field members).lookup "body") = .ok s := by
    cases hbody : (others field members).lookup "body" with
    | none => exact ⟨"", rfl⟩
    | some v =>
      obtain ⟨s, rfl⟩ := h.body v hbody
      exact ⟨s, rfl⟩
  have hlabel := memberOf_pair distinct unambiguous.2.2
  have hlookup : ∀ name ∈ callNames,
      (others field members).lookup name = members.lookup name :=
    fun name hname => lookup_others fun heq => h.apart (heq ▸ hname)
  rw [hlookup "testapicalls" (by decide), hlookup "apicalls" (by decide)] at hlabel
  obtain ⟨ss, hss⟩ : ∃ ss, callsOfLabel
      (members.lookup "testapicalls" <|> members.lookup "apicalls") = .ok ss := by
    have hstrings : ∀ ss, callsOfLabel (some (.strings ss)) = .ok ss :=
      fun ss => list_text_eq_ok_iff.mpr rfl
    cases htest : members.lookup "testapicalls" with
    | some v =>
      obtain ⟨ss, rfl⟩ := h.calls "testapicalls" (by decide) v htest
      exact ⟨ss, hstrings ss⟩
    | none =>
      cases hcalls : members.lookup "apicalls" with
      | some v =>
        obtain ⟨ss, rfl⟩ := h.calls "apicalls" (by decide) v hcalls
        exact ⟨ss, hstrings ss⟩
      | none => exact ⟨[], rfl⟩
  exact ⟨⟨file, method, body, ⟨_, _, _⟩⟩, _, parse_object_eq_ok_iff.mpr ⟨_, hnumbers,
    embedding_numbers numbers, ⟨hfile, hmethod, ⟨_, memberOf_single distinct _, hbody⟩,
      ⟨_, ss, hlabel, hss, rfl⟩, ⟨_, memberOf_single distinct _, rfl⟩,
      ⟨_, memberOf_single distinct _, rfl⟩⟩⟩⟩

theorem memberOf_of_goesByBoth (ne : a ≠ b) (h : GoesByBoth members a b) :
    memberOf members [a, b] = .error (.duplicateField a) :=
  memberOf_of_both (by simp) (by simp) ne h.1 h.2

/-- A part that goes by both of its names is what such a program is refused for. -/
theorem parse_of_ambiguous (h : WellTyped field members)
    (ambiguous : ¬Unambiguous (others field members)) :
    ∃ name, parse field (.object members) = .error (.duplicateField name) := by
  have distinct := nodup_others field h.distinct
  obtain ⟨numbers, hnumbers⟩ := h.embedding
  have hparse : ∀ fault, record (others field members) = .error fault →
      parse field (.object members) = .error fault := by
    intro fault hfault
    rw [parse_object, hnumbers, required, ok_bind, embedding_numbers, ok_bind, hfault]
    rfl
  by_cases hfile : GoesByBoth (others field members) "file" "fileName"
  · refine ⟨"file", hparse _ ?_⟩
    rw [record_eq, memberOf_of_goesByBoth (by decide) hfile]
    rfl
  · obtain ⟨file, hfileMember⟩ := memberOf_text distinct hfile h.file
    by_cases hmethod : GoesByBoth (others field members) "method" "methodName"
    · refine ⟨"method", hparse _ ?_⟩
      rw [record_eq, hfileMember, memberOf_of_goesByBoth (by decide) hmethod]
      rfl
    · obtain ⟨method, hmethodMember⟩ := memberOf_text distinct hmethod h.method
      by_cases hcalls : GoesByBoth (others field members) "apicalls" "testapicalls"
      · refine ⟨"apicalls", hparse _ ?_⟩
        rw [record_eq, hfileMember, hmethodMember, memberOf_single distinct, callNames,
          memberOf_of_goesByBoth (by decide) hcalls]
        rfl
      · exact absurd ⟨hfile, hmethod, hcalls⟩ ambiguous

end Acceptance

end ProgramSearch.Program
