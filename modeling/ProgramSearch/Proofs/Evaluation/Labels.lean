import ProgramSearch.Evaluation.Desired
import ProgramSearch.Proofs.Json.Reordered
import ProgramSearch.Proofs.Program
import ProgramSearch.Proofs.Sequences
import ProgramSearch.Proofs.SortedSet

/-!
# Labels of programs and of queries

A program object is read twice: by the loader as a record with its labels, and by the evaluation as
a desired program. What the evaluation wants of an accepted program is what its record has, so that
a program matches itself. The loader refuses a program whose calls stand under both of their names,
of which the evaluation takes one.
-/
namespace ProgramSearch

open Json

namespace Program

/-- The members that a desired program is read from. -/
def evaluatedNames : List String := ["body", "apicalls", "testapicalls", "sequences", "ast"]

theorem not_mem_callNames {field : String} (apart : field ∉ evaluatedNames) : field ∉ callNames :=
  have hsubset : ∀ name ∈ callNames, name ∈ evaluatedNames := by decide
  fun hmem => apart (hsubset field hmem)

/-- All calls that a program object lists, under either name. -/
def calls (p : Value) : List String :=
  callNames.flatMap fun name => ((p.get? name).map texts).getD []

section Agreement

variable {label : Option Value} {field : String} {p : Value} {r : Record} {e : Embedding}

theorem texts_of_callsOfLabel {ss : List String} (h : callsOfLabel label = .ok ss) :
    (label.map texts).getD [] = ss := by
  rw [callsOfLabel] at h
  split at h
  · rename_i v hv
    rw [list_text_eq_ok_iff] at h
    obtain rfl : label = some v := by
      unfold present at hv
      split at hv
      · contradiction
      · exact hv
    rw [h, Option.map_some, Option.getD_some, texts_strings]
  · rename_i hnone
    obtain rfl := Except.ok.inj h
    unfold present at hnone
    split at hnone
    · rfl
    · rw [hnone]
      rfl

theorem sequence_present (label : Option Value) :
    ((present label).map longestSequence).getD [] = (label.map longestSequence).getD [] := by
  unfold present
  split <;> rfl

/-- A part that goes by one of two names is all that stands under them. -/
theorem flatMap_of_memberOf {members : List (String × Value)} {a b : String} (ne : a ≠ b)
    (h : memberOf members [a, b] = .ok label) :
    [a, b].flatMap (fun name => ((members.lookup name).map texts).getD []) =
      (label.map texts).getD [] := by
  rcases memberOf_cases h with ⟨rfl, hnone⟩ | ⟨key, hkey, ⟨v, rfl, hv⟩, hnone⟩
  · simp [hnone]
  · rcases List.mem_cons.mp hkey with rfl | hkey
    · simp [hv, hnone b (by simp) (Ne.symm ne)]
    · obtain rfl := List.mem_singleton.mp hkey
      simp [hv, hnone a (by simp) ne]

theorem string_of_textOfBody {body : Option Value} {s : String} (h : textOfBody body = .ok s) :
    (body.bind (·.string?)).getD "" = s := by
  cases body with
  | none => exact Except.ok.inj h
  | some v => rw [text_eq_ok_iff.mp h]; rfl

end Agreement

end Program

namespace Desired

variable {field : String} {p : Value} {r : Record} {e : Embedding}

/-- What is wanted by one who wants a record. -/
def ofRecord (r : Record) : Desired :=
  ⟨bodyFingerprint r.body, r.labels.apiCalls, r.labels.sequence, r.labels.ast⟩

theorem lookup_evaluated {members : List (String × Value)} {name : String}
    (hname : name ∈ Program.evaluatedNames) (apart : field ∉ Program.evaluatedNames) :
    (Program.others field members).lookup name = members.lookup name :=
  Program.lookup_others fun heq => apart (heq ▸ hname)

/-- Of an accepted program, the labels that the loader keeps are all calls that stand in it, and
those that the evaluation reads. -/
theorem apiCalls_of_parse (accepted : Program.parse field p = .ok (r, e))
    (apart : field ∉ Program.callNames) :
    r.labels.apiCalls = sortedSet (Program.calls p) ∧
      r.labels.apiCalls = (ofProgram p).apiCalls := by
  obtain ⟨members, rfl⟩ := Program.exists_members_of_parse accepted
  obtain ⟨v, -, -, hr⟩ := Program.parse_object_eq_ok_iff.mp accepted
  obtain ⟨label, ss, hlabel, hcalls, hsorted⟩ := hr.calls
  have hlookup : ∀ name ∈ Program.callNames,
      (Program.others field members).lookup name = members.lookup name :=
    fun name hname => Program.lookup_others fun heq => apart (heq ▸ hname)
  have hall := Program.flatMap_of_memberOf (by decide) hlabel
  have hchoice := Program.orElse_of_memberOf hlabel
  rw [List.flatMap_congr fun name hname => by rw [hlookup name hname]] at hall
  rw [hlookup "testapicalls" (by decide), hlookup "apicalls" (by decide)] at hchoice
  rw [hsorted, ← Program.texts_of_callsOfLabel hcalls]
  constructor
  · rw [← hall]
    rfl
  · rw [← hchoice]
    rfl

/-- A program whose parts have their types is accepted, with the calls that the evaluation reads,
exactly if none of its parts goes by both of its names. A program that lists calls under both names
is refused, although the evaluation reads it. -/
theorem apiCalls_of_wellTyped {members : List (String × Value)}
    (h : Program.WellTyped field members) :
    (Program.Unambiguous (Program.others field members) →
      ∃ r e, Program.parse field (.object members) = .ok (r, e) ∧
        r.labels.apiCalls = (ofProgram (.object members)).apiCalls) ∧
    (¬Program.Unambiguous (Program.others field members) →
      ∃ name, Program.parse field (.object members) = .error (.duplicateField name)) := by
  refine ⟨fun unambiguous => ?_, Program.parse_of_ambiguous h⟩
  obtain ⟨r, e, accepted⟩ := Program.exists_parse_of_wellTyped h unambiguous
  exact ⟨r, e, accepted, (apiCalls_of_parse accepted h.apart).2⟩

/-- The members of a program that lists calls for the test, and perhaps calls of its own. -/
def testedMembers (own : Option (List String)) : List (String × Value) :=
  own.toList.map (fun calls => ("apicalls", .strings calls)) ++
    [("b2", .array [.nat 1]), ("file", .string "A"), ("method", .string "m"),
      ("testapicalls", .strings ["open", "close", "open"])]

theorem apiCalls_ofProgram_tested (own : Option (List String)) :
    (ofProgram (.object (testedMembers own))).apiCalls = ["close", "open"] := by
  have hcalls : (ofProgram (.object (testedMembers own))).apiCalls =
      sortedSet ["open", "close", "open"] := by
    cases own <;> rfl
  rw [hcalls]
  refine sortedSet_eq (by decide) fun s => ?_
  simp only [List.mem_cons, List.not_mem_nil, or_false]
  tauto

theorem wellTyped_testedMembers (own : Option (List String)) :
    Program.WellTyped "b2" (testedMembers own) where
  distinct := by cases own <;> simp [testedMembers]
  apart := by decide
  embedding := ⟨[.integer 1], by cases own <;> rfl⟩
  file := ⟨"file", by decide, "A", by cases own <;> rfl⟩
  method := ⟨"method", by decide, "m", by cases own <;> rfl⟩
  body := by cases own <;> rintro v ⟨⟩
  calls := by
    intro name hname v hv
    rcases List.mem_cons.mp hname with rfl | hname
    · cases own <;> cases hv
      exact ⟨_, rfl⟩
    · obtain rfl := List.mem_singleton.mp hname
      cases own <;> exact ⟨_, (Option.some.inj hv).symm⟩

/-- With the calls for the test alone, a program is accepted. -/
theorem apiCalls_of_tested :
    Program.WellTyped "b2" (testedMembers none) ∧
      Program.Unambiguous (Program.others "b2" (testedMembers none)) ∧
      ∃ r e, Program.parse "b2" (.object (testedMembers none)) = .ok (r, e) ∧
        r.labels.apiCalls = ["close", "open"] := by
  have typed := wellTyped_testedMembers none
  have unambiguous : Program.Unambiguous (Program.others "b2" (testedMembers none)) := by decide
  obtain ⟨r, e, accepted, hcalls⟩ := (apiCalls_of_wellTyped typed).1 unambiguous
  exact ⟨typed, unambiguous, r, e, accepted, hcalls.trans (apiCalls_ofProgram_tested none)⟩

/-- With calls of its own beside them, it is refused. -/
theorem tested_refused_with_own_calls :
    Program.WellTyped "b2" (testedMembers (some ["read"])) ∧
      Program.parse "b2" (.object (testedMembers (some ["read"]))) =
        .error (.duplicateField "apicalls") ∧
      (ofProgram (.object (testedMembers (some ["read"])))).apiCalls = ["close", "open"] :=
  ⟨wellTyped_testedMembers _, rfl, apiCalls_ofProgram_tested _⟩

/-- What the evaluation wants of an accepted program is what its record has. -/
theorem ofProgram_of_parse (accepted : Program.parse field p = .ok (r, e))
    (apart : field ∉ Program.evaluatedNames) : ofProgram p = ofRecord r := by
  have hcalls := (apiCalls_of_parse accepted (Program.not_mem_callNames apart)).2
  obtain ⟨members, rfl⟩ := Program.exists_members_of_parse accepted
  obtain ⟨v, -, -, hr⟩ := Program.parse_object_eq_ok_iff.mp accepted
  obtain ⟨body, hbody, htext⟩ := hr.body
  obtain ⟨sequences, hsequences, hsequence⟩ := hr.sequence
  obtain ⟨ast, hast, hpresent⟩ := hr.ast
  have hbody := Program.lookup_of_memberOf hbody
  have hsequences := Program.lookup_of_memberOf hsequences
  have hast := Program.lookup_of_memberOf hast
  rw [lookup_evaluated (by decide) apart] at hbody hsequences hast
  have hwanted : ofProgram (.object members) = ⟨bodyFingerprint ((body.bind (·.string?)).getD ""),
      (ofProgram (.object members)).apiCalls, (sequences.map Program.longestSequence).getD [],
      Program.present ast⟩ := by
    rw [← hbody, ← hsequences, ← hast]
    rfl
  rw [hwanted, ofRecord, Program.string_of_textOfBody htext, ← hcalls, hsequence,
    Program.sequence_present, hpresent]

theorem sequence_of_parse (accepted : Program.parse field p = .ok (r, e))
    (apart : field ∉ Program.evaluatedNames) : r.labels.sequence = Program.sequence p :=
  congrArg Desired.sequence (ofProgram_of_parse accepted apart).symm

/-- A record is what is wanted by one who wants it, in all but its tree, which it may lack. -/
theorem fits_ofRecord {kind : MatchKind} (h : kind ≠ .ast) : (ofRecord r).fits kind r = true := by
  cases kind with
  | ast => contradiction
  | _ => simp [fits, ofRecord]

theorem fits_ast_ofRecord : (ofRecord r).fits .ast r = true ↔ r.labels.ast ≠ none := by
  cases h : r.labels.ast with
  | none => simp [fits, ofRecord, h]
  | some v => simp [fits, ofRecord, h, v.same_refl]

theorem present_ne_none {label : Option Value} :
    Program.present label ≠ none ↔ ∃ v, label = some v ∧ v ≠ .null := by
  unfold Program.present
  split
  · simp
  · rename_i hnull
    cases label with
    | none => simp
    | some v => simpa using fun h => hnull (by rw [h])

/-- An accepted program matches its own record in its calls, its sequence and its body, and in its
tree exactly if it has one. It matches the record of another accepted program in the calls exactly
if both list the same ones, in whatever order and number, and in the sequence exactly if their
sequences are equal. These are the sequences that the objects have by `IsSequence`. -/
theorem fits_of_accepted {field' : String} {q : Value} {r' : Record} {e' : Embedding}
    (accepted : Program.parse field p = .ok (r, e)) (apart : field ∉ Program.evaluatedNames)
    (accepted' : Program.parse field' q = .ok (r', e')) (apart' : field' ∉ Program.evaluatedNames) :
    ((ofProgram p).fits .api r = true ∧ (ofProgram p).fits .sequence r = true ∧
      (ofProgram p).fits .body r = true ∧
      ((ofProgram p).fits .ast r = true ↔ ∃ v, p.get? "ast" = some v ∧ v ≠ .null)) ∧
    ((ofProgram p).fits .api r' = true ↔ ∀ s, s ∈ Program.calls p ↔ s ∈ Program.calls q) ∧
    ((ofProgram p).fits .sequence r' = true ↔ Program.sequence p = Program.sequence q) ∧
    (∀ ss, Program.IsSequence p ss ↔ Program.sequence p = ss) ∧
    ∀ ss, Program.IsSequence q ss ↔ Program.sequence q = ss := by
  have hwanted := ofProgram_of_parse accepted apart
  have hcalls := (apiCalls_of_parse accepted (Program.not_mem_callNames apart)).1
  have hcalls' := (apiCalls_of_parse accepted' (Program.not_mem_callNames apart')).1
  have hsequence := sequence_of_parse accepted apart
  have hsequence' := sequence_of_parse accepted' apart'
  have hast : r.labels.ast = Program.present (p.get? "ast") := congrArg Desired.ast hwanted.symm
  rw [hwanted]
  refine ⟨⟨fits_ofRecord (by decide), fits_ofRecord (by decide), fits_ofRecord (by decide), ?_⟩,
    ?_, ?_, fun _ => Program.isSequence_iff, fun _ => Program.isSequence_iff⟩
  · rw [fits_ast_ofRecord, hast, present_ne_none]
  · rw [fits, ofRecord, beq_iff_eq, hcalls, hcalls', sortedSet_eq_iff]
    exact forall_congr' fun s => iff_comm
  · rw [fits, ofRecord, beq_iff_eq, hsequence, hsequence', eq_comm]

/-- A program with a tree and several sequences. -/
def sampleListed : Value :=
  .object [("ast", .object []), ("b2", .array [.nat 1]), ("file", .string "A"),
    ("method", .string "m"), ("sequences", .array [.object [("calls", .strings ["open"])],
      .object [("calls", .strings ["open", "close"])]]),
    ("testapicalls", .strings ["open", "close", "open"])]

/-- A program with the same calls in another order, one sequence and no tree. -/
def sampleFlat : Value :=
  .object [("apicalls", .strings ["close", "open"]), ("ast", .null), ("body", .string "x"),
    ("e", .array [.array [.nat 2]]), ("fileName", .string "B"), ("methodName", .string "n"),
    ("sequences", .strings ["close", "open"])]

/-- The two programs match each other in their calls, not in their sequences. -/
theorem fits_of_accepted_sample :
    ∃ r e r' e', Program.parse "b2" sampleListed = .ok (r, e) ∧
      Program.parse "e" sampleFlat = .ok (r', e') ∧
      (ofProgram sampleListed).fits .api r = true ∧ (ofProgram sampleListed).fits .ast r = true ∧
      (ofProgram sampleListed).fits .api r' = true ∧
      (ofProgram sampleListed).fits .sequence r' = false ∧
      Program.IsSequence sampleListed ["open", "close"] ∧
      Program.IsSequence sampleFlat ["close", "open"] := by
  have accepted : Program.parse "b2" sampleListed = .ok (⟨"A", "m", "",
      ⟨sortedSet ["open", "close", "open"], ["open", "close"], some (.object [])⟩⟩, [1.0]) := rfl
  have accepted' : Program.parse "e" sampleFlat = .ok (⟨"B", "n", "x",
      ⟨sortedSet ["close", "open"], ["close", "open"], none⟩⟩, [2.0]) := rfl
  obtain ⟨⟨hapi, -, -, hast⟩, hapi', hsequence, hlisted, hflat⟩ :=
    fits_of_accepted accepted (by decide) accepted' (by decide)
  refine ⟨_, _, _, _, accepted, accepted', hapi, hast.mpr ⟨.object [], rfl, nofun⟩,
    hapi'.mpr fun s => ?_, ?_, (hlisted _).mpr rfl, (hflat _).mpr rfl⟩
  · have hcalls : Program.calls sampleListed = ["open", "close", "open"] := rfl
    have hcalls' : Program.calls sampleFlat = ["close", "open"] := rfl
    simp only [hcalls, hcalls', List.mem_cons, List.not_mem_nil, or_false]
    tauto
  · rw [← Bool.not_eq_true, hsequence]
    decide

end Desired

end ProgramSearch
