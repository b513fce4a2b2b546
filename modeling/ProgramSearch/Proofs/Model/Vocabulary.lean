import Mathlib
import ProgramSearch.Model.Vocabulary
import ProgramSearch.Proofs.Json.Records
import ProgramSearch.Proofs.SortedMap

/-!
# The evidence of a vocabulary

A vocabulary file lists tokens under keys. The keys are taken in their order, and each kind keeps
the tokens of the last key that names it. A kind has several spellings, so different keys may name
one kind; then the tokens of all but the last are lost, and nothing complains.
-/
namespace ProgramSearch

open Json

/-- An object that lists texts under keys. -/
def Json.Doc.ofEntries (entries : List (String × List String)) : Doc :=
  .object (entries.map fun e => (.ok e.1, Doc.texts e.2)) none

theorem Json.Doc.ofEntries_inj {entries entries' : List (String × List String)}
    (h : Doc.ofEntries entries = .ofEntries entries') : entries = entries' := by
  refine List.map_injective_iff.mpr (fun e e' heq => ?_) (Doc.object.inj h).1
  obtain ⟨hkey, htexts⟩ := Prod.mk.inj heq
  exact Prod.ext (Except.ok.inj hkey) (Doc.texts_inj htexts)

namespace ModelVocabulary

/-- The evidence in a vocabulary file, written as an object or as an array of its fields. -/
inductive EvidenceMember : Doc → Doc → Prop where
  | member {members : List (Except Fault String × Doc)} {ending : Option Damage} {d : Doc}
    (h : (.ok "evidence", d) ∈ members) : EvidenceMember (.object members ending) d
  | element {decoder d : Doc} {rest : List Doc} {ending : Option Damage} :
    EvidenceMember (.array (decoder :: d :: rest) ending) d

/-- The keys of two entries name one kind. -/
def SameKind (e e' : String × List String) : Prop :=
  EvidenceKind.parse? e.1 = EvidenceKind.parse? e'.1

/-- Of the entries for the kind of `e`, this one has the last key. -/
structure IsLast (entries : List (String × List String)) (e last : String × List String) :
    Prop where
  mem : last ∈ entries
  same : SameKind last e
  le : ∀ e' ∈ entries, SameKind e' e → e'.1 ≤ last.1

theorem IsLast.of_mem_iff {entries entries' : List (String × List String)}
    {e last : String × List String} (h : IsLast entries e last)
    (same : ∀ e, e ∈ entries ↔ e ∈ entries') : IsLast entries' e last :=
  ⟨(same last).mp h.mem, h.same, fun e' he' => h.le e' ((same e').mpr he')⟩

/-- The key of the entry names a kind, and the index of that kind has the tokens of the entry. -/
def Keeps (v : ModelVocabulary) (e : String × List String) : Prop :=
  ∃ kind, EvidenceKind.parse? e.1 = some kind ∧
    v.evidence.lookup kind = some (.ofTokens e.2)

section Reading

variable {entries done stored : List (String × List String)} {d root : Doc}

theorem readEntries_ok {members : List (Except Fault String × Doc)}
    (h : readEntries done members = .ok stored) :
    ∃ entries : List (String × List String),
      members = entries.map (fun e => (.ok e.1, Doc.texts e.2)) ∧
        stored = entries.foldl (fun done e => setMember e.1 e.2 done) done := by
  induction members generalizing done with
  | nil => exact ⟨[], rfl, (Except.ok.inj h).symm⟩
  | cons member rest ih =>
    obtain ⟨key, d⟩ := member
    obtain ⟨key, rfl, hrest⟩ := bind_ok h
    obtain ⟨tokens, htokens, hrest⟩ := bind_ok hrest
    obtain ⟨entries, rfl, hstored⟩ := ih hrest
    refine ⟨(key, tokens) :: entries, ?_, hstored⟩
    rw [List.map_cons, list_scalar_text_eq_ok_iff.mp htokens]

theorem readMap_ok (h : readMap d = .ok stored) :
    ∃ entries, d = Doc.ofEntries entries ∧
      ((entries.map (·.1)).Nodup → Sorted stored ∧ ∀ e, e ∈ stored ↔ e ∈ entries) := by
  unfold readMap at h
  split at h
  · next members ending =>
    obtain ⟨read, hread, h⟩ := bind_ok h
    cases ending with
    | some damage => contradiction
    | none =>
      obtain rfl := Except.ok.inj h
      obtain ⟨entries, rfl, rfl⟩ := readEntries_ok hread
      refine ⟨entries, rfl, fun distinct => ?_⟩
      simpa using foldl_setMember .nil distinct (by simp)
  · exact absurd h (scalar_mismatch_ne_ok d _ stored)

/-- The evidence that is kept is what the one member was read as. -/
theorem readMap_of_readDoc {symbols : List String} (h : readDoc root = .ok (symbols, stored))
    (evidence : EvidenceMember root d) : readMap d = .ok stored := by
  obtain ⟨p, hp, h⟩ := bind_ok h
  obtain ⟨decoder, -, h⟩ := bind_ok h
  obtain rfl : p.evidence.getD [] = stored := congrArg Prod.snd (Except.ok.inj h)
  cases evidence with
  | member hmem =>
    obtain ⟨last, hwalk, h⟩ := bind_ok hp
    obtain rfl : last = p := by
      split at h
      · contradiction
      · exact Except.ok.inj h
    obtain ⟨s, s', hstep, hlast⟩ := walkMembers_of_mem PartialVocabulary.evidence (by decide)
      (fun s name d s' hname hne hstep => by
        obtain rfl : name = "decoder" := by simpa [hne] using hname
        obtain ⟨texts, -, hs⟩ := bind_ok hstep
        rw [← Except.ok.inj hs]) hmem hwalk
    obtain ⟨read, hread, hs⟩ := bind_ok hstep
    rw [hlast, ← Except.ok.inj hs, hread]
    rfl
  | element =>
    obtain ⟨s, -, hp⟩ := bind_ok hp
    obtain ⟨s', hstep, hp⟩ := bind_ok hp
    obtain rfl := walkElements_nil_ok hp
    obtain ⟨read, hread, hs⟩ := bind_ok hstep
    rw [← Except.ok.inj hs, hread]
    rfl

end Reading

section Kinds

variable {entries stored : List (String × List String)} {kind : EvidenceKind}
  {done indexed : List (EvidenceKind × TokenIndex)} {e : String × List String}

theorem lookup_setKind {index : TokenIndex} {other : EvidenceKind} :
    (setKind kind index done).lookup other =
      if other = kind then some index else done.lookup other := by
  induction done with
  | nil => grind [setKind]
  | cons first rest ih => grind [setKind]

theorem indices_cons_ok (h : indices done (e :: entries) = .ok indexed) :
    ∃ kind, EvidenceKind.parse? e.1 = some kind ∧
      indices (setKind kind (.ofTokens e.2) done) entries = .ok indexed := by
  rw [indices] at h
  split at h
  · contradiction
  · next kind hkind => exact ⟨kind, hkind, h⟩

theorem parse?_of_indices (h : indices done entries = .ok indexed) (he : e ∈ entries) :
    ∃ kind, EvidenceKind.parse? e.1 = some kind := by
  induction entries generalizing done with
  | nil => contradiction
  | cons first rest ih =>
    obtain ⟨kind, hkind, hrest⟩ := indices_cons_ok h
    rcases List.mem_cons.mp he with rfl | he
    · exact ⟨kind, hkind⟩
    · exact ih hrest he

theorem lookup_indices_of_other (h : indices done entries = .ok indexed)
    (other : ∀ e ∈ entries, EvidenceKind.parse? e.1 ≠ some kind) :
    indexed.lookup kind = done.lookup kind := by
  induction entries generalizing done with
  | nil => exact congrArg _ (Except.ok.inj h).symm
  | cons first rest ih =>
    obtain ⟨named, hnamed, hrest⟩ := indices_cons_ok h
    obtain ⟨hfirst, hother⟩ := List.forall_mem_cons.mp other
    have hne : kind ≠ named := fun heq => hfirst (heq ▸ hnamed)
    rw [ih hrest hother, lookup_setKind, if_neg hne]

/-- A kind keeps the tokens of its last key. -/
theorem exists_last (sorted : Sorted entries) (h : indices done entries = .ok indexed)
    (he : e ∈ entries) (hkind : EvidenceKind.parse? e.1 = some kind) :
    ∃ last, IsLast entries e last ∧ indexed.lookup kind = some (.ofTokens last.2) := by
  induction entries generalizing done e with
  | nil => contradiction
  | cons first rest ih =>
    obtain ⟨named, hnamed, hrest⟩ := indices_cons_ok h
    obtain ⟨hfirst, hsorted⟩ := List.pairwise_cons.mp sorted
    -- A later entry of the kind has a greater key; without one this entry is the last.
    by_cases hmore : ∃ later ∈ rest, SameKind later e
    · obtain ⟨later, hlater, hsame⟩ := hmore
      obtain ⟨last, hlast, hlookup⟩ := ih hsorted hrest hlater (hsame.trans hkind)
      refine ⟨last, ⟨List.mem_cons_of_mem _ hlast.mem, hlast.same.trans hsame, ?_⟩, hlookup⟩
      intro e' he' hsame'
      rcases List.mem_cons.mp he' with rfl | he'
      · exact Std.le_of_lt (hfirst last hlast.mem)
      · exact hlast.le e' he' (hsame'.trans hsame.symm)
    · have hother : ∀ e' ∈ rest, ¬ SameKind e' e := fun e' he' hsame => hmore ⟨e', he', hsame⟩
      obtain rfl : e = first := (List.mem_cons.mp he).resolve_right fun he => hother e he rfl
      obtain rfl : kind = named := Option.some.inj (hkind.symm.trans hnamed)
      refine ⟨e, ⟨List.mem_cons_self, rfl, fun e' he' hsame => ?_⟩, ?_⟩
      · rcases List.mem_cons.mp he' with rfl | he'
        · exact String.le_refl _
        · exact absurd hsame (hother e' he')
      · have hnames : ∀ e' ∈ rest, EvidenceKind.parse? e'.1 ≠ some kind := fun e' he' hk =>
          hother e' he' (hk.trans hkind.symm)
        rw [lookup_indices_of_other hrest hnames, lookup_setKind, if_pos rfl]

end Kinds

theorem parse_ok {text : String} {v : ModelVocabulary} (h : parse text = .ok v) :
    ∃ symbols stored, readDoc (Document.ofString text).root = .ok (symbols, stored) ∧
      indices [] stored = .ok v.evidence := by
  unfold parse at h
  split at h
  · contradiction
  · next symbols stored hread =>
    obtain ⟨read, hroot, htrailing⟩ := bind_ok hread
    obtain rfl : read = (symbols, stored) := by
      split at htrailing
      · contradiction
      · exact Except.ok.inj htrailing
    split at h
    · contradiction
    · obtain ⟨indexed, hindexed, hv⟩ := bind_ok h
      rw [← Except.ok.inj hv]
      exact ⟨symbols, stored, hroot, hindexed⟩

/-- In a vocabulary that was read every key of the evidence names a kind, and of the entries for one
kind that with the last key is kept. So all are kept exactly if entries for the same kind list the
same tokens. -/
theorem keeps_of_parse {text : String} {v : ModelVocabulary} {d : Doc} (h : parse text = .ok v)
    (evidence : EvidenceMember (Document.ofString text).root d) :
    ∃ entries, d = Doc.ofEntries entries ∧ ((entries.map (·.1)).Nodup →
      (∀ e ∈ entries, ∃ last, IsLast entries e last ∧ v.Keeps last) ∧
      ((∀ e ∈ entries, v.Keeps e) ↔
        ∀ e ∈ entries, ∀ e' ∈ entries, SameKind e e' →
          TokenIndex.ofTokens e.2 = .ofTokens e'.2)) := by
  obtain ⟨symbols, stored, hread, hindices⟩ := parse_ok h
  obtain ⟨entries, rfl, hstored⟩ := readMap_ok (readMap_of_readDoc hread evidence)
  refine ⟨entries, rfl, fun distinct => ?_⟩
  obtain ⟨hsorted, hmem⟩ := hstored distinct
  have hlast : ∀ e ∈ entries, ∃ last, IsLast entries e last ∧ v.Keeps last := by
    intro e he
    obtain ⟨kind, hkind⟩ := parse?_of_indices hindices ((hmem e).mpr he)
    obtain ⟨last, hlast, hlookup⟩ := exists_last hsorted hindices ((hmem e).mpr he) hkind
    exact ⟨last, hlast.of_mem_iff hmem, kind, hlast.same.trans hkind, hlookup⟩
  refine ⟨hlast, fun hkept e he e' he' hsame => ?_, fun hagree e he => ?_⟩
  · obtain ⟨kind, hkind, hlookup⟩ := hkept e he
    obtain ⟨kind', hkind', hlookup'⟩ := hkept e' he'
    obtain rfl : kind = kind' := Option.some.inj (hkind.symm.trans (hsame.trans hkind'))
    exact Option.some.inj (hlookup.symm.trans hlookup')
  · obtain ⟨last, hlast, kind, hkind, hlookup⟩ := hlast e he
    refine ⟨kind, hlast.same.symm.trans hkind, hlookup.trans (congrArg some ?_)⟩
    exact hagree last hlast.mem e he hlast.same

/-- A vocabulary with two spellings of one kind. -/
def twice : String :=
  "\x7b\"decoder\":[\"DSubTree\",\"STOP\",\"DBranch\",\"DLoop\",\"DExcept\"]," ++
    "\"evidence\":\x7b\"api_calls\":[\"exists\",\"read\"],\"apicalls\":[\"open\"]\x7d\x7d"

theorem document_twice : Document.ofString twice =
    ⟨.object [(.ok "decoder", Doc.texts ["DSubTree", "STOP", "DBranch", "DLoop", "DExcept"]),
      (.ok "evidence", Doc.ofEntries [("api_calls", ["exists", "read"]), ("apicalls", ["open"])])]
      none, false⟩ := by
  cbv

theorem parse_twice : parse twice =
    .ok ⟨⟨["DSubTree", "STOP", "DBranch", "DLoop", "DExcept"],
        [("DExcept", 4), ("DLoop", 3), ("DBranch", 2), ("STOP", 1), ("DSubTree", 0)],
        ⟨0, 1, 2, 3, 4⟩⟩,
      [(.apiCalls, ⟨["open"]⟩)]⟩ := by
  rw [parse, document_twice]
  cbv

theorem evidence_twice : EvidenceMember (Document.ofString twice).root
    (Doc.ofEntries [("api_calls", ["exists", "read"]), ("apicalls", ["open"])]) := by
  rw [document_twice]
  exact .member (.tail _ (.head _))

/-- The second key is the last of its kind, so its tokens are kept, and those of the first are not
the same. -/
theorem keeps_of_parse_twice :
    let entries := [("api_calls", ["exists", "read"]), ("apicalls", ["open"])]
    ∃ v, parse twice = .ok v ∧
      EvidenceMember (Document.ofString twice).root (Doc.ofEntries entries) ∧
      (entries.map (·.1)).Nodup ∧
      IsLast entries ("api_calls", ["exists", "read"]) ("apicalls", ["open"]) ∧
      v.Keeps ("apicalls", ["open"]) ∧ ¬ ∀ e ∈ entries, v.Keeps e := by
  intro entries
  have distinct : (entries.map (·.1)).Nodup := by decide
  have hsame : SameKind ("apicalls", ["open"]) ("api_calls", ["exists", "read"]) := by
    unfold SameKind
    cbv
  obtain ⟨read, heq, hkept⟩ := keeps_of_parse parse_twice evidence_twice
  obtain rfl : entries = read := Doc.ofEntries_inj heq
  obtain ⟨hlasts, hall⟩ := hkept distinct
  obtain ⟨last, hlast, hkeeps⟩ := hlasts _ List.mem_cons_self
  obtain rfl : last = ("apicalls", ["open"]) := by
    rcases List.mem_cons.mp hlast.mem with rfl | hmem
    · exact absurd (hlast.le ("apicalls", ["open"]) (by simp [entries]) hsame) (by decide)
    · exact List.mem_singleton.mp hmem
  refine ⟨_, parse_twice, evidence_twice, distinct, hlast, hkeeps, fun hkept => ?_⟩
  have htokens := hall.mp hkept _ hlast.mem _ List.mem_cons_self hsame
  exact absurd htokens (by decide)

/-- The keys differ, and the tokens of the first are lost. -/
theorem not_keeps_twice :
    ∃ v entries, parse twice = .ok v ∧
      EvidenceMember (Document.ofString twice).root (Doc.ofEntries entries) ∧
      (entries.map (·.1)).Nodup ∧ ∃ e ∈ entries, ¬ v.Keeps e := by
  refine ⟨_, _, parse_twice, evidence_twice, by decide, _, List.mem_cons_self, ?_⟩
  rintro ⟨kind, hkind, hlookup⟩
  have hcalls : EvidenceKind.parse? "api_calls" = some .apiCalls := by cbv
  obtain rfl : EvidenceKind.apiCalls = kind := Option.some.inj (hcalls.symm.trans hkind)
  have hlost : some (TokenIndex.ofTokens ["exists", "read"]) ≠ some ⟨["open"]⟩ := by decide
  exact hlost hlookup.symm

end ModelVocabulary
end ProgramSearch
