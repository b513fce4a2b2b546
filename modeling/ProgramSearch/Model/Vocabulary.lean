import ProgramSearch.Json.Shape
import ProgramSearch.Model.Failure
import ProgramSearch.Symbols

/-!
# Model vocabularies

The symbols of the decoder and, for each kind of evidence, the tokens its encoder knows. Keys of
the evidence are names or fields of kinds.
-/
namespace ProgramSearch

/-- The tokens of a kind, each once; a token's index is its position. -/
structure TokenIndex where
  tokens : List String
deriving Repr, DecidableEq, Inhabited

namespace TokenIndex

def ofTokens (tokens : List String) : TokenIndex := ⟨tokens.eraseDups⟩

def size (t : TokenIndex) : Nat := t.tokens.length

/-- The index of a token, if it is known. -/
def index? (t : TokenIndex) (token : String) : Option Nat := t.tokens.idxOf? token

/-- Marks a token in a bag, and that some token is known; an unknown token is ignored. -/
def mark (t : TokenIndex) (marked : List Float32 × Bool) (token : String) : List Float32 × Bool :=
  match t.index? token with
  | some i => (marked.1.set i 1, true)
  | none => marked

/-- The bag of some tokens: marks at those that occur. No bag when none is known. -/
def bag (t : TokenIndex) (tokens : List String) : Option (List Float32) :=
  let (bag, known) := tokens.foldl t.mark (List.replicate t.size 0, false)
  if known then some bag else none

end TokenIndex

structure ModelVocabulary where
  decoder : Vocabulary
  evidence : List (EvidenceKind × TokenIndex)
deriving Repr, DecidableEq, Inhabited

namespace ModelVocabulary

open Json

def readTexts (d : Doc) : Except Fault (List String) := d.list (·.scalar Value.text)

def readEntries (done : List (String × List String)) :
    List (Except Fault String × Doc) → Except Fault (List (String × List String))
  | [] => .ok done
  | (key, d) :: rest => do
    let key ← key
    let tokens ← readTexts d
    readEntries (setMember key tokens done) rest

/-- Token lists by key, sorted; the last of equal keys counts. -/
def readMap : Doc → Except Fault (List (String × List String))
  | .object members ending => do
    let entries ← readEntries [] members
    match ending with
    | some damage => .error damage.fault
    | none => .ok entries
  | d => d.scalar (·.mismatch "a map")

/-- The members of a vocabulary file met so far. -/
structure PartialVocabulary where
  decoder : Option (List String)
  evidence : Option (List (String × List String))

def readDoc (d : Doc) : Except Fault (List String × List (String × List String)) := do
  let p ← d.record "RawVocab" ["decoder", "evidence"] ["evidence"]
    (fun (p : PartialVocabulary) field d => do
      match field with
      | "decoder" => return { p with decoder := some (← readTexts d) }
      | _ => return { p with evidence := some (← readMap d) })
    ⟨none, none⟩
  return (← required "decoder" p.decoder, p.evidence.getD [])

/-- Sets the index of a kind. -/
def setKind (kind : EvidenceKind) (index : TokenIndex)
    (evidence : List (EvidenceKind × TokenIndex)) : List (EvidenceKind × TokenIndex) :=
  evidence.filter (·.1 != kind) ++ [(kind, index)]

/-- The indices of all keys, taken in order; a key of a kind that is there already takes its
place. -/
def indices : List (EvidenceKind × TokenIndex) → List (String × List String) →
    Except ModelFailure (List (EvidenceKind × TokenIndex))
  | done, [] => .ok done
  | done, (key, tokens) :: rest =>
    match EvidenceKind.parse? key with
    | none => .error (.vocabulary (.unknownKind key))
    | some kind => indices (setKind kind (.ofTokens tokens) done) rest

/-- Reads a vocabulary file. -/
def parse (text : String) : Except ModelFailure ModelVocabulary :=
  match (Document.ofString text).decode readDoc with
  | .error fault => .error (.json fault)
  | .ok (symbols, entries) =>
    match Vocabulary.ofSymbols symbols with
    | .error failure => .error (.vocabulary (.decoder failure))
    | .ok decoder => do
      let evidence ← indices [] entries
      return ⟨decoder, evidence⟩

/-- The index of a kind, which must know some token. -/
def index (v : ModelVocabulary) (kind : EvidenceKind) : Except ModelFailure TokenIndex :=
  match v.evidence.lookup kind with
  | some t => if t.tokens.isEmpty then .error (.vocabulary (.noTokens kind)) else .ok t
  | none => .error (.vocabulary (.noTokens kind))

end ModelVocabulary

end ProgramSearch
