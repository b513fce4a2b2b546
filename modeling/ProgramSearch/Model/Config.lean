import ProgramSearch.Json.Shape
import ProgramSearch.Model.Failure

/-!
# Model configuration

The sizes of a model and the kinds of evidence it encodes, read from JSON and checked.
-/
namespace ProgramSearch

structure EvidenceConfig where
  kind : EvidenceKind
  /-- Hidden units of the dense layer. -/
  units : Nat
  /-- Standard deviation of this kind's encoding. -/
  sigma : Float32
deriving Repr, Inhabited

structure ModelConfig where
  latentSize : Nat
  units : Nat
  embeddingSize : Nat
  batchSize : Nat
  evidence : List EvidenceConfig
deriving Repr, Inhabited

namespace ModelConfig

open Json

def defaultEmbeddingSize : Nat := 128

def defaultBatchSize : Nat := 10

def default : ModelConfig :=
  ⟨256, 256, defaultEmbeddingSize, defaultBatchSize,
    [⟨.apiCalls, 64, 0.1⟩, ⟨.types, 32, 0.1⟩, ⟨.keywords, 64, 0.1⟩]⟩

/-- The first size that is zero. -/
def zeroSize? (c : ModelConfig) : Option String :=
  ([("latent_size", c.latentSize), ("units", c.units), ("embedding_size", c.embeddingSize),
    ("batch_size", c.batchSize)].find? (·.2 == 0)).map (·.1)

/-- The first fault among evidence kinds, of which `seen` came before. -/
def evidenceFault? : List EvidenceKind → List EvidenceConfig → Option ConfigFault
  | _, [] => none
  | seen, e :: rest =>
    if seen.contains e.kind then some (.repeatedKind e.kind)
    else if e.units == 0 || !(0 < e.sigma && e.sigma.isFinite) then some (.badEvidence e.kind)
    else evidenceFault? (e.kind :: seen) rest

def fault? (c : ModelConfig) : Option ConfigFault :=
  match c.zeroSize? with
  | some size => some (.notPositive size)
  | none => evidenceFault? [] c.evidence

/-- Sizes must be positive, deviations positive and finite, and kinds configured once. -/
def validate (c : ModelConfig) : Except ModelFailure Unit :=
  match c.fault? with
  | some fault => .error (.config fault)
  | none => .ok ()

/-- What is wrong where a name should stand and does not: anything else than a text is no value
there. -/
def noName : Damage → Fault
  | ⟨.endInObject, _⟩ => .endInValue
  | ⟨.keyNotString, _⟩ | ⟨.expectedWord, _⟩ | ⟨_, .badNumber⟩ => .expectedValue
  | ⟨fault, _⟩ => fault

def readNull : Value → Except Fault Unit
  | .null => .ok ()
  | v => v.mismatch "unit"

/-- A name out of a list of variants, alone or as the one member of an object that holds null. -/
def readVariant {α : Type} (variants : List (String × α)) (d : Doc) : Except Fault α :=
  let named (key : String) : Except Fault α :=
    match variants.lookup key with
    | some a => .ok a
    | none => .error (.unknownVariant key (variants.map (·.1)))
  match d with
  | .string s => do named (← s)
  | .object [] none => .error .expectedValue
  | .object [] (some damage) => .error (noName damage)
  | .object ((key, d) :: rest) ending => do
    let a ← named (← key)
    d.scalar readNull
    match rest, ending.map Damage.fault with
    | [], none => .ok a
    | [], some .endInObject => .error .endInObject
    | _, _ => .error .expectedValue
  | .broken damage => .error (noName damage)
  | _ => .error .expectedValue

def kindVariants : List (String × EvidenceKind) :=
  EvidenceKind.all.map fun kind => (kind.name, kind)

/-- The fields of an evidence entry met so far. -/
structure PartialEvidence where
  kind : Option EvidenceKind
  units : Option Nat
  sigma : Option Float32

def readEvidence (d : Doc) : Except Fault EvidenceConfig := do
  let p ← d.record "EvidenceConfig" ["kind", "units", "sigma"] []
    (fun (p : PartialEvidence) field d => do
      match field with
      | "kind" => return { p with kind := some (← readVariant kindVariants d) }
      | "units" => return { p with units := some (← d.scalar Value.count) }
      | _ => return { p with sigma := some (← d.scalar Value.single) })
    ⟨none, none, none⟩
  return ⟨← required "kind" p.kind, ← required "units" p.units, ← required "sigma" p.sigma⟩

/-- The fields of a configuration met so far. -/
structure PartialConfig where
  latentSize : Option Nat
  units : Option Nat
  embeddingSize : Option Nat
  batchSize : Option Nat
  evidence : Option (List EvidenceConfig)

def readDoc (d : Doc) : Except Fault ModelConfig := do
  let p ← d.record "ModelConfig"
    ["latent_size", "units", "embedding_size", "batch_size", "evidence"]
    ["embedding_size", "batch_size"]
    (fun (p : PartialConfig) field d => do
      match field with
      | "latent_size" => return { p with latentSize := some (← d.scalar Value.count) }
      | "units" => return { p with units := some (← d.scalar Value.count) }
      | "embedding_size" => return { p with embeddingSize := some (← d.scalar Value.count) }
      | "batch_size" => return { p with batchSize := some (← d.scalar Value.count) }
      | _ => return { p with evidence := some (← d.list readEvidence) })
    ⟨none, none, none, none, none⟩
  return {
    latentSize := ← required "latent_size" p.latentSize
    units := ← required "units" p.units
    embeddingSize := p.embeddingSize.getD defaultEmbeddingSize
    batchSize := p.batchSize.getD defaultBatchSize
    evidence := ← required "evidence" p.evidence }

/-- Reads and checks a configuration. -/
def parse (text : String) : Except ModelFailure ModelConfig :=
  match (Document.ofString text).decode readDoc with
  | .error fault => .error (.json fault)
  | .ok c => do
    c.validate
    return c

end ModelConfig

end ProgramSearch
