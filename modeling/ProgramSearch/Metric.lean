import ProgramSearch.Embedding
import ProgramSearch.Text.Lowercase

/-!
# Similarity measures

A score is always "higher is better"; the two zeros score alike.
-/
namespace ProgramSearch

open ProgramSearch.Embedding

inductive Metric where
  | squaredEuclidean
  | innerProduct
  | cosine
deriving Repr, DecidableEq, Inhabited

namespace Metric

/-- Scores `row` against `query`. The norms are read by the cosine only, which scores a zero
vector 0. -/
def score (metric : Metric) (query : Embedding) (queryNorm : Float32) (row : Embedding)
    (rowNorm : Float32) : Float32 :=
  let raw : Float32 :=
    match metric with
    | squaredEuclidean => -(sum (List.zipWith (fun q x => (q - x) * (q - x)) query row))
    | innerProduct => dot query row
    | cosine =>
      let denominator := queryNorm * rowNorm
      if denominator == 0 then 0 else dot query row / denominator
  raw + 0

def name : Metric → String
  | squaredEuclidean => "squared_euclidean"
  | innerProduct => "inner_product"
  | cosine => "cosine"

def all : List Metric := [squaredEuclidean, innerProduct, cosine]

/-- The measure of exactly this name. -/
def ofName? (s : String) : Option Metric := all.find? (·.name == s)

/-- Reads a measure by name or short name; case and the kind of dash do not matter. -/
def parse? (s : String) : Option Metric :=
  let s := (Text.lowercase s).map fun c => if c == '-' then '_' else c
  match s with
  | "squared_euclidean" | "euclidean" | "l2" => some squaredEuclidean
  | "inner_product" | "dot" | "ip" => some innerProduct
  | "cosine" | "cos" => some cosine
  | _ => none

def unknownMessage (s : String) : String := s!"Unknown metric: '{s}'"

end Metric

end ProgramSearch
