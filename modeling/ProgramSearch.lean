import ProgramSearch.Main
import ProgramSearch.Proofs.Group
import ProgramSearch.Proofs.Database.Contents
import ProgramSearch.Proofs.Database.Filling
import ProgramSearch.Proofs.Ranking.Order
import ProgramSearch.Proofs.Ranking.Selection
import ProgramSearch.Proofs.Ranking.StableSort
import ProgramSearch.Proofs.Ranking.Contents
import ProgramSearch.Proofs.Batch
import ProgramSearch.Proofs.Ranking.Batches
import ProgramSearch.Proofs.Json.Scanning
import ProgramSearch.Proofs.Json.Reading
import ProgramSearch.Proofs.Json.Stopping
import ProgramSearch.Proofs.Json.Texts
import ProgramSearch.Proofs.QueryFile
import ProgramSearch.Proofs.Beam.Growth
import ProgramSearch.Proofs.Ast.Reading
import ProgramSearch.Proofs.Ast.Calls
import ProgramSearch.Proofs.Ast.Linear
import ProgramSearch.Proofs.Evaluation.FirstHits
import ProgramSearch.Proofs.Single.Pattern
import ProgramSearch.Proofs.Single.Sum
import ProgramSearch.Proofs.Results
import ProgramSearch.Proofs.Beam.Contract
import ProgramSearch.Proofs.Beam.Shape
import ProgramSearch.Proofs.Beam.Round
import ProgramSearch.Proofs.Beam.Run
import ProgramSearch.Proofs.Beam.Safety
import ProgramSearch.Proofs.Beam.Distinct
import ProgramSearch.Proofs.Beam.Replay
import ProgramSearch.Proofs.Beam.Exhaustive
import ProgramSearch.Proofs.Beam.Calls
import ProgramSearch.Proofs.Beam.Greedy
import ProgramSearch.Proofs.Beam.Stopping
import ProgramSearch.Proofs.SortedMap
import ProgramSearch.Proofs.SortedSet
import ProgramSearch.Proofs.Program
import ProgramSearch.Proofs.Sequences
import ProgramSearch.Proofs.Evaluation.Labels
import ProgramSearch.Proofs.Evaluation.Unranked
import ProgramSearch.Proofs.Json.Steps
import ProgramSearch.Proofs.Json.Cut
import ProgramSearch.Proofs.Json.Fuel
import ProgramSearch.Proofs.Json.Blanks
import ProgramSearch.Proofs.Json.Depth
import ProgramSearch.Proofs.Text.Bytes
import ProgramSearch.Proofs.Text.Lines
import ProgramSearch.Proofs.Text.Words
import ProgramSearch.Proofs.Text.Comments
import ProgramSearch.Proofs.Corpus.Collecting
import ProgramSearch.Proofs.Corpus.Names
import ProgramSearch.Proofs.Corpus.Damage
import ProgramSearch.Proofs.Corpus.Layouts
import ProgramSearch.Proofs.Corpus.Windows
import ProgramSearch.Proofs.Corpus.Loading
import ProgramSearch.Proofs.Text.Spacing
import ProgramSearch.Proofs.Database.Pushes
import ProgramSearch.Proofs.Corpus.Streams
import ProgramSearch.Proofs.Database.Operations
import ProgramSearch.Proofs.Double.Whole
import ProgramSearch.Proofs.Evaluation.Counters
import ProgramSearch.Proofs.Evidence
import ProgramSearch.Proofs.Sorting
import ProgramSearch.Proofs.Single.Order
import ProgramSearch.Proofs.Model.TopRows
import ProgramSearch.Proofs.Evidence.Fields
import ProgramSearch.Proofs.Model.Encoder
import ProgramSearch.Proofs.Json.Records
import ProgramSearch.Proofs.Model.Vocabulary
import ProgramSearch.Proofs.Beam.Links
import ProgramSearch.Proofs.SymbolTree
import ProgramSearch.Proofs.Ast.Chains
import ProgramSearch.Proofs.Model.Decoder
import ProgramSearch.Proofs.Json.Reordered
import ProgramSearch.Proofs.Json.Contents
import ProgramSearch.Proofs.Json.Written
import ProgramSearch.Proofs.Ast.Json
