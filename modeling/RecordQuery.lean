import RecordQuery.MemoryStore.Source
import RecordQuery.Proofs.Compile.Alignment
import RecordQuery.Proofs.Compile.Correctness
import RecordQuery.Proofs.Compile.Discarding
import RecordQuery.Proofs.Compile.Folding
import RecordQuery.Proofs.Condition.Building
import RecordQuery.Proofs.Condition.Pruning
import RecordQuery.Proofs.Expression.Binding
import RecordQuery.Proofs.Expression.Confinement
import RecordQuery.Proofs.Expression.History
import RecordQuery.Proofs.Expression.Parsing
import RecordQuery.Proofs.Expression.Resolution
import RecordQuery.Proofs.Expression.ResultFits
import RecordQuery.Proofs.Expression.StoredResult
import RecordQuery.Proofs.IndexedStore.Refinement
import RecordQuery.Proofs.MemoryStore.Dangling
import RecordQuery.Proofs.MemoryStore.FailedCalls
import RecordQuery.Proofs.MemoryStore.Names
import RecordQuery.Proofs.Program.Engine
import RecordQuery.Proofs.Query.Keywords
import RecordQuery.Proofs.Query.Places
import RecordQuery.Proofs.Query.Translation
import RecordQuery.Proofs.Script.Coverage
import RecordQuery.Proofs.Script.Language
import RecordQuery.Proofs.Script.Lexemes
import RecordQuery.Proofs.Snippet.Fragments
import RecordQuery.Proofs.Snippet.Highlighting
import RecordQuery.Proofs.Snippet.KeywordSets
import RecordQuery.Proofs.Snippet.LeftmostLongest
import RecordQuery.Proofs.Value.Order
