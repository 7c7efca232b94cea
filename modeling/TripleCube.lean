import TripleCube.Config
import TripleCube.Describe
import TripleCube.Dictionary.Stream
import TripleCube.Grid.CubeSearch
import TripleCube.Proofs.Cache.Latest
import TripleCube.Proofs.Cache.Reads
import TripleCube.Proofs.Cache.Return
import TripleCube.Proofs.Dictionary.Caching
import TripleCube.Proofs.Dictionary.Reload
import TripleCube.Proofs.Dictionary.Torn
import TripleCube.Proofs.Exact
import TripleCube.Proofs.Grid.Alike
import TripleCube.Proofs.Grid.CellSet
import TripleCube.Proofs.Grid.Drift
import TripleCube.Proofs.Grid.Refusal
import TripleCube.Proofs.Record.Damage
import TripleCube.Proofs.Record.Decoding
import TripleCube.Proofs.Record.Encoding
import TripleCube.Proofs.Record.Format
import TripleCube.Proofs.Shared.Interleaved
import TripleCube.Proofs.Snapshot.History
import TripleCube.Proofs.Snapshot.Reload
import TripleCube.Proofs.Snapshot.Torn
import TripleCube.Proofs.Sparse.Entries
import TripleCube.Proofs.Sparse.IndexSet
import TripleCube.Proofs.Sparse.Iteration
import TripleCube.Proofs.Store.Alike
import TripleCube.Proofs.Store.Matching
import TripleCube.Proofs.Store.Reading
import TripleCube.Proofs.Store.Refusal
import TripleCube.Proofs.Store.TripleSet
import TripleCube.Proofs.Torn
import TripleCube.Record.Format
import TripleCube.Snapshot.CubeSnapshot
import TripleCube.Sparse.Scan
import TripleCube.Store
