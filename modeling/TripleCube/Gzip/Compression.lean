import TripleCube.Compression
import TripleCube.Gzip.Container

/-! Gzip as the compression of payloads. -/
namespace TripleCube

instance Gzip.compression : Compression where
  compress bytes := .ok (Gzip.compress bytes)
  decompress bytes := (Gzip.decompress bytes).mapError Gzip.Fault.text

end TripleCube
