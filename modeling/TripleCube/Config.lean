import TripleCube.Sparse.PageSize

/-! Settings of a store and of its dictionary. -/
namespace TripleCube

structure Config where
  /-- Page size of the store's cube. A zero that was assigned directly stays visible here,
  and the cube raises it to one. -/
  pageSize : UInt32 := PageSize.standard.val
  /-- Packed literals longer than this many bytes are stored compressed. -/
  threshold : Nat := 128
  /-- How many decoded nodes the dictionary keeps; zero keeps none. -/
  cacheSize : Nat := 1024
  deriving DecidableEq

namespace Config

/-- Sets the page size, raising zero to one. -/
def withPageSize (config : Config) (size : UInt32) : Config :=
  { config with pageSize := (PageSize.clamp size).val }

def withThreshold (config : Config) (bytes : Nat) : Config := { config with threshold := bytes }

def withCacheSize (config : Config) (entries : Nat) : Config := { config with cacheSize := entries }

/-- The page size of the cube of a store so configured. -/
def cubePageSize (config : Config) : PageSize := PageSize.clamp config.pageSize

end Config

end TripleCube
