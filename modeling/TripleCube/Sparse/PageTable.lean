/-! Page tables: the pages that hold something, in ascending order of their offsets.
An absent page stands for one that holds nothing. -/
namespace TripleCube

/-- Pages with their offsets. Every operation keeps the offsets strictly ascending. -/
abbrev PageTable (Page : Type) := List (UInt32 × Page)

namespace PageTable

variable {Page : Type}

/-- The page at an offset. The search stops at the first larger offset. -/
def find? : PageTable Page → UInt32 → Option Page
  | [], _ => none
  | (o, page) :: rest, offset =>
    if o < offset then find? rest offset else if o = offset then some page else none

/-- Links a page at its place, or replaces the one that is there. -/
def link : PageTable Page → UInt32 → Page → PageTable Page
  | [], offset, page => [(offset, page)]
  | (o, old) :: rest, offset, page =>
    if o < offset then (o, old) :: link rest offset page
    else if o = offset then (offset, page) :: rest
    else (offset, page) :: (o, old) :: rest

/-- Drops the page at an offset. -/
def unlink : PageTable Page → UInt32 → PageTable Page
  | [], _ => []
  | (o, old) :: rest, offset =>
    if o < offset then (o, old) :: unlink rest offset
    else if o = offset then rest
    else (o, old) :: rest

/-- The pages at or past an offset, which may lie beyond every page. -/
def startingAt (pages : PageTable Page) (offset : UInt64) : PageTable Page :=
  pages.dropWhile fun entry => entry.1.toUInt64 < offset

/-- Strictly ascending offsets. -/
def Ascending (pages : PageTable Page) : Prop := pages.Pairwise fun a b => a.1 < b.1

end PageTable

end TripleCube
