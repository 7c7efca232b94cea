import TripleCube.Error
import TripleCube.Sparse.PagedMap

/-! Coordinates. A coordinate is a signed word of which only the values from zero up
name a cell; `wild` stands for every value in a search pattern. -/
namespace TripleCube

/-- The coordinate that matches every value. -/
def wild : Int32 := -1

/-- What a search admits along one axis. -/
inductive Axis
  | any
  | only (index : UInt32)
  deriving DecidableEq

namespace Axis

/-- Reads a coordinate of a search pattern. -/
def pattern (axis : Dimension) (value : Int32) : Except Error Axis :=
  if value = wild then .ok .any
  else if value < 0 then .error (.invalidArgument (.belowWild axis value))
  else .ok (.only value.toUInt32)

/-- Reads a coordinate that has to name a cell. -/
def concrete (axis : Dimension) (value : Int32) : Except Error UInt32 :=
  if value = wild then .error (.invalidArgument (.wildCoordinate axis))
  else if value < 0 then .error (.invalidArgument (.negativeCoordinate axis value))
  else .ok value.toUInt32

/-- The position at which a search along the axis begins. -/
def start : Axis → UInt64
  | any => 0
  | only index => index.toUInt64

end Axis

/-- The first answer of `f` along the entries that an axis admits, at or past a position. -/
def PagedMap.findAlong? {p : PageSize} {α β : Type} (m : PagedMap p α) (axis : Axis)
    (start : UInt64) (f : UInt32 → α → Option β) : Option β :=
  match axis with
  | .any => m.findFrom? start f
  | .only index => if start ≤ index.toUInt64 then (m.get? index).bind (f index) else none

end TripleCube
