import TripleCube.Error
import TripleCube.Node

/-! Record kinds and the tags that stand for them. -/
namespace TripleCube

inductive RecordKind
  | any
  | blank
  | literal
  | uri
  | var
  /-- A literal whose payload is compressed. -/
  | compressedLiteral
  deriving DecidableEq

namespace RecordKind

/-- Added to a tag when the payload is compressed. -/
def compressedFlag : UInt8 := 0x10

def tag : RecordKind → UInt8
  | any => 0
  | blank => 1
  | literal => 2
  | uri => 3
  | var => 4
  | compressedLiteral => compressedFlag ||| 2

def ofTag (tag : UInt8) : Except RecordFault RecordKind :=
  if tag = 0 then .ok any
  else if tag = 1 then .ok blank
  else if tag = 2 then .ok literal
  else if tag = 3 then .ok uri
  else if tag = 4 then .ok var
  else if tag = compressedLiteral.tag then .ok compressedLiteral
  else .error (.unknownTag tag)

/-- The kind of a node's record when nothing is compressed. -/
def ofNode : Node → RecordKind
  | .any => any
  | .uri _ => uri
  | .blank _ => blank
  | .literal _ => literal
  | .var _ => var

@[simp] theorem ofTag_tag (kind : RecordKind) : ofTag kind.tag = .ok kind := by
  cases kind <;> rfl

theorem tag_eq_of_ofTag {tag : UInt8} {kind : RecordKind} (h : ofTag tag = .ok kind) :
    kind.tag = tag := by
  unfold ofTag at h
  grind [RecordKind.tag]

end RecordKind

end TripleCube
