import TripleCube.Text.Hex

/-! Everything that can go wrong, by cause. The wording of each cause is in the `text`
functions here, and `Error.message` puts the kind in front. Causes that only the caller
can name, such as the failure of its own reader or writer, are carried as text. -/
namespace TripleCube

/-- The axes of a cube; a matrix has the first two. -/
inductive Dimension
  | x
  | y
  | z
  deriving DecidableEq, Repr

def Dimension.name : Dimension → String
  | .x => "x"
  | .y => "y"
  | .z => "z"

/-- An argument outside its domain. -/
inductive ArgumentFault
  | belowWild (axis : Dimension) (value : Int32)
  | wildCoordinate (axis : Dimension)
  | negativeCoordinate (axis : Dimension) (value : Int32)
  | negativeIndex (value : Int32)
  | fieldTooLong (field : String) (bytes : Nat)
  | wildcardTriple (triple : String)
  | openTriple (triple : String)
  | other (text : String)
  deriving DecidableEq

def ArgumentFault.text : ArgumentFault → String
  | .belowWild axis value =>
    s!"{axis.name} ({value}) must be greater than or equal to 0 or WILD"
  | .wildCoordinate axis => s!"{axis.name} must be a concrete coordinate, not WILD"
  | .negativeCoordinate axis value => s!"{axis.name} ({value}) must be greater than or equal to 0"
  | .negativeIndex value => s!"record index ({value}) must be greater than or equal to 0"
  | .fieldTooLong field bytes => s!"{field} of {bytes} bytes is too long"
  | .wildcardTriple triple => s!"cannot add wildcard triple {triple}"
  | .openTriple triple => s!"triple {triple} is not concrete"
  | .other text => text

/-- A call that the state does not allow. -/
inductive StateFault
  | closed
  | full
  | indexAssigned (index : Int32)
  | recordTooLong (index : Int32) (bytes : Nat)
  | other (text : String)
  deriving DecidableEq

def StateFault.text : StateFault → String
  | .closed => "dictionary is closed"
  | .full => "dictionary is full"
  | .indexAssigned index => s!"record already has index {index}"
  | .recordTooLong index bytes => s!"record {index} of {bytes} bytes is too long to write"
  | .other text => text

/-- Bytes that have the right parts but not the right form. -/
inductive FormatFault
  | hashMismatch (stored computed : UInt32)
  | noLexicalForm
  | fieldLength (field : String) (length : Int32)
  | trailing (bytes : Nat)
  | other (text : String)
  deriving DecidableEq

def FormatFault.text : FormatFault → String
  | .hashMismatch stored computed =>
    let shown (hash : UInt32) := Text.hex 8 hash.toNat
    s!"content hash mismatch: stored {shown stored}, computed {shown computed}"
  | .noLexicalForm => "literal without lexical form"
  | .fieldLength field length => s!"{field} length {length}"
  | .trailing bytes => s!"{bytes} trailing bytes after literal"
  | .other text => text

/-- Bytes that are no record, or records that make no dictionary. -/
inductive RecordFault
  | format (fault : FormatFault)
  | unknownTag (tag : UInt8)
  | truncated
  | notUtf8
  | cutShort (length : UInt32) (found : Nat)
  | wrongIndex (expected : Nat) (found : Int32)
  | duplicate (index : Int32)
  | other (text : String)
  deriving DecidableEq

def RecordFault.text : RecordFault → String
  | .format fault => s!"Invalid encoding format: {fault.text}"
  | .unknownTag tag => s!"Unknown node type tag 0x{Text.hex 2 tag.toNat}"
  | .truncated => "Truncated data"
  | .notUtf8 => "Invalid UTF-8 sequence"
  | .cutShort length found => s!"record of {length} bytes truncated to {found}"
  | .wrongIndex expected found => s!"expected index {expected} but found {found}"
  | .duplicate index => s!"duplicate content at index {index}"
  | .other text => text

/-- Snapshots that cannot be written or read. -/
inductive SnapshotFault
  | truncated
  | zeroPageSize
  | unwritable (cause : String)
  | unreadable (cause : String)
  | other (text : String)
  deriving DecidableEq

def SnapshotFault.text : SnapshotFault → String
  | .truncated => "truncated snapshot"
  | .zeroPageSize => "page size must be positive"
  | .unwritable cause => s!"serialization failed: {cause}"
  | .unreadable cause => s!"deserialization failed: {cause}"
  | .other text => text

inductive Error
  /-- A reader or writer failed outside any field. -/
  | io (cause : String)
  | decode (field : String) (cause : String)
  | encode (field : String) (cause : String)
  | invalidArgument (fault : ArgumentFault)
  | invalidState (fault : StateFault)
  /-- A dictionary index that was never assigned. -/
  | indexNotFound (index : Int32)
  | invalidRecord (fault : RecordFault)
  | snapshot (fault : SnapshotFault)
  deriving DecidableEq

namespace Error

def message : Error → String
  | .io cause => s!"I/O error: {cause}"
  | .decode field cause => s!"Failed to decode {field}: {cause}"
  | .encode field cause => s!"Failed to encode {field}: {cause}"
  | .invalidArgument fault => s!"Invalid argument: {fault.text}"
  | .invalidState fault => s!"Invalid state: {fault.text}"
  | .indexNotFound index => s!"Index {index} not found"
  | .invalidRecord fault => s!"Invalid record: {fault.text}"
  | .snapshot fault => s!"Snapshot error: {fault.text}"

/-- The failure of a reader or writer that lies behind an error. -/
def source? : Error → Option String
  | .io cause | .decode _ cause | .encode _ cause => some cause
  | _ => none

end Error

end TripleCube
