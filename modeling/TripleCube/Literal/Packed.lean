import TripleCube.Bytes.Digits
import TripleCube.Bytes.Stream
import TripleCube.Error
import TripleCube.Node
import TripleCube.Text.Utf8

/-! Packed literals: lexical form, language and datatype one after the other, each behind
its length in a signed word of four bytes. The length -1 marks an absent field, so an
empty field and an absent one differ. -/
namespace TripleCube.Literal

/-- The length that marks an absent field. -/
def absent : Int32 := -1

/-- The least length that a field cannot have. -/
def lengthLimit : Nat := 1 <<< 31

def packField (name : String) : Option String → Except Error (List UInt8)
  | none => .ok (Bytes.big 4 absent.toUInt32.toNat)
  | some text =>
    let bytes := Text.Utf8.encode text
    if bytes.length < lengthLimit then .ok (Bytes.big 4 bytes.length ++ bytes)
    else .error (.invalidArgument (.fieldTooLong name bytes.length))

def pack (l : Literal) : Except Error (List UInt8) := do
  let lexical ← packField "lexical" (some l.lexical)
  let language ← packField "language" l.language
  let datatype ← packField "datatype" l.datatype
  return lexical ++ language ++ datatype

/-- A field from the front of some bytes, and the bytes behind it. -/
def unpackField (name : String) (bytes : List UInt8) :
    Except Error (Option String × List UInt8) :=
  if bytes.length < 4 then .error (.decode name Source.Fault.ended.text)
  else
    let length := (UInt32.ofNat (Bytes.ofBig (bytes.take 4))).toInt32
    let rest := bytes.drop 4
    if length = absent then .ok (none, rest)
    else if length < 0 then .error (.invalidRecord (.format (.fieldLength name length)))
    else
      let count := length.toInt.toNat
      if rest.length < count then .error (.invalidRecord .truncated)
      else match Text.Utf8.decode? (rest.take count) with
        | none => .error (.invalidRecord .notUtf8)
        | some text => .ok (some text, rest.drop count)

def unpack (bytes : List UInt8) : Except Error Literal := do
  let (lexical, bytes) ← unpackField "lexical" bytes
  match lexical with
  | none => .error (.invalidRecord (.format .noLexicalForm))
  | some lexical =>
    let (language, bytes) ← unpackField "language" bytes
    let (datatype, bytes) ← unpackField "datatype" bytes
    if bytes.isEmpty then .ok ⟨lexical, language, datatype⟩
    else .error (.invalidRecord (.format (.trailing bytes.length)))

end TripleCube.Literal
