import TripleCube.Text.Quoted

/-! Nodes and the triples they form. -/
namespace TripleCube

/-- A literal. An absent language or datatype differs from an empty one. -/
structure Literal where
  lexical : String
  language : Option String := none
  datatype : Option String := none
  deriving DecidableEq

namespace Literal

/-- Nothing for the empty text. -/
def nonEmpty? (text : String) : Option String := if text.isEmpty then none else some text

/-- Sets the language; the empty text takes it away. -/
def withLanguage (l : Literal) (language : String) : Literal :=
  { l with language := nonEmpty? language }

/-- Sets the datatype; the empty text takes it away. -/
def withDatatype (l : Literal) (datatype : String) : Literal :=
  { l with datatype := nonEmpty? datatype }

/-- The lexical form in quotes, then the language and the datatype as they stand. -/
protected def toString (l : Literal) : String :=
  let language := match l.language with
    | none => ""
    | some language => s!"@{language}"
  let datatype := match l.datatype with
    | none => ""
    | some datatype => s!"^^<{datatype}>"
  Text.quoted l.lexical ++ language ++ datatype

end Literal

inductive Node
  /-- Stands for every node; it is never stored. -/
  | any
  | uri (uri : String)
  | blank (label : String)
  | literal (literal : Literal)
  | var (name : String)
  deriving DecidableEq

namespace Node

def isAny : Node → Bool
  | any => true
  | _ => false

protected def toString : Node → String
  | any => "ANY"
  | uri text => s!"<{text}>"
  | blank label => s!"_:{label}"
  | literal l => l.toString
  | var name => s!"?{name}"

end Node

structure Triple where
  subject : Node
  predicate : Node
  object : Node
  deriving DecidableEq

namespace Triple

/-- Whether every position names one node. -/
def isConcrete (t : Triple) : Bool := !(t.subject.isAny || t.predicate.isAny || t.object.isAny)

protected def toString (t : Triple) : String :=
  s!"{t.subject.toString} {t.predicate.toString} {t.object.toString} ."

end Triple

end TripleCube
