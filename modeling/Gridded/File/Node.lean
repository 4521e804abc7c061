import Gridded.File.Attribute
import Gridded.File.DataType

namespace Gridded

structure Dimension where
  name : String
  length : Option Nat
  deriving DecidableEq

def Dimension.text (d : Dimension) : String :=
  d.name ++ "(" ++ (d.length.elim "?" toString) ++ ")"

structure Node where
  name : String
  attributes : List (String × AttributeValue)
  deriving DecidableEq

/--
What a node answers about its attributes: the names declared, in order and as often as they are, and
the value that is found for a name.
-/
structure NodeView where
  name : String
  attributeNames : List String
  get? : String → Option AttributeValue

namespace NodeView

variable (v : NodeView)

def textOf (name : String) : Option String := (v.get? name).bind AttributeValue.plainText

def numbersOf (name : String) : List Number := (v.get? name).elim [] AttributeValue.numericValues

end NodeView

namespace Node

def attributeNames (n : Node) : List String := n.attributes.map Prod.fst

def get? (n : Node) (name : String) : Option AttributeValue := n.attributes.lookup name

def put (name : String) (value : AttributeValue) :
    List (String × AttributeValue) → List (String × AttributeValue)
  | [] => [(name, value)]
  | a :: as => if a.1 = name then (name, value) :: as else a :: put name value as

def set (n : Node) (name : String) (value : AttributeValue) : Node :=
  { n with attributes := put name value n.attributes }

def ofAttributes (name : String) (attributes : List (String × AttributeValue)) : Node :=
  attributes.foldl (fun n a => n.set a.1 a.2) ⟨name, []⟩

def view (n : Node) : NodeView := ⟨n.name, n.attributeNames, n.get?⟩

def textOf (n : Node) (name : String) : Option String := n.view.textOf name

def numbersOf (n : Node) (name : String) : List Number := n.view.numbersOf name

def numberOf (n : Node) (name : String) : Double :=
  (n.numbersOf name).head?.elim (.nan .double) Number.toDouble

def kindOf? (n : Node) (name : String) : Option NumberKind :=
  (n.get? name).bind AttributeValue.numberKind?

end Node

structure Variable extends Node where
  type : DataType
  dimensions : List Dimension
  isAxis : Bool
  deriving DecidableEq

def Variable.unit (v : Variable) : Option String := v.textOf "units"

end Gridded
