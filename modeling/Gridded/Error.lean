import Gridded.File.Node

namespace Gridded

inductive SourceError
  | notFound
  | endOfData
  | outside (input : String) (count position size : Nat)
  | badPosition
  | interrupted
  | other (message : String)
  deriving DecidableEq

inductive SourceError.Kind
  | notFound
  | unexpectedEnd
  | invalidInput
  | interrupted
  | other
  deriving DecidableEq

def SourceError.kind : SourceError → Kind
  | .notFound => .notFound
  | .endOfData | .outside .. => .unexpectedEnd
  | .badPosition => .invalidInput
  | .interrupted => .interrupted
  | .other _ => .other

def SourceError.message : SourceError → String
  | .notFound => "No such file or directory (os error 2)"
  | .endOfData => "failed to fill whole buffer"
  | .outside input count position size =>
      s!"{input}: cannot read {count} bytes at offset {position} of {size}"
  | .badPosition => "invalid seek to a negative or overflowing position"
  | .interrupted => "operation interrupted"
  | .other message => message

def overflowMessage (quantity : String) : String := "arithmetic overflow computing " ++ quantity

inductive RegionError
  | dimensionality (found expected : Nat)
  | outOfBounds (dimension lower upper size : Nat)
  | emptyRange (dimension lower upper : Nat)
  | zeroStep (dimension : Nat)
  | overflow (quantity : String)
  deriving DecidableEq

def RegionError.message : RegionError → String
  | .dimensionality found expected => s!"incompatible dimensionality {found}, expected {expected}"
  | .outOfBounds dimension lower upper size =>
      s!"range {lower}..{upper} of dimension {dimension} is out of bounds 0..{size}"
  | .emptyRange dimension lower upper =>
      s!"range {lower}..{upper} of dimension {dimension} is empty"
  | .zeroStep dimension => s!"subsampling of dimension {dimension} is zero"
  | .overflow quantity => overflowMessage quantity

inductive ContentError
  | unreadableType (type : DataType)
  | kindMismatch (input : String) (stored wanted : ElementKind)
  | region (error : RegionError)
  | shape (count : Nat) (sizes : List Nat)
  | missingAxis (file axis : String)
  | other (message : String)
  deriving DecidableEq

def ContentError.message : ContentError → String
  | .unreadableType type => "data type " ++ type.name ++ " cannot be read as primitive elements"
  | .kindMismatch input stored wanted =>
      input ++ ": cannot read " ++ stored.name ++ " elements as " ++ wanted.name
  | .region error => error.message
  | .shape count sizes =>
      toString count ++ " elements do not match the region shape [" ++
        ", ".intercalate (sizes.map toString) ++ "]"
  | .missingAxis file axis => file ++ ": variable " ++ axis ++ " of axis not found"
  | .other message => message

/--
What ends a computation early. The last is no error to be handled: there is no memory for so many
bytes, and the program panics.
-/
inductive StoreError
  | content (error : ContentError)
  | source (error : SourceError)
  | overflow (quantity : String)
  | exhausted (size : Nat)
  deriving DecidableEq

def StoreError.message : StoreError → String
  | .content error => error.message
  | .source error => error.message
  | .overflow quantity => overflowMessage quantity
  | .exhausted _ => "called `Result::unwrap()` on an `Err` value: ()"

def RegionError.toStoreError : RegionError → StoreError
  | .overflow quantity => .overflow quantity
  | e => .content (.region e)

end Gridded
