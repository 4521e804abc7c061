import Gridded.Number.Basic

namespace Gridded

inductive DataType
  | byte
  | ubyte
  | char
  | short
  | ushort
  | int
  | uint
  | int64
  | uint64
  | float
  | double
  | string
  | boolean
  deriving DecidableEq

inductive ElementKind
  | byte
  | char
  | short
  | int
  | long
  | float
  | double
  deriving DecidableEq

namespace ElementKind

def all : List ElementKind := [.byte, .char, .short, .int, .long, .float, .double]

def shift : ElementKind → Nat
  | .byte => 0
  | .char | .short => 1
  | .int | .float => 2
  | .long | .double => 3

def size (k : ElementKind) : Nat := 2 ^ k.shift

def isFloat : ElementKind → Bool
  | .float | .double => true
  | _ => false

def name : ElementKind → String
  | .byte => "byte"
  | .char => "char"
  | .short => "short"
  | .int => "int"
  | .long => "long"
  | .float => "float"
  | .double => "double"

end ElementKind

namespace DataType

def name : DataType → String
  | .byte => "byte"
  | .ubyte => "ubyte"
  | .char => "char"
  | .short => "short"
  | .ushort => "ushort"
  | .int => "int"
  | .uint => "uint"
  | .int64 => "int64"
  | .uint64 => "uint64"
  | .float => "float"
  | .double => "double"
  | .string => "string"
  | .boolean => "boolean"

def size? : DataType → Option Nat
  | .byte | .ubyte | .char | .boolean => some 1
  | .short | .ushort => some 2
  | .int | .uint | .float => some 4
  | .int64 | .uint64 | .double => some 8
  | .string => none

def isUnsigned : DataType → Bool
  | .ubyte | .ushort | .uint | .uint64 => true
  | _ => false

/--
The kind of the numbers stored. It tells the width: unsigned types have the kind of the signed
type of their width.
-/
def numberKind? : DataType → Option NumberKind
  | .byte | .ubyte => some .byte
  | .short | .ushort => some .short
  | .int | .uint => some .int
  | .int64 | .uint64 => some .long
  | .float => some .float
  | .double => some .double
  | .char | .string | .boolean => none

def elementKind? : DataType → Option ElementKind
  | .byte | .ubyte | .char => some .byte
  | .short | .ushort => some .short
  | .int | .uint => some .int
  | .int64 | .uint64 => some .long
  | .float => some .float
  | .double => some .double
  | .string | .boolean => none

def isRaster : DataType → Bool
  | .byte | .ubyte | .short | .ushort | .int | .float | .double => true
  | _ => false

end DataType

end Gridded
