import Gridded.File.DataType

namespace Gridded

abbrev Bytes := Array UInt8

inductive ByteOrder
  | little
  | big
  deriving DecidableEq

def ByteOrder.name : ByteOrder → String
  | .little => "little"
  | .big => "big"

def word (bytes : List UInt8) : Nat := bytes.foldr (fun b n => b.toNat + 256 * n) 0

def wordBytes : Nat → Nat → List UInt8
  | 0, _ => []
  | size + 1, n => .ofNat n :: wordBytes size (n / 256)

def ByteOrder.arrange : ByteOrder → List UInt8 → List UInt8
  | .little, bytes => bytes
  | .big, bytes => bytes.reverse

namespace ElementKind

abbrev Element : ElementKind → Type
  | .byte => Int8
  | .char => UInt16
  | .short => Int16
  | .int => Int32
  | .long => Int64
  | .float => Single
  | .double => Double

def ofWord : (k : ElementKind) → Nat → k.Element
  | .byte, n => Int8.ofNat n
  | .char, n => UInt16.ofNat n
  | .short, n => Int16.ofNat n
  | .int, n => Int32.ofNat n
  | .long, n => Int64.ofNat n
  | .float, n => Binary.ofNat .single n
  | .double, n => Binary.ofNat .double n

def toWord : (k : ElementKind) → k.Element → Nat
  | .byte, x => x.toUInt8.toNat
  | .char, x => x.toNat
  | .short, x => x.toUInt16.toNat
  | .int, x => x.toUInt32.toNat
  | .long, x => x.toUInt64.toNat
  | .float, x => x.toNat
  | .double, x => x.toNat

def toNumber : (k : ElementKind) → k.Element → Number
  | .byte, x => .byte x
  | .char, x => .int (.ofNat x.toNat)
  | .short, x => .short x
  | .int, x => .int x
  | .long, x => .long x
  | .float, x => .float x
  | .double, x => .double x

variable (k : ElementKind)

def decode (order : ByteOrder) (bytes : List UInt8) : k.Element :=
  k.ofWord (word (order.arrange bytes))

def swap (x : k.Element) : k.Element := k.ofWord (word (wordBytes k.size (k.toWord x)).reverse)

def decodeAt (order : ByteOrder) (bytes : Bytes) (i : Nat) : k.Element :=
  k.decode order (bytes.extract (i * k.size) ((i + 1) * k.size)).toList

def decodeAll (order : ByteOrder) (bytes : Bytes) (count : Nat) : Array k.Element :=
  .ofFn fun i : Fin count => k.decodeAt order bytes i

end ElementKind

structure Elements where
  kind : ElementKind
  values : Array kind.Element

namespace Elements

def size (e : Elements) : Nat := e.values.size

def isEmpty (e : Elements) : Bool := e.size = 0

def as? (e : Elements) (k : ElementKind) : Option (Array k.Element) :=
  if h : e.kind = k then some (h ▸ e.values) else none

def into (e : Elements) (k : ElementKind) : Except Elements (Array k.Element) :=
  match e.as? k with
  | some values => .ok values
  | none => .error e

def swap (e : Elements) : Elements := ⟨e.kind, e.values.map e.kind.swap⟩

def toNumbers (e : Elements) : List Number := e.values.toList.map e.kind.toNumber

end Elements

end Gridded
