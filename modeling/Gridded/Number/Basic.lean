import Gridded.Binary.Arith
import Gridded.Decimal.Shortest

/-!
Numbers of six kinds. Kinds are ordered from the narrowest to the widest, every integer kind below
the floating ones. Equality of numbers is equality of kind and word; `Number.compare` orders
numbers of any kinds by casting both to the wider kind.
-/

namespace Gridded

inductive NumberKind
  | byte
  | short
  | int
  | long
  | float
  | double
  deriving DecidableEq

namespace NumberKind

def rank : NumberKind → Nat
  | .byte => 0
  | .short => 1
  | .int => 2
  | .long => 3
  | .float => 4
  | .double => 5

instance : LE NumberKind := ⟨fun k l => k.rank ≤ l.rank⟩

instance : LT NumberKind := ⟨fun k l => k.rank < l.rank⟩

instance (k l : NumberKind) : Decidable (k ≤ l) := inferInstanceAs (Decidable (k.rank ≤ l.rank))

instance (k l : NumberKind) : Decidable (k < l) := inferInstanceAs (Decidable (k.rank < l.rank))

def widest (k l : NumberKind) : NumberKind := if k ≤ l then l else k

def isFloat (k : NumberKind) : Bool := .float ≤ k

def covers (k : NumberKind) : Option NumberKind → Bool
  | none => true
  | some l => l ≤ k

def name : NumberKind → String
  | .byte => "byte"
  | .short => "short"
  | .int => "int"
  | .long => "long"
  | .float => "float"
  | .double => "double"

end NumberKind

inductive Number
  | byte (v : Int8)
  | short (v : Int16)
  | int (v : Int32)
  | long (v : Int64)
  | float (v : Single)
  | double (v : Double)
  deriving DecidableEq

namespace Number

def kind : Number → NumberKind
  | .byte _ => .byte
  | .short _ => .short
  | .int _ => .int
  | .long _ => .long
  | .float _ => .float
  | .double _ => .double

def integer? : Number → Option Int
  | .byte v => v.toInt
  | .short v => v.toInt
  | .int v => v.toInt
  | .long v => v.toInt
  | .float _ | .double _ => none

def toDouble : Number → Double
  | .byte v => .ofInt .double v.toInt
  | .short v => .ofInt .double v.toInt
  | .int v => .ofInt .double v.toInt
  | .long v => .ofInt .double v.toInt
  | .float v => v.convert .double
  | .double v => v

def ofInt (i : Int) : NumberKind → Number
  | .byte => .byte (.ofIntClamp i)
  | .short => .short (.ofIntClamp i)
  | .int => .int (.ofIntClamp i)
  | .long => .long (.ofIntClamp i)
  | .float => .float (.ofInt .single i)
  | .double => .double (.ofInt .double i)

def truncateTo (bits : Nat) (v : Double) : Int := v.truncate (-2 ^ bits) (2 ^ bits - 1)

def ofDouble (v : Double) : NumberKind → Number
  | .byte => .byte (.ofInt (truncateTo 7 v))
  | .short => .short (.ofInt (truncateTo 15 v))
  | .int => .int (.ofInt (truncateTo 31 v))
  | .long => .long (.ofInt (truncateTo 63 v))
  | .float => .float (v.convert .single)
  | .double => .double v

def cast (x : Number) (k : NumberKind) : Number :=
  if x.kind = k then x
  else match x.integer? with
    | some i => ofInt i k
    | none => ofDouble x.toDouble k

def key : Number → Int
  | .byte v => v.toInt
  | .short v => v.toInt
  | .int v => v.toInt
  | .long v => v.toInt
  | .float v => v.key
  | .double v => v.key

def compare (x y : Number) : Ordering :=
  let k := x.kind.widest y.kind
  Ord.compare (x.cast k).key (y.cast k).key

/-- A producer that has no infinity writes the largest finite number instead. -/
def largestAsInfinite {f : Format} (v : Binary f) : Binary f :=
  if v.magnitude + 1 = f.infinity then .infinite f v.negative else v

def maxAsInfinity : Number → Number
  | .float v => .float (largestAsInfinite v)
  | .double v => .double (largestAsInfinite v)
  | x => x

def layout : Layout := ⟨false, none⟩

def text : Number → String
  | .byte v => toString v.toInt
  | .short v => toString v.toInt
  | .int v => toString v.toInt
  | .long v => toString v.toInt
  | .float v => v.text layout
  | .double v => v.text layout

@[simp] theorem kind_ofInt (i : Int) (k : NumberKind) : (ofInt i k).kind = k := by
  cases k <;> rfl

@[simp] theorem kind_ofDouble (v : Double) (k : NumberKind) : (ofDouble v k).kind = k := by
  cases k <;> rfl

@[simp] theorem kind_cast (x : Number) (k : NumberKind) : (x.cast k).kind = k := by
  unfold cast
  split
  · assumption
  · split <;> simp

end Number

structure NumberSeries where
  kind : NumberKind
  values : List Number
  uniform : ∀ x ∈ values, x.kind = kind
  deriving DecidableEq

namespace NumberSeries

def ofNumbers (kind : NumberKind) (values : List Number) : NumberSeries where
  kind
  values := values.map (·.cast kind)
  uniform := by simp

def toDoubles (s : NumberSeries) : List Double := s.values.map Number.toDouble

def size (s : NumberSeries) : Nat := s.values.length

def isEmpty (s : NumberSeries) : Bool := s.values.isEmpty

end NumberSeries

def vectorLayout : Layout := ⟨true, some (-4, 15)⟩

def vectorText (vs : List Double) : String :=
  "[" ++ ", ".intercalate (vs.map (Binary.text vectorLayout)) ++ "]"

end Gridded
