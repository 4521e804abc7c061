/-!
Binary floating-point data, held as words. A format fixes the widths of the two stored fields; a
datum is a word of that format, and `Binary.value` reads it as not-a-number, an infinity or a
dyadic number. Equality of data is equality of words; `Binary.key` orders them totally.
-/

namespace Gridded

-- Powers of whole numbers are those of the numbers themselves, whatever else is imported.
instance (priority := high) powNat : Pow Nat Nat := instPowNat

instance (priority := high) powInt : Pow Int Nat := instPowNat

/-- Sizes, offsets and positions are numbers below the limit; what is not below it overflows. -/
def wordLimit : Nat := 2 ^ (64 : Nat)

def signedLimit : Nat := 2 ^ (63 : Nat)

structure Format where
  fraction : Nat
  exponent : Nat
  deriving DecidableEq

namespace Format

def single : Format := ⟨23, 8⟩

def double : Format := ⟨52, 11⟩

def payload (f : Format) : Nat := f.fraction + f.exponent

def width (f : Format) : Nat := f.payload + 1

def leastExponent (f : Format) : Int := 2 - 2 ^ (f.exponent - 1) - f.fraction

def infinity (f : Format) : Nat := (2 ^ f.exponent - 1) * 2 ^ f.fraction

def quiet (f : Format) : Nat := 2 ^ (f.fraction - 1)

end Format

structure Binary (f : Format) where
  bits : BitVec f.width
  deriving DecidableEq

abbrev Single := Binary .single

abbrev Double := Binary .double

/-- A datum as a number: `finite s m q` is `m * 2 ^ q`, negated if `s`. -/
inductive Binary.Value
  | nan
  | infinite (negative : Bool)
  | finite (negative : Bool) (significand : Nat) (exponent : Int)
  deriving DecidableEq

namespace Binary

variable {f : Format}

def ofNat (f : Format) (n : Nat) : Binary f := ⟨BitVec.ofNat _ n⟩

def ofParts (f : Format) (negative : Bool) (magnitude : Nat) : Binary f :=
  ofNat f (magnitude + if negative then 2 ^ f.payload else 0)

def toNat (x : Binary f) : Nat := x.bits.toNat

def negative (x : Binary f) : Bool := 2 ^ f.payload ≤ x.toNat

def magnitude (x : Binary f) : Nat := x.toNat % 2 ^ f.payload

def infinite (f : Format) (negative : Bool) : Binary f := ofParts f negative f.infinity

def nan (f : Format) : Binary f := ofParts f false (f.infinity + f.quiet)

def zero (f : Format) : Binary f := ofParts f false 0

def isNaN (x : Binary f) : Bool := f.infinity < x.magnitude

def isFinite (x : Binary f) : Bool := x.magnitude < f.infinity

def isZero (x : Binary f) : Bool := x.magnitude = 0

def significand (f : Format) (magnitude : Nat) : Nat :=
  if magnitude < 2 ^ f.fraction then magnitude else 2 ^ f.fraction + magnitude % 2 ^ f.fraction

def scale (f : Format) (magnitude : Nat) : Int :=
  f.leastExponent + ((magnitude / 2 ^ f.fraction - 1 : Nat) : Int)

def value (x : Binary f) : Value :=
  if f.infinity < x.magnitude then .nan
  else if x.magnitude = f.infinity then .infinite x.negative
  else .finite x.negative (significand f x.magnitude) (scale f x.magnitude)

def neg (x : Binary f) : Binary f := ofParts f (!x.negative) x.magnitude

def same (x y : Binary f) : Bool :=
  !x.isNaN && !y.isNaN && (x = y || x.isZero && y.isZero)

def key (x : Binary f) : Int :=
  if x.negative then -(x.magnitude : Int) - 1 else x.magnitude

end Binary

end Gridded
