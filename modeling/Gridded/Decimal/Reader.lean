import Gridded.Binary.Arith

namespace Gridded

inductive Numeral
  | nan (negative : Bool)
  | infinite (negative : Bool)
  | finite (negative : Bool) (digits : Nat) (exponent : Int)
  deriving DecidableEq

namespace Numeral

def digitValue (cs : List Char) : Nat := cs.foldl (fun n c => 10 * n + (c.toNat - 48)) 0

def spanDigits (cs : List Char) : List Char × List Char :=
  (cs.takeWhile Char.isDigit, cs.dropWhile Char.isDigit)

def splitSign : List Char → Bool × List Char
  | '-' :: cs => (true, cs)
  | '+' :: cs => (false, cs)
  | cs => (false, cs)

def exponentOf? : List Char → Option Int
  | [] => some 0
  | c :: cs =>
    if c = 'e' ∨ c = 'E' then
      let (negative, ds) := splitSign cs
      if ds ≠ [] ∧ ds.all Char.isDigit then
        some (if negative then -(digitValue ds : Int) else digitValue ds)
      else none
    else none

def unsigned? (negative : Bool) (cs : List Char) : Option Numeral := do
  let (whole, rest) := spanDigits cs
  let (part, rest) := match rest with
    | '.' :: rest => spanDigits rest
    | rest => ([], rest)
  if whole ++ part = [] then none
  else return .finite negative (digitValue (whole ++ part)) ((← exponentOf? rest) - part.length)

def ofChars? (cs : List Char) : Option Numeral :=
  let (negative, rest) := splitSign cs
  let word := String.ofList (rest.map Char.toLower)
  if word = "nan" then some (.nan negative)
  else if word = "inf" ∨ word = "infinity" then some (.infinite negative)
  else unsigned? negative rest

def magnitudeOf (n : Nat) : Nat := if n = 0 then 0 else (Nat.repr n).length

-- Powers of ten from here on, or down from its negation, are beyond every datum of the format.
def reach (f : Format) : Int := 2 ^ f.exponent + f.fraction

/--
The datum nearest to the numeral. Far exponents are decided without computing the power of ten.
-/
def round (f : Format) : Numeral → Binary f
  | .nan s => .ofParts f s (f.infinity + f.quiet)
  | .infinite s => .infinite f s
  | .finite s m e =>
      let top := e + magnitudeOf m
      if m = 0 ∨ top < -reach f then .ofParts f s 0
      else if reach f < top then .infinite f s
      else .ofQuotient f s (m * 10 ^ e.toNat) (10 ^ (-e).toNat)

end Numeral

end Gridded
