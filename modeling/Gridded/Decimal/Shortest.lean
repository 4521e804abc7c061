import Gridded.Binary.Basic

/-!
The shortest decimal that reads back to a positive binary datum: of the decimals in its rounding
interval with the fewest digits, the nearest, and of two equally near ones the greater.
-/

namespace Gridded

structure Decimal where
  digits : Nat
  exponent : Int
  deriving DecidableEq

structure RoundingInterval where
  low : Nat
  middle : Nat
  high : Nat
  exponent : Int
  closed : Bool

def Binary.interval {f : Format} (x : Binary f) : RoundingInterval :=
  let m := significand f x.magnitude
  let narrow := m = 2 ^ f.fraction ∧ 2 * 2 ^ f.fraction ≤ x.magnitude
  ⟨4 * m - (if narrow then 1 else 2), 4 * m, 4 * m + 2, scale f x.magnitude - 2, m % 2 = 0⟩

namespace RoundingInterval

variable (r : RoundingInterval)

def unitOn (e : Int) : Nat := 2 ^ r.exponent.toNat * 10 ^ (-e).toNat

def gridOn (e : Int) : Nat := 2 ^ (-r.exponent).toNat * 10 ^ e.toNat

def onGrid (e : Int) : Option Decimal :=
  let unit := r.unitOn e
  let grid := r.gridOn e
  let c := r.middle * unit / grid
  let down := if r.closed then r.low * unit ≤ c * grid else r.low * unit < c * grid
  let up := if r.closed then (c + 1) * grid ≤ r.high * unit else (c + 1) * grid < r.high * unit
  if up ∧ (¬ down ∨ grid ≤ 2 * (r.middle * unit % grid)) then some ⟨c + 1, e⟩
  else if down then some ⟨c, e⟩
  else none

def search : Nat → Int → Option Decimal
  | 0, _ => none
  | fuel + 1, e => (r.onGrid e).or (search fuel (e - 1))

end RoundingInterval

def digitCount (n : Nat) : Nat := if n < 10 then 1 else digitCount (n / 10) + 1

def Decimal.strip (d : Decimal) : Decimal :=
  if h : d.digits ≠ 0 ∧ d.digits % 10 = 0 then strip ⟨d.digits / 10, d.exponent + 1⟩ else d
  termination_by d.digits
  decreasing_by omega

def Decimal.ofDyadic (m : Nat) (q : Int) : Decimal :=
  ⟨m * 2 ^ q.toNat * 5 ^ (-q).toNat, min q 0⟩

/--
The digits of a positive number. A number with `f.fraction + 1` significant bits is found on a
grid of at most as many decimal digits, and its exact value stands in where the search ends
without a hit.
-/
def Binary.shortest {f : Format} (x : Binary f) : Decimal :=
  let r := x.interval
  let exact := Decimal.ofDyadic r.middle r.exponent
  let top := (digitCount exact.digits : Int) + exact.exponent
  ((r.search (f.fraction + 1) (top - 1)).getD exact).strip

structure Layout where
  fraction : Bool
  /-- The powers of ten of a leading digit that are written in positional form; `none` for all. -/
  positional : Option (Int × Int)

namespace Layout

def zeros (n : Nat) : String := "".pushn '0' n

def positionalText (l : Layout) (digits : String) (point : Int) : String :=
  if point ≤ 0 then "0." ++ zeros (-point).toNat ++ digits
  else if (digits.length : Int) ≤ point then
    digits ++ zeros (point.toNat - digits.length) ++ if l.fraction then ".0" else ""
  else String.ofList (digits.toList.take point.toNat) ++ "."
    ++ String.ofList (digits.toList.drop point.toNat)

def exponentText (digits : String) (point : Int) : String :=
  match digits.toList with
  | [] => ""
  | [d] => d.toString ++ "e" ++ toString (point - 1)
  | d :: ds => d.toString ++ "." ++ String.ofList ds ++ "e" ++ toString (point - 1)

def write (l : Layout) (d : Decimal) : String :=
  let digits := Nat.repr d.digits
  let point := (digits.length : Int) + d.exponent
  let inPlace : Bool := d.digits = 0 || match l.positional with
    | none => true
    | some (least, greatest) => least ≤ point - 1 ∧ point - 1 ≤ greatest
  if inPlace then l.positionalText digits point else exponentText digits point

end Layout

def Binary.text {f : Format} (l : Layout) (x : Binary f) : String :=
  let sign := if x.negative then "-" else ""
  if x.isNaN then "NaN"
  else if ¬ x.isFinite then sign ++ "inf"
  else if x.isZero then sign ++ l.write ⟨0, 0⟩
  else sign ++ l.write x.shortest

end Gridded
