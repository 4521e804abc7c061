import Gridded.Binary.Basic

namespace Gridded

def nearestEven (n d : Nat) : Nat :=
  if 2 * (n % d) < d ∨ 2 * (n % d) = d ∧ n / d % 2 = 0 then n / d else n / d + 1

def quotientLog (n d : Nat) : Int :=
  let k : Int := (n.log2 : Int) - d.log2
  if d * 2 ^ k.toNat ≤ n * 2 ^ (-k).toNat then k else k - 1

namespace Format

def placeOf (f : Format) (n d : Nat) : Int :=
  max f.leastExponent (quotientLog n d - f.fraction)

/--
The magnitude nearest to `n / d`. Counting magnitudes upwards passes from one exponent to the
next.
-/
def roundQuotient (f : Format) (n d : Nat) : Nat :=
  if n = 0 then 0 else
    let e := f.placeOf n d
    let m := nearestEven (n * 2 ^ (-e).toNat) (d * 2 ^ e.toNat)
    min f.infinity ((e - f.leastExponent).toNat * 2 ^ f.fraction + m)

end Format

namespace Binary

def ofQuotient (f : Format) (negative : Bool) (n d : Nat) : Binary f :=
  ofParts f negative (f.roundQuotient n d)

def ofDyadic (f : Format) (negative : Bool) (m : Nat) (q : Int) : Binary f :=
  ofQuotient f negative (m * 2 ^ q.toNat) (2 ^ (-q).toNat)

def ofInt (f : Format) (i : Int) : Binary f := ofQuotient f (i < 0) i.natAbs 1

variable {f : Format}

def scaled (negative : Bool) (m : Nat) (q e : Int) : Int :=
  let n : Int := (m * 2 ^ (q - e).toNat : Nat)
  if negative then -n else n

def sum (f : Format) (s : Bool) (m : Nat) (p : Int) (t : Bool) (n : Nat) (q : Int) : Binary f :=
  let e := min p q
  let total := scaled s m p e + scaled t n q e
  if total = 0 then ofParts f (s && t) 0 else ofDyadic f (total < 0) total.natAbs e

def mulAdd (x y z : Binary f) : Binary f :=
  let sign := x.negative != y.negative
  match x.value, y.value, z.value with
  | .nan, _, _ | _, .nan, _ | _, _, .nan => nan f
  | .finite _ m p, .finite _ n q, .finite t k r => sum f sign (m * n) (p + q) t k r
  | .finite .., .finite .., .infinite t => infinite f t
  | .infinite _, .finite _ m _, w | .finite _ m _, .infinite _, w =>
      if m = 0 ∨ w = .infinite (!sign) then nan f else infinite f sign
  | .infinite _, .infinite _, w => if w = .infinite (!sign) then nan f else infinite f sign

def div (x y : Binary f) : Binary f :=
  let sign := x.negative != y.negative
  match x.value, y.value with
  | .nan, _ | _, .nan | .infinite _, .infinite _ => nan f
  | .infinite _, .finite .. => infinite f sign
  | .finite .., .infinite _ => ofParts f sign 0
  | .finite _ m p, .finite _ n q =>
      if n = 0 then if m = 0 then nan f else infinite f sign
      else ofQuotient f sign (m * 2 ^ (p - q).toNat) (n * 2 ^ (q - p).toNat)

def truncate (low high : Int) (x : Binary f) : Int :=
  match x.value with
  | .nan => 0
  | .infinite s => if s then low else high
  | .finite s m q =>
      let n : Int := (m * 2 ^ q.toNat / 2 ^ (-q).toNat : Nat)
      max low (min high (if s then -n else n))

/-- The fraction of a not-a-number, aligned at its leading bits and made quiet. -/
def carryPayload (f g : Format) (magnitude : Nat) : Nat :=
  let n :=
    magnitude % 2 ^ f.fraction * 2 ^ (g.fraction - f.fraction) / 2 ^ (f.fraction - g.fraction)
  g.infinity + (n ||| g.quiet)

def convert (g : Format) (x : Binary f) : Binary g :=
  match x.value with
  | .nan => ofParts g x.negative (carryPayload f g x.magnitude)
  | .infinite s => infinite g s
  | .finite s m q => ofDyadic g s m q

end Binary

end Gridded
