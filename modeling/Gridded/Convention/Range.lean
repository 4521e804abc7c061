import Gridded.File.Node

namespace Gridded

def scaleFactor : String := "scale_factor"

def addOffset : String := "add_offset"

structure NumberRange where
  kind : NumberKind
  minimum : Number
  maximum : Number
  kind_minimum : minimum.kind = kind
  kind_maximum : maximum.kind = kind
  deriving DecidableEq

namespace NumberRange

def ofBounds (kind : NumberKind) (minimum maximum : Number) : NumberRange where
  kind
  minimum := minimum.cast kind
  maximum := maximum.cast kind
  kind_minimum := by simp
  kind_maximum := by simp

def contains (r : NumberRange) (x : Number) : Bool :=
  x.compare r.minimum ≠ .lt && x.compare r.maximum ≠ .gt

def text (r : NumberRange) : String := "[" ++ r.minimum.text ++ " … " ++ r.maximum.text ++ "]"

end NumberRange

inductive ValidRange
  | packed (range : NumberRange)
  | measurement (range : NumberRange) (unit : Option String)
  deriving DecidableEq

namespace ValidRange

def range : ValidRange → NumberRange
  | .packed r | .measurement r _ => r

def isPacked : ValidRange → Bool
  | .packed _ => true
  | .measurement .. => false

end ValidRange

structure RangeAttribute where
  name : String
  toMinimum : Bool
  toMaximum : Bool

def rangeAttributes : List RangeAttribute :=
  [⟨"valid_range", true, true⟩, ⟨"actual_range", true, true⟩, ⟨"valid_min", true, false⟩,
    ⟨"valid_max", false, true⟩]

structure PartialRange where
  kind : Option NumberKind := none
  minimum : Option Number := none
  maximum : Option Number := none

namespace PartialRange

def add (a : RangeAttribute) (p : PartialRange) (x : Number) : PartialRange :=
  let x := x.maxAsInfinity
  let kind := p.kind.elim x.kind (·.widest x.kind)
  let x := x.cast kind
  let minimum := p.minimum.map (·.cast kind)
  let maximum := p.maximum.map (·.cast kind)
  { kind
    minimum := if a.toMinimum && minimum.all (x.compare · = .lt) then x else minimum
    maximum := if a.toMaximum && maximum.all (x.compare · = .gt) then x else maximum }

def complete? (p : PartialRange) : Option NumberRange := do
  return .ofBounds (← p.kind) (← p.minimum) (← p.maximum)

def scan (n : Node) : List RangeAttribute → PartialRange → Option NumberRange
  | [], _ => none
  | a :: as, p =>
    let p := (n.numbersOf a.name).foldl (add a) p
    p.complete?.or (scan n as p)

end PartialRange

/--
A range is in measurements if its kind covers the stored values and the declared kinds that scale
them.
-/
def ValidRange.ofVariable (v : Variable) : Option ValidRange :=
  (PartialRange.scan v.toNode rangeAttributes {}).map fun r =>
    if r.kind.covers v.type.numberKind? && r.kind.covers (v.kindOf? scaleFactor)
        && r.kind.covers (v.kindOf? addOffset) then
      .measurement r v.unit
    else .packed r

end Gridded
