import Gridded.File.Dataset
import Gridded.Journal

namespace Gridded

abbrev Fallible (α : Type) := ExceptT StoreError Logged α

structure Axis where
  abbreviation : Option Char
  direction : Option Direction
  sources : List (Nat × Nat)
  coordinates : Variable
  deriving DecidableEq

namespace Axis

def sizeLimit : Nat := 2 ^ (32 : Nat)

def display (a : Axis) : String :=
  displayFields "Axis"
    ["abbreviation: " ++ displayOption (a.abbreviation.map fun c => "'" ++ c.toString ++ "'"),
      "positive: " ++ displayOption (a.direction.map fun
        | .up => "Up"
        | .down => "Down"),
      "source_dimensions: " ++ displayList (a.sources.map fun s => toString s.1),
      "source_sizes: " ++ displayList (a.sources.map fun s => toString s.2),
      "coordinates: " ++ quote a.coordinates.name]

end Axis

def lastPlace? (domain : List Dimension) (d : Dimension) : Option Nat :=
  (domain.reverse.idxOf? d).map (domain.length - 1 - ·)

namespace CoordinateSystem

variable (s : CoordinateSystem)

def sources (domain : List Dimension) (axis : String) : List Dimension → Fallible (List (Nat × Nat))
  | [] => pure []
  | d :: ds =>
    match lastPlace? domain d with
    | none => do
        ExceptT.lift (Logged.tell (.strayDimension s.name d axis))
        sources domain axis ds
    | some place =>
        let size := d.length.getD 0
        if size < Axis.sizeLimit then return (place, size) :: (← sources domain axis ds)
        else throw (.overflow "axis size")

def createAxis (domain : List Dimension) (d : Dataset) (a : CoordinateAxis) : Fallible Axis := do
  let sources ← s.sources domain a.name a.dimensions
  match d.findVariable a.name with
  | .error e => throw (.source e)
  | .ok none => throw (.content (.missingAxis d.name a.name))
  | .ok (some v) => return ⟨a.type.bind AxisType.abbreviation?, a.direction, sources, v⟩

def inDomainOrder (domain : List Dimension) : Bool :=
  (s.axes.zip domain).all fun (a, d) => a.dimensions = [d]

/--
The axes over a domain, created from the last to the first. Systems list their axes in the order
of the domain or in reverse: the first keep their order, and all others are taken to be in
reverse.
-/
def createAxes (domain : List Dimension) (d : Dataset) : Fallible (List Axis) := do
  let reversed ← s.axes.reverse.mapM (s.createAxis domain d)
  if s.inDomainOrder domain then
    ExceptT.lift (Logged.tell (.axesKept s.name))
    return reversed.reverse
  else
    ExceptT.lift (Logged.tell (.axesReversed s.name))
    return reversed

end CoordinateSystem

end Gridded
