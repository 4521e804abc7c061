import Gridded.Convention.Nodata
import Gridded.Convention.Projection
import Gridded.Convention.Range
import Gridded.File.Dataset
import Gridded.Transform

/-!
Conventions: policies that resolve the implicit metadata of a dataset. The fields of a `Convention`
default to the rules of the climate and forecast conventions; a convention for a producer that
deviates from them sets the fields where it does.
-/

namespace Gridded

inductive VariableRole
  | axis
  | coverage
  | other
  deriving DecidableEq

def VariableRole.name : VariableRole → String
  | .axis => "axis"
  | .coverage => "coverage"
  | .other => "other"

def minimumSpan : Nat := 2

def minimumDimension : Nat := 2

def Dimension.isWide (d : Dimension) : Bool := d.length.any (minimumSpan ≤ ·)

def VariableRole.ofVariable (v : Variable) : VariableRole :=
  if v.isAxis then .axis
  else if minimumDimension ≤ v.dimensions.countP Dimension.isWide ∧ v.type.isRaster then .coverage
  else .other

def Affine.ofNode (n : Node) : Affine :=
  let scale := n.numberOf scaleFactor
  let offset := n.numberOf addOffset
  { scale := if scale.isNaN then ({} : Affine).scale else scale
    offset := if offset.isNaN then ({} : Affine).offset else offset }

def standardSearchPath : List (Option String) :=
  [some "NCISOMetadata", some "CFMetadata", none, some "THREDDSMetadata"]

structure Convention where
  identifier : String
  isApplicable : Dataset → Logged Bool := fun _ => pure false
  searchPath : List (Option String) := standardSearchPath
  mapAttributeName : String → String := id
  roleOf : Variable → VariableRole := VariableRole.ofVariable
  /-- The variables that hold the coordinates of each dimension, where attributes do not tell. -/
  axisVariables : Variable → Option (List String) := fun _ => none
  dimensionName : Variable → Nat → Option String := fun v i => v.textOf ("dim" ++ toString i)
  resampling : Variable → Double := fun v => v.numberOf "resampling_interval"
  validRange : Variable → Option ValidRange := ValidRange.ofVariable
  nodataValues : Variable → NodataValues := fun v => .ofNode v.toNode
  scaling : Variable → Affine := fun v => .ofNode v.toNode
  linearizers : Dataset → List Linearizer := fun _ => []
  projectionNodes : Variable → List String := fun v => (v.textOf gridMapping).toList
  projection : NameAttributes → Node → Logged (Option ProjectionParameters) :=
    ProjectionParameters.ofNode
  /--
  From grid indices to the base coordinates of the named reference system, where a node declares
  it.
  -/
  gridToCrs : Node → String → Except TransformError (Option Affine) := fun _ _ => .ok none

namespace Convention

def cf : Convention where
  identifier := "cf"

end Convention

end Gridded
