import Gridded.File.Node
import Gridded.Text
import Gridded.Error

namespace Gridded

inductive AxisType
  | geoX
  | geoY
  | geoZ
  | lon
  | lat
  | pressure
  | height
  | runTime
  | time
  | radialAzimuth
  | radialElevation
  | radialDistance
  | ensemble
  | spectral
  deriving DecidableEq

def AxisType.abbreviation? : AxisType → Option Char
  | .geoX => 'x'
  | .geoY => 'y'
  | .geoZ => 'z'
  | .lon => 'λ'
  | .lat => 'φ'
  | .pressure | .height => 'H'
  | .runTime | .time => 't'
  | .radialAzimuth => 'θ'
  | .radialElevation => 'Ω'
  | .radialDistance => 'r'
  | .ensemble | .spectral => none

inductive Direction
  | up
  | down
  deriving DecidableEq

def Direction.name : Direction → String
  | .up => "up"
  | .down => "down"

structure CoordinateAxis where
  name : String
  type : Option AxisType
  direction : Option Direction
  dimensions : List Dimension
  deriving DecidableEq

structure CoordinateSystem where
  name : String
  domain : List Dimension
  axes : List CoordinateAxis
  deriving DecidableEq

def CoordinateSystem.sourceRank (s : CoordinateSystem) : Nat := s.domain.length

def CoordinateSystem.targetRank (s : CoordinateSystem) : Nat := s.axes.length

def Dimension.display (d : Dimension) : String :=
  displayFields "Dimension"
    ["name: " ++ quote d.name, "length: " ++ displayOption (d.length.map toString)]

def CoordinateSystem.display (s : CoordinateSystem) : String :=
  displayFields "MemoryCoordinateSystem"
    ["name: " ++ quote s.name,
      "domain: " ++ displayList (s.domain.map Dimension.display),
      "axes: " ++ displayList (s.axes.map fun a => quote a.name)]

/--
A search path lists the groups asked for a global attribute, `none` being the root. A variable whose
header is unreadable gives the failure listed with its name.
-/
structure Dataset where
  name : String
  searchPath : List (Option String) := [none]
  root : Node := ⟨"", []⟩
  groups : List Node := []
  «variables» : List Variable := []
  systems : List CoordinateSystem := []
  unreadable : List (String × SourceError) := []

namespace Dataset

def group? (d : Dataset) : Option String → Option Node
  | none => d.root
  | some name => d.groups.find? (·.name = name)

def global? (d : Dataset) (name : String) : Option AttributeValue :=
  (d.searchPath.filterMap d.group?).findSome? (·.get? name)

def globalText (d : Dataset) (name : String) : Option String :=
  (d.global? name).bind AttributeValue.plainText

def lookupVariable (d : Dataset) (name : String) : Option Variable :=
  d.variables.find? (·.name = name)

def findVariable (d : Dataset) (name : String) : Except SourceError (Option Variable) :=
  match d.unreadable.lookup name with
  | some e => .error e
  | none => .ok (d.lookupVariable name)

def node? (d : Dataset) (name : String) : Option Node :=
  ((d.lookupVariable name).map Variable.toNode).or (d.groups.find? (·.name = name))

end Dataset

end Gridded
