import Gridded.Journal
import Gridded.Text

namespace Gridded

/-- What becomes of the attributes whose name ends in `_name` among projection parameters. -/
inductive NameAttributes
  | endScan
  | keep
  deriving DecidableEq

def gridMapping : String := "grid_mapping"

def gridMappingName : String := "grid_mapping_name"

def baseCrs : String := "base_crs"

def wgs84 : String := "World Geodetic System 1984"

structure DatumShift where
  datum : String
  tx : Double
  ty : Double
  tz : Double
  rx : Double
  ry : Double
  rz : Double
  ds : Double
  deriving DecidableEq

namespace DatumShift

def ofValues? (datum : String) (values : List Double) : Option DatumShift :=
  let value (i : Nat) := values.getD i (.zero .double)
  if 3 ≤ values.length ∧ values.length ≤ 7 then
    some ⟨datum, value 0, value 1, value 2, value 3, value 4, value 5, value 6⟩
  else none

def values (s : DatumShift) : List Double := [s.tx, s.ty, s.tz, s.rx, s.ry, s.rz, s.ds]

def isTranslation (s : DatumShift) : Bool :=
  s.rx.isZero && s.ry.isZero && s.rz.isZero && s.ds.isZero

end DatumShift

inductive ProjectionValue
  | text (s : String)
  | number (x : Number)
  | vector (values : List Double)
  | shift (s : DatumShift)
  deriving DecidableEq

namespace ProjectionValue

def display : ProjectionValue → String
  | .text s => s
  | .number x => x.text
  | .vector values => vectorText values
  | .shift s => "towgs84" ++ vectorText s.values

def asText : ProjectionValue → Option String
  | .text s => s
  | _ => none

def asDouble : ProjectionValue → Option Double
  | .number x => x.toDouble
  | _ => none

end ProjectionValue

structure ProjectionParameters where
  entries : List (String × ProjectionValue) := []
  deriving DecidableEq

namespace ProjectionParameters

def get? (p : ProjectionParameters) (name : String) : Option ProjectionValue :=
  p.entries.lookup name

def method (p : ProjectionParameters) : Option String :=
  (p.get? gridMappingName).bind ProjectionValue.asText

def insertNew? (p : ProjectionParameters) (name : String) (value : ProjectionValue) :
    Option ProjectionParameters :=
  if (p.get? name).isSome then none else some ⟨p.entries ++ [(name, value)]⟩

def size (p : ProjectionParameters) : Nat := p.entries.length

def isEmpty (p : ProjectionParameters) : Bool := p.entries.isEmpty

end ProjectionParameters

inductive ProjectionReading
  | nothing
  | value (v : ProjectionValue)
  | tooLong (count : Nat)
  | finish

namespace ProjectionReading

def ofShift (values : List Double) : ProjectionReading :=
  if values.length < 3 then .nothing
  else match DatumShift.ofValues? wgs84 values with
    | some s => .value (.shift s)
    | none => .tooLong values.length

def ofNumbers : List Number → ProjectionReading
  | [] => .nothing
  | [x] => .value (.number x)
  | xs => .value (.vector (xs.map Number.toDouble))

/-- The text definition `crs_wkt` says nothing: explicit parameters stand above it. -/
def ofAttribute (handling : NameAttributes) (v : NodeView) (name : String) : ProjectionReading :=
  let lower := lowerCase name
  if "_name".toList.isSuffixOf lower.toList then
    if handling = .keep ∧ lower = gridMappingName then .nothing
    else match v.textOf name, handling with
      | none, _ => .nothing
      | some _, .endScan => .finish
      | some s, .keep => .value (.text s)
  else if lower = "towgs84" then ofShift ((v.numbersOf name).map Number.toDouble)
  else if lower = "crs_wkt" then .nothing
  else ofNumbers (v.numbersOf name)

end ProjectionReading

namespace ProjectionParameters

def collect (handling : NameAttributes) (v : NodeView) :
    List String → ProjectionParameters → Logged ProjectionParameters
  | [], p => pure p
  | name :: names, p =>
    match ProjectionReading.ofAttribute handling v name with
    | .nothing => collect handling v names p
    | .finish => pure p
    | .tooLong count => do
        Logged.tell (.longDatumShift v.name name count)
        collect handling v names p
    | .value x =>
      match p.insertNew? name x with
      | some p => collect handling v names p
      | none => do
          Logged.tell (.duplicateParameter v.name name)
          collect handling v names p

def ofView (handling : NameAttributes) (v : NodeView) : Logged (Option ProjectionParameters) :=
  match v.textOf gridMappingName with
  | none => pure none
  | some method => some <$>
      collect handling v v.attributeNames ⟨[(gridMappingName, .text method)]⟩

def ofNode (handling : NameAttributes) (n : Node) : Logged (Option ProjectionParameters) :=
  ofView handling n.view

end ProjectionParameters

end Gridded
