import Gridded.Convention.Registry
import Gridded.Grid.Family
import Gridded.Input.Basic
import Gridded.Input.Metered
import Gridded.Reader

namespace Gridded

structure Settings where
  nameAttributes : NameAttributes := .endScan
  bufferSize : Nat := 8192
  deriving DecidableEq

structure Description where
  convention : Convention
  title : Option String
  role : VariableRole
  validRange : Option ValidRange
  nodata : NodataValues
  scaling : Affine
  projections : List (Option ProjectionParameters)

inductive Measurement
  | nodata (role : NodataRole)
  | value (x : Double)

namespace Description

def ofVariable (settings : Settings) (c : Convention) (d : Dataset) (v : Variable) :
    Logged Description := do
  let projections ← (c.projectionNodes v).mapM fun name =>
    match d.node? name with
    | none => pure none
    | some n => c.projection settings.nameAttributes n
  return ⟨c, d.globalText "title", c.roleOf v, c.validRange v, c.nodataValues v, c.scaling v,
    projections⟩

variable (m : Description)

def measure (x : Number) : Measurement :=
  match m.nodata.get? x with
  | some role => .nodata role
  | none => .value (m.scaling.apply x.toDouble)

def inRange? (x : Number) : Option Bool := m.validRange.map (·.range.contains x)

end Description

structure Extent where
  lower : Option (List Nat) := none
  upper : Option (List Nat) := none
  step : Option (List Nat) := none

def Extent.region (e : Extent) (shape : List Nat) : Except RegionError Region :=
  Region.select shape (e.lower.getD (shape.map fun _ => 0)) (e.upper.getD shape)
    (e.step.getD (shape.map fun _ => 1))

structure Sampling where
  region : Region
  elements : Except StoreError Elements
  input : Metered Memory

structure Survey where
  description : Description
  grid : Option (Family × Nat × Except StoreError (List Axis)) := none
  sampling : Option (Except RegionError Sampling) := none

namespace Survey

def findGrid? (d : Dataset) (dimensions : List Dimension) : Option (Family × Nat) :=
  let candidates := List.range d.systems.length
  d.systems.zipIdx.findSome? fun (s, handle) =>
    match (Family.ofSystem handle s).rebind 0 dimensions candidates with
    | (some i, f) => some (f, i)
    | (none, _) => none

def sample (r : Reader) (memory : Memory) (region : Region) (heap : Heap) : Logged Sampling := do
  let reading : ReadM (Metered Memory) Elements := r.read region heap
  let (elements, input) ← reading.run.run { input := memory }
  return ⟨region, elements, input⟩

/--
Surveys a variable stored in bytes from the position `origin` on. It fails only for a type that
cannot be read.
-/
def run (settings : Settings) (registry : Registry) (d : Dataset) (v : Variable) (bytes : Bytes)
    (order : ByteOrder) (origin : Nat) (extent : Extent) (heap : Heap) : Fallible Survey := do
  let c ← registry.find d
  let d := { d with searchPath := c.searchPath }
  let description ← Description.ofVariable settings c d v
  let some (f, i) := findGrid? d v.dimensions | return { description }
  let (axes, f) ← f.axes i d
  let grid := some (f, i, axes)
  let some shape := (f.grid i).shape | return { description, grid }
  let r ← ExceptT.mk (pure (Reader.ofType v.type origin))
  match extent.region shape with
  | .error e => return { description, grid, sampling := some (.error e) }
  | .ok region =>
    let s ← sample r { name := d.name, order, bytes } region heap
    return { description, grid, sampling := some (.ok s) }

end Survey

end Gridded
