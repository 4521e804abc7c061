import Gridded.Input.Basic
import Gridded.Journal
import Gridded.Region.Walk

/-!
Readers of a variable stored contiguously in an input. A read seeks once for each run of elements
that follow each other and gives the elements in storage order.
-/

namespace Gridded

def ElementKind.ofType (t : DataType) : Except StoreError ElementKind :=
  match t.elementKind? with
  | some k => .ok k
  | none => .error (.content (.unreadableType t))

/-- Which numbers of bytes there is memory for. -/
structure Heap where
  holds : Nat → Bool

namespace Heap

def unbounded : Heap := ⟨fun _ => true⟩

/-- No array is longer than a signed word can tell. -/
def addressable : Heap := ⟨fun size => size < signedLimit⟩

variable {m : Type → Type} [Monad m] [MonadExcept StoreError m]

def allocate (heap : Heap) (size : Nat) : m Unit :=
  if heap.holds size then pure () else throw (.exhausted size)

theorem allocate_eq_pure {heap : Heap} {size : Nat} (h : heap.holds size) :
    (heap.allocate size : m Unit) = pure () := if_pos h

theorem allocate_eq_throw {heap : Heap} {size : Nat} (h : ¬heap.holds size) :
    (heap.allocate size : m Unit) = throw (.exhausted size) := if_neg h

@[simp] theorem allocate_unbounded (size : Nat) :
    (unbounded.allocate size : m Unit) = pure () :=
  rfl

end Heap

structure Reader where
  kind : ElementKind
  origin : Nat
  deriving DecidableEq

abbrev ReadM (ι α : Type) := ExceptT StoreError (StateT ι Logged) α

structure Reader.Progress (k : ElementKind) where
  runs : Nat := 0
  values : Array k.Element := #[]

namespace Reader

variable {ι : Type} [Input ι]

def ofType (t : DataType) (origin : Nat) : Except StoreError Reader := do
  return ⟨← ElementKind.ofType t, origin⟩

def dataSize (r : Reader) : Nat := r.kind.size

@[inline] def onInput {α : Type} (a : Action ι α) : ExceptT StoreError (StateM ι) α :=
  ExceptT.mk fun i =>
    let (r, i) := a.run.run i
    (r.mapError .source, i)

def readRun (k : ElementKind) (length position : Nat) (p : Progress k) :
    ExceptT StoreError (StateM ι) (Progress k) := do
  if position < wordLimit then
    onInput (Input.seek position)
    let bytes ← onInput (Input.read (length * k.size))
    return ⟨p.runs + 1, p.values ++ k.decodeAll (Input.order (← get)) bytes length⟩
  else throw (.overflow "stream position")

/--
Reads the runs of a region. The strides between them and the position of the first are checked, and
there has to be memory for all elements, before anything is read.
-/
def readRuns (k : ElementKind) (origin : Nat) (region : Region) (heap : Heap := .unbounded) :
    ExceptT StoreError (StateM ι) (Progress k) := do
  let laps := region.laps k.size
  if laps.any (wordLimit ≤ ·.gap) then throw (.overflow "stride")
  let position := region.start * k.size + origin
  if wordLimit ≤ position then throw (.overflow "stream position")
  heap.allocate (region.length * k.size)
  Walk.fold (readRun k region.runLength) laps position {}

def readAs (r : Reader) (k : ElementKind) (region : Region) (heap : Heap := .unbounded) :
    ReadM ι (Array k.Element) := do
  let name := Input.name (← get)
  if k ≠ r.kind then throw (.content (.kindMismatch name r.kind k))
  let p ← ExceptT.mk fun i => pure ((readRuns k r.origin region heap).run.run i)
  Logged.tell (.elementsRead name p.values.size k p.runs region.runLength)
  return p.values

def read (r : Reader) (region : Region) (heap : Heap := .unbounded) : ReadM ι Elements := do
  return ⟨r.kind, ← r.readAs r.kind region heap⟩

def readBlock {β : Type} (r : Reader) (k : ElementKind)
    (ofValues? : List Nat → Array k.Element → Option β) (region : Region)
    (heap : Heap := .unbounded) : ReadM ι β := do
  let values ← r.readAs k region heap
  match ofValues? region.declaredShape values with
  | some b => return b
  | none => throw (.content (.shape values.size region.declaredShape))

end Reader

end Gridded
