import Gridded.Error

/-!
Regions: rectangular selections of a variable, with a step in each dimension. Dimension 0 is the
fastest varying one. A region keeps what a reader needs: how many elements are selected in each
dimension, where the first one is, and how many elements to skip after the last one of a dimension
to reach the next. It is built one dimension at a time, and each number on the way has to be below
the word limit.
-/

namespace Gridded

structure Slice where
  size : Nat
  lower : Nat
  upper : Nat
  step : Nat
  deriving DecidableEq

namespace Slice

def count (s : Slice) : Nat := (s.upper - s.lower + s.step - 1) / s.step

def ofLists : List Nat → List Nat → List Nat → List Nat → List Slice
  | size :: sizes, lower :: lowers, upper :: uppers, step :: steps =>
      ⟨size, lower, upper, step⟩ :: ofLists sizes lowers uppers steps
  | _, _, _, _ => []

def check (s : Slice) (dimension : Nat) : Except RegionError Unit :=
  if s.size < s.upper then .error (.outOfBounds dimension s.lower s.upper s.size)
  else if s.upper ≤ s.lower then .error (.emptyRange dimension s.lower s.upper)
  else if s.step = 0 then .error (.zeroStep dimension)
  else .ok ()

end Slice

structure Region where
  counts : List Nat
  skips : List Nat
  start : Nat
  length : Nat
  deriving DecidableEq

namespace Region

structure Partial extends Region where
  stride : Nat
  span : Nat
  deriving DecidableEq

namespace Partial

def point : Partial where
  counts := []
  skips := []
  start := 0
  length := 1
  stride := 1
  span := 0

variable (r : Partial) (s : Slice)

/--
The region with one more dimension. A span is below the stride, so no skip is cut off at zero.
-/
def next : Partial where
  counts := r.counts ++ [s.count]
  skips := r.skips ++ [s.step * r.stride - r.span - 1]
  start := s.lower * r.stride + r.start
  length := r.length * s.count
  stride := r.stride * s.size
  span := (s.count - 1) * (s.step * r.stride) + r.span

def quantities : List (String × Nat) :=
  [("region stride", s.step * r.stride), ("region span", (r.next s).span),
    ("region start offset", (r.next s).start), ("region length", (r.next s).length),
    ("variable length", (r.next s).stride)]

end Partial

def represent (quantity : String) (n : Nat) : Except RegionError Nat :=
  if n < wordLimit then .ok n else .error (.overflow quantity)

def Partial.push (r : Partial) (s : Slice) : Except RegionError Partial := do
  s.check r.counts.length
  let _ ← (r.quantities s).mapM fun q => represent q.1 q.2
  return r.next s

def ofSlices (ss : List Slice) : Except RegionError Region := do
  return (← ss.foldlM Partial.push .point).toRegion

def select (sizes lowers uppers steps : List Nat) : Except RegionError Region :=
  match [lowers, uppers, steps].find? (·.length ≠ sizes.length) with
  | some list => .error (.dimensionality list.length sizes.length)
  | none => ofSlices (Slice.ofLists sizes lowers uppers steps)

/--
The region of a variable whose dimensions are declared with the fastest varying one last, from the
first index and the number of indices covered in each. An error counts dimensions from the last.
-/
def selectDeclared (sizes starts extents steps : List Nat) : Except RegionError Region := do
  if starts.length ≠ extents.length then
    throw (.dimensionality extents.length starts.length)
  let uppers ← (List.zipWith (· + ·) starts extents).mapM (represent "region upper bound")
  select sizes.reverse starts.reverse uppers.reverse steps.reverse

variable (r : Region)

def dimensionality : Nat := r.counts.length

def declaredShape : List Nat := r.counts.reverse

def runDimensions : Nat := (r.skips.takeWhile (· = 0)).length

def runLength : Nat := (r.counts.take r.runDimensions).foldr (· * ·) 1

end Region

end Gridded
