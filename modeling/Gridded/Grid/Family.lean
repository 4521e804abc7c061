import Gridded.Grid.Axes

/-!
Families of grids over one coordinate system. A family has a grid for each order of the dimensions
that variables have asked for, starting with the order of the domain, and each grid keeps its axes
once they have been created. A grid is named by its place in the family.
-/

namespace Gridded

structure Grid where
  domain : List Dimension
  axes : Option (List Axis) := none

def Grid.shape (g : Grid) : Option (List Nat) :=
  g.domain.reverse.mapM fun d => d.length.filter (0 < ·)

structure Family where
  /-- The place of the system in its dataset, which tells it from systems of equal contents. -/
  handle : Nat
  system : CoordinateSystem
  first : Grid
  others : List Grid := []

namespace Family

def ofSystem (handle : Nat) (s : CoordinateSystem) : Family where
  handle
  system := s
  first := { domain := s.domain }

variable (f : Family)

def sourceRank : Nat := f.system.sourceRank

def targetRank : Nat := f.system.targetRank

def grid : Nat → Grid
  | 0 => f.first
  | i + 1 => f.others.getD i f.first

def find? (dimensions : List Dimension) : Option Nat :=
  (f.others.findIdx? (·.domain = dimensions)).map (· + 1)

/--
The grid for a variable, starting from a grid of the family: that one if the dimensions agree,
else one asked for earlier, else a new one if the variable has the same dimensions in another
order. The first grid was not asked for, so from another grid its dimensions lead to a new one.
There is none if the system is not among the candidates.
-/
def rebind (i : Nat) (dimensions : List Dimension) (candidates : List Nat) : Option Nat × Family :=
  let own := (f.grid i).domain
  if f.handle ∉ candidates then (none, f)
  else if own = dimensions then (some i, f)
  else match f.find? dimensions with
    | some j => (some j, f)
    | none =>
      if own.length = dimensions.length ∧ dimensions.all (· ∈ own) then
        (some (f.others.length + 1), { f with others := f.others ++ [{ domain := dimensions }] })
      else (none, f)

def keep (axes : List Axis) : Nat → Family
  | 0 => { f with first := { f.first with axes } }
  | i + 1 => { f with others := f.others.modify i fun g => { g with axes } }

def createAxes (i : Nat) (d : Dataset) : Fallible (List Axis) :=
  f.system.createAxes (f.grid i).domain d

def axes (i : Nat) (d : Dataset) : Logged (Except StoreError (List Axis) × Family) :=
  match (f.grid i).axes with
  | some axes => pure (.ok axes, f)
  | none => do
    match ← (f.createAxes i d).run with
    | .ok axes => return (.ok axes, f.keep axes i)
    | .error e => return (.error e, f)

def display (i : Nat) : String :=
  displayFields "GridWrapper"
    ["name: " ++ quote f.system.name,
      "domain: " ++ displayList ((f.grid i).domain.map Dimension.display), ".."]

end Family

end Gridded
