import Gridded.File.Node

namespace Gridded

/-- A mask has bit 0 for pad values, which can serve as background, and bit 1 for missing ones. -/
inductive NodataRole
  | mask (bits : Nat)
  | description (text : String)
  deriving DecidableEq

namespace NodataRole

def pad : Nat := 1

def missing : Nat := 2

def mask? : NodataRole → Option Nat
  | .mask bits => bits
  | .description _ => none

def text : NodataRole → String
  | .mask bits =>
      let digits := Nat.toDigits 2 bits
      "0b" ++ String.ofList (List.replicate (2 - digits.length) '0' ++ digits)
  | .description text => text

end NodataRole

structure NodataValues where
  entries : List (Number × NodataRole) := []
  deriving DecidableEq

namespace NodataValues

def get? (v : NodataValues) (x : Number) : Option NodataRole := v.entries.lookup x

def update (x : Number) (f : Option NodataRole → NodataRole) :
    List (Number × NodataRole) → List (Number × NodataRole)
  | [] => [(x, f none)]
  | e :: es => if e.1 = x then (e.1, f e.2) :: es else e :: update x f es

def merge (v : NodataValues) (x : Number) (bits : Nat) : NodataValues :=
  ⟨update x (fun role => .mask ((role.bind NodataRole.mask?).getD 0 ||| bits)) v.entries⟩

def insert (v : NodataValues) (x : Number) (role : NodataRole) : NodataValues :=
  ⟨update x (fun _ => role) v.entries⟩

def size (v : NodataValues) : Nat := v.entries.length

def isEmpty (v : NodataValues) : Bool := v.entries.isEmpty

end NodataValues

def nodataAttributes : List (String × Nat) :=
  [("_FillValue", NodataRole.pad), ("missing_value", NodataRole.missing)]

def NodataValues.ofNode (n : Node) : NodataValues :=
  nodataAttributes.foldl
    (fun v a => (n.numbersOf a.1).foldl (fun v x => v.merge x a.2) v) {}

end Gridded
