import Gridded.Binary.Arith
import Gridded.Number.Basic

namespace Gridded

inductive TransformError
  | mismatchedDimension (found expected : Nat)
  | nonInvertible
  | other (message : String)
  deriving DecidableEq

def TransformError.message : TransformError → String
  | .mismatchedDimension found expected => s!"mismatched dimension {found}, expected {expected}"
  | .nonInvertible => "transform is not invertible"
  | .other message => message

structure Affine where
  scale : Double := .ofInt .double 1
  offset : Double := .ofInt .double 0
  deriving DecidableEq

namespace Affine

def sourceDimensions (_ : Affine) : Nat := 1

def targetDimensions (_ : Affine) : Nat := 1

def apply (t : Affine) (x : Double) : Double := t.scale.mulAdd x t.offset

def transform (t : Affine) : List Double → Except TransformError (List Double)
  | [x] => .ok [t.apply x]
  | point => .error (.mismatchedDimension point.length 1)

def isIdentity (t : Affine) : Bool :=
  t.scale.same (.ofInt .double 1) && t.offset.isZero

def inverse (t : Affine) : Except TransformError Affine :=
  if t.scale.isZero || !t.scale.isFinite then .error .nonInvertible
  else .ok ⟨(Binary.ofInt .double 1).div t.scale, t.offset.neg.div t.scale⟩

def text (t : Affine) : String :=
  t.scale.text Number.layout ++ " × x + " ++ t.offset.text Number.layout

end Affine

structure Linearizer where
  name : String
  axisSwap : Bool := false
  transform : Affine

end Gridded
