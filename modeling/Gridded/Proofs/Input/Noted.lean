import Gridded.Input.Basic
import Gridded.Effect
import Mathlib

namespace Gridded

structure ByteRange where
  start : Nat
  length : Nat
  deriving DecidableEq

def ByteRange.bytes (r : ByteRange) : Set Nat := Set.Ico r.start (r.start + r.length)

structure Noted (ι : Type) where
  input : ι
  position : Nat := 0
  ranges : List ByteRange := []

namespace Noted

variable {ι : Type} [Input ι]

@[inline] def onInput {α : Type} (a : Action ι α) : Action (Noted ι) α :=
  a.within Noted.input fun i n => { n with input := i }

instance : Input (Noted ι) where
  name n := Input.name n.input
  order n := Input.order n.input
  seek p := do
    onInput (Input.seek p)
    modify fun n => { n with position := p }
  read count := do
    modify fun n => { n with ranges := n.ranges ++ [⟨n.position, count⟩] }
    let bytes ← onInput (Input.read count)
    modify fun n => { n with position := n.position + count }
    return bytes

theorem through_seek (p : Nat) :
    Through input (Input.seek p : Action (Noted ι) Unit) (Input.seek p : Action ι Unit) := by
  rw [← bind_pure (Input.seek p : Action ι Unit)]
  exact (Through.within (fun _ _ => rfl) _).bind fun _ => .modify fun _ => rfl

theorem through_read (count : Nat) :
    Through input (Input.read count : Action (Noted ι) Bytes) (Input.read count) := by
  have h : (Input.read count : Action ι Bytes) = pure PUnit.unit >>= fun _ =>
      Input.read count >>= fun bytes => pure PUnit.unit >>= fun _ => pure bytes := by
    simp only [pure_bind, bind_pure]
  rw [h]
  refine Through.bind ?_ fun _ => Through.bind ?_ fun bytes => Through.bind ?_ fun _ => ?_
  · exact .modify fun _ => rfl
  · exact .within (fun _ _ => rfl) _
  · exact .modify fun _ => rfl
  · exact fun _ => rfl

end Noted

end Gridded
