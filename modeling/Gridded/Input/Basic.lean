import Gridded.Element
import Gridded.Error

namespace Gridded

abbrev Action (σ α : Type) := ExceptT SourceError (StateM σ) α

@[inline] def Action.within {σ τ α : Type} (part : τ → σ) (put : σ → τ → τ) (a : Action σ α) :
    Action τ α :=
  ExceptT.mk fun t =>
    let (r, s) := a.run.run (part t)
    (r, put s t)

class Input (ι : Type) where
  name : ι → String
  order : ι → ByteOrder
  /-- Moves to a position; one beyond the end is no failure. -/
  seek : Nat → Action ι Unit
  /-- Delivers exactly as many bytes as asked for and moves behind them. -/
  read : Nat → Action ι Bytes

instance {ι κ : Type} [Input ι] [Input κ] : Input (ι ⊕ κ) where
  name := Sum.elim Input.name Input.name
  order := Sum.elim Input.order Input.order
  seek p := ExceptT.mk fun
    | .inl i => let (r, i) := (Input.seek p : Action ι Unit).run.run i; (r, .inl i)
    | .inr k => let (r, k) := (Input.seek p : Action κ Unit).run.run k; (r, .inr k)
  read n := ExceptT.mk fun
    | .inl i => let (r, i) := (Input.read n : Action ι Bytes).run.run i; (r, .inl i)
    | .inr k => let (r, k) := (Input.read n : Action κ Bytes).run.run k; (r, .inr k)

structure Memory where
  name : String
  order : ByteOrder
  bytes : Bytes
  position : Nat := 0

namespace Memory

def seek (p : Nat) : Action Memory Unit := modify fun m => { m with position := p }

def read (n : Nat) : Action Memory Bytes := do
  let m ← get
  if m.position + n ≤ m.bytes.size then
    set { m with position := m.position + n }
    return m.bytes.extract m.position (m.position + n)
  else throw (.outside m.name n m.position m.bytes.size)

instance : Input Memory where
  name := Memory.name
  order := Memory.order
  seek := Memory.seek
  read := Memory.read

end Memory

end Gridded
