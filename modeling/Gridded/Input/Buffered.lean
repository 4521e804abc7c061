import Gridded.Input.Window

/-!
Buffered inputs. The position is known after a success and unknown after a failure; a seek from an
unknown position is absolute, so what a failure left in the buffer is never read.
-/

namespace Gridded

structure Buffered (σ : Type) where
  name : String
  order : ByteOrder
  window : Window σ
  position : Option Nat := some 0

namespace Buffered

variable {σ : Type} [Source σ]

@[inline] def onWindow {α : Type} (a : Action (Window σ) α) : Action (Buffered σ) α :=
  a.within Buffered.window fun w b => { b with window := w }

def ofSource (name : String) (order : ByteOrder) (capacity : Nat) (source : σ) :
    Except SourceError (Buffered σ) :=
  match (Source.seek 0 : Action σ Unit).run.run source with
  | (.ok (), source) => .ok { name, order, window := { source, capacity } }
  | (.error e, _) => .error e

def capacity (b : Buffered σ) : Nat := b.window.capacity

def distance? (start : Option Nat) (p : Nat) : Option Int :=
  match start with
  | some q => if q < signedLimit ∧ p < signedLimit then some (p - q) else none
  | none => none

def seek (p : Nat) : Action (Buffered σ) Unit := do
  let distance := distance? (← get).position p
  modify fun b => { b with position := none }
  match distance with
  | some 0 => pure ()
  | some offset => onWindow (Window.move offset)
  | none => onWindow (Window.seek p)
  modify fun b => { b with position := some p }

def read (n : Nat) : Action (Buffered σ) Bytes := do
  let start := (← get).position
  modify fun b => { b with position := none }
  let bytes ← onWindow (Window.read n)
  modify fun b => { b with position := start.map (· + n) }
  return bytes

instance : Input (Buffered σ) where
  name := Buffered.name
  order := Buffered.order
  seek := Buffered.seek
  read := Buffered.read

end Buffered

end Gridded
