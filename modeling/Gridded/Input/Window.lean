import Gridded.Effect

/-!
Windows: bytes of a source read ahead, with an index into them. The source stands at the end of the
window. A seek within the window leaves the source alone; any other one drops the window.
-/

namespace Gridded

class Source (σ : Type) where
  seek : Nat → Action σ Unit
  move : Int → Action σ Unit
  /-- Delivers at most as many bytes as asked for; none only if none were asked for or at the end. -/
  read : Nat → Action σ Bytes
  /-- How often a read may yet be interrupted before one is not. -/
  interruptions : σ → Nat
  read_interrupted (n : Nat) (s : σ) :
    Ensures (read n) s (fun _ _ => True)
      fun e t => e = .interrupted → interruptions t < interruptions s

structure Cursor where
  bytes : Bytes
  position : Nat := 0

namespace Cursor

def seek (p : Nat) : Action Cursor Unit := modify fun c => { c with position := p }

def move (offset : Int) : Action Cursor Unit := do
  let p : Int := (← get).position + offset
  if 0 ≤ p ∧ p < wordLimit then seek p.toNat else throw .badPosition

def read (n : Nat) : Action Cursor Bytes := do
  let c ← get
  let bytes := c.bytes.extract c.position (c.position + n)
  set { c with position := c.position + bytes.size }
  return bytes

instance : Source Cursor where
  seek := Cursor.seek
  move := Cursor.move
  read := Cursor.read
  interruptions _ := 0
  read_interrupted _ _ := trivial

end Cursor

structure Window (σ : Type) where
  source : σ
  capacity : Nat
  ahead : Bytes := #[]
  index : Nat := 0

namespace Window

variable {σ : Type} [Source σ]

def unread (w : Window σ) : Nat := w.ahead.size - w.index

@[inline] def onSource {α : Type} (a : Action σ α) : Action (Window σ) α :=
  a.within Window.source fun s w => { w with source := s }

def drop : Action (Window σ) Unit := modify fun w => { w with ahead := #[], index := 0 }

def seek (p : Nat) : Action (Window σ) Unit := do
  onSource (Source.seek p)
  drop

def move (offset : Int) : Action (Window σ) Unit := do
  let w ← get
  let index := w.index + offset
  if 0 ≤ index ∧ index ≤ w.ahead.size then
    set { w with index := index.toNat }
  else
    onSource (Source.move (offset - w.unread))
    drop

def fill : Action (Window σ) Unit := do
  let w ← get
  if w.unread = 0 then
    drop
    let ahead ← onSource (Source.read w.capacity)
    modify fun w => { w with ahead }

def take (n : Nat) : Action (Window σ) Bytes := do
  let w ← get
  let bytes := w.ahead.extract w.index (w.index + n)
  set { w with index := w.index + bytes.size }
  return bytes

def readSome (n : Nat) : Action (Window σ) Bytes := do
  let w ← get
  if w.unread = 0 ∧ w.capacity ≤ n then
    drop
    onSource (Source.read n)
  else
    fill
    take n

theorem fill_interrupted (w : Window σ) :
    Ensures fill w (fun _ _ => True) fun e v =>
      e = .interrupted → Source.interruptions v.source < Source.interruptions w.source := by
  simp only [fill, drop, onSource, Ensures.bind_iff, Ensures.get_iff]
  split
  · simp only [Ensures.bind_iff, Ensures.modify_iff, Ensures.within_iff]
    exact Source.read_interrupted w.capacity w.source
  · trivial

theorem readSome_interrupted (n : Nat) (w : Window σ) :
    Ensures (readSome n) w (fun _ _ => True) fun e v =>
      e = .interrupted → Source.interruptions v.source < Source.interruptions w.source := by
  simp only [readSome, drop, onSource, Ensures.bind_iff, Ensures.get_iff]
  split
  · simp only [Ensures.bind_iff, Ensures.modify_iff, Ensures.within_iff]
    exact Source.read_interrupted n w.source
  · rw [Ensures.bind_iff]
    exact (fill_interrupted w).mono (fun _ _ _ => trivial) fun _ _ he => he

/-- Reads until `n` more bytes have come. A read that is interrupted is made again. -/
def readOn (n : Nat) (read : Bytes) (w : Window σ) : Except SourceError Bytes × Window σ :=
  if n = 0 then (.ok read, w)
  else match _h : (readSome n).run.run w with
    | (.ok more, v) =>
      if more.size = 0 then (.error .endOfData, v) else readOn (n - more.size) (read ++ more) v
    | (.error .interrupted, v) => readOn n read v
    | (.error e, v) => (.error e, v)
  termination_by (n, Source.interruptions w.source)
  decreasing_by
    · exact Prod.Lex.left _ _ (by omega)
    · exact Prod.Lex.right _ ((readSome_interrupted n w).of_run_eq_error _h rfl)

def read (n : Nat) : Action (Window σ) Bytes := do
  if n ≤ (← get).unread then take n else ExceptT.mk (readOn n #[])

end Window

end Gridded
