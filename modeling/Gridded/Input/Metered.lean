import Gridded.Input.Basic

namespace Gridded

structure Metered (ι : Type) where
  input : ι
  seeks : Nat := 0
  reads : Nat := 0
  bytesRead : Nat := 0

namespace Metered

variable {ι : Type} [Input ι]

@[inline] def onInput {α : Type} (a : Action ι α) : Action (Metered ι) α :=
  a.within Metered.input fun i m => { m with input := i }

def reset (m : Metered ι) : Metered ι := { input := m.input }

instance : Input (Metered ι) where
  name m := Input.name m.input
  order m := Input.order m.input
  seek p := do
    onInput (Input.seek p)
    modify fun m => { m with seeks := m.seeks + 1 }
  read n := do
    let bytes ← onInput (Input.read n)
    modify fun m => { m with reads := m.reads + 1, bytesRead := m.bytesRead + n }
    return bytes

end Metered

/--
A test double: an input of which one seek and one read may be planned to fail, counted from zero. A
planned failure leaves the input alone.
-/
structure FaultInjecting (ι : Type) where
  input : ι
  seekFault : Option Nat := none
  readFault : Option Nat := none
  seeksAsked : Nat := 0
  readsAsked : Nat := 0

namespace FaultInjecting

variable {ι : Type} [Input ι]

@[inline] def onInput {α : Type} (a : Action ι α) : Action (FaultInjecting ι) α :=
  a.within FaultInjecting.input fun i m => { m with input := i }

def fault : SourceError := .other "injected failure"

instance : Input (FaultInjecting ι) where
  name i := Input.name i.input
  order i := Input.order i.input
  seek p := do
    let i ← get
    set { i with seeksAsked := i.seeksAsked + 1 }
    if i.seekFault = some i.seeksAsked then throw fault else onInput (Input.seek p)
  read n := do
    let i ← get
    set { i with readsAsked := i.readsAsked + 1 }
    if i.readFault = some i.readsAsked then throw fault else onInput (Input.read n)

end FaultInjecting

end Gridded
