import Gridded.File.Node

/-!
The journal: events worth telling, in the order in which they happen. `Logged` computations give
their events beside their result, so a result never depends on what was told before.
-/

namespace Gridded

inductive Level
  | warn
  | debug
  | trace
  deriving DecidableEq

def Level.name : Level → String
  | .warn => "WARN"
  | .debug => "DEBUG"
  | .trace => "TRACE"

inductive Event
  | convention (file identifier : String)
  | defaultConvention (file identifier : String)
  | duplicateParameter (node parameter : String)
  | longDatumShift (node name : String) (count : Nat)
  | strayDimension (system : String) (dimension : Dimension) (axis : String)
  | axesKept (system : String)
  | axesReversed (system : String)
  | elementsRead (input : String) (count : Nat) (kind : ElementKind) (runs length : Nat)
  deriving DecidableEq

def Event.level : Event → Level
  | .duplicateParameter .. | .longDatumShift .. | .strayDimension .. => .warn
  | .elementsRead .. => .trace
  | _ => .debug

def Event.message : Event → String
  | .convention file identifier => s!"{file}: using the {identifier} convention"
  | .defaultConvention file identifier => s!"{file}: using the default {identifier} convention"
  | .duplicateParameter node parameter =>
      s!"{node}: duplicated projection parameter {parameter}, keeping the first occurrence"
  | .longDatumShift node name count =>
      s!"{node}: ignoring {name} with {count} values, expected at most 7"
  | .strayDimension system dimension axis =>
      system ++ ": dimension " ++ dimension.text ++ " of axis " ++ axis ++
        " is not in the grid domain"
  | .axesKept system => system ++ ": axes kept in domain order"
  | .axesReversed system => system ++ ": axes reversed"
  | .elementsRead input count kind runs length =>
      s!"{input}: read {count} " ++ kind.name ++ s!" elements in {runs} runs of {length}"

structure Logged (α : Type) where
  result : α
  events : List Event

namespace Logged

instance : Monad Logged where
  pure a := ⟨a, []⟩
  bind x f :=
    let y := f x.result
    ⟨y.result, x.events ++ y.events⟩

def tell (e : Event) : Logged Unit := ⟨(), [e]⟩

@[simp] theorem result_pure {α : Type} (a : α) : (pure a : Logged α).result = a := rfl

@[simp] theorem events_pure {α : Type} (a : α) : (pure a : Logged α).events = [] := rfl

@[simp] theorem result_bind {α β : Type} (x : Logged α) (f : α → Logged β) :
    (x >>= f).result = (f x.result).result := rfl

@[simp] theorem events_bind {α β : Type} (x : Logged α) (f : α → Logged β) :
    (x >>= f).events = x.events ++ (f x.result).events := rfl

instance : LawfulMonad Logged :=
  LawfulMonad.mk' Logged (fun _ => congrArg (Logged.mk _) (List.append_nil _)) (fun _ _ => rfl)
    (fun _ _ _ => congrArg (Logged.mk _) (List.append_assoc ..))

end Logged

end Gridded
