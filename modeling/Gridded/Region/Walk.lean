import Gridded.Region.Basic

namespace Gridded

/--
A lap goes round `count` times, and from the last place of a round to the next round it is `gap`.
-/
structure Lap where
  count : Nat
  gap : Nat
  deriving DecidableEq

namespace Walk

def reach : List Lap → Nat
  | [] => 0
  | lap :: inner => (lap.count - 1) * (reach inner + lap.gap) + reach inner

def rounds (round : Nat → List Nat) (distance : Nat) : Nat → Nat → List Nat
  | 0, _ => []
  | n + 1, place => round place ++ rounds round distance n (place + distance)

def places : List Lap → Nat → List Nat
  | [], place => [place]
  | lap :: inner, place => rounds (places inner) (reach inner + lap.gap) lap.count place

variable {m : Type → Type} [Monad m] {β : Type}

@[specialize] def foldRounds (round : Nat → β → m β) (distance : Nat) : Nat → Nat → β → m β
  | 0, _, b => pure b
  | n + 1, place, b => do foldRounds round distance n (place + distance) (← round place b)

@[specialize] def fold (visit : Nat → β → m β) : List Lap → Nat → β → m β
  | [], place, b => visit place b
  | lap :: inner, place, b =>
      foldRounds (fold visit inner) (reach inner + lap.gap) lap.count place b

theorem foldRounds_eq_foldlM [LawfulMonad m] {round : Nat → β → m β} {visit : Nat → β → m β}
    {list : Nat → List Nat} (h : ∀ p b, round p b = (list p).foldlM (fun b p => visit p b) b)
    (distance n place : Nat) (b : β) :
    foldRounds round distance n place b =
      (rounds list distance n place).foldlM (fun b p => visit p b) b := by
  induction n generalizing place b with
  | zero => rfl
  | succ n ih => simp [foldRounds, rounds, h, ih]

theorem fold_eq_foldlM [LawfulMonad m] (visit : Nat → β → m β) (laps : List Lap) (place : Nat)
    (b : β) : fold visit laps place b = (places laps place).foldlM (fun b p => visit p b) b := by
  induction laps generalizing place b with
  | nil => simp [fold, places]
  | cons lap inner ih => exact foldRounds_eq_foldlM ih _ _ _ _

end Walk

def Region.laps (r : Region) (size : Nat) : List Lap :=
  (List.zipWith (fun count skip => ⟨count, (skip + r.runLength) * size⟩)
    (r.counts.drop r.runDimensions) (r.skips.drop r.runDimensions)).reverse

end Gridded
