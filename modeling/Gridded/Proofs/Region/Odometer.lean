import Gridded.Proofs.Region.Walk
import Gridded.Proofs.Word
import Mathlib

/-!
Odometers: a walk without nested laps. There is a counter for each lap, that of the fastest first. A
turn goes on along the first lap that is not complete, and all laps before it start again.
-/

namespace Gridded

namespace Odometer

def turn : List Lap → List Nat → Option (Nat × List Nat)
  | lap :: laps, n :: ns =>
      if n + 1 < lap.count then some (lap.gap, (n + 1) :: ns)
      else (turn laps ns).map fun (gap, ns) => (gap, 0 :: ns)
  | _, _ => none

def zeros (laps : List Lap) : List Nat := laps.map fun _ => 0

abbrev Valid (laps : List Lap) (ns : List Nat) : Prop :=
  List.Forall₂ (fun lap n => n < lap.count) laps ns

/-- Turn by turn from some counters on, the places are those listed, and `stop` is the last one. -/
inductive Tour (laps : List Lap) : List Nat → Nat → List Nat → Nat → Prop
  | last {ns : List Nat} {place : Nat} (h : turn laps ns = none) : Tour laps ns place [place] place
  | next {ns ns' places : List Nat} {place gap stop : Nat} (h : turn laps ns = some (gap, ns'))
      (rest : Tour laps ns' (place + gap) places stop) : Tour laps ns place (place :: places) stop

variable {lap : Lap} {laps : List Lap} {ns ns' : List Nat} {gap n : Nat}

theorem turn_cons_eq_some_iff :
    turn (lap :: laps) (n :: ns) = some (gap, ns') ↔
      (n + 1 < lap.count ∧ gap = lap.gap ∧ ns' = (n + 1) :: ns) ∨
        lap.count ≤ n + 1 ∧ ∃ rest, turn laps ns = some (gap, rest) ∧ ns' = 0 :: rest := by
  rw [turn]
  split
  · next hlt =>
    rw [Option.some_inj, Prod.mk.injEq, eq_comm, @eq_comm _ _ ns', and_iff_right hlt]
    exact (or_iff_left fun hle => Nat.not_lt_of_le hle.1 hlt).symm
  · next hle =>
    simp only [hle, false_and, false_or, Nat.le_of_not_lt hle, true_and, Option.map_eq_some_iff,
      Prod.exists, Prod.mk.injEq]
    constructor
    · rintro ⟨_, rest, hrest, rfl, rfl⟩
      exact ⟨rest, hrest, rfl⟩
    · rintro ⟨rest, hrest, rfl⟩
      exact ⟨gap, rest, hrest, rfl, rfl⟩

theorem turn_cons_eq_none_iff :
    turn (lap :: laps) (n :: ns) = none ↔ lap.count ≤ n + 1 ∧ turn laps ns = none := by
  rw [turn]
  split
  · next hlt => exact iff_of_false nofun fun hle => Nat.not_lt_of_le hle.1 hlt
  · next hle => rw [Option.map_eq_none_iff, and_iff_right (Nat.le_of_not_lt hle)]

theorem valid_zeros (h : ∀ lap ∈ laps, 0 < lap.count) : Valid laps (zeros laps) := by
  induction laps with
  | nil => exact .nil
  | cons lap laps ih =>
    obtain ⟨hlap, hlaps⟩ := List.forall_mem_cons.1 h
    exact .cons hlap (ih hlaps)

theorem Valid.turn (h : Valid laps ns) (hturn : turn laps ns = some (gap, ns')) :
    Valid laps ns' := by
  induction h generalizing ns' with
  | nil => cases hturn
  | @cons lap n laps ns hn hns ih =>
    obtain ⟨hlt, -, rfl⟩ | ⟨-, rest, hrest, rfl⟩ := turn_cons_eq_some_iff.1 hturn
    · exact .cons hlt hns
    · exact .cons (by omega) (ih hrest)

theorem turn_concat_of_some (h : Valid laps ns) (hturn : turn laps ns = some (gap, ns')) :
    turn (laps ++ [lap]) (ns ++ [n]) = some (gap, ns' ++ [n]) := by
  induction h generalizing ns' with
  | nil => cases hturn
  | @cons inner i laps ns hi hns ih =>
    rw [List.cons_append, List.cons_append, turn_cons_eq_some_iff]
    obtain ⟨hlt, rfl, rfl⟩ | ⟨hle, rest, hrest, rfl⟩ := turn_cons_eq_some_iff.1 hturn
    · exact .inl ⟨hlt, rfl, rfl⟩
    · exact .inr ⟨hle, _, ih hrest, rfl⟩

theorem turn_concat_of_none (h : Valid laps ns) (hturn : turn laps ns = none) :
    turn (laps ++ [lap]) (ns ++ [n]) =
      if n + 1 < lap.count then some (lap.gap, zeros laps ++ [n + 1]) else none := by
  induction h with
  | nil => rfl
  | @cons inner i laps ns hi hns ih =>
    obtain ⟨hle, hrest⟩ := turn_cons_eq_none_iff.1 hturn
    rw [List.cons_append, List.cons_append, turn, if_neg (Nat.not_lt_of_le hle), ih hrest]
    split
    · rfl
    · rfl

namespace Tour

variable {places places' : List Nat} {place stop stop' : Nat}

theorem concat (t : Tour laps ns place places stop) (h : Valid laps ns)
    (hlast : lap.count ≤ n + 1) : Tour (laps ++ [lap]) (ns ++ [n]) place places stop := by
  induction t with
  | last hturn =>
    refine .last ?_
    rw [turn_concat_of_none h hturn, if_neg (by omega)]
  | next hturn _ ih => exact .next (turn_concat_of_some h hturn) (ih (h.turn hturn))

theorem append (t : Tour laps ns place places stop) (h : Valid laps ns) (hn : n + 1 < lap.count)
    (t' : Tour (laps ++ [lap]) (zeros laps ++ [n + 1]) (stop + lap.gap) places' stop') :
    Tour (laps ++ [lap]) (ns ++ [n]) place (places ++ places') stop' := by
  induction t with
  | last hturn =>
    refine .next ?_ t'
    rw [turn_concat_of_none h hturn, if_pos hn]
  | next hturn _ ih => exact .next (turn_concat_of_some h hturn) (ih (h.turn hturn) t')

end Tour

theorem tour_rounds {round : Nat → List Nat} {reach : Nat}
    (hround : ∀ place, Tour laps (zeros laps) place (round place) (place + reach))
    (h : ∀ lap ∈ laps, 0 < lap.count) {rounds : Nat} (hn : n + rounds + 1 = lap.count)
    (place : Nat) :
    Tour (laps ++ [lap]) (zeros laps ++ [n]) place
      (Walk.rounds round (reach + lap.gap) (rounds + 1) place)
      (place + (rounds * (reach + lap.gap) + reach)) := by
  induction rounds generalizing n place with
  | zero =>
    rw [Walk.rounds, Walk.rounds, List.append_nil, Nat.zero_mul, Nat.zero_add]
    exact (hround place).concat (valid_zeros h) (by omega)
  | succ rounds ih =>
    have hrest := ih (n := n + 1) (by omega) (place + (reach + lap.gap))
    refine (hround place).append (valid_zeros h) (by omega) ?_
    rw [Nat.add_one_mul, Nat.add_assoc place]
    convert hrest using 1
    omega

theorem tour_places (h : ∀ lap ∈ laps, 0 < lap.count) (place : Nat) :
    Tour laps.reverse (zeros laps.reverse) place (Walk.places laps place)
      (place + Walk.reach laps) := by
  induction laps generalizing place with
  | nil => exact .last rfl
  | cons lap inner ih =>
    obtain ⟨hlap, hinner⟩ := List.forall_mem_cons.1 h
    obtain ⟨rounds, hcount⟩ := Nat.exists_eq_add_one.2 hlap
    have hall := tour_rounds (ih hinner) (fun l hl => hinner l (List.mem_reverse.1 hl))
      (show 0 + rounds + 1 = lap.count by omega) place
    rw [List.reverse_cons, zeros, List.map_append, Walk.places, Walk.reach, hcount]
    exact hall

section Words

variable {ε β : Type} {m : Type → Type} [Monad m] [MonadExcept (Failure ε) m]

def turnInWords : List Lap → List Nat → m (Option (Nat × List Nat))
  | lap :: laps, n :: ns => do
      let n ← Word.add n 1
      if n < lap.count then return some (lap.gap, n :: ns)
      else return (← turnInWords laps ns).map fun (gap, ns) => (gap, 0 :: ns)
  | _, _ => return none

def foldInWords (visit : Nat → β → m β) (laps : List Lap) : Nat → List Nat → Nat → β → m β
  | 0, _, _, _ => throw .fault
  | limit + 1, ns, place, b => do
      let b ← visit place b
      match ← turnInWords laps ns with
      | some (gap, ns) => foldInWords visit laps limit ns (place + gap) b
      | none => return b

variable [LawfulMonad m]

theorem turnInWords_eq_pure (hcount : ∀ lap ∈ laps, lap.count < wordLimit) (h : Valid laps ns) :
    (turnInWords laps ns : m _) = pure (turn laps ns) := by
  induction h with
  | nil => rfl
  | @cons lap n laps ns hn _ ih =>
    obtain ⟨hlap, hlaps⟩ := List.forall_mem_cons.1 hcount
    rw [turnInWords, turn, Word.add_eq_pure (by omega), pure_bind, ih hlaps, pure_bind]
    split
    · rfl
    · rfl

theorem foldInWords_eq_foldlM (visit : Nat → β → m β)
    (hcount : ∀ lap ∈ laps, lap.count < wordLimit) (h : Valid laps ns) {places : List Nat}
    {place stop limit : Nat} (t : Tour laps ns place places stop) (hlimit : places.length ≤ limit)
    (b : β) :
    foldInWords visit laps limit ns place b = places.foldlM (fun b p => visit p b) b := by
  induction t generalizing limit b with
  | last hturn =>
    obtain ⟨limit, rfl⟩ := Nat.exists_eq_add_one.2 (Nat.lt_of_lt_of_le Nat.one_pos hlimit)
    rw [foldInWords, turnInWords_eq_pure hcount h, hturn]
    simp only [pure_bind, List.foldlM_cons, List.foldlM_nil]
  | @next ns ns' places place gap stop hturn _ ih =>
    obtain ⟨limit, rfl⟩ := Nat.exists_eq_add_one.2 (Nat.lt_of_lt_of_le (Nat.succ_pos _) hlimit)
    rw [foldInWords, turnInWords_eq_pure hcount h, hturn, List.foldlM_cons]
    simp only [pure_bind]
    exact bind_congr fun b => ih (h.turn hturn) (Nat.le_of_succ_le_succ hlimit) b

end Words

end Odometer

end Gridded
