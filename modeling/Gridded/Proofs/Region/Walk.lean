import Gridded.Region.Walk
import Mathlib

namespace Gridded

namespace Lap

def scale (size : Nat) (lap : Lap) : Lap := { lap with gap := lap.gap * size }

def widen (reach : Nat) (lap : Lap) : Lap := { lap with gap := lap.gap + reach }

end Lap

namespace Walk

theorem length_rounds {round : Nat → List Nat} {m : Nat} (h : ∀ p, (round p).length = m)
    (distance n place : Nat) : (rounds round distance n place).length = n * m := by
  induction n generalizing place with
  | zero => simp [rounds]
  | succ n ih => simp only [rounds, List.length_append, h, ih]; rw [Nat.succ_mul, Nat.add_comm]

theorem getElem?_rounds {round : Nat → List Nat} {m : Nat} (h : ∀ p, (round p).length = m)
    {distance n i j : Nat} (hi : i < n) (hj : j < m) (place : Nat) :
    (rounds round distance n place)[j + i * m]? = (round (place + i * distance))[j]? := by
  induction n generalizing i place with
  | zero => omega
  | succ n ih =>
    simp only [rounds]
    cases i with
    | zero => rw [Nat.zero_mul, Nat.zero_mul, List.getElem?_append_left (by rw [h]; exact hj)]; rfl
    | succ i =>
      rw [List.getElem?_append_right (by rw [h, Nat.succ_mul]; omega), h]
      rw [show j + (i + 1) * m - m = j + i * m by rw [Nat.succ_mul]; omega, ih (by omega)]
      congr 2
      rw [Nat.succ_mul]
      omega

theorem length_places (laps : List Lap) (place : Nat) :
    (places laps place).length = (laps.map Lap.count).prod := by
  induction laps generalizing place with
  | nil => rfl
  | cons lap inner ih =>
    simp only [places, List.map_cons, List.prod_cons]
    exact length_rounds ih _ _ _

theorem getElem?_places_cons {lap : Lap} {inner : List Lap} {i j : Nat} (hi : i < lap.count)
    (hj : j < (inner.map Lap.count).prod) (place : Nat) :
    (places (lap :: inner) place)[j + i * (inner.map Lap.count).prod]? =
      (places inner (place + i * (reach inner + lap.gap)))[j]? :=
  getElem?_rounds (length_places inner) hi hj place

theorem reach_scale (size : Nat) (laps : List Lap) :
    reach (laps.map (Lap.scale size)) = reach laps * size := by
  induction laps with
  | nil => simp [reach]
  | cons lap inner ih =>
    simp only [List.map_cons, reach, ih, Lap.scale]
    rw [← Nat.add_mul, ← Nat.mul_assoc, ← Nat.add_mul]

theorem places_scale (size origin : Nat) (laps : List Lap) (place : Nat) :
    places (laps.map (Lap.scale size)) (place * size + origin) =
      (places laps place).map (· * size + origin) := by
  induction laps generalizing place with
  | nil => rfl
  | cons lap inner ih =>
    simp only [List.map_cons, places, reach_scale, Lap.scale, ← Nat.add_mul]
    generalize lap.count = n
    induction n generalizing place with
    | zero => rfl
    | succ n ihn =>
      simp only [rounds, List.map_append, ih, ← ihn]
      congr 2
      rw [Nat.add_mul place, Nat.add_right_comm]

theorem reach_append (outer inner : List Lap) :
    reach (outer ++ inner) = reach (outer.map (Lap.widen (reach inner))) + reach inner := by
  induction outer with
  | nil => simp [reach]
  | cons lap outer ih =>
    simp only [List.cons_append, List.map_cons, reach, ih, Lap.widen]
    rw [Nat.add_right_comm _ (reach inner) lap.gap, ← Nat.add_assoc, ← Nat.add_assoc]

theorem places_append (outer inner : List Lap) (place : Nat) :
    places (outer ++ inner) place =
      (places (outer.map (Lap.widen (reach inner))) place).flatMap (places inner) := by
  induction outer generalizing place with
  | nil => simp [places]
  | cons lap outer ih =>
    simp only [List.cons_append, List.map_cons, places, reach_append, Lap.widen]
    rw [Nat.add_right_comm _ (reach inner) lap.gap, ← Nat.add_assoc]
    generalize lap.count = n
    induction n generalizing place with
    | zero => rfl
    | succ n ihn => rw [rounds, rounds, List.flatMap_append, ih, ihn]

theorem places_of_gap_eq_one {laps : List Lap} (h : ∀ lap ∈ laps, lap.gap = 1 ∧ 0 < lap.count) :
    reach laps + 1 = (laps.map Lap.count).prod ∧
      ∀ place, places laps place = List.range' place (laps.map Lap.count).prod := by
  induction laps with
  | nil => simp [reach, places]
  | cons lap inner ih =>
    obtain ⟨hgap, hcount⟩ := h lap (by simp)
    obtain ⟨hreach, hplaces⟩ := ih fun l hl => h l (by simp [hl])
    simp only [reach, places, List.map_cons, List.prod_cons, hgap, hreach]
    constructor
    · rw [Nat.add_assoc, hreach, ← Nat.succ_mul, Nat.succ_eq_add_one, Nat.sub_add_cancel hcount]
    · intro place
      generalize lap.count = n
      induction n generalizing place with
      | zero => simp [rounds]
      | succ n ihn => rw [rounds, hplaces, ihn, List.range'_append_1, Nat.succ_mul, Nat.add_comm]

theorem mem_rounds_iff {round : Nat → List Nat} {distance n place p : Nat} :
    p ∈ rounds round distance n place ↔ ∃ i < n, p ∈ round (place + i * distance) := by
  induction n generalizing place with
  | zero => simp [rounds]
  | succ n ih =>
    rw [rounds, List.mem_append, ih]
    constructor
    · rintro (hfirst | ⟨i, hi, hrest⟩)
      · exact ⟨0, Nat.succ_pos n, by simpa using hfirst⟩
      · refine ⟨i + 1, Nat.succ_lt_succ hi, ?_⟩
        rwa [Nat.add_one_mul, Nat.add_comm (i * distance), ← Nat.add_assoc]
    · rintro ⟨i, hi, hp⟩
      cases i with
      | zero => exact .inl (by simpa using hp)
      | succ i =>
        refine .inr ⟨i, Nat.lt_of_succ_lt_succ hi, ?_⟩
        rwa [Nat.add_one_mul, Nat.add_comm (i * distance), ← Nat.add_assoc] at hp

theorem le_of_mem_rounds {round : Nat → List Nat} (h : ∀ p, ∀ q ∈ round p, p ≤ q)
    {distance n place p : Nat} (hp : p ∈ rounds round distance n place) : place ≤ p := by
  obtain ⟨i, -, hp⟩ := mem_rounds_iff.1 hp
  exact Nat.le_trans (Nat.le_add_right _ _) (h _ p hp)

theorem le_add_of_mem_rounds {round : Nat → List Nat} {r : Nat}
    (h : ∀ p, ∀ q ∈ round p, q ≤ p + r) {distance n place p : Nat}
    (hp : p ∈ rounds round distance n place) : p ≤ place + ((n - 1) * distance + r) := by
  obtain ⟨i, hi, hp⟩ := mem_rounds_iff.1 hp
  have hround := h _ p hp
  have hturn : i * distance ≤ (n - 1) * distance := Nat.mul_le_mul_right _ (by omega)
  omega

theorem mem_places {laps : List Lap} {place p : Nat} (hp : p ∈ places laps place) :
    place ≤ p ∧ p ≤ place + reach laps := by
  induction laps generalizing place p with
  | nil =>
    obtain rfl := List.mem_singleton.1 hp
    exact ⟨Nat.le_refl _, Nat.le_refl _⟩
  | cons lap inner ih =>
    exact ⟨le_of_mem_rounds (fun _ _ hq => (ih hq).1) hp,
      le_add_of_mem_rounds (fun _ _ hq => (ih hq).2) hp⟩

section Rounds

variable {laps : List Lap} (h : ∀ lap ∈ laps, 0 < lap.count)

include h

theorem mem_places_self (place : Nat) : place ∈ places laps place := by
  induction laps with
  | nil => exact List.mem_singleton_self place
  | cons lap inner ih =>
    obtain ⟨hcount, hinner⟩ := List.forall_mem_cons.1 h
    exact mem_rounds_iff.2 ⟨0, hcount, by simpa using ih hinner⟩

theorem add_reach_mem_places (place : Nat) : place + reach laps ∈ places laps place := by
  induction laps generalizing place with
  | nil => exact List.mem_singleton_self place
  | cons lap inner ih =>
    obtain ⟨hcount, hinner⟩ := List.forall_mem_cons.1 h
    refine mem_rounds_iff.2 ⟨lap.count - 1, by omega, ?_⟩
    rw [reach, ← Nat.add_assoc]
    exact ih hinner _

theorem exists_mem_places_of_gap {lap : Lap} (hlap : lap ∈ laps) (hcount : 1 < lap.count)
    (place : Nat) : ∃ p ∈ places laps place, place + lap.gap ≤ p := by
  induction laps with
  | nil => cases hlap
  | cons first inner ih =>
    obtain ⟨hfirst, hinner⟩ := List.forall_mem_cons.1 h
    rcases List.mem_cons.1 hlap with rfl | hlap
    · refine ⟨_, mem_rounds_iff.2 ⟨1, hcount, mem_places_self hinner _⟩, ?_⟩
      omega
    · obtain ⟨p, hp, hle⟩ := ih hinner hlap
      exact ⟨p, mem_rounds_iff.2 ⟨0, hfirst, by simpa using hp⟩, hle⟩

end Rounds

theorem pairwise_places {laps : List Lap} {d : Nat} (h : ∀ lap ∈ laps, d < lap.gap)
    (place : Nat) : (places laps place).Pairwise fun p q => p + d < q := by
  induction laps generalizing place with
  | nil => exact List.pairwise_singleton _ _
  | cons lap inner ih =>
    obtain ⟨hgap, hinner⟩ := List.forall_mem_cons.1 h
    simp only [places]
    generalize lap.count = n
    induction n generalizing place with
    | zero => exact .nil
    | succ n ihn =>
      rw [rounds, List.pairwise_append]
      refine ⟨ih hinner place, ihn _, ?_⟩
      intro p hp q hq
      have hpq : place + (reach inner + lap.gap) ≤ q :=
        le_of_mem_rounds (fun _ _ hq => (mem_places hq).1) hq
      have := (mem_places hp).2
      omega

end Walk

end Gridded
