import Gridded.Proofs.Region.Acceptance
import Gridded.Proofs.Region.Index
import Gridded.Proofs.Region.Walk
import Mathlib

namespace Gridded

namespace Slice

structure Selects (s : Slice) (x : Nat) : Prop where
  lower_le : s.lower ≤ x
  lt_upper : x < s.upper
  step_dvd : s.step ∣ x - s.lower

variable {s : Slice}

theorem Fits.selects_iff (h : s.Fits) {x : Nat} : s.Selects x ↔ ∃ i < s.count, s.nth i = x := by
  constructor
  · rintro ⟨hlower, hupper, k, hk⟩
    rw [Nat.mul_comm] at hk
    refine ⟨k, ?_, ?_⟩
    · refine (Nat.le_div_iff_mul_le h.step_pos).2 ?_
      rw [Nat.add_one_mul]
      omega
    · unfold nth
      omega
  · rintro ⟨i, hi, rfl⟩
    refine ⟨Nat.le_add_right _ _, h.nth_lt_upper hi, ?_⟩
    rw [nth, Nat.add_sub_cancel_left]
    exact Nat.dvd_mul_left _ _

theorem forall₂_selects_iff {ss : List Slice} (h : ∀ s ∈ ss, s.Fits) {xs : List Nat} :
    List.Forall₂ Selects ss xs ↔
      ∃ index, List.Forall₂ (· < ·) index (ss.map count) ∧ List.zipWith nth ss index = xs := by
  induction ss generalizing xs with
  | nil =>
    rw [List.forall₂_nil_left_iff]
    constructor
    · rintro rfl
      exact ⟨[], .nil, rfl⟩
    · rintro ⟨index, hindex, rfl⟩
      rfl
  | cons s ss ih =>
    obtain ⟨hs, hss⟩ := List.forall_mem_cons.1 h
    rw [List.forall₂_cons_left_iff]
    constructor
    · rintro ⟨x, l, hx, hl, rfl⟩
      obtain ⟨i, hi, rfl⟩ := hs.selects_iff.1 hx
      obtain ⟨index, hindex, rfl⟩ := (ih hss).1 hl
      exact ⟨i :: index, .cons hi hindex, rfl⟩
    · rintro ⟨index, hindex, rfl⟩
      rw [List.map_cons, List.forall₂_cons_right_iff] at hindex
      obtain ⟨i, index, hi, hindex, rfl⟩ := hindex
      exact ⟨_, _, hs.selects_iff.2 ⟨i, hi, rfl⟩, (ih hss).2 ⟨index, hindex, rfl⟩, rfl⟩

end Slice

namespace Region

/-- The offsets of the indices that slices select, one slice for each dimension. -/
def selectedOffsets (ss : List Slice) : Set Nat :=
  {q | ∃ index, List.Forall₂ Slice.Selects ss index ∧ offsetIn (ss.map Slice.size) index = q}

def lapsOf (counts skips : List Nat) : List Lap :=
  (List.zipWith (fun count skip => ⟨count, skip + 1⟩) counts skips).reverse

def elementLaps (r : Region) : List Lap := lapsOf r.counts r.skips

def innerLaps (r : Region) : List Lap :=
  lapsOf (r.counts.take r.runDimensions) (r.skips.take r.runDimensions)

def outerLaps (r : Region) : List Lap :=
  lapsOf (r.counts.drop r.runDimensions) (r.skips.drop r.runDimensions)

def visits (r : Region) : List Nat := Walk.places r.elementLaps r.start

def runStarts (r : Region) : List Nat := Walk.places (r.laps 1) r.start

namespace Partial

theorem elementLaps_concat (ss : List Slice) (s : Slice) :
    (along (ss ++ [s])).elementLaps =
      ⟨s.count, s.step * (along ss).stride - (along ss).span - 1 + 1⟩ ::
        (along ss).elementLaps := by
  have h : (along ss).counts.length = (along ss).skips.length := by
    simp [counts_along, length_skips_along]
  simp [elementLaps, lapsOf, next, List.zipWith_append h]

theorem map_count_elementLaps (ss : List Slice) :
    (along ss).elementLaps.map Lap.count = (ss.map Slice.count).reverse := by
  induction ss using List.reverseRecOn with
  | nil => rfl
  | append_singleton ss s ih => rw [elementLaps_concat]; simp [ih]

variable {ss : List Slice}

theorem span_add_gap (h : ∀ s ∈ ss, s.Fits) {s : Slice} (hs : s.Fits) :
    (along ss).span + (s.step * (along ss).stride - (along ss).span - 1 + 1) =
      s.step * (along ss).stride := by
  have := span_lt_stride_along h
  have := Nat.le_mul_of_pos_left (along ss).stride hs.step_pos
  omega

theorem reach_elementLaps (h : ∀ s ∈ ss, s.Fits) :
    Walk.reach (along ss).elementLaps = (along ss).span := by
  induction ss using List.reverseRecOn with
  | nil => rfl
  | append_singleton ss s ih =>
    have hss : ∀ t ∈ ss, t.Fits := fun t ht => h t (by simp [ht])
    rw [elementLaps_concat, Walk.reach, ih hss, span_add_gap hss (h s (by simp)), along_concat]
    rfl

theorem getElem?_places_elementLaps (h : ∀ s ∈ ss, s.Fits) {index : List Nat}
    (hi : List.Forall₂ (· < ·) index (ss.map Slice.count)) (place : Nat) :
    (Walk.places (along ss).elementLaps (place + (along ss).start))[offsetIn
        (ss.map Slice.count) index]? =
      some (place + offsetIn (ss.map Slice.size) (List.zipWith Slice.nth ss index)) := by
  induction ss using List.reverseRecOn generalizing index place with
  | nil =>
    cases hi
    rfl
  | append_singleton ss s ih =>
    have hss : ∀ t ∈ ss, t.Fits := fun t ht => h t (by simp [ht])
    rw [List.map_append, List.map_singleton] at hi
    obtain ⟨l, i, rfl, hl, hi⟩ := forall₂_concat_right.1 hi
    have hlength : l.length = ss.length := by simpa using hl.length_eq
    have hprod : ((along ss).elementLaps.map Lap.count).prod = (ss.map Slice.count).prod := by
      rw [map_count_elementLaps, List.prod_reverse]
    have hplace : place + (along (ss ++ [s])).start + i * (s.step * (along ss).stride) =
        place + s.nth i * (along ss).stride + (along ss).start := by
      simp only [along_concat, next, Slice.nth]
      rw [Nat.add_mul, Nat.mul_assoc]
      omega
    rw [elementLaps_concat, List.map_append, List.map_append, List.zipWith_append hlength.symm]
    simp only [List.map_singleton, List.zipWith_cons_cons, List.zipWith_nil_left]
    rw [offsetIn_concat (by simpa using hlength), offsetIn_concat (by simp [hlength]), ← hprod,
      Walk.getElem?_places_cons hi (by rw [hprod]; exact offsetIn_lt hl), reach_elementLaps hss,
      span_add_gap hss (h s (by simp)), hplace, ih hss hl, stride_along]
    congr 1
    omega

end Partial

theorem laps_eq_map_scale (r : Region) (size : Nat) :
    r.laps size = (r.laps 1).map (Lap.scale size) := by
  simp [laps, List.map_zipWith, Lap.scale]

theorem places_laps (r : Region) (size origin : Nat) :
    Walk.places (r.laps size) (r.start * size + origin) =
      r.runStarts.map (· * size + origin) := by
  rw [laps_eq_map_scale, Walk.places_scale]
  rfl

theorem runLength_mul_le_gap {r : Region} {size : Nat} {lap : Lap} (h : lap ∈ r.laps size) :
    r.runLength * size ≤ lap.gap := by
  rw [laps, List.mem_reverse] at h
  obtain ⟨i, hi, rfl⟩ := List.getElem_of_mem h
  rw [List.getElem_zipWith]
  exact Nat.mul_le_mul_right _ (Nat.le_add_left _ _)

theorem count_mem_of_mem_laps {r : Region} {size : Nat} {lap : Lap} (h : lap ∈ r.laps size) :
    lap.count ∈ r.counts := by
  rw [laps, List.mem_reverse] at h
  obtain ⟨i, hi, rfl⟩ := List.getElem_of_mem h
  rw [List.getElem_zipWith]
  exact List.mem_of_mem_drop (List.getElem_mem _)

section Runs

variable {r : Region}

theorem map_count_lapsOf {counts skips : List Nat} (h : counts.length = skips.length) :
    (lapsOf counts skips).map Lap.count = counts.reverse := by
  rw [lapsOf, List.map_reverse, List.map_zipWith]
  congr 1
  induction counts generalizing skips with
  | nil => rfl
  | cons c counts ih =>
    cases skips with
    | nil => cases h
    | cons k skips => simp only [List.zipWith_cons_cons]; rw [ih (by simpa using h)]

theorem elementLaps_eq_append (h : r.counts.length = r.skips.length) :
    r.elementLaps = r.outerLaps ++ r.innerLaps := by
  have ht : (r.counts.take r.runDimensions).length = (r.skips.take r.runDimensions).length := by
    simp [h]
  simp only [outerLaps, innerLaps, lapsOf]
  rw [← List.reverse_append, ← List.zipWith_append ht, List.take_append_drop,
    List.take_append_drop]
  rfl

theorem skip_eq_zero_iff_of_le {d k : Nat} (hk : r.skips[d]? = some k)
    (hd : d ≤ r.runDimensions) : k = 0 ↔ d < r.runDimensions := by
  unfold runDimensions at *
  generalize r.skips = skips at *
  induction skips generalizing d with
  | nil => cases hk
  | cons m skips ih =>
    by_cases hm : m = 0
    · rw [List.takeWhile_cons_of_pos (by simpa using hm), List.length_cons] at hd ⊢
      cases d with
      | zero =>
        cases hk
        exact iff_of_true hm (Nat.succ_pos _)
      | succ d => rw [ih hk (Nat.le_of_succ_le_succ hd), Nat.succ_lt_succ_iff]
    · rw [List.takeWhile_cons_of_neg (by simpa using hm), List.length_nil] at hd ⊢
      obtain rfl := Nat.le_zero.1 hd
      cases hk
      exact iff_of_false hm (Nat.lt_irrefl 0)

theorem gap_innerLaps : ∀ lap ∈ r.innerLaps, lap.gap = 1 := by
  intro lap hlap
  rw [innerLaps, lapsOf, List.mem_reverse] at hlap
  obtain ⟨i, hi, rfl⟩ := List.getElem_of_mem hlap
  have hrun : i < r.runDimensions := by simp at hi; omega
  have hskips : i < r.skips.length := by simp at hi; omega
  have hskip : r.skips[i] = 0 :=
    (skip_eq_zero_iff_of_le (List.getElem?_eq_getElem hskips) (Nat.le_of_lt hrun)).2 hrun
  simp only [List.getElem_zipWith, List.getElem_take, hskip]

theorem prod_count_innerLaps (h : r.counts.length = r.skips.length) :
    (r.innerLaps.map Lap.count).prod = r.runLength := by
  rw [innerLaps, map_count_lapsOf (by simp [h]), List.prod_reverse]
  rfl

theorem map_count_laps (h : r.counts.length = r.skips.length) (size : Nat) :
    (r.laps size).map Lap.count = (r.counts.drop r.runDimensions).reverse := by
  have hdrop : (r.counts.drop r.runDimensions).length = (r.skips.drop r.runDimensions).length := by
    simp [h]
  rw [← map_count_lapsOf hdrop]
  simp [laps, lapsOf, List.map_zipWith]

theorem prod_drop_mul_runLength (r : Region) :
    (r.counts.drop r.runDimensions).prod * r.runLength = r.counts.prod := by
  rw [Nat.mul_comm]
  exact List.prod_take_mul_prod_drop r.counts r.runDimensions

theorem map_widen_outerLaps {reach : Nat} (h : reach + 1 = r.runLength) :
    r.outerLaps.map (Lap.widen reach) = r.laps 1 := by
  simp only [outerLaps, lapsOf, laps, List.map_reverse, List.map_zipWith, Lap.widen, ← h]
  simp only [Nat.mul_one, Nat.add_assoc, Nat.add_comm 1]

end Runs

section Selected

variable {ss : List Slice}

theorem count_pos_of_mem (h : ∀ s ∈ ss, s.Fits) {c : Nat} (hc : c ∈ (Partial.along ss).counts) :
    0 < c := by
  rw [Partial.counts_along] at hc
  obtain ⟨s, hs, rfl⟩ := List.mem_map.1 hc
  exact (h s hs).count_pos

theorem runLength_pos (h : ∀ s ∈ ss, s.Fits) : 0 < (Partial.along ss).runLength :=
  List.prod_pos fun _ hc => count_pos_of_mem h (List.mem_of_mem_take hc)

theorem Selected.runLength_pos {region : Region} (h : region.Selected) : 0 < region.runLength := by
  obtain ⟨ss, hss, rfl⟩ := h.eq_along
  exact Region.runLength_pos hss

theorem length_counts_along : (Partial.along ss).counts.length = (Partial.along ss).skips.length := by
  rw [Partial.counts_along, Partial.length_skips_along, List.length_map]

theorem Selected.prod_counts {region : Region} (h : region.Selected) :
    region.counts.prod = region.length := by
  obtain ⟨ss, -, rfl⟩ := h.eq_along
  rw [Partial.counts_along, Partial.length_along]

theorem Selected.length_places_laps {region : Region} (h : region.Selected) (size place : Nat) :
    (Walk.places (region.laps size) place).length =
      (region.counts.drop region.runDimensions).prod := by
  obtain ⟨ss, -, rfl⟩ := h.eq_along
  rw [Walk.length_places, map_count_laps length_counts_along, List.prod_reverse]

theorem Selected.length_places_laps_mul {region : Region} (h : region.Selected)
    (size place : Nat) :
    (Walk.places (region.laps size) place).length * region.runLength = region.length := by
  rw [h.length_places_laps, prod_drop_mul_runLength, h.prod_counts]

theorem visits_eq_flatMap (h : ∀ s ∈ ss, s.Fits) :
    (Partial.along ss).visits =
      (Partial.along ss).runStarts.flatMap fun p =>
        List.range' p (Partial.along ss).runLength := by
  have hlength : (Partial.along ss).counts.length = (Partial.along ss).skips.length :=
    length_counts_along
  have hinner : ∀ lap ∈ (Partial.along ss).innerLaps, lap.gap = 1 ∧ 0 < lap.count := by
    intro lap hlap
    refine ⟨gap_innerLaps lap hlap, count_pos_of_mem h ?_⟩
    have hc := List.mem_map_of_mem (f := Lap.count) hlap
    rw [innerLaps, map_count_lapsOf (by simp [hlength]), List.mem_reverse] at hc
    exact List.mem_of_mem_take hc
  obtain ⟨hreach, hplaces⟩ := Walk.places_of_gap_eq_one hinner
  rw [prod_count_innerLaps hlength] at hreach hplaces
  rw [visits, elementLaps_eq_append hlength, Walk.places_append, map_widen_outerLaps hreach]
  exact List.flatMap_congr fun p _ => hplaces p

theorem length_visits : (Partial.along ss).visits.length = (ss.map Slice.count).prod := by
  rw [visits, Walk.length_places, Partial.map_count_elementLaps, List.prod_reverse]

theorem getElem?_visits (h : ∀ s ∈ ss, s.Fits) {index : List Nat}
    (hi : List.Forall₂ (· < ·) index (ss.map Slice.count)) :
    (Partial.along ss).visits[offsetIn (ss.map Slice.count) index]? =
      some (offsetIn (ss.map Slice.size) (List.zipWith Slice.nth ss index)) := by
  simpa [visits] using Partial.getElem?_places_elementLaps h hi 0

theorem mem_visits_iff (h : ∀ s ∈ ss, s.Fits) {q : Nat} :
    q ∈ (Partial.along ss).visits ↔ q ∈ selectedOffsets ss := by
  constructor
  · intro hq
    obtain ⟨n, hn, rfl⟩ := List.getElem_of_mem hq
    obtain ⟨index, ⟨hindex, hoffset⟩, -⟩ := existsUnique_offsetIn (length_visits ▸ hn)
    have hvisit := getElem?_visits h hindex
    rw [hoffset, List.getElem?_eq_getElem hn, Option.some_inj] at hvisit
    exact ⟨_, (Slice.forall₂_selects_iff h).2 ⟨index, hindex, rfl⟩, hvisit.symm⟩
  · rintro ⟨_, hselected, rfl⟩
    obtain ⟨index, hindex, rfl⟩ := (Slice.forall₂_selects_iff h).1 hselected
    exact List.mem_of_getElem? (getElem?_visits h hindex)

theorem mem_visits_iff_runStarts (h : ∀ s ∈ ss, s.Fits) {q : Nat} :
    q ∈ (Partial.along ss).visits ↔ ∃ p ∈ (Partial.along ss).runStarts,
      p ≤ q ∧ q < p + (Partial.along ss).runLength := by
  rw [visits_eq_flatMap h, List.mem_flatMap]
  simp only [List.mem_range'_1]

end Selected

end Region

end Gridded
