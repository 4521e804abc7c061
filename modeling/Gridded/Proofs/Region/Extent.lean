import Gridded.Proofs.Region.Selection
import Mathlib

namespace Gridded

namespace Region

section Ends

variable {ss : List Slice} (h : ∀ s ∈ ss, s.Fits)

include h

theorem count_pos_of_mem_elementLaps {lap : Lap} (hlap : lap ∈ (Partial.along ss).elementLaps) :
    0 < lap.count := by
  have hcount := List.mem_map_of_mem (f := Lap.count) hlap
  rw [Partial.map_count_elementLaps, ← Partial.counts_along, List.mem_reverse] at hcount
  exact count_pos_of_mem h hcount

theorem isLeast_selectedOffsets : IsLeast (selectedOffsets ss) (Partial.along ss).start := by
  constructor
  · rw [← mem_visits_iff h]
    exact Walk.mem_places_self (fun _ hlap => count_pos_of_mem_elementLaps h hlap) _
  · intro q hq
    rw [← mem_visits_iff h] at hq
    exact (Walk.mem_places hq).1

theorem isGreatest_selectedOffsets :
    IsGreatest (selectedOffsets ss) ((Partial.along ss).start + (Partial.along ss).span) := by
  rw [← Partial.reach_elementLaps h]
  constructor
  · rw [← mem_visits_iff h]
    exact Walk.add_reach_mem_places (fun _ hlap => count_pos_of_mem_elementLaps h hlap) _
  · intro q hq
    rw [← mem_visits_iff h] at hq
    exact (Walk.mem_places hq).2

end Ends

/--
Which selections are accepted, and what becomes of them. The distance from the first element
selected to the last is that of all steps after the first index in each dimension.
-/
theorem exists_select_eq_ok_iff (sizes lowers uppers steps : List Nat) :
    ((∃ region, select sizes lowers uppers steps = .ok region) ↔
      lowers.length = sizes.length ∧ uppers.length = sizes.length ∧ steps.length = sizes.length ∧
        (∀ s ∈ Slice.ofLists sizes lowers uppers steps,
          s.lower < s.upper ∧ s.upper ≤ s.size ∧ 1 ≤ s.step) ∧
        (∀ d s, (Slice.ofLists sizes lowers uppers steps)[d]? = some s →
          s.step * (sizes.take d).prod < wordLimit) ∧
        sizes.prod < wordLimit) ∧
      ∀ region, select sizes lowers uppers steps = .ok region →
        let ss := Slice.ofLists sizes lowers uppers steps
        let distance := offsetIn sizes (ss.map fun s => (s.count - 1) * s.step)
        region.counts = ss.map (fun s => (s.upper - s.lower) ⌈/⌉ s.step) ∧
          region.length = region.counts.prod ∧
          region.start = offsetIn sizes lowers ∧
          IsLeast (selectedOffsets ss) region.start ∧
          IsGreatest (selectedOffsets ss) (region.start + distance) ∧
          region.start + distance < sizes.prod := by
  constructor
  · simp only [select_eq_ok_iff, exists_and_left, exists_eq, and_true, and_assoc]
    refine and_congr_right fun hl => and_congr_right fun hu => and_congr_right fun hs => ?_
    simp only [Slice.fits_iff, Slice.representable_iff, List.map_take]
    rw [(Slice.maps_ofLists hl hu hs).1]
    rfl
  · intro region hregion ss distance
    obtain ⟨⟨hl, hu, hs⟩, hfits, -, rfl⟩ := select_eq_ok_iff.1 hregion
    obtain ⟨hsizes, hlowers, -, -⟩ := Slice.maps_ofLists hl hu hs
    have hstart : (Partial.along ss).start = offsetIn sizes lowers := by
      rw [Partial.start_along, hsizes, hlowers]
    have hspan : (Partial.along ss).span = distance := by rw [Partial.span_along, hsizes]
    have hstride : (Partial.along ss).stride = sizes.prod := by rw [Partial.stride_along, hsizes]
    refine ⟨Partial.counts_along ss, ?_, hstart, isLeast_selectedOffsets hfits, ?_, ?_⟩
    · rw [Partial.length_along, Partial.counts_along]
    · rw [← hspan]
      exact isGreatest_selectedOffsets hfits
    · rw [← hspan, ← hstride]
      exact Partial.start_add_span_lt_stride hfits

theorem exists_select_eq_ok_iff_plane :
    (∃ region, select [4, 3] [1, 0] [4, 3] [2, 2] = .ok region ∧ region.counts = [2, 2] ∧
      region.start = 1 ∧ region.start + offsetIn [4, 3] [2, 2] < 12) ∧
      ¬∃ region, select [2, 2] [0, 0] [2, 1] [1, 2 ^ 63] = .ok region := by
  constructor
  · have hs : select [4, 3] [1, 0] [4, 3] [2, 2] = .ok _ := rfl
    obtain ⟨hcounts, -, hstart, -, -, hlast⟩ := (exists_select_eq_ok_iff _ _ _ _).2 _ hs
    exact ⟨_, hs, hcounts, hstart, hlast⟩
  · intro hs
    obtain ⟨-, -, -, -, hstep, -⟩ := (exists_select_eq_ok_iff _ _ _ _).1.1 hs
    exact absurd (hstep 1 _ rfl) (by decide)

end Region

end Gridded
