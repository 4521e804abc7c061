import Gridded.Proofs.Reader.Whole
import Gridded.Proofs.Region.Extent
import Mathlib

namespace Gridded

namespace Region

/-- A stride beyond the limit whose lap is gone round only once, so that no read takes it. -/
def IdleStride (r : Region) (size : Nat) : Prop :=
  ∃ lap ∈ r.laps size, lap.count = 1 ∧ wordLimit ≤ lap.gap

variable {ss : List Slice} (h : ∀ s ∈ ss, s.Fits)

include h

theorem count_pos_of_mem_laps {size : Nat} {lap : Lap} (hlap : lap ∈ (Partial.along ss).laps size) :
    0 < lap.count :=
  count_pos_of_mem h (count_mem_of_mem_laps hlap)

theorem exists_run_of_mem_places {size origin p : Nat}
    (hp : p ∈ Walk.places ((Partial.along ss).laps size)
      ((Partial.along ss).start * size + origin)) :
    ∃ q, p = origin + size * q ∧
      ∀ i < (Partial.along ss).runLength, q + i ∈ selectedOffsets ss := by
  rw [places_laps] at hp
  obtain ⟨q, hq, rfl⟩ := List.mem_map.1 hp
  refine ⟨q, by rw [Nat.mul_comm, Nat.add_comm], fun i hi => ?_⟩
  rw [← mem_visits_iff h, mem_visits_iff_runStarts h]
  exact ⟨q, hq, by omega, by omega⟩

theorem exists_selectedOffset_of_mem_places {size origin p : Nat}
    (hp : p ∈ Walk.places ((Partial.along ss).laps size)
      ((Partial.along ss).start * size + origin)) :
    ∃ q ∈ selectedOffsets ss, p = origin + size * q := by
  obtain ⟨q, rfl, hrun⟩ := exists_run_of_mem_places h hp
  exact ⟨q, hrun 0 (runLength_pos h), rfl⟩

theorem exists_selectedOffset_or_idleStride {size : Nat} (origin : Nat) {lap : Lap}
    (hlap : lap ∈ (Partial.along ss).laps size) (hgap : wordLimit ≤ lap.gap) :
    (∃ q ∈ selectedOffsets ss, wordLimit ≤ origin + size * q) ∨
      (Partial.along ss).IdleStride size := by
  by_cases hcount : lap.count = 1
  · exact .inr ⟨lap, hlap, hcount, hgap⟩
  · have hpos := count_pos_of_mem_laps h hlap
    obtain ⟨p, hp, hle⟩ := Walk.exists_mem_places_of_gap (fun _ => count_pos_of_mem_laps h) hlap
      (by omega) ((Partial.along ss).start * size + origin)
    obtain ⟨q, hq, rfl⟩ := exists_selectedOffset_of_mem_places h hp
    exact .inl ⟨q, hq, by omega⟩

end Region

namespace Reader

def Gives {ι : Type} [Input ι] (r : Reader) (region : Region) (i : ι) (elements : Elements) :
    Prop :=
  ∃ j, ((r.read region).run.run i).result = (.ok elements, j)

variable {c : Contents} {k : ElementKind} {origin : Nat} {ss : List Slice}

theorem exists_foldlM_runOf_eq_ok {length : Nat} {qs : List Nat}
    (h : ∀ q ∈ qs, q < wordLimit ∧ q + length * k.size ≤ c.bytes.size) (p : Progress k) :
    ∃ p', qs.foldlM (fun p q => runOf c k length q p) p = .ok p' := by
  induction qs generalizing p with
  | nil => exact ⟨p, rfl⟩
  | cons q qs ih =>
    obtain ⟨⟨hposition, hstored⟩, hqs⟩ := List.forall_mem_cons.1 h
    rw [List.foldlM_cons, runOf, if_pos hposition, if_pos hstored]
    exact ih hqs _

theorem exists_runsOf_eq_ok_iff (hss : ∀ s ∈ ss, s.Fits) (hsize : c.bytes.size ≤ wordLimit) :
    (∃ p, runsOf c k origin (Region.Partial.along ss).toRegion = .ok p) ↔
      (∀ q ∈ Region.selectedOffsets ss, origin + k.size * q + k.size ≤ c.bytes.size) ∧
        ¬(Region.Partial.along ss).IdleStride k.size := by
  have hpos := k.size_pos
  constructor
  · rintro ⟨p, hp⟩
    refine ⟨fun q hq => (runsOf_eq_ok hss hp).1 q ((Region.mem_visits_iff hss).2 hq), ?_⟩
    rintro ⟨lap, hlap, -, hgap⟩
    simp only [runsOf] at hp
    rw [if_pos (List.any_eq_true.2 ⟨lap, hlap, decide_eq_true hgap⟩)] at hp
    cases hp
  · rintro ⟨hstored, hidle⟩
    have hgaps : ¬((Region.Partial.along ss).laps k.size).any (wordLimit ≤ ·.gap) = true := by
      rw [List.any_eq_true]
      rintro ⟨lap, hlap, hgap⟩
      rcases Region.exists_selectedOffset_or_idleStride hss origin hlap
        (of_decide_eq_true hgap) with ⟨q, hq, hlimit⟩ | hstride
      · have := hstored q hq
        omega
      · exact hidle hstride
    have hstart : ¬wordLimit ≤ (Region.Partial.along ss).start * k.size + origin := by
      have := hstored _ (Region.isLeast_selectedOffsets hss).1
      rw [Nat.mul_comm]
      omega
    simp only [runsOf]
    rw [if_neg hgaps, if_neg hstart]
    apply exists_foldlM_runOf_eq_ok
    intro p hp
    obtain ⟨q, rfl, hrun⟩ := Region.exists_run_of_mem_places hss hp
    -- The last element of a run is one of those selected, so all of the run is stored.
    obtain ⟨n, hn⟩ := Nat.exists_eq_add_one.2 (Region.runLength_pos hss)
    have hlast := hstored (q + n) (hrun n (by omega))
    rw [Nat.mul_add] at hlast
    have : origin + k.size * q + (Region.Partial.along ss).runLength * k.size ≤ c.bytes.size := by
      rw [hn, Nat.add_one_mul, Nat.mul_comm n]
      omega
    exact ⟨by omega, this⟩

section Reliable

variable {ι : Type} [Input ι] [FaithfulInput ι] {i : ι}

theorem exists_readRuns_eq_ok_iff (hf : ∀ e, ¬FaithfulInput.Fails ι e)
    (hi : FaithfulInput.Over c i) {region : Region} (hlength : 0 < region.runLength)
    {p : Progress k} :
    (∃ j, (readRuns k origin region).run.run i = (.ok p, j)) ↔
      runsOf c k origin region = .ok p := by
  have hfollows := readRuns_follows hi hlength k origin
  constructor
  · rintro ⟨j, hj⟩
    exact (hfollows.of_run_eq_ok hj).2
  · intro hp
    rw [hp] at hfollows
    exact hfollows.exists_ok hf

theorem gives_iff (hf : ∀ e, ¬FaithfulInput.Fails ι e) (hi : FaithfulInput.Over c i) {r : Reader}
    {region : Region} (hlength : 0 < region.runLength) {elements : Elements} :
    r.Gives region i elements ↔
      ∃ p, runsOf c r.kind r.origin region = .ok p ∧ elements = ⟨r.kind, p.values⟩ := by
  constructor
  · rintro ⟨j, hj⟩
    obtain ⟨p, hp, rfl⟩ := exists_runs_of_read hj
    exact ⟨p, (exists_readRuns_eq_ok_iff hf hi hlength).1 ⟨j, hp⟩, rfl⟩
  · rintro ⟨p, hp, rfl⟩
    obtain ⟨j, hj⟩ := (exists_readRuns_eq_ok_iff hf hi hlength).2 hp
    exact ⟨j, by rw [run_read, hj]⟩

end Reliable

end Reader

end Gridded
