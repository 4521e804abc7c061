import Gridded.Proofs.Reader.Accounting
import Gridded.Proofs.Region.MaximalRuns
import Mathlib

namespace Gridded

namespace Reader

/--
A successful read through an input that counts from zero seeks and reads once for each run of the
region, and tells just that. Without steps the runs are as many as the maximal ones of the offsets
selected, and no runs made up of these offsets are fewer.
-/
theorem seeks_eq_ncard_maximalRun {ι : Type} [Input ι] (i : ι)
    {sizes lowers uppers steps : List Nat} {region : Region}
    (hs : Region.select sizes lowers uppers steps = .ok region) (r : Reader) (k : ElementKind)
    {values : Array k.Element} {m : Metered ι}
    (h : ((r.readAs k region).run.run ({ input := i } : Metered ι)).result = (.ok values, m)) :
    m.seeks = (region.counts.drop region.runDimensions).prod ∧ m.reads = m.seeks ∧
      m.seeks * region.runLength = region.length ∧ m.bytesRead = region.length * r.dataSize ∧
      ((r.readAs k region).run.run ({ input := i } : Metered ι)).events =
        [.elementsRead (Input.name i) region.length k m.seeks region.runLength] ∧
      ((∀ step ∈ steps, step = 1) →
        let S := Region.selectedOffsets (Slice.ofLists sizes lowers uppers steps)
        {run : Nat × Nat | MaximalRun S run.1 run.2}.ncard = m.seeks ∧
          ∀ runs, numbersOf runs = S → m.seeks ≤ runs.length) := by
  obtain ⟨rfl, p, hp, rfl, hevents⟩ := exists_runs_of_readAs h
  have hselected : region.Selected := ⟨_, _, _, _, hs⟩
  obtain ⟨hseeks, hreads, hbytes⟩ := (readRuns_metered _ _ _ i).of_run_eq_ok hp
  obtain ⟨hruns, hlength, hsize⟩ := runs_of_readRuns hselected hp
  refine ⟨hseeks.trans hruns, hreads.trans hseeks.symm, hseeks ▸ hlength, ?_, ?_, ?_⟩
  · rw [hbytes, ← Nat.mul_assoc, hlength]
    rfl
  · rw [hevents, hseeks, hsize]
    rfl
  · intro hone S
    have hstarts : m.seeks = region.runStarts.length := by
      rw [hseeks, hruns, Region.runStarts, hselected.length_places_laps]
    obtain ⟨-, hfits, rfl⟩ := Region.eq_along_of_select hs
    have hstep : ∀ s ∈ Slice.ofLists sizes lowers uppers steps, s.step = 1 :=
      fun s hs => hone _ (Slice.step_mem_of_mem_ofLists hs)
    have hpairwise := Region.runStarts_pairwise hfits hstep
    rw [hstarts]
    constructor
    · exact ncard_maximalRun hpairwise fun _ _ => Region.maximalRun_iff hfits hstep
    · intro runs hnumbers
      exact length_le_of_numbersOf hpairwise
        (fun p hp => (Region.maximalRun_iff hfits hstep).2 ⟨hp, rfl⟩) hnumbers

theorem seeks_eq_ncard_maximalRun_block :
    let m : Memory := { name := "block", order := .big, bytes := .ofFn fun i : Fin 20 => .ofNat i }
    let S := Region.selectedOffsets (Slice.ofLists [5, 4] [1, 1] [4, 4] [1, 1])
    ∃ region values, ∃ t : Metered Memory,
      Region.select [5, 4] [1, 1] [4, 4] [1, 1] = .ok region ∧
        (((⟨.byte, 0⟩ : Reader).readAs .byte region).run.run { input := m }).result =
          (.ok values, t) ∧
        t.seeks = 3 ∧ t.bytesRead = 9 ∧
        {run : Nat × Nat | MaximalRun S run.1 run.2}.ncard = 3 := by
  intro m S
  have hs : Region.select [5, 4] [1, 1] [4, 4] [1, 1] = .ok _ := rfl
  obtain ⟨hseeks, -, -, hbytes, -, hunit⟩ := seeks_eq_ncard_maximalRun m hs ⟨.byte, 0⟩ .byte rfl
  have hone : ∀ step ∈ [1, 1], step = 1 := by decide
  exact ⟨_, _, _, hs, rfl, hseeks, hbytes, (hunit hone).1.trans hseeks⟩

end Reader

end Gridded
