import Gridded.Proofs.Reader.Success
import Mathlib

namespace Gridded

namespace Reader

variable {ι : Type} [Input ι] {k : ElementKind} {origin : Nat}

theorem readRuns_of_idleStride {region : Region} (h : region.IdleStride k.size) (i : ι) :
    (readRuns k origin region).run.run i = (.error (.overflow "stride"), i) := by
  obtain ⟨lap, hlap, -, hgap⟩ := h
  simp only [readRuns]
  rw [if_pos (List.any_eq_true.2 ⟨lap, hlap, decide_eq_true hgap⟩)]
  rfl

theorem overflow_of_readRuns {ss : List Slice} (hss : ∀ s ∈ ss, s.Fits) (i : ι) :
    Ensures (readRuns k origin (Region.Partial.along ss).toRegion) i (fun _ _ => True)
      fun e _ => ∀ quantity, e = .overflow quantity →
        (∃ q ∈ Region.selectedOffsets ss, wordLimit ≤ origin + k.size * q) ∨
          (Region.Partial.along ss).IdleStride k.size := by
  apply readRuns_ensures (I := fun _ _ _ => True)
  · intro done p j position hpre _
    have hposition := hpre.subset (List.mem_append_right done (List.mem_singleton_self position))
    refine readRun_ensures (fun _ _ _ => trivial) (fun _ _ _ => nofun) fun hlimit _ _ => ?_
    obtain ⟨q, hq, rfl⟩ := Region.exists_selectedOffset_of_mem_places hss hposition
    exact .inl ⟨q, hq, hlimit⟩
  · exact fun lap hlap hgap _ _ =>
      Region.exists_selectedOffset_or_idleStride hss origin hlap hgap
  · refine fun hlimit _ _ => .inl ⟨_, (Region.isLeast_selectedOffsets hss).1, ?_⟩
    rwa [Nat.mul_comm, Nat.add_comm]
  · trivial

/--
An overflow means that some element selected lies beyond the limit, whatever the input, unless a
stride that leads nowhere is beyond it and no element is. Such a stride is also all that can stop a
read of elements that a memory holds.
-/
theorem overflow_beyond_iff {sizes lowers uppers steps : List Nat} {region : Region}
    (hs : Region.select sizes lowers uppers steps = .ok region) (r : Reader) :
    let S := Region.selectedOffsets (Slice.ofLists sizes lowers uppers steps)
    let Beyond := ∃ q ∈ S, wordLimit ≤ r.origin + r.dataSize * q
    ((∀ (ι : Type) [Input ι] (i : ι) (quantity : String),
        ((r.read region).run.run i).result.1 = .error (.overflow quantity) → Beyond) ↔
      (region.IdleStride r.dataSize → Beyond)) ∧
      ∀ m : Memory, m.bytes.size ≤ wordLimit →
        (∀ q ∈ S, r.origin + r.dataSize * q + r.dataSize ≤ m.bytes.size) →
          ((∃ elements, r.Gives region m elements) ↔ ¬region.IdleStride r.dataSize) := by
  obtain ⟨-, hfits, rfl⟩ := Region.eq_along_of_select hs
  intro S Beyond
  constructor
  · constructor
    · intro h hidle
      refine h Memory { name := "", order := .big, bytes := #[] } "stride" ?_
      rw [run_read, readRuns_of_idleStride hidle]
    · intro h ι _ i quantity hread
      obtain ⟨j, hj⟩ := exists_runs_of_read_error hread
      rcases (overflow_of_readRuns hfits i).of_run_eq_error hj quantity rfl with hbeyond | hidle
      · exact hbeyond
      · exact h hidle
  · intro m hsize hstored
    have hover : FaithfulInput.Over ⟨m.name, m.order, m.bytes⟩ m := ⟨m.position, rfl⟩
    have hreliable : ∀ e, ¬FaithfulInput.Fails Memory e := fun _ he => he
    have hlength := Region.runLength_pos hfits
    have hruns : (∃ p, runsOf _ r.kind r.origin _ = .ok p) ↔ _ ∧ _ :=
      exists_runsOf_eq_ok_iff (c := ⟨m.name, m.order, m.bytes⟩) hfits hsize
    constructor
    · rintro ⟨elements, hread⟩
      obtain ⟨p, hp, -⟩ := (gives_iff hreliable hover hlength).1 hread
      exact (hruns.1 ⟨p, hp⟩).2
    · intro hidle
      obtain ⟨p, hp⟩ := hruns.2 ⟨hstored, hidle⟩
      exact ⟨_, (gives_iff hreliable hover hlength).2 ⟨p, hp, rfl⟩⟩

theorem overflow_beyond_iff_column :
    let m : Memory := { name := "plane", order := .big, bytes := .ofFn fun i : Fin 96 => .ofNat i }
    ∃ region, Region.select [3, 4] [1, 0] [2, 4] [5, 2] = .ok region ∧
      (∀ (ι : Type) [Input ι] (i : ι) (quantity : String),
        (((⟨.double, 0⟩ : Reader).read region).run.run i).result.1 ≠
          .error (.overflow quantity)) ∧
      ∃ elements, (⟨.double, 0⟩ : Reader).Gives region m elements := by
  intro m
  have hs : Region.select [3, 4] [1, 0] [2, 4] [5, 2] = .ok _ := rfl
  obtain ⟨hbeyond, hmemory⟩ := overflow_beyond_iff hs ⟨.double, 0⟩
  have hidle : ¬Region.IdleStride ⟨[1, 2], [4, 5], 1, 2⟩ 8 := by
    unfold Region.IdleStride
    decide
  obtain ⟨-, hfits, -⟩ := Region.eq_along_of_select hs
  have hlast : ∀ q ∈ Region.selectedOffsets (Slice.ofLists [3, 4] [1, 0] [2, 4] [5, 2]), q ≤ 7 :=
    fun q hq => (Region.isGreatest_selectedOffsets hfits).2 hq
  refine ⟨_, hs, ?_, (hmemory m (by decide) ?_).2 hidle⟩
  · intro ι _ i quantity hread
    obtain ⟨q, hq, hlimit⟩ := hbeyond.2 (fun h => absurd h hidle) ι i quantity hread
    have := hlast q hq
    change 2 ^ 64 ≤ 0 + 8 * q at hlimit
    omega
  · intro q hq
    have := hlast q hq
    change 0 + 8 * q + 8 ≤ 96
    omega

theorem overflow_idle_stride :
    let m : Memory := { name := "m", order := .big, bytes := #[0x3f, 0xf0, 0, 0, 0, 0, 0, 0] }
    ∃ region, Region.select [1] [0] [1] [2 ^ 61] = .ok region ∧
      (∀ q ∈ Region.selectedOffsets (Slice.ofLists [1] [0] [1] [2 ^ 61]), 0 + 8 * q + 8 ≤ 8) ∧
      (((⟨.double, 0⟩ : Reader).read region).run.run m).result.1 = .error (.overflow "stride") := by
  have hs : Region.select [1] [0] [1] [2 ^ 61] = .ok _ := rfl
  refine ⟨_, hs, ?_, rfl⟩
  intro q hq
  obtain ⟨-, hfits, -⟩ := Region.eq_along_of_select hs
  have : q ≤ 0 := (Region.isGreatest_selectedOffsets hfits).2 hq
  omega

end Reader

end Gridded
