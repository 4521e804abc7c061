import Gridded.Proofs.Region.Selection
import Mathlib

namespace Gridded

namespace Slice

def runLength : List Slice → Nat
  | [] => 1
  | s :: ss =>
      if s.step = 1 then
        if s.count = s.size then s.count * runLength ss else s.count
      else 1

theorem Fits.size_eq_one {s : Slice} (h : s.Fits) (hcount : s.count = s.size) (hstep : s.step ≠ 1) :
    s.size = 1 := by
  have hlast := h.nth_lt (Nat.sub_one_lt_of_lt h.count_pos)
  have := Nat.mul_le_mul_left (s.count - 1) (h.one_lt_step hstep)
  have := h.count_pos
  unfold nth at hlast
  omega

end Slice

namespace Region

namespace Partial

variable {r : Partial} {s : Slice} {ss : List Slice}

structure Unbroken (r : Partial) : Prop where
  skip_eq_zero : ∀ k ∈ r.skips, k = 0
  length_eq : r.counts.length = r.skips.length

theorem counts_foldl (ss : List Slice) (r : Partial) :
    (ss.foldl next r).counts = r.counts ++ ss.map Slice.count := by
  induction ss generalizing r with
  | nil => simp
  | cons s ss ih => simp [ih, next]

theorem exists_skips_foldl (ss : List Slice) (r : Partial) :
    ∃ rest, (ss.foldl next r).skips = r.skips ++ rest := by
  induction ss generalizing r with
  | nil => exact ⟨[], by simp⟩
  | cons s ss ih =>
    obtain ⟨rest, hrest⟩ := ih (r.next s)
    exact ⟨_ :: rest, by rw [List.foldl_cons, hrest, next, List.append_assoc]; rfl⟩

theorem Unbroken.next (h : r.Unbroken) (hskip : s.step * r.stride - r.span - 1 = 0) :
    (r.next s).Unbroken := by
  constructor
  · intro k hk
    rcases List.mem_append.1 hk with hold | hlast
    · exact h.skip_eq_zero k hold
    · rw [List.mem_singleton.1 hlast, hskip]
  · simp [Partial.next, h.length_eq]

theorem Unbroken.runLength_eq (h : r.Unbroken) : r.runLength = r.counts.prod := by
  have hall : r.skips.takeWhile (· = 0) = r.skips :=
    List.takeWhile_eq_self_iff.2 (by simpa using h.skip_eq_zero)
  rw [Region.runLength, runDimensions, hall, ← h.length_eq, List.take_length]
  rfl

theorem Unbroken.runLength_foldl_of_skip (h : r.Unbroken)
    (hskip : s.step * r.stride - r.span - 1 ≠ 0) (ss : List Slice) :
    ((s :: ss).foldl Partial.next r).runLength = r.counts.prod := by
  obtain ⟨rest, hrest⟩ := exists_skips_foldl ss (r.next s)
  have hskips : ((s :: ss).foldl Partial.next r).skips =
      r.skips ++ (s.step * r.stride - r.span - 1) :: rest := by
    rw [List.foldl_cons, hrest, Partial.next, List.append_assoc]
    rfl
  have hrun : ((s :: ss).foldl Partial.next r).skips.takeWhile (· = 0) = r.skips := by
    rw [hskips, List.takeWhile_append_of_pos (by simpa using h.skip_eq_zero),
      List.takeWhile_cons_of_neg (by simpa using hskip), List.append_nil]
  rw [Region.runLength, runDimensions, hrun, counts_foldl, ← h.length_eq, List.take_left]
  rfl

theorem Unbroken.runLength_foldl_of_lt (h : r.Unbroken) (hlt : r.span + 1 < r.stride)
    (hss : ∀ s ∈ ss, s.Fits) : (ss.foldl Partial.next r).runLength = r.counts.prod := by
  cases ss with
  | nil => exact h.runLength_eq
  | cons s ss =>
    have := Nat.le_mul_of_pos_left r.stride (hss s List.mem_cons_self).step_pos
    exact h.runLength_foldl_of_skip (by omega) ss

theorem Unbroken.runLength_foldl (h : r.Unbroken) (hfull : r.span + 1 = r.stride)
    (hss : ∀ s ∈ ss, s.Fits) :
    (ss.foldl Partial.next r).runLength = r.counts.prod * Slice.runLength ss := by
  induction ss generalizing r with
  | nil => exact h.runLength_eq.trans (Nat.mul_one _).symm
  | cons s ss ih =>
    obtain ⟨hs, hss⟩ := List.forall_mem_cons.1 hss
    have hpos := hs.count_pos
    have hprod : (r.next s).counts.prod = r.counts.prod * s.count := by simp [Partial.next]
    rw [Slice.runLength]
    split
    · next hstep =>
      -- What is selected ends `count` strides further on, and the next stride is `size` ones long.
      have hspan : (r.next s).span + 1 = s.count * r.stride := by
        simp only [Partial.next, hstep, Nat.one_mul]
        rw [Nat.add_assoc, hfull, ← Nat.add_one_mul, Nat.sub_add_cancel hpos]
      have hstride : (r.next s).stride = s.size * r.stride := Nat.mul_comm _ _
      have hnext : (r.next s).Unbroken := h.next (by rw [hstep, Nat.one_mul]; omega)
      rw [List.foldl_cons]
      split
      · next hcount =>
        rw [ih hnext (by rw [hspan, hstride, hcount]) hss, hprod, Nat.mul_assoc]
      · next hcount =>
        have hlt : s.count < s.size := Nat.lt_of_le_of_ne hs.count_le_size hcount
        have hstridePos : 0 < r.stride := by omega
        rw [hnext.runLength_foldl_of_lt _ hss, hprod]
        rw [hspan, hstride]
        exact Nat.mul_lt_mul_of_pos_right hlt hstridePos
    · next hstep =>
      have := Nat.mul_le_mul_right r.stride (hs.one_lt_step hstep)
      rw [h.runLength_foldl_of_skip (by omega), Nat.mul_one]

theorem runLength_along {ss : List Slice} (h : ∀ s ∈ ss, s.Fits) :
    (along ss).runLength = Slice.runLength ss := by
  have hpoint : point.Unbroken := ⟨nofun, rfl⟩
  exact (hpoint.runLength_foldl rfl h).trans (Nat.one_mul _)

end Partial

end Region

namespace Slice

variable {ss : List Slice}

theorem runLength_eq_prod_iff (h : ∀ s ∈ ss, s.Fits) (hcount : ∀ s ∈ ss, s.count = s.size) :
    runLength ss = (ss.map size).prod ↔ ss.Pairwise fun s t => 1 < s.step → t.size = 1 := by
  induction ss with
  | nil => simp [runLength]
  | cons s ss ih =>
    obtain ⟨hs, hss⟩ := List.forall_mem_cons.1 h
    obtain ⟨hscount, hsscount⟩ := List.forall_mem_cons.1 hcount
    have hpos : 0 < s.size := hscount ▸ hs.count_pos
    rw [runLength, List.map_cons, List.prod_cons, List.pairwise_cons]
    split
    · next hstep =>
      rw [hscount, Nat.mul_right_inj (Nat.ne_of_gt hpos), ih hss hsscount]
      simp [hstep]
    · next hstep =>
      rw [hs.size_eq_one hscount hstep, Nat.one_mul]
      constructor
      · intro hprod
        have hone : ∀ t ∈ ss, t.size = 1 := fun t ht =>
          Nat.dvd_one.1 (hprod ▸ List.dvd_prod (List.mem_map_of_mem ht))
        exact ⟨fun t ht _ => hone t ht,
          List.pairwise_of_forall_mem_list fun _ _ t ht _ => hone t ht⟩
      · rintro ⟨hone, -⟩
        refine (List.prod_eq_one ?_).symm
        intro n hn
        obtain ⟨t, ht, rfl⟩ := List.mem_map.1 hn
        exact hone t ht (hs.one_lt_step hstep)

end Slice

namespace Region

variable {ss : List Slice} (h : ∀ s ∈ ss, s.Fits)

include h

theorem count_eq_size_of_prod_le (hprod : (ss.map Slice.size).prod ≤ (ss.map Slice.count).prod) :
    ∀ s ∈ ss, s.count = s.size := by
  induction ss with
  | nil => exact nofun
  | cons s ss ih =>
    obtain ⟨hs, hss⟩ := List.forall_mem_cons.1 h
    have hcount : (ss.map Slice.count).prod ≤ (ss.map Slice.size).prod := by
      have := Partial.length_le_stride hss
      rwa [Partial.length_along, Partial.stride_along] at this
    have hpos : 0 < (ss.map Slice.count).prod := List.prod_pos fun c hc =>
      count_pos_of_mem hss (by rwa [Partial.counts_along])
    simp only [List.map_cons, List.prod_cons] at hprod
    have hle : s.size * (ss.map Slice.size).prod ≤ s.count * (ss.map Slice.size).prod :=
      hprod.trans (Nat.mul_le_mul_left _ hcount)
    have heq : s.count = s.size :=
      Nat.le_antisymm hs.count_le_size (Nat.le_of_mul_le_mul_right hle (hpos.trans_le hcount))
    rw [heq] at hprod
    exact List.forall_mem_cons.2
      ⟨heq, ih hss (Nat.le_of_mul_le_mul_left hprod (heq ▸ hs.count_pos))⟩

theorem count_eq_size_of_forall_mem
    (hall : ∀ n < (ss.map Slice.size).prod, n ∈ selectedOffsets ss) :
    ∀ s ∈ ss, s.count = s.size := by
  have hsubset : List.range (ss.map Slice.size).prod ⊆ (Partial.along ss).visits := by
    intro n hn
    exact (mem_visits_iff h).2 (hall n (List.mem_range.1 hn))
  have hle := (List.subperm_of_subset List.nodup_range hsubset).length_le
  rw [List.length_range, length_visits] at hle
  exact count_eq_size_of_prod_le h hle

end Region

end Gridded
