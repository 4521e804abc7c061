import Gridded.Proofs.Region.Index
import Gridded.Region.Basic
import Mathlib

namespace Gridded

namespace Slice

@[mk_iff]
structure Fits (s : Slice) : Prop where
  lower_lt_upper : s.lower < s.upper
  upper_le_size : s.upper ≤ s.size
  step_pos : 0 < s.step

def nth (s : Slice) (i : Nat) : Nat := s.lower + i * s.step

variable {s : Slice}

theorem Fits.count_pos (h : s.Fits) : 0 < s.count := by
  have := h.lower_lt_upper
  exact Nat.div_pos (by omega) h.step_pos

theorem Fits.nth_lt_upper (h : s.Fits) {i : Nat} (hi : i < s.count) : s.nth i < s.upper := by
  have hm : (i + 1) * s.step ≤ s.upper - s.lower + s.step - 1 :=
    (Nat.le_div_iff_mul_le h.step_pos).1 hi
  have := h.lower_lt_upper
  have := h.step_pos
  rw [Nat.add_one_mul] at hm
  unfold nth
  omega

theorem Fits.nth_lt (h : s.Fits) {i : Nat} (hi : i < s.count) : s.nth i < s.size :=
  Nat.lt_of_lt_of_le (h.nth_lt_upper hi) h.upper_le_size

theorem Fits.one_lt_step (h : s.Fits) (hstep : s.step ≠ 1) : 1 < s.step :=
  Nat.lt_of_le_of_ne h.step_pos (Ne.symm hstep)

theorem Fits.count_le_size (h : s.Fits) : s.count ≤ s.size := by
  have hlast := h.nth_lt (Nat.sub_one_lt_of_lt h.count_pos)
  have := Nat.le_mul_of_pos_right (s.count - 1) h.step_pos
  unfold nth at hlast
  omega

section Lists

variable {sizes lowers uppers steps : List Nat}

theorem maps_ofLists (hl : lowers.length = sizes.length) (hu : uppers.length = sizes.length)
    (hs : steps.length = sizes.length) :
    let ss := ofLists sizes lowers uppers steps
    ss.map size = sizes ∧ ss.map lower = lowers ∧ ss.map upper = uppers ∧ ss.map step = steps := by
  induction sizes generalizing lowers uppers steps with
  | nil =>
    obtain rfl := List.length_eq_zero_iff.1 hl
    obtain rfl := List.length_eq_zero_iff.1 hu
    obtain rfl := List.length_eq_zero_iff.1 hs
    exact ⟨rfl, rfl, rfl, rfl⟩
  | cons n sizes ih =>
    obtain ⟨l, lowers, rfl⟩ := List.exists_cons_of_length_eq_add_one hl
    obtain ⟨u, uppers, rfl⟩ := List.exists_cons_of_length_eq_add_one hu
    obtain ⟨t, steps, rfl⟩ := List.exists_cons_of_length_eq_add_one hs
    obtain ⟨hsize, hlower, hupper, hstep⟩ :=
      ih (Nat.succ.inj hl) (Nat.succ.inj hu) (Nat.succ.inj hs)
    simp only [ofLists, List.map_cons, hsize, hlower, hupper, hstep, and_self]

theorem step_mem_of_mem_ofLists (h : s ∈ ofLists sizes lowers uppers steps) : s.step ∈ steps := by
  induction sizes, lowers, uppers, steps using ofLists.induct with
  | case1 size sizes lower lowers upper uppers step steps ih =>
    rcases List.mem_cons.1 h with rfl | h
    · exact List.mem_cons_self
    · exact List.mem_cons_of_mem _ (ih h)
  | case2 sizes lowers uppers steps hne =>
    rw [ofLists] at h
    · cases h
    · exact hne

end Lists

end Slice

namespace Region

namespace Partial

def along (ss : List Slice) : Partial := ss.foldl next .point

@[simp] theorem along_concat (ss : List Slice) (s : Slice) :
    along (ss ++ [s]) = (along ss).next s := by
  simp [along]

theorem counts_along (ss : List Slice) : (along ss).counts = ss.map Slice.count := by
  induction ss using List.reverseRecOn with
  | nil => rfl
  | append_singleton ss s ih => simp [next, ih]

theorem length_skips_along (ss : List Slice) : (along ss).skips.length = ss.length := by
  induction ss using List.reverseRecOn with
  | nil => rfl
  | append_singleton ss s ih => simp [next, ih]

theorem stride_along (ss : List Slice) : (along ss).stride = (ss.map Slice.size).prod := by
  induction ss using List.reverseRecOn with
  | nil => rfl
  | append_singleton ss s ih => simp [next, ih]

theorem length_along (ss : List Slice) : (along ss).length = (ss.map Slice.count).prod := by
  induction ss using List.reverseRecOn with
  | nil => rfl
  | append_singleton ss s ih => simp [next, ih]

theorem span_add_lt_stride_next {r : Partial} {s : Slice} {d : Nat} (hs : s.Fits)
    (h : r.span + d < r.stride) : (r.next s).span + d < (r.next s).stride := by
  have hlast : (s.count - 1) * s.step + 1 ≤ s.size := by
    have := hs.nth_lt (Nat.sub_one_lt_of_lt hs.count_pos)
    unfold Slice.nth at this
    omega
  calc
    (s.count - 1) * (s.step * r.stride) + r.span + d
      < (s.count - 1) * (s.step * r.stride) + r.stride := by omega
    _ = ((s.count - 1) * s.step + 1) * r.stride := by rw [Nat.add_one_mul, Nat.mul_assoc]
    _ ≤ s.size * r.stride := Nat.mul_le_mul_right _ hlast
    _ = r.stride * s.size := Nat.mul_comm _ _

theorem span_lt_stride_along {ss : List Slice} (h : ∀ s ∈ ss, s.Fits) :
    (along ss).span < (along ss).stride := by
  induction ss using List.reverseRecOn with
  | nil => exact Nat.one_pos
  | append_singleton ss s ih =>
    rw [along_concat]
    exact span_add_lt_stride_next (d := 0) (h s (by simp)) (ih fun t ht => h t (by simp [ht]))

variable {ss : List Slice}

theorem start_along (ss : List Slice) :
    (along ss).start = offsetIn (ss.map Slice.size) (ss.map Slice.lower) := by
  induction ss using List.reverseRecOn with
  | nil => rfl
  | append_singleton ss s ih =>
    rw [along_concat, List.map_append, List.map_append, List.map_singleton, List.map_singleton,
      offsetIn_concat (by simp), ← ih, ← stride_along, Nat.add_comm]
    rfl

theorem span_along (ss : List Slice) :
    (along ss).span =
      offsetIn (ss.map Slice.size) (ss.map fun s => (s.count - 1) * s.step) := by
  induction ss using List.reverseRecOn with
  | nil => rfl
  | append_singleton ss s ih =>
    rw [along_concat, List.map_append, List.map_append, List.map_singleton, List.map_singleton,
      offsetIn_concat (by simp), ← ih, ← stride_along, Nat.add_comm, Nat.mul_assoc]
    rfl

theorem start_add_span_lt_stride (h : ∀ s ∈ ss, s.Fits) :
    (along ss).start + (along ss).span < (along ss).stride := by
  induction ss using List.reverseRecOn with
  | nil => exact Nat.one_pos
  | append_singleton ss s ih =>
    have hs : s.Fits := h s (by simp)
    have hlast := hs.nth_lt (Nat.sub_one_lt_of_lt hs.count_pos)
    have hbefore := ih fun t ht => h t (by simp [ht])
    rw [along_concat]
    calc
      s.lower * (along ss).stride + (along ss).start +
            ((s.count - 1) * (s.step * (along ss).stride) + (along ss).span)
        = s.nth (s.count - 1) * (along ss).stride + ((along ss).start + (along ss).span) := by
          rw [Slice.nth, Nat.add_mul, Nat.mul_assoc]
          omega
      _ < s.nth (s.count - 1) * (along ss).stride + (along ss).stride := by omega
      _ = (s.nth (s.count - 1) + 1) * (along ss).stride := (Nat.add_one_mul _ _).symm
      _ ≤ s.size * (along ss).stride := Nat.mul_le_mul_right _ hlast
      _ = (along ss).stride * s.size := Nat.mul_comm _ _

theorem length_le_stride (h : ∀ s ∈ ss, s.Fits) : (along ss).length ≤ (along ss).stride := by
  induction ss using List.reverseRecOn with
  | nil => exact Nat.le_refl 1
  | append_singleton ss s ih =>
    rw [along_concat]
    exact Nat.mul_le_mul (ih fun t ht => h t (by simp [ht])) (h s (by simp)).count_le_size

end Partial

end Region

end Gridded
