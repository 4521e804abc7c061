import Gridded.Proofs.Outcome
import Gridded.Proofs.Region.Along
import Mathlib

/-!
Which selections are accepted. Of the numbers computed for a dimension only two can be too large on
their own: the distance of a step, and the number of elements of the variable. All others are below
one of these, because what is selected ends within the variable.
-/

namespace Gridded

namespace Slice

variable {s : Slice}

theorem check_eq_ok_iff {dimension : Nat} : s.check dimension = .ok () ↔ s.Fits := by
  unfold check
  constructor
  · intro h
    split at h; · cases h
    split at h; · cases h
    split at h; · cases h
    constructor <;> omega
  · rintro ⟨hl, hu, hs⟩
    rw [if_neg (by omega), if_neg (by omega), if_neg (by omega)]

@[mk_iff]
structure Representable (ss : List Slice) : Prop where
  step_lt : ∀ d s, ss[d]? = some s → s.step * ((ss.take d).map size).prod < wordLimit
  size_lt : (ss.map size).prod < wordLimit

theorem representable_concat_iff {ss : List Slice} {s : Slice} (h : ∀ t ∈ ss ++ [s], t.Fits) :
    Representable (ss ++ [s]) ↔ Representable ss ∧ s.step * (ss.map size).prod < wordLimit ∧
      (ss.map size).prod * s.size < wordLimit := by
  have hprod : ((ss ++ [s]).map size).prod = (ss.map size).prod * s.size := by simp
  constructor
  · rintro ⟨hstep, hsize⟩
    rw [hprod] at hsize
    refine ⟨⟨?_, ?_⟩, ?_, hsize⟩
    · intro d t ht
      have hd : d < ss.length := (List.getElem?_eq_some_iff.1 ht).1
      have := hstep d t (by rw [List.getElem?_append_left hd, ht])
      rwa [List.take_append_of_le_length (Nat.le_of_lt hd)] at this
    · refine Nat.lt_of_le_of_lt (Nat.le_mul_of_pos_right _ ?_) hsize
      exact Nat.lt_of_lt_of_le (h s (by simp)).count_pos (h s (by simp)).count_le_size
    · simpa using hstep ss.length s (by simp)
  · rintro ⟨⟨hstep, -⟩, hlast, hsize⟩
    refine ⟨?_, hprod ▸ hsize⟩
    intro d t ht
    rcases Nat.lt_or_ge d ss.length with hd | hd
    · rw [List.getElem?_append_left hd] at ht
      rw [List.take_append_of_le_length (Nat.le_of_lt hd)]
      exact hstep d t ht
    · obtain rfl : d = ss.length := by
        have := (List.getElem?_eq_some_iff.1 ht).1
        simp only [List.length_append, List.length_singleton] at this
        omega
      obtain rfl : s = t := by simpa using ht
      simpa using hlast

end Slice

namespace Region

namespace Partial

theorem exists_represent_eq_ok_iff {quantity : String} {n : Nat} :
    (∃ m, represent quantity n = .ok m) ↔ n < wordLimit := by
  unfold represent
  split <;> simp_all

theorem exists_mapM_represent_eq_ok_iff {qs : List (String × Nat)} :
    (∃ ns, qs.mapM (fun q => represent q.1 q.2) = .ok ns) ↔ ∀ q ∈ qs, q.2 < wordLimit := by
  simp only [Except.exists_mapM_eq_ok_iff, exists_represent_eq_ok_iff]

theorem push_eq_ok_iff {r r' : Partial} {s : Slice} :
    r.push s = .ok r' ↔ s.Fits ∧ (∀ q ∈ r.quantities s, q.2 < wordLimit) ∧ r' = r.next s := by
  simp only [push, Except.bind_eq_ok_iff, ← exists_mapM_represent_eq_ok_iff]
  constructor
  · rintro ⟨⟨⟩, hc, ns, hns, h⟩
    exact ⟨Slice.check_eq_ok_iff.1 hc, ⟨ns, hns⟩, (Except.ok.inj h).symm⟩
  · rintro ⟨hf, ⟨ns, hns⟩, rfl⟩
    exact ⟨⟨⟩, Slice.check_eq_ok_iff.2 hf, ns, hns, rfl⟩

variable {ss : List Slice}

theorem forall_quantities_lt_iff {s : Slice} (h : ∀ t ∈ ss ++ [s], t.Fits) :
    (∀ q ∈ (along ss).quantities s, q.2 < wordLimit) ↔
      s.step * (along ss).stride < wordLimit ∧ (along ss).stride * s.size < wordLimit := by
  have hlast := start_add_span_lt_stride h
  have hlength := length_le_stride h
  rw [along_concat] at hlast hlength
  have hsize : ((along ss).next s).stride = (along ss).stride * s.size := rfl
  simp only [quantities, List.forall_mem_cons, List.not_mem_nil, false_implies, implies_true,
    and_true]
  omega

theorem foldlM_push_eq_ok_iff {r : Partial} :
    ss.foldlM push .point = .ok r ↔
      (∀ s ∈ ss, s.Fits) ∧ Slice.Representable ss ∧ r = along ss := by
  induction ss using List.reverseRecOn generalizing r with
  | nil =>
    have hempty : Slice.Representable [] := ⟨nofun, by decide⟩
    constructor
    · intro h
      exact ⟨nofun, hempty, (Except.ok.inj h).symm⟩
    · rintro ⟨-, -, rfl⟩
      rfl
  | append_singleton ss s ih =>
    rw [List.foldlM_append, Except.bind_eq_ok_iff]
    simp only [List.foldlM_cons, List.foldlM_nil, bind_pure, push_eq_ok_iff, ih]
    constructor
    · rintro ⟨_, ⟨hss, hold, rfl⟩, hs, hq, rfl⟩
      have hfits : ∀ t ∈ ss ++ [s], t.Fits := by
        simpa [or_imp, forall_and] using ⟨hss, hs⟩
      rw [forall_quantities_lt_iff hfits, stride_along] at hq
      exact ⟨hfits, (Slice.representable_concat_iff hfits).2 ⟨hold, hq⟩, (along_concat ss s).symm⟩
    · rintro ⟨hfits, hnew, rfl⟩
      obtain ⟨hold, hq⟩ := (Slice.representable_concat_iff hfits).1 hnew
      rw [← stride_along, ← forall_quantities_lt_iff hfits] at hq
      exact ⟨along ss, ⟨fun t ht => hfits t (by simp [ht]), hold, rfl⟩, hfits s (by simp), hq,
        along_concat ss s⟩

end Partial

def Selected (region : Region) : Prop :=
  ∃ sizes lowers uppers steps, select sizes lowers uppers steps = .ok region

variable {sizes lowers uppers steps : List Nat} {region : Region}

theorem length_eq_of_select (h : select sizes lowers uppers steps = .ok region) :
    lowers.length = sizes.length ∧ uppers.length = sizes.length ∧ steps.length = sizes.length := by
  unfold select at h
  split at h
  · cases h
  · next hl =>
    simpa only [List.find?_eq_none, List.mem_cons, List.not_mem_nil, or_false, forall_eq_or_imp,
      forall_eq, decide_eq_true_eq, ne_eq, Decidable.not_not] using hl

theorem select_eq_ok_iff :
    select sizes lowers uppers steps = .ok region ↔
      (lowers.length = sizes.length ∧ uppers.length = sizes.length ∧
        steps.length = sizes.length) ∧
      (∀ s ∈ Slice.ofLists sizes lowers uppers steps, s.Fits) ∧
      Slice.Representable (Slice.ofLists sizes lowers uppers steps) ∧
      region = (Partial.along (Slice.ofLists sizes lowers uppers steps)).toRegion := by
  constructor
  · intro h
    refine ⟨length_eq_of_select h, ?_⟩
    unfold select at h
    split at h
    · cases h
    · obtain ⟨r, hr, hregion⟩ := Except.bind_eq_ok_iff.1 h
      obtain ⟨hfits, hrepresentable, rfl⟩ := Partial.foldlM_push_eq_ok_iff.1 hr
      exact ⟨hfits, hrepresentable, (Except.ok.inj hregion).symm⟩
  · rintro ⟨⟨hl, hu, hs⟩, hfits, hrepresentable, rfl⟩
    have hlengths : [lowers, uppers, steps].find? (·.length ≠ sizes.length) = none := by
      simp [hl, hu, hs]
    rw [select, hlengths]
    exact Except.bind_eq_ok_iff.2
      ⟨_, Partial.foldlM_push_eq_ok_iff.2 ⟨hfits, hrepresentable, rfl⟩, rfl⟩

theorem eq_along_of_select (h : select sizes lowers uppers steps = .ok region) :
    let ss := Slice.ofLists sizes lowers uppers steps
    ss.map Slice.size = sizes ∧ (∀ s ∈ ss, s.Fits) ∧ region = (Partial.along ss).toRegion := by
  obtain ⟨⟨hl, hu, hs⟩, hfits, -, hregion⟩ := select_eq_ok_iff.1 h
  exact ⟨(Slice.maps_ofLists hl hu hs).1, hfits, hregion⟩

theorem Selected.eq_along (h : region.Selected) :
    ∃ ss : List Slice, (∀ s ∈ ss, s.Fits) ∧ region = (Partial.along ss).toRegion := by
  obtain ⟨sizes, lowers, uppers, steps, h⟩ := h
  exact ⟨_, (eq_along_of_select h).2⟩

end Region

end Gridded
