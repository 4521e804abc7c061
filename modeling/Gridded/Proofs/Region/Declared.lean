import Gridded.Proofs.Region.Acceptance
import Gridded.Proofs.Region.Index
import Mathlib

namespace Gridded

def rowMajorOffset : List Nat → List Nat → Nat
  | _ :: sizes, i :: index => i * sizes.prod + rowMajorOffset sizes index
  | _, _ => 0

theorem offsetIn_reverse {sizes index : List Nat} (h : index.length = sizes.length) :
    offsetIn sizes.reverse index.reverse = rowMajorOffset sizes index := by
  induction sizes generalizing index with
  | nil =>
    obtain rfl := List.length_eq_zero_iff.1 h
    rfl
  | cons n sizes ih =>
    obtain ⟨i, index, rfl⟩ := List.exists_cons_of_length_eq_add_one h
    have h : index.length = sizes.length := Nat.succ.inj h
    rw [List.reverse_cons, List.reverse_cons, offsetIn_concat (by simpa using h), ih h,
      List.prod_reverse, rowMajorOffset, Nat.add_comm]

namespace Slice

def extent (s : Slice) : Nat := s.upper - s.lower

theorem count_eq_ceilDiv (s : Slice) : s.count = s.extent ⌈/⌉ s.step := rfl

theorem ofLists_map (ss : List Slice) :
    ofLists (ss.map size) (ss.map lower) (ss.map upper) (ss.map step) = ss := by
  induction ss with
  | nil => rfl
  | cons s ss ih => simp only [List.map_cons, ofLists, ih]

theorem exists_map_eq {sizes starts extents steps : List Nat}
    (hstarts : starts.length = sizes.length) (hextents : extents.length = sizes.length)
    (hsteps : steps.length = sizes.length) :
    ∃ ss : List Slice, ss.map size = sizes ∧ ss.map lower = starts ∧ ss.map extent = extents ∧
      ss.map upper = List.zipWith (· + ·) starts extents ∧ ss.map step = steps := by
  induction sizes generalizing starts extents steps with
  | nil =>
    obtain rfl := List.length_eq_zero_iff.1 hstarts
    obtain rfl := List.length_eq_zero_iff.1 hextents
    obtain rfl := List.length_eq_zero_iff.1 hsteps
    exact ⟨[], rfl, rfl, rfl, rfl, rfl⟩
  | cons n sizes ih =>
    obtain ⟨l, starts, rfl⟩ := List.exists_cons_of_length_eq_add_one hstarts
    obtain ⟨e, extents, rfl⟩ := List.exists_cons_of_length_eq_add_one hextents
    obtain ⟨t, steps, rfl⟩ := List.exists_cons_of_length_eq_add_one hsteps
    obtain ⟨ss, rfl, rfl, rfl, hupper, rfl⟩ :=
      ih (Nat.succ.inj hstarts) (Nat.succ.inj hextents) (Nat.succ.inj hsteps)
    refine ⟨⟨n, l, l + e, t⟩ :: ss, rfl, rfl, ?_, ?_, rfl⟩
    · rw [List.map_cons, extent, Nat.add_sub_cancel_left]
    · rw [List.map_cons, hupper, List.zipWith_cons_cons]

theorem zipWith_nth (ss : List Slice) (index : List Nat) :
    List.zipWith nth ss index =
      List.zipWith (· + ·) (ss.map lower) (List.zipWith (· * ·) index (ss.map step)) := by
  induction ss generalizing index with
  | nil => rfl
  | cons s ss ih =>
    cases index with
    | nil => rfl
    | cons i index => simp only [List.zipWith_cons_cons, List.map_cons, nth, ih]

theorem zipWith_nth_lt {ss : List Slice} (h : ∀ s ∈ ss, s.Fits) {index : List Nat}
    (hi : List.Forall₂ (· < ·) index (ss.map count)) :
    List.Forall₂ (· < ·) (List.zipWith nth ss index) (ss.map size) := by
  induction ss generalizing index with
  | nil => exact .nil
  | cons s ss ih =>
    rw [List.map_cons, List.forall₂_cons_right_iff] at hi
    obtain ⟨i, index, hs, hss, rfl⟩ := hi
    obtain ⟨hfit, hfits⟩ := List.forall_mem_cons.1 h
    exact .cons (hfit.nth_lt hs) (ih hfits hss)

end Slice

namespace Region

theorem eq_of_mapM_represent {quantity : String} {ns ms : List Nat}
    (h : ns.mapM (represent quantity) = .ok ms) : ms = ns := by
  induction ns generalizing ms with
  | nil => exact (Except.ok.inj h).symm
  | cons n ns ih =>
    rw [List.mapM_cons, Except.bind_eq_ok_iff] at h
    obtain ⟨m, hm, h⟩ := h
    obtain ⟨ms', hms, h⟩ := Except.bind_eq_ok_iff.1 h
    obtain rfl := Except.ok.inj h
    unfold represent at hm
    split at hm
    · rw [ih hms, Except.ok.inj hm]
    · cases hm

theorem select_of_selectDeclared {sizes starts extents steps : List Nat} {region : Region}
    (h : selectDeclared sizes starts extents steps = .ok region) :
    starts.length = extents.length ∧
      select sizes.reverse starts.reverse (List.zipWith (· + ·) starts extents).reverse
        steps.reverse = .ok region := by
  unfold selectDeclared at h
  split at h
  · cases h
  · next hlength =>
    obtain ⟨uppers, huppers, h⟩ := Except.bind_eq_ok_iff.1 h
    rw [eq_of_mapM_represent huppers] at h
    exact ⟨Decidable.not_not.1 hlength, h⟩

theorem eq_along_of_selectDeclared {sizes starts extents steps : List Nat} {region : Region}
    (h : selectDeclared sizes starts extents steps = .ok region) :
    ∃ ss : List Slice, (∀ s ∈ ss, s.Fits) ∧ region = (Partial.along ss.reverse).toRegion ∧
      ss.map Slice.size = sizes ∧ ss.map Slice.lower = starts ∧
      ss.map Slice.extent = extents ∧ ss.map Slice.step = steps := by
  obtain ⟨hlength, hselect⟩ := select_of_selectDeclared h
  obtain ⟨hstarts, -, hsteps⟩ := length_eq_of_select hselect
  simp only [List.length_reverse] at hstarts hsteps
  -- The lists are read off one list of slices, so reversing each of them reverses that one.
  obtain ⟨ss, rfl, rfl, rfl, hupper, rfl⟩ :=
    Slice.exists_map_eq hstarts (hlength.symm.trans hstarts) hsteps
  simp only [← hupper, ← List.map_reverse] at hselect
  obtain ⟨-, hfits, hregion⟩ := eq_along_of_select hselect
  rw [Slice.ofLists_map] at hfits hregion
  exact ⟨ss, fun s hs => hfits s (List.mem_reverse.2 hs), hregion, rfl, rfl, rfl, rfl⟩

theorem Selected.of_selectDeclared {sizes starts extents steps : List Nat} {region : Region}
    (h : selectDeclared sizes starts extents steps = .ok region) : region.Selected :=
  ⟨_, _, _, _, (select_of_selectDeclared h).2⟩

theorem declaredShape_along (ss : List Slice) :
    (Partial.along ss.reverse).declaredShape = ss.map Slice.count := by
  rw [declaredShape, Partial.counts_along, List.map_reverse, List.reverse_reverse]

end Region

end Gridded
