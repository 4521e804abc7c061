import Gridded.Proofs.Region.Declared
import Mathlib

namespace Gridded

namespace RegionError

def dimension? : RegionError → Option Nat
  | .outOfBounds d _ _ _ | .emptyRange d _ _ | .zeroStep d => some d
  | .dimensionality _ _ | .overflow _ => none

/--
The error is right about a dimension with these numbers, and no check that comes before fails.
-/
def HoldsOf (size start extent step : Nat) : RegionError → Prop
  | .outOfBounds _ lower upper bound =>
      lower = start ∧ upper = start + extent ∧ bound = size ∧ size < start + extent
  | .emptyRange _ lower upper =>
      lower = start ∧ upper = start + extent ∧ start ≤ size ∧ extent = 0
  | .zeroStep _ => start + extent ≤ size ∧ 0 < extent ∧ step = 0
  | .dimensionality _ _ | .overflow _ => False

def HoldsAt (e : RegionError) (sizes starts extents steps : List Nat) (i : Nat) : Prop :=
  ∃ size ∈ sizes[i]?, ∃ start ∈ starts[i]?, ∃ extent ∈ extents[i]?, ∃ step ∈ steps[i]?,
    e.HoldsOf size start extent step

variable {e : RegionError} {ss : List Slice} {d : Nat}

theorem holdsAt_map_iff :
    e.HoldsAt (ss.map Slice.size) (ss.map Slice.lower) (ss.map Slice.extent) (ss.map Slice.step) d ↔
      ∃ s ∈ ss[d]?, e.HoldsOf s.size s.lower s.extent s.step := by
  simp only [HoldsAt, List.getElem?_map, Option.mem_def]
  cases ss[d]? <;> simp

end RegionError

namespace Slice

variable {s : Slice} {d : Nat} {e : RegionError}

theorem check_eq_error_iff (h : s.upper = s.lower + s.extent) (he : e.dimension? = some d) :
    s.check d = .error e ↔ e.HoldsOf s.size s.lower s.extent s.step := by
  unfold check
  cases e <;> cases he <;> simp only [RegionError.HoldsOf] <;> grind

theorem dimension?_of_check (h : s.check d = .error e) : e.dimension? = some d := by
  unfold check at h
  split at h
  · cases h
    rfl
  split at h
  · cases h
    rfl
  split at h
  · cases h
    rfl
  · cases h

end Slice

namespace Region

variable {e : RegionError} {ss : List Slice} {s : Slice} {d : Nat}

theorem dimension?_of_represent {quantity : String} {n : Nat}
    (h : represent quantity n = .error e) : e.dimension? = none := by
  unfold represent at h
  split at h <;> cases h
  rfl

theorem Partial.push_eq_error_iff {r : Partial} (he : e.dimension? = some d) :
    r.push s = .error e ↔ s.check r.counts.length = .error e := by
  rw [push, Except.bind_eq_error_iff, or_iff_left]
  rintro ⟨-, -, h⟩
  rcases Except.bind_eq_error_iff.1 h with h | ⟨_, _, h⟩
  · obtain ⟨_, q, _, _, _, hq⟩ := Except.mapM_eq_error_iff.1 h
    rw [dimension?_of_represent hq] at he
    cases he
  · cases h

theorem ofSlices_eq_error_iff (he : e.dimension? = some d) :
    ofSlices ss = .error e ↔
      ∃ before s after, ss = before ++ s :: after ∧ (∃ region, ofSlices before = .ok region) ∧
        s.check before.length = .error e := by
  have hcounts {before : List Slice} {r : Partial} (h : before.foldlM Partial.push .point = .ok r) :
      r.counts.length = before.length := by
    obtain ⟨-, -, rfl⟩ := Partial.foldlM_push_eq_ok_iff.1 h
    rw [Partial.counts_along, List.length_map]
  simp only [ofSlices, Except.bind_eq_error_iff, Except.bind_eq_ok_iff, Except.foldlM_eq_error_iff]
  constructor
  · rintro (⟨before, s, after, r, rfl, hr, hs⟩ | ⟨r, -, h⟩)
    · rw [Partial.push_eq_error_iff he, hcounts hr] at hs
      exact ⟨before, s, after, rfl, ⟨_, r, hr, rfl⟩, hs⟩
    · cases h
  · rintro ⟨before, s, after, rfl, ⟨_, r, hr, -⟩, hs⟩
    rw [← hcounts hr, ← Partial.push_eq_error_iff he] at hs
    exact .inl ⟨before, s, after, r, rfl, hr, hs⟩

theorem select_map (ss : List Slice) :
    select (ss.map Slice.size) (ss.map Slice.lower) (ss.map Slice.upper) (ss.map Slice.step)
      = ofSlices ss := by
  simp [select, Slice.ofLists_map]

def Forward (ss : List Slice) : Prop := ∀ s ∈ ss, s.upper = s.lower + s.extent

theorem forward_of_map_upper_eq
    (h : ss.map Slice.upper = List.zipWith (· + ·) (ss.map Slice.lower) (ss.map Slice.extent)) :
    Forward ss := by
  rw [List.zipWith_map, List.zipWith_self] at h
  exact List.map_inj_left.1 h

theorem selectDeclared_map (h : Forward ss) :
    selectDeclared (ss.map Slice.size) (ss.map Slice.lower) (ss.map Slice.extent)
        (ss.map Slice.step) =
      (ss.map Slice.upper).mapM (represent "region upper bound") >>= fun _ =>
        ofSlices ss.reverse := by
  have hupper : List.zipWith (· + ·) (ss.map Slice.lower) (ss.map Slice.extent) =
      ss.map Slice.upper := by
    rw [List.zipWith_map, List.zipWith_self]
    exact List.map_congr_left fun s hs => (h s hs).symm
  rw [selectDeclared, hupper, if_neg (by simp)]
  change _ >>= _ = _
  cases hmap : (ss.map Slice.upper).mapM (represent "region upper bound") with
  | error e => rfl
  | ok uppers =>
    obtain rfl := eq_of_mapM_represent hmap
    change select _ _ (ss.map Slice.upper).reverse _ = ofSlices ss.reverse
    simp only [← List.map_reverse, select_map]

theorem selectDeclared_map_eq_ok_iff (h : Forward ss) :
    (∃ region, selectDeclared (ss.map Slice.size) (ss.map Slice.lower) (ss.map Slice.extent)
        (ss.map Slice.step) = .ok region) ↔
      (∀ s ∈ ss, s.upper < wordLimit) ∧ ∃ region, ofSlices ss.reverse = .ok region := by
  simp only [selectDeclared_map h, Except.bind_eq_ok_iff]
  rw [← List.forall_mem_map (P := (· < wordLimit))]
  simp only [← @Partial.exists_represent_eq_ok_iff "region upper bound",
    ← Except.exists_mapM_eq_ok_iff]
  constructor
  · rintro ⟨region, uppers, huppers, hregion⟩
    exact ⟨⟨uppers, huppers⟩, region, hregion⟩
  · rintro ⟨⟨uppers, huppers⟩, region, hregion⟩
    exact ⟨region, uppers, huppers, hregion⟩

theorem selectDeclared_map_eq_error_iff (h : Forward ss) (he : e.dimension? = some d) :
    selectDeclared (ss.map Slice.size) (ss.map Slice.lower) (ss.map Slice.extent)
        (ss.map Slice.step) = .error e ↔
      (∀ s ∈ ss, s.upper < wordLimit) ∧ ofSlices ss.reverse = .error e := by
  rw [selectDeclared_map h, Except.bind_eq_error_iff, or_iff_right, exists_and_right]
  · rw [← List.forall_mem_map (P := (· < wordLimit))]
    simp only [← @Partial.exists_represent_eq_ok_iff "region upper bound",
    ← Except.exists_mapM_eq_ok_iff]
  · intro h
    obtain ⟨_, n, _, _, _, hn⟩ := Except.mapM_eq_error_iff.1 h
    rw [dimension?_of_represent hn] at he
    cases he

theorem length_eq_of_select_eq_error {sizes lowers uppers steps : List Nat}
    (h : select sizes lowers uppers steps = .error e) (he : e.dimension? = some d) :
    lowers.length = sizes.length ∧ uppers.length = sizes.length ∧ steps.length = sizes.length := by
  unfold select at h
  split at h
  · cases h
    cases he
  · next hl =>
    simpa only [List.find?_eq_none, List.mem_cons, List.not_mem_nil, or_false, forall_eq_or_imp,
      forall_eq, decide_eq_true_eq, ne_eq, Decidable.not_not] using hl

theorem length_eq_of_selectDeclared_eq_error {sizes starts extents steps : List Nat}
    (h : selectDeclared sizes starts extents steps = .error e) (he : e.dimension? = some d) :
    starts.length = sizes.length ∧ extents.length = sizes.length ∧ steps.length = sizes.length := by
  unfold selectDeclared at h
  split at h
  · cases h
    cases he
  · next hlength =>
    rcases Except.bind_eq_error_iff.1 h with h | ⟨uppers, -, h⟩
    · obtain ⟨_, n, _, _, _, hn⟩ := Except.mapM_eq_error_iff.1 h
      rw [dimension?_of_represent hn] at he
      cases he
    · obtain ⟨hstarts, -, hsteps⟩ := length_eq_of_select_eq_error h he
      simp only [List.length_reverse] at hstarts hsteps
      exact ⟨hstarts, (Decidable.not_not.1 hlength).symm.trans hstarts, hsteps⟩

theorem ofSlices_reverse_eq_error_iff (he : e.dimension? = some d) :
    ofSlices ss.reverse = .error e ↔
      ∃ i, d + i + 1 = ss.length ∧ (∃ s ∈ ss[i]?, s.check d = .error e) ∧
        ∃ region, ofSlices (ss.drop (i + 1)).reverse = .ok region := by
  rw [ofSlices_eq_error_iff he]
  constructor
  · rintro ⟨before, s, after, hss, hbefore, hs⟩
    rw [List.reverse_eq_iff, List.reverse_append, List.reverse_cons, List.append_assoc,
      List.singleton_append] at hss
    subst hss
    obtain rfl : before.length = d :=
      Option.some.inj ((Slice.dimension?_of_check hs).symm.trans he)
    refine ⟨after.length, ?_, ⟨s, by simp, hs⟩, ?_⟩
    · simp
      omega
    · rwa [← List.singleton_append, ← List.append_assoc, List.drop_left' (by simp),
        List.reverse_reverse]
  · rintro ⟨i, hi, ⟨s, hs, hcheck⟩, hafter⟩
    obtain ⟨hlt, rfl⟩ := List.getElem?_eq_some_iff.1 hs
    refine ⟨(ss.drop (i + 1)).reverse, ss[i], (ss.take i).reverse, ?_, hafter, ?_⟩
    · rw [List.reverse_eq_iff]
      simp
    · have hd : (ss.drop (i + 1)).reverse.length = d := by
        rw [List.length_reverse, List.length_drop]
        omega
      rwa [hd]

/--
A declared region is refused for one of its dimensions exactly if the error is right about that one
and all dimensions declared after it would be accepted by themselves. The number in the error counts
dimensions from the last.
-/
theorem selectDeclared_eq_error_iff {sizes starts extents steps : List Nat}
    (he : e.dimension? = some d) :
    selectDeclared sizes starts extents steps = .error e ↔
      (starts.length = sizes.length ∧ extents.length = sizes.length ∧
        steps.length = sizes.length) ∧
      (∀ n ∈ List.zipWith (· + ·) starts extents, n < wordLimit) ∧
      ∃ i, d + i + 1 = sizes.length ∧ e.HoldsAt sizes starts extents steps i ∧
        ∃ region, selectDeclared (sizes.drop (i + 1)) (starts.drop (i + 1)) (extents.drop (i + 1))
          (steps.drop (i + 1)) = .ok region := by
  by_cases hlengths : starts.length = sizes.length ∧ extents.length = sizes.length ∧
      steps.length = sizes.length
  · obtain ⟨ss, rfl, rfl, rfl, hupper, rfl⟩ :=
      Slice.exists_map_eq hlengths.1 hlengths.2.1 hlengths.2.2
    have hforward := forward_of_map_upper_eq hupper
    have hdrop (i : Nat) : Forward (ss.drop (i + 1)) :=
      fun s hs => hforward s (List.mem_of_mem_drop hs)
    rw [selectDeclared_map_eq_error_iff hforward he, ofSlices_reverse_eq_error_iff he, ← hupper]
    simp only [← List.map_drop, selectDeclared_map_eq_ok_iff (hdrop _), List.length_map, true_and,
      List.forall_mem_map, RegionError.holdsAt_map_iff, and_self]
    refine and_congr_right fun hlt => exists_congr fun i => and_congr_right fun hi => ?_
    apply and_congr
    · refine exists_congr fun s => and_congr_right fun hs => ?_
      exact Slice.check_eq_error_iff (hforward s (List.mem_of_getElem? hs)) he
    · rw [and_iff_right]
      exact fun s hs => hlt s (List.mem_of_mem_drop hs)
  · exact iff_of_false (fun h => hlengths (length_eq_of_selectDeclared_eq_error h he))
      fun h => hlengths h.1

theorem selectDeclared_eq_error_iff_first :
    selectDeclared [4, 5, 6] [3, 0, 0] [2, 5, 6] [1, 1, 2] = .error (.outOfBounds 2 3 5 4)
      ∧ selectDeclared [4, 5, 6] [3, 0, 6] [2, 5, 0] [1, 1, 2] ≠ .error (.outOfBounds 2 3 5 4) := by
  constructor
  · rw [selectDeclared_eq_error_iff (d := 2) rfl]
    refine ⟨⟨rfl, rfl, rfl⟩, by decide, 0, rfl, ?_, _, rfl⟩
    exact ⟨4, rfl, 3, rfl, 2, rfl, 1, rfl, rfl, rfl, rfl, by decide⟩
  · rw [ne_eq, selectDeclared_eq_error_iff (d := 2) rfl]
    rintro ⟨-, -, i, hi, -, region, hregion⟩
    obtain rfl : i = 0 := by simpa using hi
    cases hregion

theorem selectDeclared_counts_from_last :
    (selectDeclared [5, 4] [0, 3] [5, 2] [1, 1] = .error (.outOfBounds 0 3 5 4)
      ∧ [0, 3][0]? ≠ some 3 ∧ [5, 4][0]? ≠ some 4)
      ∧ (selectDeclared [5, 4] [0, 3] [5, 0] [1, 1] = .error (.emptyRange 0 3 3)
        ∧ [0, 3][0]? ≠ some 3)
      ∧ (selectDeclared [5, 4] [0, 0] [5, 4] [1, 0] = .error (.zeroStep 0)
        ∧ [1, 0][0]? ≠ some 0) := by
  refine ⟨⟨rfl, ?_⟩, ⟨rfl, ?_⟩, rfl, ?_⟩ <;> decide

end Region

end Gridded
