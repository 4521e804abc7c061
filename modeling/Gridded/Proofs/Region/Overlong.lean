import Gridded.Proofs.Region.Declared
import Gridded.Proofs.Region.RunLength
import Mathlib

namespace Gridded

namespace Slice

structure Agrees (s t : Slice) : Prop where
  size_eq : s.size = t.size
  count_eq : s.count = t.count
  nth_eq : ∀ i < s.count, s.nth i = t.nth i

theorem Agrees.refl (s : Slice) : s.Agrees s := ⟨rfl, rfl, fun _ _ => rfl⟩

theorem Agrees.symm {s t : Slice} (h : s.Agrees t) : t.Agrees s :=
  ⟨h.size_eq.symm, h.count_eq.symm, fun i hi => (h.nth_eq i (h.count_eq ▸ hi)).symm⟩

section Lists

variable {ss ts : List Slice} (h : List.Forall₂ Agrees ss ts)

include h

theorem forall₂_agrees_symm : List.Forall₂ Agrees ts ss :=
  List.Forall₂.flip (h.imp fun _ _ => Agrees.symm)

theorem map_size_eq : ss.map size = ts.map size := by
  induction h with
  | nil => rfl
  | cons hs _ ih => rw [List.map_cons, List.map_cons, hs.size_eq, ih]

theorem map_count_eq : ss.map count = ts.map count := by
  induction h with
  | nil => rfl
  | cons hs _ ih => rw [List.map_cons, List.map_cons, hs.count_eq, ih]

theorem zipWith_nth_eq {index : List Nat} (hindex : List.Forall₂ (· < ·) index (ss.map count)) :
    List.zipWith nth ss index = List.zipWith nth ts index := by
  induction h generalizing index with
  | nil => rfl
  | cons hs _ ih =>
    rw [List.map_cons, List.forall₂_cons_right_iff] at hindex
    obtain ⟨i, index, hi, hindex, rfl⟩ := hindex
    rw [List.zipWith_cons_cons, List.zipWith_cons_cons, hs.nth_eq i hi, ih hindex]

end Lists

def shorten (s : Slice) : Slice := { s with step := s.extent }

@[simp] theorem size_shorten (s : Slice) : s.shorten.size = s.size := rfl

section Shorten

variable {s : Slice} (h : s.Fits)

include h

theorem Fits.extent_pos : 0 < s.extent := Nat.sub_pos_of_lt h.lower_lt_upper

theorem Fits.extent_le_size : s.extent ≤ s.size :=
  (Nat.sub_le _ _).trans h.upper_le_size

theorem Fits.shorten : s.shorten.Fits := ⟨h.lower_lt_upper, h.upper_le_size, h.extent_pos⟩

theorem Fits.count_eq_one (hstep : s.extent ≤ s.step) : s.count = 1 := by
  have hpos := h.extent_pos
  change (s.extent + s.step - 1) / s.step = 1
  exact Nat.div_eq_of_lt_le (by omega) (by omega)

theorem Fits.count_shorten : s.shorten.count = 1 := h.shorten.count_eq_one (Nat.le_refl _)

theorem Fits.agrees_shorten (hstep : s.extent ≤ s.step) : s.Agrees s.shorten := by
  have hcount : s.count = 1 := h.count_eq_one hstep
  refine ⟨rfl, hcount.trans h.count_shorten.symm, ?_⟩
  intro i hi
  obtain rfl : i = 0 := by omega
  simp only [nth, Nat.zero_mul]
  rfl

end Shorten

variable {before after : List Slice} {s : Slice}

theorem ofLists_set {sizes lowers uppers steps : List Nat}
    (h : ofLists sizes lowers uppers steps = before ++ s :: after) (n : Nat) :
    ofLists sizes lowers uppers (steps.set before.length n) =
      before ++ { s with step := n } :: after := by
  induction sizes, lowers, uppers, steps using ofLists.induct generalizing before with
  | case1 size sizes lower lowers upper uppers step steps ih =>
    rw [ofLists] at h
    cases before with
    | nil =>
      obtain ⟨rfl, rfl⟩ := List.cons.inj h
      rfl
    | cons t before =>
      obtain ⟨rfl, hrest⟩ := List.cons.inj h
      rw [List.length_cons, List.set_cons_succ, ofLists, ih hrest]
      rfl
  | case2 sizes lowers uppers steps hne =>
    rw [ofLists] at h
    · simp at h
    · exact hne

section Fitting

variable (h : ∀ t ∈ before ++ s :: after, t.Fits)

include h

theorem forall_fits_shorten : ∀ t ∈ before ++ s.shorten :: after, t.Fits := by
  intro t ht
  simp only [List.mem_append, List.mem_cons] at ht
  rcases ht with ht | rfl | ht
  · exact h t (by simp [ht])
  · exact (h s (by simp)).shorten
  · exact h t (by simp [ht])

theorem forall₂_agrees_shorten (hstep : s.extent ≤ s.step) :
    List.Forall₂ Agrees (before ++ s :: after) (before ++ s.shorten :: after) := by
  have hrefl (ts : List Slice) : List.Forall₂ Agrees ts ts := List.forall₂_same.2 fun t _ => .refl t
  exact List.rel_append (hrefl before) (.cons ((h s (by simp)).agrees_shorten hstep) (hrefl after))

theorem representable_shorten_iff (hstep : s.extent ≤ s.step) :
    Representable (before ++ s :: after) ↔
      Representable (before ++ s.shorten :: after) ∧
        s.step * (before.map size).prod < wordLimit := by
  have hshort := forall_fits_shorten h
  induction after using List.reverseRecOn with
  | nil =>
    rw [representable_concat_iff h, representable_concat_iff hshort]
    have hle : s.extent * (before.map size).prod ≤ s.step * (before.map size).prod :=
      Nat.mul_le_mul_right _ hstep
    constructor
    · rintro ⟨hbefore, hlast, hsize⟩
      exact ⟨⟨hbefore, hle.trans_lt hlast, hsize⟩, hlast⟩
    · rintro ⟨⟨hbefore, -, hsize⟩, hlast⟩
      exact ⟨hbefore, hlast, hsize⟩
  | append_singleton after t ih =>
    have hsize : ((before ++ s.shorten :: after).map size).prod =
        ((before ++ s :: after).map size).prod := by simp
    rw [← List.cons_append, ← List.append_assoc] at h hshort ⊢
    rw [← List.cons_append, ← List.append_assoc, representable_concat_iff h,
      representable_concat_iff hshort, hsize, and_right_comm, and_congr_left_iff]
    exact fun _ => ih (fun t ht => h t (List.mem_append_left _ ht))
      fun t ht => hshort t (List.mem_append_left _ ht)

end Fitting

/--
A longer step cuts off a run that all dimensions before are part of and that would go on after the
dimension, which has a single index.
-/
structure Cuts (before : List Slice) (s : Slice) : Prop where
  whole : ∀ t ∈ before, t.step = 1 ∧ t.count = t.size
  size_eq_one : s.size = 1
  one_lt_step : 1 < s.step

theorem runLength_cons_of_whole {t : Slice} (h : t.step = 1 ∧ t.count = t.size) (ss : List Slice) :
    runLength (t :: ss) = t.count * runLength ss := by
  rw [runLength, if_pos h.1, if_pos h.2]

theorem runLength_cons_of_not_whole {t : Slice} (h : ¬(t.step = 1 ∧ t.count = t.size))
    (ss ts : List Slice) : runLength (t :: ss) = runLength (t :: ts) := by
  simp only [runLength]
  split
  · next hstep =>
    have hcount : t.count ≠ t.size := fun hcount => h ⟨hstep, hcount⟩
    rw [if_neg hcount, if_neg hcount]
  · rfl

theorem Cuts.runLength_shorten (h : Cuts before s) (hs : s.Fits) :
    runLength (before ++ s.shorten :: after) =
      runLength (before ++ s :: after) * runLength after := by
  obtain ⟨hwhole, hsize, hstep⟩ := h
  induction before with
  | nil =>
    have hextent : s.extent = 1 := by
      have := hs.extent_pos
      have := hs.extent_le_size
      omega
    rw [List.nil_append, List.nil_append,
      runLength_cons_of_whole ⟨hextent, hs.count_shorten.trans hsize.symm⟩, hs.count_shorten,
      runLength, if_neg (Nat.ne_of_gt hstep)]
  | cons t before ih =>
    obtain ⟨ht, hbefore⟩ := List.forall_mem_cons.1 hwhole
    rw [List.cons_append, List.cons_append, runLength_cons_of_whole ht, runLength_cons_of_whole ht,
      ih hbefore, Nat.mul_assoc]

theorem runLength_shorten_of_not_cuts (h : ¬Cuts before s) (hs : s.Fits)
    (hstep : s.extent ≤ s.step) :
    runLength (before ++ s.shorten :: after) = runLength (before ++ s :: after) := by
  induction before with
  | nil =>
    rw [List.nil_append, List.nil_append]
    by_cases hone : s.step = 1
    · have hsame : s.shorten = s := by
        have hextent : s.extent = s.step := Nat.le_antisymm hstep (hone ▸ hs.extent_pos)
        rw [shorten, hextent]
      rw [hsame]
    · have hsize : s.size ≠ 1 := fun hsize =>
        h ⟨nofun, hsize, hs.one_lt_step hone⟩
      rw [runLength, runLength, if_neg hone, hs.count_shorten, size_shorten, if_neg hsize.symm,
        ite_self]
  | cons t before ih =>
    rw [List.cons_append, List.cons_append]
    by_cases ht : t.step = 1 ∧ t.count = t.size
    · have hbefore : ¬Cuts before s := fun hcuts =>
        h ⟨List.forall_mem_cons.2 ⟨ht, hcuts.whole⟩, hcuts.size_eq_one, hcuts.one_lt_step⟩
      rw [runLength_cons_of_whole ht, runLength_cons_of_whole ht, ih hbefore]
    · exact runLength_cons_of_not_whole ht _ _

end Slice

namespace Region

section Agreeing

variable {ss ts : List Slice} (hss : ∀ s ∈ ss, s.Fits) (hts : ∀ t ∈ ts, t.Fits)
  (h : List.Forall₂ Slice.Agrees ss ts)

include hss hts h

theorem visits_eq_of_agrees : (Partial.along ss).visits = (Partial.along ts).visits := by
  have hcount := Slice.map_count_eq h
  have hlength : (Partial.along ss).visits.length = (Partial.along ts).visits.length := by
    rw [length_visits, length_visits, hcount]
  apply List.ext_getElem?
  intro n
  by_cases hn : n < (Partial.along ss).visits.length
  · obtain ⟨index, ⟨hindex, rfl⟩, -⟩ := existsUnique_offsetIn (length_visits ▸ hn)
    rw [getElem?_visits hss hindex, hcount, getElem?_visits hts (hcount ▸ hindex),
      Slice.map_size_eq h, Slice.zipWith_nth_eq h hindex]
  · rw [List.getElem?_eq_none (Nat.le_of_not_lt hn),
      List.getElem?_eq_none (hlength ▸ Nat.le_of_not_lt hn)]

theorem selectedOffsets_eq_of_agrees : selectedOffsets ss = selectedOffsets ts := by
  ext q
  rw [← mem_visits_iff hss, ← mem_visits_iff hts, visits_eq_of_agrees hss hts h]

end Agreeing

section Lists

variable {sizes lowers uppers steps : List Nat}

theorem exists_select_iff_representable
    (hlengths : lowers.length = sizes.length ∧ uppers.length = sizes.length ∧
      steps.length = sizes.length)
    (hfits : ∀ s ∈ Slice.ofLists sizes lowers uppers steps, s.Fits) :
    (∃ region, select sizes lowers uppers steps = .ok region) ↔
      Slice.Representable (Slice.ofLists sizes lowers uppers steps) := by
  simp only [select_eq_ok_iff, exists_and_left, exists_eq, and_true, hlengths, true_and]
  exact and_iff_right hfits

theorem exists_select_iff_shorten {before after : List Slice} {s : Slice}
    (hlengths : lowers.length = sizes.length ∧ uppers.length = sizes.length ∧
      steps.length = sizes.length)
    (hss : Slice.ofLists sizes lowers uppers steps = before ++ s :: after)
    (hfits : ∀ t ∈ before ++ s :: after, t.Fits) (hstep : s.extent ≤ s.step) :
    (∃ region, select sizes lowers uppers steps = .ok region) ↔
      (∃ region, select sizes lowers uppers (steps.set before.length s.extent) = .ok region) ∧
        s.step * (sizes.take before.length).prod < wordLimit := by
  obtain ⟨hl, hu, ht⟩ := hlengths
  have hshort := Slice.ofLists_set hss s.extent
  have hbefore : sizes.take before.length = before.map Slice.size := by
    rw [← (Slice.maps_ofLists hl hu ht).1, hss, ← List.map_take, List.take_left]
  rw [exists_select_iff_representable ⟨hl, hu, ht⟩ (hss ▸ hfits),
    exists_select_iff_representable ⟨hl, hu, by rwa [List.length_set]⟩
      (hshort ▸ Slice.forall_fits_shorten hfits),
    hss, hshort, hbefore]
  exact Slice.representable_shorten_iff hfits hstep

end Lists

end Region

end Gridded
