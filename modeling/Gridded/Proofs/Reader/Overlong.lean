import Gridded.Proofs.Reader.Success
import Gridded.Proofs.Region.Overlong
import Mathlib

namespace Gridded

namespace Reader

section Agreeing

variable {ι : Type} [Input ι] {c : Contents} {k : ElementKind} {r : Reader} {ss ts : List Slice}

theorem values_eq_of_agrees {origin : Nat} (hss : ∀ s ∈ ss, s.Fits) (hts : ∀ t ∈ ts, t.Fits)
    (h : List.Forall₂ Slice.Agrees ss ts) {p q : Progress k}
    (hp : runsOf c k origin (Region.Partial.along ss).toRegion = .ok p)
    (hq : runsOf c k origin (Region.Partial.along ts).toRegion = .ok q) : p.values = q.values := by
  apply Array.toList_inj.1
  rw [(runsOf_eq_ok hss hp).2, (runsOf_eq_ok hts hq).2, Region.visits_eq_of_agrees hss hts h]

theorem Gives.of_agrees [FaithfulInput ι] {i i' : ι} {elements : Elements}
    (hread : r.Gives (Region.Partial.along ss).toRegion i elements) (hss : ∀ s ∈ ss, s.Fits)
    (hts : ∀ t ∈ ts, t.Fits) (h : List.Forall₂ Slice.Agrees ss ts)
    (hf : ∀ e, ¬FaithfulInput.Fails ι e) (hi : FaithfulInput.Over c i)
    (hi' : FaithfulInput.Over c i') (hsize : c.bytes.size ≤ wordLimit) :
    ¬(Region.Partial.along ss).IdleStride r.dataSize ∧
      (¬(Region.Partial.along ts).IdleStride r.dataSize →
        r.Gives (Region.Partial.along ts).toRegion i' elements) := by
  obtain ⟨p, hp, rfl⟩ := (gives_iff hf hi (Region.runLength_pos hss)).1 hread
  obtain ⟨hstored, hidle⟩ := (exists_runsOf_eq_ok_iff hss hsize).1 ⟨p, hp⟩
  refine ⟨hidle, fun hidle' => ?_⟩
  rw [Region.selectedOffsets_eq_of_agrees hss hts h] at hstored
  obtain ⟨q, hq⟩ := (exists_runsOf_eq_ok_iff hts hsize).2 ⟨hstored, hidle'⟩
  rw [values_eq_of_agrees hss hts h hp hq]
  exact (gives_iff hf hi' (Region.runLength_pos hts)).2 ⟨q, hq, rfl⟩

theorem gives_iff_of_agrees [FaithfulInput ι] {i i' : ι} (hss : ∀ s ∈ ss, s.Fits)
    (hts : ∀ t ∈ ts, t.Fits) (h : List.Forall₂ Slice.Agrees ss ts)
    (hf : ∀ e, ¬FaithfulInput.Fails ι e) (hi : FaithfulInput.Over c i)
    (hi' : FaithfulInput.Over c i') (hsize : c.bytes.size ≤ wordLimit) (elements : Elements) :
    r.Gives (Region.Partial.along ss).toRegion i elements ∧
        ¬(Region.Partial.along ts).IdleStride r.dataSize ↔
      r.Gives (Region.Partial.along ts).toRegion i' elements ∧
        ¬(Region.Partial.along ss).IdleStride r.dataSize := by
  constructor
  · rintro ⟨hread, hidle⟩
    obtain ⟨hidle', hread'⟩ := hread.of_agrees hss hts h hf hi hi' hsize
    exact ⟨hread' hidle, hidle'⟩
  · rintro ⟨hread, hidle⟩
    obtain ⟨hidle', hread'⟩ :=
      hread.of_agrees hts hss (Slice.forall₂_agrees_symm h) hf hi' hi hsize
    exact ⟨hread' hidle, hidle'⟩

theorem Gives.eq_of_agrees [FaithfulInput ι] {i i' : ι} {elements elements' : Elements}
    (hread : r.Gives (Region.Partial.along ss).toRegion i elements)
    (hread' : r.Gives (Region.Partial.along ts).toRegion i' elements') (hss : ∀ s ∈ ss, s.Fits)
    (hts : ∀ t ∈ ts, t.Fits) (h : List.Forall₂ Slice.Agrees ss ts) (hi : FaithfulInput.Over c i)
    (hi' : FaithfulInput.Over c i') : elements = elements' := by
  obtain ⟨j, hj⟩ := hread
  obtain ⟨j', hj'⟩ := hread'
  obtain ⟨p, hp, rfl⟩ := exists_runs_of_read hj
  obtain ⟨q, hq, rfl⟩ := exists_runs_of_read hj'
  have hfollows := readRuns_follows hi (Region.runLength_pos hss) r.kind r.origin
  have hfollows' := readRuns_follows hi' (Region.runLength_pos hts) r.kind r.origin
  rw [values_eq_of_agrees hss hts h (hfollows.of_run_eq_ok hp).2 (hfollows'.of_run_eq_ok hq).2]

end Agreeing

section Seeks

variable {ι : Type} [Input ι] {i i' : ι} {r : Reader} {elements elements' : Elements} {n n' : Nat}

def GivesAfter (r : Reader) (region : Region) (i : ι) (elements : Elements) (seeks : Nat) : Prop :=
  ∃ m : Metered ι, ((r.read region).run.run ({ input := i } : Metered ι)).result =
    (.ok elements, m) ∧ m.seeks = seeks

theorem GivesAfter.mul_runLength {region : Region} (h : r.GivesAfter region i elements n)
    (hs : region.Selected) : n * region.runLength = region.length := by
  obtain ⟨m, hread, rfl⟩ := h
  obtain ⟨p, hp, -⟩ := exists_runs_of_read hread
  rw [((readRuns_metered _ _ _ i).of_run_eq_ok hp).1]
  exact (runs_of_readRuns hs hp).2.1

theorem GivesAfter.eq_one_iff {sizes lowers uppers steps : List Nat} {region : Region}
    (h : r.GivesAfter region i elements n)
    (hs : Region.select sizes lowers uppers steps = .ok region)
    (hall : ∀ q < sizes.prod,
      q ∈ Region.selectedOffsets (Slice.ofLists sizes lowers uppers steps)) :
    n = 1 ↔ (Slice.ofLists sizes lowers uppers steps).Pairwise fun s t =>
      1 < s.step → t.size = 1 := by
  have hseeks := h.mul_runLength ⟨_, _, _, _, hs⟩
  obtain ⟨hsizes, hfits, rfl⟩ := Region.eq_along_of_select hs
  have hcount := Region.count_eq_size_of_forall_mem hfits fun q hq => hall q (by rwa [← hsizes])
  have hpos := Region.runLength_pos hfits
  rw [Region.Partial.length_along, List.map_congr_left hcount] at hseeks
  rw [← Slice.runLength_eq_prod_iff hfits hcount, ← Region.Partial.runLength_along hfits, ← hseeks]
  constructor
  · intro hone
    rw [hone, Nat.one_mul]
  · intro hlength
    exact Nat.eq_of_mul_eq_mul_right hpos (hlength.symm.trans (Nat.one_mul _).symm)

theorem GivesAfter.eq_of_shorten {before after : List Slice} {s : Slice}
    (h : r.GivesAfter (Region.Partial.along (before ++ s :: after)).toRegion i elements n)
    (h' : r.GivesAfter (Region.Partial.along (before ++ s.shorten :: after)).toRegion i' elements'
      n')
    (hs : (Region.Partial.along (before ++ s :: after)).Selected)
    (hs' : (Region.Partial.along (before ++ s.shorten :: after)).Selected)
    (hfits : ∀ t ∈ before ++ s :: after, t.Fits) (hstep : s.extent ≤ s.step) :
    (Slice.Cuts before s → n = n' * Slice.runLength after) ∧ (¬Slice.Cuts before s → n = n') := by
  have hseeks := h.mul_runLength hs
  have hseeks' := h'.mul_runLength hs'
  have hpos := Region.runLength_pos hfits
  have hsFits : s.Fits := hfits s (by simp)
  rw [Region.Partial.length_along, Slice.map_count_eq (Slice.forall₂_agrees_shorten hfits hstep),
    ← Region.Partial.length_along, ← hseeks',
    Region.Partial.runLength_along (Slice.forall_fits_shorten hfits)] at hseeks
  rw [Region.Partial.runLength_along hfits] at hseeks hpos
  constructor
  · intro hcuts
    rw [hcuts.runLength_shorten hsFits, Nat.mul_comm (Slice.runLength _), ← Nat.mul_assoc] at hseeks
    exact Nat.eq_of_mul_eq_mul_right hpos hseeks
  · intro hcuts
    rw [Slice.runLength_shorten_of_not_cuts hcuts hsFits hstep] at hseeks
    exact Nat.eq_of_mul_eq_mul_right hpos hseeks

end Seeks

/--
What shortening a step to the extent of its dimension changes, if it is not shorter than that. The
elements are the same. But the step is no longer a number to represent, a stride that leads nowhere
may come or go, and a run that the step cut off goes on. If all elements are selected, one seek is
enough exactly if no step of more than one comes before a dimension of several indices.
-/
theorem overlong_step {sizes lowers uppers steps : List Nat}
    (hlengths : lowers.length = sizes.length ∧ uppers.length = sizes.length ∧
      steps.length = sizes.length)
    (hfits : ∀ s ∈ Slice.ofLists sizes lowers uppers steps, s.Fits) :
    (∀ before s after, Slice.ofLists sizes lowers uppers steps = before ++ s :: after →
      s.upper - s.lower ≤ s.step →
        let shortened := steps.set before.length (s.upper - s.lower)
        ((∃ region, Region.select sizes lowers uppers steps = .ok region) ↔
          (∃ region, Region.select sizes lowers uppers shortened = .ok region) ∧
            s.step * (sizes.take before.length).prod < wordLimit) ∧
        ∀ region region', Region.select sizes lowers uppers steps = .ok region →
          Region.select sizes lowers uppers shortened = .ok region' →
          ∀ (r : Reader) (ι : Type) [Input ι] [FaithfulInput ι] (c : Contents) (i i' : ι),
            FaithfulInput.Over c i → FaithfulInput.Over c i' →
              ((∀ e, ¬FaithfulInput.Fails ι e) → c.bytes.size ≤ wordLimit → ∀ elements,
                (r.Gives region i elements ∧ ¬region'.IdleStride r.dataSize ↔
                  r.Gives region' i' elements ∧ ¬region.IdleStride r.dataSize)) ∧
              ∀ elements elements' n n', r.GivesAfter region i elements n →
                r.GivesAfter region' i' elements' n' →
                  elements = elements' ∧
                    (Slice.Cuts before s → n = n' * Slice.runLength after) ∧
                    (¬Slice.Cuts before s → n = n')) ∧
      ∀ region, Region.select sizes lowers uppers steps = .ok region →
        (∀ q < sizes.prod,
          q ∈ Region.selectedOffsets (Slice.ofLists sizes lowers uppers steps)) →
        ∀ (r : Reader) (ι : Type) [Input ι] (i : ι) elements n,
          r.GivesAfter region i elements n →
            (n = 1 ↔ (Slice.ofLists sizes lowers uppers steps).Pairwise fun s t =>
              1 < s.step → t.size = 1) := by
  constructor
  · intro before s after hss hstep shortened
    have hold : ∀ t ∈ before ++ s :: after, t.Fits := hss ▸ hfits
    have hshort : Slice.ofLists sizes lowers uppers shortened = before ++ s.shorten :: after :=
      Slice.ofLists_set hss _
    have hnew := Slice.forall_fits_shorten hold
    have hagrees := Slice.forall₂_agrees_shorten hold hstep
    refine ⟨Region.exists_select_iff_shorten hlengths hss hold hstep, ?_⟩
    intro region region' hregion hregion' r ι _ _ c i i' hi hi'
    have hs : region.Selected := ⟨_, _, _, _, hregion⟩
    have hs' : region'.Selected := ⟨_, _, _, _, hregion'⟩
    obtain ⟨-, -, rfl⟩ := Region.eq_along_of_select hregion
    obtain ⟨-, -, rfl⟩ := Region.eq_along_of_select hregion'
    rw [hss] at hs ⊢
    rw [hshort] at hs' ⊢
    constructor
    · intro hf hsize elements
      exact gives_iff_of_agrees hold hnew hagrees hf hi hi' hsize elements
    · intro elements elements' n n' h h'
      refine ⟨?_, h.eq_of_shorten h' hs hs' hold hstep⟩
      obtain ⟨m, hm, -⟩ := h
      obtain ⟨m', hm', -⟩ := h'
      exact Gives.eq_of_agrees ⟨m, hm⟩ ⟨m', hm'⟩ hold hnew hagrees hi hi'
  · intro region hregion hall r ι _ i elements n h
    exact h.eq_one_iff hregion hall

theorem overlong_step_row :
    let m : Memory := { name := "row", order := .big, bytes := #[1, 2, 3] }
    let r : Reader := ⟨.byte, 0⟩
    ∃ region region', Region.select [1, 3] [0, 0] [1, 3] [2, 1] = .ok region ∧
      Region.select [1, 3] [0, 0] [1, 3] [1, 1] = .ok region' ∧
      (∃ elements, r.GivesAfter region m elements 3) ∧
      ∀ elements elements' n n', r.GivesAfter region m elements n →
        r.GivesAfter region' m elements' n' → elements = elements' ∧ n = n' * 3 := by
  intro m r
  have hs : Region.select [1, 3] [0, 0] [1, 3] [2, 1] = .ok _ := rfl
  have hs' : Region.select [1, 3] [0, 0] [1, 3] [1, 1] = .ok _ := rfl
  obtain ⟨-, hfits, -⟩ := Region.eq_along_of_select hs
  have hlengths : [0, 0].length = [1, 3].length ∧ [1, 3].length = [1, 3].length ∧
      [2, 1].length = [1, 3].length := ⟨rfl, rfl, rfl⟩
  obtain ⟨-, hreads⟩ :=
    (overlong_step hlengths hfits).1 [] ⟨1, 0, 1, 2⟩ [⟨3, 0, 3, 1⟩] rfl (by decide)
  have hover : FaithfulInput.Over ⟨m.name, m.order, m.bytes⟩ m := ⟨m.position, rfl⟩
  obtain ⟨-, hseeks⟩ := hreads _ _ hs hs' r Memory _ m m hover hover
  refine ⟨_, _, hs, hs', ⟨_, _, rfl, rfl⟩, ?_⟩
  intro elements elements' n n' h h'
  obtain ⟨heq, hcuts, -⟩ := hseeks elements elements' n n' h h'
  exact ⟨heq, hcuts ⟨nofun, rfl, by decide⟩⟩

theorem overlong_step_not_harmless :
    let m : Memory := { name := "m", order := .big, bytes := #[1, 2, 3] }
    let r : Reader := ⟨.byte, 0⟩
    ((∃ region, Region.select [2, 1] [0, 0] [2, 1] [1, 1] = .ok region) ∧
      ∀ region, Region.select [2, 1] [0, 0] [2, 1] [1, 2 ^ 63] ≠ .ok region) ∧
      ∃ region region', Region.select [1, 3] [0, 0] [1, 3] [2, 1] = .ok region ∧
        Region.select [1, 3] [0, 0] [1, 3] [1, 1] = .ok region' ∧
        (∀ q < 3, q ∈ Region.selectedOffsets (Slice.ofLists [1, 3] [0, 0] [1, 3] [2, 1])) ∧
        (∃ elements, r.GivesAfter region m elements 3) ∧
        ∃ elements, r.GivesAfter region' m elements 1 := by
  intro m r
  refine ⟨⟨⟨_, rfl⟩, ?_⟩, ?_⟩
  · intro region h
    obtain ⟨-, -, ⟨hstep, -⟩, -⟩ := Region.select_eq_ok_iff.1 h
    exact absurd (hstep 1 _ rfl) (by decide)
  · have hs : Region.select [1, 3] [0, 0] [1, 3] [2, 1] = .ok _ := rfl
    obtain ⟨-, hfits, -⟩ := Region.eq_along_of_select hs
    refine ⟨_, _, hs, rfl, ?_, ⟨_, _, rfl, rfl⟩, ⟨_, _, rfl, rfl⟩⟩
    intro q hq
    rw [← Region.mem_visits_iff hfits]
    exact List.mem_range.2 hq

end Reader

end Gridded
