import Gridded.Proofs.Region.Selection
import Gridded.Proofs.Word
import Mathlib

namespace Gridded

theorem Except.mapError_bind {ε ε' α β : Type} (g : ε → ε') (x : Except ε α) (f : α → Except ε β) :
    (x >>= f).mapError g = x.mapError g >>= fun a => (f a).mapError g := by
  cases x <;> rfl

namespace Region

def Partial.pushInWords (r : Partial) (s : Slice) : Except (Failure RegionError) Partial := do
  (s.check r.counts.length).mapError .reported
  let extent ← Word.sub s.upper s.lower
  let count := (extent + s.step - 1) / s.step
  let step ← (represent "region stride" (s.step * r.stride)).mapError .reported
  let skip ← Word.sub (← Word.sub step r.span) 1
  let last ← Word.sub count 1
  let span ← (represent "region span" (last * step + r.span)).mapError .reported
  let start ← (represent "region start offset" (s.lower * r.stride + r.start)).mapError .reported
  let length ← (represent "region length" (r.length * count)).mapError .reported
  let stride ← (represent "variable length" (r.stride * s.size)).mapError .reported
  return { counts := r.counts ++ [count], skips := r.skips ++ [skip], start, length, stride, span }

theorem mapError_represent_bind {α : Type} {quantity : String} {n : Nat}
    {f : Nat → Except (Failure RegionError) α} {g : Nat → Except RegionError α}
    (h : f n = (g n).mapError .reported) :
    (represent quantity n).mapError .reported >>= f =
      (represent quantity n >>= g).mapError .reported := by
  unfold represent
  split
  · exact h
  · rfl

theorem Partial.pushInWords_eq {r : Partial} (h : r.span < r.stride) (s : Slice) :
    r.pushInWords s = (r.push s).mapError .reported := by
  unfold pushInWords push
  rw [Except.mapError_bind]
  rcases hc : s.check r.counts.length with e | ⟨⟩
  · rfl
  · have hs := Slice.check_eq_ok_iff.1 hc
    have hlower := hs.lower_lt_upper
    have hstep := Nat.le_mul_of_pos_left r.stride hs.step_pos
    have hcount : 1 ≤ (s.upper - s.lower + s.step - 1) / s.step := hs.count_pos
    rw [Word.sub_eq_pure (Nat.le_of_lt hlower)]
    simp only [quantities, List.mapM_cons, List.mapM_nil, bind_assoc, pure_bind]
    apply mapError_represent_bind
    rw [Word.sub_eq_pure (by omega), pure_bind, Word.sub_eq_pure (by omega), pure_bind,
      Word.sub_eq_pure hcount, pure_bind]
    apply mapError_represent_bind
    apply mapError_represent_bind
    apply mapError_represent_bind
    apply mapError_represent_bind
    rfl

theorem Partial.foldlM_pushInWords_eq {r : Partial} (h : r.span < r.stride) (ss : List Slice) :
    ss.foldlM pushInWords r = (ss.foldlM push r).mapError .reported := by
  induction ss generalizing r with
  | nil => rfl
  | cons s ss ih =>
    rw [List.foldlM_cons, List.foldlM_cons, Except.mapError_bind, pushInWords_eq h]
    rcases hpush : r.push s with e | r'
    · rfl
    · obtain ⟨hs, -, rfl⟩ := push_eq_ok_iff.1 hpush
      exact ih (span_add_lt_stride_next (d := 0) hs h)

def selectInWords (sizes lowers uppers steps : List Nat) : Except (Failure RegionError) Region :=
  match [lowers, uppers, steps].find? (·.length ≠ sizes.length) with
  | some list => .error (.reported (.dimensionality list.length sizes.length))
  | none => do
    let r ← (Slice.ofLists sizes lowers uppers steps).foldlM Partial.pushInWords .point
    return r.toRegion

theorem selectInWords_eq (sizes lowers uppers steps : List Nat) :
    selectInWords sizes lowers uppers steps =
      (select sizes lowers uppers steps).mapError .reported := by
  have hpoint : Partial.point.span < Partial.point.stride := Nat.one_pos
  unfold selectInWords select
  generalize List.find? _ [lowers, uppers, steps] = found
  cases found with
  | none =>
    simp only [ofSlices, Except.mapError_bind, Partial.foldlM_pushInWords_eq hpoint]
    rfl
  | some list => rfl

section RunLength

variable {ε : Type} {m : Type → Type} [Monad m] [MonadExcept (Failure ε) m] {region : Region}

def runLengthInWords (region : Region) : m Nat :=
  (region.counts.take region.runDimensions).foldlM Word.mul 1

theorem Selected.length_lt (h : region.Selected) : region.length < wordLimit := by
  obtain ⟨sizes, lowers, uppers, steps, h⟩ := h
  obtain ⟨-, hfits, ⟨-, hsize⟩, rfl⟩ := select_eq_ok_iff.1 h
  rw [← Partial.stride_along] at hsize
  exact Nat.lt_of_le_of_lt (Partial.length_le_stride hfits) hsize

theorem Selected.count_pos (h : region.Selected) {n : Nat} (hn : n ∈ region.counts) : 0 < n := by
  obtain ⟨ss, hss, rfl⟩ := h.eq_along
  exact count_pos_of_mem hss hn

theorem Selected.count_le_length (h : region.Selected) {n : Nat} (hn : n ∈ region.counts) :
    n ≤ region.length := by
  rw [← h.prod_counts]
  exact Nat.le_of_dvd (List.prod_pos fun _ hm => h.count_pos hm) (List.dvd_prod hn)

theorem Selected.runLengthInWords_eq [LawfulMonad m] (h : region.Selected) :
    (region.runLengthInWords : m Nat) = pure region.runLength := by
  have hpos : 0 < (region.counts.drop region.runDimensions).prod :=
    List.prod_pos fun _ hn => h.count_pos (List.mem_of_mem_drop hn)
  have hle := Nat.le_mul_of_pos_left region.runLength hpos
  rw [region.prod_drop_mul_runLength, h.prod_counts] at hle
  have hlt := Nat.lt_of_le_of_lt hle h.length_lt
  rw [← Nat.one_mul region.runLength] at hlt ⊢
  exact Word.foldlM_mul_eq_pure (fun n hn => h.count_pos (List.mem_of_mem_take hn)) hlt

end RunLength

end Region

end Gridded
