import Gridded.Proofs.Region.Extent
import Gridded.Proofs.Region.Odometer
import Mathlib

namespace Gridded

/-- Turn `n` is along dimension `d`: rounds of all dimensions before it are complete, not of it. -/
structure TurnAlong (counts : List Nat) (n d : Nat) : Prop where
  dvd : (counts.take d).prod ∣ n
  not_dvd : ¬(counts.take (d + 1)).prod ∣ n

namespace TurnAlong

variable {counts : List Nat} {n d e : Nat}

theorem prod_take_dvd (h : TurnAlong counts n d) (hle : e ≤ d) : (counts.take e).prod ∣ n :=
  ((List.take_prefix_take_left hle).sublist.prod_dvd_prod).trans h.dvd

theorem le_of_dvd (h : TurnAlong counts n d) (he : (counts.take e).prod ∣ n) : e ≤ d := by
  by_contra hlt
  exact h.not_dvd (((List.take_prefix_take_left (by omega)).sublist.prod_dvd_prod).trans he)

end TurnAlong

namespace Odometer

variable {laps : List Lap} {ns ms : List Nat} {gap : Nat}

theorem valid_iff : Valid laps ns ↔ List.Forall₂ (· < ·) ns (laps.map Lap.count) := by
  rw [List.forall₂_map_right_iff]
  exact ⟨List.Forall₂.flip, List.Forall₂.flip⟩

theorem offsetIn_zeros (laps : List Lap) : offsetIn (laps.map Lap.count) (zeros laps) = 0 := by
  induction laps with
  | nil => rfl
  | cons lap laps ih => rw [zeros, List.map_cons, List.map_cons, offsetIn_cons, ← zeros, ih]; rfl

theorem offsetIn_of_turn (h : Valid laps ns) (hturn : turn laps ns = some (gap, ms)) :
    offsetIn (laps.map Lap.count) ms = offsetIn (laps.map Lap.count) ns + 1 := by
  induction h generalizing ms with
  | nil => cases hturn
  | @cons lap n laps ns hn _ ih =>
    obtain ⟨-, -, rfl⟩ | ⟨hle, rest, hrest, rfl⟩ := turn_cons_eq_some_iff.1 hturn
    · rw [List.map_cons, offsetIn_cons, offsetIn_cons, Nat.add_right_comm]
    · rw [List.map_cons, offsetIn_cons, offsetIn_cons, ih hrest, Nat.mul_add_one]
      omega

theorem offsetIn_of_turn_eq_none (h : Valid laps ns) (hturn : turn laps ns = none) :
    offsetIn (laps.map Lap.count) ns + 1 = (laps.map Lap.count).prod := by
  induction h with
  | nil => rfl
  | @cons lap n laps ns hn _ ih =>
    obtain ⟨hle, hrest⟩ := turn_cons_eq_none_iff.1 hturn
    rw [List.map_cons, offsetIn_cons, List.prod_cons, ← ih hrest, Nat.mul_add_one]
    omega

theorem exists_turnAlong (h : Valid laps ns) (hturn : turn laps ns = some (gap, ms)) :
    ∃ d lap, laps[d]? = some lap ∧ lap.gap = gap ∧
      TurnAlong (laps.map Lap.count) (offsetIn (laps.map Lap.count) ms) d := by
  induction h generalizing ms with
  | nil => cases hturn
  | @cons lap n laps ns hn _ ih =>
    obtain ⟨hlt, rfl, rfl⟩ | ⟨-, rest, hrest, rfl⟩ := turn_cons_eq_some_iff.1 hturn
    · refine ⟨0, lap, rfl, rfl, Nat.one_dvd _, ?_⟩
      rw [List.map_cons, offsetIn_cons, List.take_succ_cons, List.take_zero, List.prod_singleton,
        Nat.dvd_add_left (Nat.dvd_mul_right _ _)]
      exact Nat.not_dvd_of_pos_of_lt (Nat.succ_pos n) hlt
    · obtain ⟨d, outer, hd, hgap, halong⟩ := ih hrest
      refine ⟨d + 1, outer, hd, hgap, ?_, ?_⟩
      · rw [List.map_cons, offsetIn_cons, List.take_succ_cons, List.prod_cons, Nat.zero_add]
        exact Nat.mul_dvd_mul_left _ halong.dvd
      · rw [List.map_cons, offsetIn_cons, List.take_succ_cons, List.prod_cons, Nat.zero_add,
          Nat.mul_dvd_mul_iff_left (Nat.zero_lt_of_lt hn)]
        exact halong.not_dvd

end Odometer

namespace Region

def dials (r : Region) : List Lap :=
  List.zipWith (fun count skip => ⟨count, skip + 1⟩) r.counts r.skips

def visit? (r : Region) : Nat → Option (List Nat × Nat)
  | 0 => some (Odometer.zeros r.dials, r.start)
  | n + 1 => (r.visit? n).bind fun (ns, place) =>
      (Odometer.turn r.dials ns).map fun (gap, ns) => (ns, place + gap)

def offset? (r : Region) (n : Nat) : Option Nat := (r.visit? n).map Prod.snd

theorem offset?_zero (r : Region) : r.offset? 0 = some r.start := rfl

theorem reverse_elementLaps (r : Region) : r.elementLaps.reverse = r.dials :=
  List.reverse_reverse _

theorem visit?_succ_eq_some_iff {r : Region} {n q : Nat} {ms : List Nat} :
    r.visit? (n + 1) = some (ms, q) ↔ ∃ ns p gap, r.visit? n = some (ns, p) ∧
      Odometer.turn r.dials ns = some (gap, ms) ∧ p + gap = q := by
  rw [visit?, Option.bind_eq_some_iff]
  simp only [Prod.exists, Option.map_eq_some_iff, Prod.mk.injEq]
  constructor
  · rintro ⟨ns, p, hp, gap, _, hturn, rfl, rfl⟩
    exact ⟨ns, p, gap, hp, hturn, rfl⟩
  · rintro ⟨ns, p, gap, hp, hturn, rfl⟩
    exact ⟨ns, p, hp, gap, ms, hturn, rfl, rfl⟩

theorem offset?_of_tour {r : Region} {ns places : List Nat} {place stop m : Nat}
    (t : Odometer.Tour r.dials ns place places stop) (hm : r.visit? m = some (ns, place))
    {n q : Nat} (hq : places[n]? = some q) : r.offset? (m + n) = some q := by
  induction t generalizing m n with
  | last hturn =>
    cases n with
    | zero => rw [← hq, Nat.add_zero, offset?, hm]; rfl
    | succ n => cases hq
  | next hturn _ ih =>
    cases n with
    | zero => rw [← hq, Nat.add_zero, offset?, hm]; rfl
    | succ n =>
      rw [← Nat.add_assoc, Nat.add_right_comm]
      exact ih (visit?_succ_eq_some_iff.2 ⟨_, _, _, hm, hturn, rfl⟩) hq

theorem getElem?_dials {r : Region} {d : Nat} {lap : Lap} (h : r.dials[d]? = some lap) :
    ∃ k, r.skips[d]? = some k ∧ lap.gap = k + 1 := by
  rw [dials, List.getElem?_zipWith_eq_some] at h
  obtain ⟨_, k, -, hk, rfl⟩ := h
  exact ⟨k, hk, rfl⟩

section Selected

variable {region : Region} {n p q : Nat} {ns : List Nat} (h : region.Selected)

include h

theorem Selected.map_count_dials : region.dials.map Lap.count = region.counts := by
  obtain ⟨ss, -, rfl⟩ := h.eq_along
  rw [← reverse_elementLaps, List.map_reverse, Partial.map_count_elementLaps, List.reverse_reverse,
    Partial.counts_along]

theorem Selected.count_pos_of_mem_elementLaps : ∀ lap ∈ region.elementLaps, 0 < lap.count := by
  obtain ⟨ss, hss, rfl⟩ := h.eq_along
  exact fun _ hlap => Region.count_pos_of_mem_elementLaps hss hlap

theorem Selected.valid_of_visit? (hvisit : region.visit? n = some (ns, p)) :
    Odometer.Valid region.dials ns ∧ offsetIn region.counts ns = n := by
  induction n generalizing ns p with
  | zero =>
    cases hvisit
    constructor
    · refine Odometer.valid_zeros fun lap hlap => h.count_pos_of_mem_elementLaps lap ?_
      rwa [← List.mem_reverse, reverse_elementLaps]
    · rw [← h.map_count_dials, Odometer.offsetIn_zeros]
  | succ n ih =>
    obtain ⟨ms, q, gap, hvisit, hturn, -⟩ := visit?_succ_eq_some_iff.1 hvisit
    obtain ⟨hvalid, hn⟩ := ih hvisit
    refine ⟨hvalid.turn hturn, ?_⟩
    rw [← h.map_count_dials, Odometer.offsetIn_of_turn hvalid hturn, h.map_count_dials, hn]

theorem Selected.forall₂_lt_of_visit? (hvisit : region.visit? n = some (ns, p)) :
    List.Forall₂ (· < ·) ns region.counts := by
  rw [← h.map_count_dials, ← Odometer.valid_iff]
  exact (h.valid_of_visit? hvisit).1

theorem Selected.isSome_visit?_iff : (region.visit? n).isSome ↔ n < region.length := by
  rw [← h.prod_counts]
  constructor
  · intro hsome
    obtain ⟨⟨ns, p⟩, hvisit⟩ := Option.isSome_iff_exists.1 hsome
    rw [← (h.valid_of_visit? hvisit).2]
    exact offsetIn_lt (h.forall₂_lt_of_visit? hvisit)
  · intro hn
    induction n with
    | zero => rfl
    | succ n ih =>
      obtain ⟨⟨ns, p⟩, hvisit⟩ := Option.isSome_iff_exists.1 (ih (Nat.lt_of_succ_lt hn))
      obtain ⟨hvalid, hcount⟩ := h.valid_of_visit? hvisit
      cases hturn : Odometer.turn region.dials ns with
      | none =>
        have hlast := Odometer.offsetIn_of_turn_eq_none hvalid hturn
        rw [h.map_count_dials, hcount] at hlast
        omega
      | some turned =>
        exact Option.isSome_iff_exists.2
          ⟨_, visit?_succ_eq_some_iff.2 ⟨ns, p, turned.1, hvisit, hturn, rfl⟩⟩

theorem Selected.isSome_offset?_iff : (region.offset? n).isSome ↔ n < region.length := by
  rw [offset?, Option.isSome_map, h.isSome_visit?_iff]

theorem Selected.offset?_eq (n : Nat) : region.offset? n = region.visits[n]? := by
  have hlength : region.visits.length = region.length := by
    obtain ⟨ss, -, rfl⟩ := h.eq_along
    rw [length_visits, Partial.length_along]
  rcases Nat.lt_or_ge n region.length with hn | hn
  · have hplace := List.getElem?_eq_getElem (hlength ▸ hn)
    have htour := Odometer.tour_places h.count_pos_of_mem_elementLaps region.start
    rw [reverse_elementLaps] at htour
    rw [hplace, ← offset?_of_tour (m := 0) htour rfl hplace, Nat.zero_add]
  · rw [List.getElem?_eq_none (hlength ▸ hn), ← Option.not_isSome_iff_eq_none,
      h.isSome_offset?_iff]
    exact Nat.not_lt_of_le hn

theorem Selected.offset?_lt_offset? {m : Nat} (hp : region.offset? m = some p)
    (hq : region.offset? n = some q) (hmn : m < n) : p < q := by
  have hgap : ∀ lap ∈ region.elementLaps, 0 < lap.gap := by
    intro lap hlap
    rw [← List.mem_reverse, reverse_elementLaps] at hlap
    obtain ⟨d, hd⟩ := List.mem_iff_getElem?.1 hlap
    obtain ⟨k, -, hk⟩ := getElem?_dials hd
    omega
  rw [h.offset?_eq, List.getElem?_eq_some_iff] at hp hq
  obtain ⟨hm, rfl⟩ := hp
  obtain ⟨hn, rfl⟩ := hq
  exact List.pairwise_iff_getElem.1 (Walk.pairwise_places hgap _) m n hm hn hmn

theorem Selected.exists_skip_of_offset?_succ (hp : region.offset? n = some p)
    (hq : region.offset? (n + 1) = some q) :
    ∃ d k, region.skips[d]? = some k ∧ TurnAlong region.counts (n + 1) d ∧ q = p + (k + 1) := by
  obtain ⟨⟨ms, _⟩, hnext, rfl⟩ := Option.map_eq_some_iff.1 hq
  obtain ⟨ns, p', gap, hvisit, hturn, rfl⟩ := visit?_succ_eq_some_iff.1 hnext
  obtain rfl : p' = p := by
    rw [offset?, hvisit] at hp
    exact Option.some.inj hp
  obtain ⟨d, lap, hd, rfl, halong⟩ := Odometer.exists_turnAlong (h.valid_of_visit? hvisit).1 hturn
  rw [h.map_count_dials, (h.valid_of_visit? hnext).2] at halong
  obtain ⟨k, hk, hgap⟩ := getElem?_dials hd
  exact ⟨d, k, hk, halong, by rw [hgap]⟩

theorem Selected.offset?_succ_of_not_dvd (hp : region.offset? n = some p)
    (hn : n + 1 < region.length) (hrun : ¬region.runLength ∣ n + 1) :
    region.offset? (n + 1) = some (p + 1) := by
  obtain ⟨q, hq⟩ := Option.isSome_iff_exists.1 (h.isSome_offset?_iff.2 hn)
  obtain ⟨d, k, hk, halong, rfl⟩ := h.exists_skip_of_offset?_succ hp hq
  have hd : d < region.runDimensions := by
    by_contra hge
    exact hrun (halong.prod_take_dvd (Nat.le_of_not_lt hge))
  rw [hq, (skip_eq_zero_iff_of_le hk (Nat.le_of_lt hd)).2 hd]

variable {k i c : Nat}

theorem Selected.run_le_length (hk : k * region.runLength < region.length) :
    k * region.runLength + region.runLength ≤ region.length := by
  rw [← h.prod_counts, ← prod_drop_mul_runLength] at hk ⊢
  rw [← Nat.add_one_mul]
  exact Nat.mul_le_mul_right _ (Nat.lt_of_mul_lt_mul_right hk)

theorem Selected.offset?_run (hp : region.offset? (k * region.runLength) = some p)
    (hi : i < region.runLength) : region.offset? (k * region.runLength + i) = some (p + i) := by
  have hrun := h.run_le_length (h.isSome_offset?_iff.1 (Option.isSome_of_eq_some hp))
  induction i with
  | zero => exact hp
  | succ i ih =>
    have hlt : k * region.runLength + i + 1 < region.length := by omega
    rw [← Nat.add_assoc, ← Nat.add_assoc]
    refine h.offset?_succ_of_not_dvd (ih (Nat.lt_of_succ_lt hi)) hlt ?_
    rw [Nat.add_assoc, Nat.dvd_add_right (Nat.dvd_mul_left _ _)]
    exact Nat.not_dvd_of_pos_of_lt (Nat.succ_pos i) hi

theorem Selected.offset?_first_run (hi : i < region.runLength) :
    region.offset? i = some (region.start + i) := by
  simpa using h.offset?_run (k := 0) (by rw [Nat.zero_mul, region.offset?_zero]) hi

omit h in
theorem prod_take_runDimensions_succ (hc : region.counts[region.runDimensions]? = some c) :
    (region.counts.take (region.runDimensions + 1)).prod = region.runLength * c := by
  rw [List.take_add_one, hc, List.prod_append]
  exact congrArg _ List.prod_singleton

theorem Selected.eq_runDimensions_of_turnAlong {d : Nat}
    (hc : region.counts[region.runDimensions]? = some c) (hone : 1 < c)
    (halong : TurnAlong region.counts region.runLength d) : d = region.runDimensions := by
  have hpos := h.runLength_pos
  refine Nat.le_antisymm ?_ (halong.le_of_dvd (Nat.dvd_refl _))
  by_contra hlt
  have hdvd := halong.prod_take_dvd (Nat.lt_of_not_le hlt)
  rw [prod_take_runDimensions_succ hc] at hdvd
  exact Nat.not_dvd_of_pos_of_lt hpos ((Nat.lt_mul_iff_one_lt_right hpos).2 hone) hdvd

theorem Selected.runLength_lt_length (hc : region.counts[region.runDimensions]? = some c)
    (hone : 1 < c) : region.runLength < region.length := by
  have hlong := (Nat.lt_mul_iff_one_lt_right h.runLength_pos).2 hone
  refine hlong.trans_le (Nat.le_of_dvd ?_ ?_)
  · exact h.isSome_offset?_iff.1 (Option.isSome_of_eq_some region.offset?_zero)
  · rw [← prod_take_runDimensions_succ hc, ← h.prod_counts]
    exact (List.take_sublist _ _).prod_dvd_prod

theorem Selected.exists_offset?_runLength (hc : region.counts[region.runDimensions]? = some c)
    (hone : 1 < c) :
    ∃ q, region.offset? region.runLength = some q ∧ region.start + region.runLength < q := by
  obtain ⟨q, hq⟩ :=
    Option.isSome_iff_exists.1 (h.isSome_offset?_iff.2 (h.runLength_lt_length hc hone))
  obtain ⟨n, hn⟩ := Nat.exists_eq_add_one.2 h.runLength_pos
  have hlast : region.offset? n = some (region.start + n) := h.offset?_first_run (by omega)
  obtain ⟨d, k, hk, halong, rfl⟩ := h.exists_skip_of_offset?_succ hlast (hn ▸ hq)
  rw [← hn] at halong
  obtain rfl := h.eq_runDimensions_of_turnAlong hc hone halong
  have hskip : k ≠ 0 := by
    rw [Ne, skip_eq_zero_iff_of_le hk (Nat.le_refl _)]
    exact Nat.lt_irrefl _
  exact ⟨_, hq, by omega⟩

end Selected

theorem visit?_eq_some_iff {ss : List Slice} (h : (Partial.along ss).Selected)
    (hfits : ∀ s ∈ ss, s.Fits) {n q : Nat} {ns : List Nat} :
    (Partial.along ss).visit? n = some (ns, q) ↔
      List.Forall₂ (· < ·) ns (Partial.along ss).counts ∧
        offsetIn (Partial.along ss).counts ns = n ∧
        offsetIn (ss.map Slice.size) (List.zipWith Slice.nth ss ns) = q := by
  have hforward {ms : List Nat} {p : Nat} (hvisit : (Partial.along ss).visit? n = some (ms, p)) :
      offsetIn (ss.map Slice.size) (List.zipWith Slice.nth ss ms) = p := by
    have hlt := h.forall₂_lt_of_visit? hvisit
    have hcount := (h.valid_of_visit? hvisit).2
    rw [Partial.counts_along] at hlt hcount
    have hplace := getElem?_visits hfits hlt
    rw [hcount, ← h.offset?_eq, offset?, hvisit] at hplace
    exact (Option.some.inj hplace).symm
  constructor
  · intro hvisit
    exact ⟨h.forall₂_lt_of_visit? hvisit, (h.valid_of_visit? hvisit).2, hforward hvisit⟩
  · rintro ⟨hlt, hn, rfl⟩
    have hlength : n < (Partial.along ss).length := hn ▸ h.prod_counts ▸ offsetIn_lt hlt
    obtain ⟨⟨ms, p⟩, hvisit⟩ := Option.isSome_iff_exists.1 (h.isSome_visit?_iff.2 hlength)
    obtain rfl : ms = ns := (existsUnique_offsetIn (hn ▸ offsetIn_lt hlt)).unique
      ⟨h.forall₂_lt_of_visit? hvisit, (h.valid_of_visit? hvisit).2⟩ ⟨hlt, hn⟩
    rw [hvisit, hforward hvisit]

/--
Turn by turn, by one more than the skip of the dimension that goes on, a region is walked through
from its first element on. The turns end with the last element, each one leads to the element of the
next index and to a greater offset, and the offsets are those selected. Where a run starts, the
elements of it are at successive offsets, and behind the first one some offset is left out if the
dimension that comes after it has several elements.
-/
theorem skips_enumerate_selection {sizes lowers uppers steps : List Nat} {region : Region}
    (h : select sizes lowers uppers steps = .ok region) :
    let ss := Slice.ofLists sizes lowers uppers steps
    (∀ n, (region.offset? n).isSome ↔ n < region.length) ∧
      (∀ n index q, region.visit? n = some (index, q) ↔
        List.Forall₂ (· < ·) index region.counts ∧ offsetIn region.counts index = n ∧
          offsetIn sizes (List.zipWith Slice.nth ss index) = q) ∧
      (∀ q, (∃ n, region.offset? n = some q) ↔ q ∈ selectedOffsets ss) ∧
      (∀ m n p q, region.offset? m = some p → region.offset? n = some q → m < n → p < q) ∧
      (∀ k i p, region.offset? (k * region.runLength) = some p → i < region.runLength →
        region.offset? (k * region.runLength + i) = some (p + i)) ∧
      ∀ c, region.counts[region.runDimensions]? = some c → 1 < c →
        ∃ p q, region.offset? (region.runLength - 1) = some p ∧
          region.offset? region.runLength = some q ∧ p + 1 < q := by
  intro ss
  have hselected : region.Selected := ⟨_, _, _, _, h⟩
  obtain ⟨hsizes, hfits, rfl⟩ := eq_along_of_select h
  refine ⟨fun _ => hselected.isSome_offset?_iff, fun n index q => ?_, fun q => ?_,
    fun _ _ _ _ => hselected.offset?_lt_offset?, fun _ _ _ => hselected.offset?_run,
    fun c hc hone => ?_⟩
  · rw [visit?_eq_some_iff hselected hfits, hsizes]
  · simp only [hselected.offset?_eq]
    rw [← List.mem_iff_getElem?, mem_visits_iff hfits]
  · obtain ⟨q, hq, hlt⟩ := hselected.exists_offset?_runLength hc hone
    have hpos := hselected.runLength_pos
    exact ⟨_, q, hselected.offset?_first_run (Nat.sub_one_lt_of_lt hpos), hq, by omega⟩

theorem skips_enumerate_selection_rows :
    ∃ region, select [3, 4, 2] [0, 1, 0] [3, 4, 2] [1, 2, 1] = .ok region ∧
      region.skips = [0, 3, 3] ∧ region.visit? 7 = some ([1, 0, 1], 16) ∧
      region.offset? 6 = some 15 ∧ region.offset? 8 = some 17 ∧
      (∃ p q, region.offset? 2 = some p ∧ region.offset? 3 = some q ∧ p + 1 < q) ∧
      (region.offset? 12).isSome = false := by
  have hs : select [3, 4, 2] [0, 1, 0] [3, 4, 2] [1, 2, 1] = .ok _ := rfl
  obtain ⟨hlength, hvisit, -, -, hrun, hgap⟩ := skips_enumerate_selection hs
  have hindex : List.Forall₂ (· < ·) [1, 0, 1] [3, 2, 2] := by simp
  refine ⟨_, hs, rfl, (hvisit 7 _ 16).2 ⟨hindex, by decide, by decide⟩, rfl,
    hrun 2 2 15 rfl (by decide), hgap 2 rfl (by decide), ?_⟩
  exact Bool.eq_false_iff.2 fun hsome => absurd ((hlength 12).1 hsome) (by decide)

end Region

end Gridded
