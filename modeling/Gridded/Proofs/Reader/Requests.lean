import Gridded.Proofs.Input.Noted
import Gridded.Proofs.Reader.Success
import Mathlib

namespace Gridded

namespace Reader

variable {ι : Type} [Input ι] {k : ElementKind} {origin : Nat} {region : Region}

theorem through_onInput {τ σ α : Type} {part : τ → σ} {a : Action τ α} {b : Action σ α}
    (h : Through part a b) : Through part (onInput a) (onInput b) := by
  intro t
  change (((a.run.run t).1.mapError _), part (a.run.run t).2) =
    ((b.run.run (part t)).1.mapError _, (b.run.run (part t)).2)
  rw [← h t]

theorem readRun_noted (k : ElementKind) (length position : Nat) (p : Progress k) :
    Through Noted.input (readRun k length position p : ExceptT StoreError (StateM (Noted ι)) _)
      (readRun k length position p) := by
  unfold readRun
  split
  · refine (through_onInput (Noted.through_seek position)).bind fun _ => ?_
    exact (through_onInput (Noted.through_read _)).bind fun _ _ => rfl
  · exact fun _ => rfl

theorem readRuns_noted (k : ElementKind) (origin : Nat) (region : Region) :
    Through Noted.input (readRuns k origin region : ExceptT StoreError (StateM (Noted ι)) _)
      (readRuns k origin region) := by
  simp only [readRuns, Heap.allocate_unbounded]
  split
  · exact fun _ => rfl
  split
  · exact fun _ => rfl
  · rw [Walk.fold_eq_foldlM, Walk.fold_eq_foldlM]
    exact .foldlM (fun p q => readRun_noted k _ q p) _ _

def runRange (k : ElementKind) (region : Region) (p : Nat) : ByteRange :=
  ⟨p, region.runLength * k.size⟩

def runRanges (k : ElementKind) (origin : Nat) (region : Region) : List ByteRange :=
  (Walk.places (region.laps k.size) (region.start * k.size + origin)).map (runRange k region)

theorem readRuns_ranges (k : ElementKind) (origin : Nat) (region : Region) (i : ι) :
    Ensures (readRuns k origin region) ({ input := i } : Noted ι)
      (fun _ n => n.ranges = runRanges k origin region)
      fun _ n => n.ranges <+: runRanges k origin region := by
  apply readRuns_ensures (I := fun done _ (n : Noted ι) => n.ranges = done.map (runRange k region))
  · intro done p n q hpre hn
    have hnext : n.ranges ++ [runRange k region q] <+: runRanges k origin region := by
      rw [hn, ← List.map_singleton, ← List.map_append]
      exact hpre.map _
    have hlast : n.ranges <+: runRanges k origin region := (List.prefix_append _ _).trans hnext
    unfold readRun
    split
    · simp only [Ensures.bind_iff, onInput_ensures_iff, Input.seek, Input.read, Noted.onInput,
        Ensures.within_iff, Ensures.modify_iff, Ensures.get_iff, Ensures.pure_iff]
      refine Ensures.of_forall (fun _ _ => ?_) fun _ _ => hlast
      refine Ensures.of_forall (fun _ _ => ?_) fun _ _ => hnext
      rw [hn, List.map_append, List.map_singleton]
      rfl
    · exact hlast
  · exact fun _ _ _ => List.nil_prefix
  · exact fun _ => List.nil_prefix
  · rfl

section Ranges

variable {ss : List Slice} (h : ∀ s ∈ ss, s.Fits)

include h

theorem pairwise_runRanges :
    (runRanges k origin (Region.Partial.along ss).toRegion).Pairwise fun a b =>
      a.start < b.start ∧ Disjoint a.bytes b.bytes := by
  have hlength : 0 < (Region.Partial.along ss).runLength * k.size :=
    Nat.mul_pos (Region.runLength_pos h) k.size_pos
  rw [runRanges, List.pairwise_map]
  -- A gap is at least as long as the run that it follows.
  refine (Walk.pairwise_places (d := (Region.Partial.along ss).runLength * k.size - 1) ?_ _).imp ?_
  · intro lap hlap
    have := Region.runLength_mul_le_gap hlap
    omega
  · intro p q hpq
    have hend : p + (Region.Partial.along ss).runLength * k.size ≤ q := by omega
    refine ⟨?_, Set.disjoint_left.2 fun x hx hx' => ?_⟩
    · simp only [runRange]
      omega
    · exact absurd (hx.2.trans_le hend) (Nat.not_lt_of_le hx'.1)

theorem mem_runRanges {a : ByteRange}
    (ha : a ∈ runRanges k origin (Region.Partial.along ss).toRegion) :
    ∃ first ∈ Region.selectedOffsets ss, ∃ last ∈ Region.selectedOffsets ss,
      a.start = origin + k.size * first ∧ a.start + a.length = origin + k.size * (last + 1) := by
  obtain ⟨p, hp, rfl⟩ := List.mem_map.1 ha
  obtain ⟨q, rfl, hrun⟩ := Region.exists_run_of_mem_places h hp
  obtain ⟨n, hn⟩ := Nat.exists_eq_add_one.2 (Region.runLength_pos h)
  refine ⟨q, hrun 0 (by omega), q + n, hrun n (by omega), rfl, ?_⟩
  simp only [runRange]
  rw [hn, Nat.mul_comm _ k.size, Nat.add_assoc, ← Nat.mul_add, Nat.add_assoc]

theorem bytes_subset_of_mem_runRanges {first last : Nat}
    (hfirst : IsLeast (Region.selectedOffsets ss) first)
    (hlast : IsGreatest (Region.selectedOffsets ss) last) {a : ByteRange}
    (ha : a ∈ runRanges k origin (Region.Partial.along ss).toRegion) :
    a.bytes ⊆ Set.Ico (origin + k.size * first) (origin + k.size * (last + 1)) := by
  obtain ⟨q, hq, q', hq', hstart, hend⟩ := mem_runRanges h ha
  rw [ByteRange.bytes, hend, hstart]
  apply Set.Ico_subset_Ico
  · exact Nat.add_le_add_left (Nat.mul_le_mul_left _ (hfirst.2 hq)) _
  · exact Nat.add_le_add_left (Nat.mul_le_mul_left _ (Nat.succ_le_succ (hlast.2 hq'))) _

theorem exists_runRange_of_mem {q : Nat} (hq : q ∈ Region.selectedOffsets ss) :
    ∃ a ∈ runRanges k origin (Region.Partial.along ss).toRegion,
      a.start ≤ origin + k.size * q ∧ origin + k.size * (q + 1) ≤ a.start + a.length := by
  rw [← Region.mem_visits_iff h, Region.mem_visits_iff_runStarts h] at hq
  obtain ⟨p, hp, hle, hlt⟩ := hq
  have hplace : p * k.size + origin ∈ Walk.places ((Region.Partial.along ss).laps k.size)
      ((Region.Partial.along ss).start * k.size + origin) := by
    rw [Region.places_laps]
    exact List.mem_map_of_mem hp
  refine ⟨_, List.mem_map_of_mem hplace, ?_, ?_⟩
  · have := Nat.mul_le_mul_left k.size hle
    rw [Nat.mul_comm k.size p] at this
    simp only [runRange]
    omega
  · calc
      origin + k.size * (q + 1)
        ≤ origin + k.size * (p + (Region.Partial.along ss).runLength) :=
          Nat.add_le_add_left (Nat.mul_le_mul_left _ hlt) _
      _ = p * k.size + origin + (Region.Partial.along ss).runLength * k.size := by ring

end Ranges

theorem read_noted (r : Reader) (region : Region) (i : ι) :
    let noted := ((r.read region).run.run ({ input := i } : Noted ι)).result
    noted.1 = ((r.read region).run.run i).result.1 ∧
      noted.2.ranges <+: runRanges r.kind r.origin region ∧
      ∀ elements, noted.1 = .ok elements → noted.2.ranges = runRanges r.kind r.origin region := by
  have hranges := readRuns_ranges r.kind r.origin region i
  have hthrough := readRuns_noted r.kind r.origin region { input := i }
  intro noted
  simp only [noted]
  rw [run_read, run_read, ← hthrough]
  rcases hrun : (readRuns r.kind r.origin region).run.run ({ input := i } : Noted ι) with ⟨e | p, n⟩
  · exact ⟨rfl, hranges.of_run_eq_error hrun, nofun⟩
  · have hn : n.ranges = _ := hranges.of_run_eq_ok hrun
    exact ⟨rfl, hn ▸ List.prefix_refl _, fun _ _ => hn⟩

section Ends

variable {c : Contents} {ss : List Slice} {e : StoreError.Kind}

theorem foldlM_runOf_eq_error {length : Nat} {qs : List Nat} {p : Progress k}
    (h : qs.foldlM (fun p q => runOf c k length q p) p = .error e) :
    (∃ quantity, e = .overflow quantity) ∨
      e = .source .unexpectedEnd ∧ ∃ q ∈ qs, c.bytes.size < q + length * k.size := by
  induction qs generalizing p with
  | nil => cases h
  | cons q qs ih =>
    rw [List.foldlM_cons, runOf] at h
    split at h
    · split at h
      · rcases ih h with hoverflow | ⟨he, r, hr, hend⟩
        · exact .inl hoverflow
        · exact .inr ⟨he, r, List.mem_cons_of_mem _ hr, hend⟩
      · next hend =>
        cases h
        exact .inr ⟨rfl, q, List.mem_cons_self, Nat.lt_of_not_le hend⟩
    · cases h
      exact .inl ⟨_, rfl⟩

theorem runsOf_eq_error (hss : ∀ s ∈ ss, s.Fits)
    (h : runsOf c k origin (Region.Partial.along ss).toRegion = .error e) :
    (∃ quantity, e = .overflow quantity) ∨
      e = .source .unexpectedEnd ∧
        ∃ q ∈ Region.selectedOffsets ss, c.bytes.size < origin + k.size * (q + 1) := by
  simp only [runsOf] at h
  split at h
  · cases h
    exact .inl ⟨_, rfl⟩
  split at h
  · cases h
    exact .inl ⟨_, rfl⟩
  · rcases foldlM_runOf_eq_error h with hoverflow | ⟨he, p, hp, hend⟩
    · exact .inl hoverflow
    · obtain ⟨-, -, last, hlast, -, hrange⟩ := mem_runRanges hss (List.mem_map_of_mem hp)
      exact .inr ⟨he, last, hlast, hrange ▸ hend⟩

variable [FaithfulInput ι] {i : ι} {r : Reader}

theorem read_cases (hf : ∀ e, ¬FaithfulInput.Fails ι e) (hi : FaithfulInput.Over c i)
    (hss : ∀ s ∈ ss, s.Fits) :
    let result := ((r.read (Region.Partial.along ss).toRegion).run.run i).result.1
    (∃ elements, r.Gives (Region.Partial.along ss).toRegion i elements) ∧
        (∀ q ∈ Region.selectedOffsets ss, r.origin + r.dataSize * (q + 1) ≤ c.bytes.size) ∨
      (∃ e, result = .error (.source e) ∧ e.kind = .unexpectedEnd) ∧
        (∃ q ∈ Region.selectedOffsets ss, c.bytes.size < r.origin + r.dataSize * (q + 1)) ∨
      ∃ quantity, result = .error (.overflow quantity) := by
  have hfollows := readRuns_follows hi (Region.runLength_pos hss) r.kind r.origin
  intro result
  rcases hrun : (readRuns r.kind r.origin (Region.Partial.along ss).toRegion).run.run i with
    ⟨e | p, j⟩
  · have hresult : result = .error e := by
      simp only [result]
      rw [run_read, hrun]
    rw [hresult]
    rcases (hfollows.of_run_eq_error hrun).2 with he | ⟨s, -, hs⟩
    · rcases runsOf_eq_error hss he with ⟨quantity, hoverflow⟩ | ⟨hsource, hend⟩
      · exact .inr (.inr ⟨quantity, congrArg _ (StoreError.kind_eq_overflow_iff.1 hoverflow)⟩)
      · obtain ⟨s, rfl, hs⟩ := StoreError.kind_eq_source_iff.1 hsource
        exact .inr (.inl ⟨⟨s, rfl, hs⟩, hend⟩)
    · exact absurd hs (hf s)
  · refine .inl ⟨⟨⟨r.kind, p.values⟩, j, ?_⟩, fun q hq => ?_⟩
    · rw [run_read, hrun]
    · rw [Nat.mul_add_one, ← Nat.add_assoc]
      exact (runsOf_eq_ok hss (hfollows.of_run_eq_ok hrun).2).1 q ((Region.mem_visits_iff hss).2 hq)

end Ends

theorem read_noted_within (r : Reader) {ss : List Slice} (hss : ∀ s ∈ ss, s.Fits)
    {first last : Nat} (hfirst : IsLeast (Region.selectedOffsets ss) first)
    (hlast : IsGreatest (Region.selectedOffsets ss) last) (i : ι) :
    let noted :=
      ((r.read (Region.Partial.along ss).toRegion).run.run ({ input := i } : Noted ι)).result
    noted.1 = ((r.read (Region.Partial.along ss).toRegion).run.run i).result.1 ∧
      (noted.2.ranges.Pairwise fun a b => a.start < b.start ∧ Disjoint a.bytes b.bytes) ∧
      (∀ a ∈ noted.2.ranges, a.bytes ⊆
        Set.Ico (r.origin + r.dataSize * first) (r.origin + r.dataSize * (last + 1))) ∧
      ((∃ elements, noted.1 = .ok elements) → ∀ q ∈ Region.selectedOffsets ss,
        ∃ a ∈ noted.2.ranges,
          Set.Ico (r.origin + r.dataSize * q) (r.origin + r.dataSize * (q + 1)) ⊆ a.bytes) := by
  obtain ⟨hresult, hpre, hall⟩ := read_noted r (Region.Partial.along ss).toRegion i
  refine ⟨hresult, (pairwise_runRanges hss).sublist hpre.sublist, fun a ha => ?_, ?_⟩
  · exact bytes_subset_of_mem_runRanges hss hfirst hlast (hpre.subset ha)
  · rintro ⟨elements, hok⟩ q hq
    rw [hall elements hok]
    obtain ⟨a, ha, hstart, hend⟩ := exists_runRange_of_mem hss hq
    exact ⟨a, ha, Set.Ico_subset_Ico hstart hend⟩

theorem read_memory (r : Reader) {ss : List Slice} (hss : ∀ s ∈ ss, s.Fits) {last : Nat}
    (hlast : IsGreatest (Region.selectedOffsets ss) last) (m : Memory) :
    let result := ((r.read (Region.Partial.along ss).toRegion).run.run m).result.1
    (∀ quantity, result ≠ .error (.overflow quantity)) →
      ((∃ elements, result = .ok elements) ↔
        r.origin + r.dataSize * (last + 1) ≤ m.bytes.size) ∧
      (m.bytes.size < r.origin + r.dataSize * (last + 1) →
        ∃ e, result = .error (.source e) ∧ e.kind = .unexpectedEnd) := by
  intro result hoverflow
  have hover : FaithfulInput.Over ⟨m.name, m.order, m.bytes⟩ m := ⟨m.position, rfl⟩
  rcases read_cases (r := r) (fun _ he => he) hover hss with
    ⟨⟨elements, j, hj⟩, hstored⟩ | ⟨⟨e, he, hkind⟩, q, hq, hend⟩ | ⟨quantity, hq⟩
  · have hreach := hstored _ hlast.1
    have hok : result = .ok elements := congrArg Prod.fst hj
    exact ⟨⟨fun _ => hreach, fun _ => ⟨elements, hok⟩⟩,
      fun hend => absurd hreach (Nat.not_le_of_lt hend)⟩
  · have hbeyond : ¬_ ≤ m.bytes.size := Nat.not_le_of_lt (hend.trans_le
      (Nat.add_le_add_left (Nat.mul_le_mul_left _ (Nat.succ_le_succ (hlast.2 hq))) _))
    refine ⟨⟨?_, fun hreach => absurd hreach hbeyond⟩, fun _ => ⟨e, he, hkind⟩⟩
    rintro ⟨elements, hok⟩
    cases he.symm.trans hok
  · exact absurd hq (hoverflow quantity)

theorem run_read_of_not_holds {r : Reader} {heap : Heap}
    (h : ¬heap.holds (region.length * r.dataSize)) :
    ∃ e, (e = .exhausted (region.length * r.dataSize) ∨ ∃ quantity, e = .overflow quantity) ∧
      ∀ {ι : Type} [Input ι] (i : ι), ((r.read region heap).run.run i).result = (.error e, i) := by
  obtain ⟨e, he, hruns⟩ := run_readRuns_of_not_holds h r.origin
  refine ⟨e, he, fun i => ?_⟩
  rw [run_read, hruns]

/--
A read asks for bytes further and further on and never twice, from those of the first element
selected to those of the last, and all of these are of the variable. What it asks for in the end are
the bytes of all elements selected. Without memory for the elements it panics and asks for nothing.
Else, if it meets no overflow, it succeeds over a memory that reaches as far as the last element,
and it runs into the end of any other.
-/
theorem read_within_selection {sizes lowers uppers steps : List Nat} {region : Region}
    (hs : Region.select sizes lowers uppers steps = .ok region) (r : Reader) (heap : Heap) :
    let S := Region.selectedOffsets (Slice.ofLists sizes lowers uppers steps)
    ∃ first last, IsLeast S first ∧ IsGreatest S last ∧ last < sizes.prod ∧
      (∀ (ι : Type) [Input ι] (i : ι),
        let noted := ((r.read region heap).run.run ({ input := i } : Noted ι)).result
        noted.1 = ((r.read region heap).run.run i).result.1 ∧
          (noted.2.ranges.Pairwise fun a b => a.start < b.start ∧ Disjoint a.bytes b.bytes) ∧
          (∀ a ∈ noted.2.ranges, a.bytes ⊆
            Set.Ico (r.origin + r.dataSize * first) (r.origin + r.dataSize * (last + 1))) ∧
          ((∃ elements, noted.1 = .ok elements) → ∀ q ∈ S, ∃ a ∈ noted.2.ranges,
            Set.Ico (r.origin + r.dataSize * q) (r.origin + r.dataSize * (q + 1)) ⊆ a.bytes) ∧
          (¬heap.holds (region.length * r.dataSize) → noted.2 = { input := i } ∧
            ((∀ quantity, noted.1 ≠ .error (.overflow quantity)) →
              noted.1 = .error (.exhausted (region.length * r.dataSize))))) ∧
      (heap.holds (region.length * r.dataSize) → ∀ m : Memory,
        let result := ((r.read region heap).run.run m).result.1
        (∀ quantity, result ≠ .error (.overflow quantity)) →
          ((∃ elements, result = .ok elements) ↔
            r.origin + r.dataSize * (last + 1) ≤ m.bytes.size) ∧
          (m.bytes.size < r.origin + r.dataSize * (last + 1) →
            ∃ e, result = .error (.source e) ∧ e.kind = .unexpectedEnd)) := by
  obtain ⟨hsizes, hfits, rfl⟩ := Region.eq_along_of_select hs
  intro S
  have hfirst := Region.isLeast_selectedOffsets hfits
  have hlast := Region.isGreatest_selectedOffsets hfits
  have hvariable := Region.Partial.start_add_span_lt_stride hfits
  rw [Region.Partial.stride_along, hsizes] at hvariable
  refine ⟨_, _, hfirst, hlast, hvariable, fun ι _ i => ?_, fun hheap m => ?_⟩
  · by_cases hheap : heap.holds ((Region.Partial.along
      (Slice.ofLists sizes lowers uppers steps)).toRegion.length * r.dataSize)
    · rw [read_of_holds hheap, read_of_holds hheap]
      obtain ⟨hresult, hpairwise, hwithin, hall⟩ := read_noted_within r hfits hfirst hlast i
      exact ⟨hresult, hpairwise, hwithin, hall, fun h => absurd hheap h⟩
    · obtain ⟨e, he, hrun⟩ := run_read_of_not_holds hheap
      rw [hrun, hrun]
      refine ⟨rfl, .nil, nofun, nofun, fun _ => ⟨rfl, fun hoverflow => ?_⟩⟩
      rcases he with rfl | ⟨quantity, rfl⟩
      · rfl
      · exact absurd rfl (hoverflow quantity)
  · rw [read_of_holds hheap]
    exact read_memory r hfits hlast m

theorem read_within_selection_plane :
    let r : Reader := ⟨.short, 1⟩
    let heap (limit : Nat) : Heap := ⟨fun size => size ≤ limit⟩
    let plane (n : Nat) : Memory := { name := "plane", order := .big, bytes := .replicate n 7 }
    ∃ region, Region.select [4, 3] [1, 0] [4, 3] [2, 2] = .ok region ∧
      (∃ elements, ((r.read region (heap 8)).run.run (plane 25)).result.1 = .ok elements) ∧
      (∃ e, ((r.read region (heap 8)).run.run (plane 24)).result.1 = .error (.source e) ∧
        e.kind = .unexpectedEnd) ∧
      (∃ n : Noted Memory, n = ((r.read region (heap 8)).run.run { input := plane 24 }).result.2 ∧
        n.ranges = [⟨3, 2⟩, ⟨7, 2⟩, ⟨19, 2⟩, ⟨23, 2⟩] ∧
        n.ranges.Pairwise fun a b => a.start < b.start ∧ Disjoint a.bytes b.bytes) ∧
      ((r.read region (heap 7)).run.run ({ input := plane 25 } : Noted Memory)).result =
        (.error (.exhausted 8), { input := plane 25 }) := by
  intro r heap plane
  have hs : Region.select [4, 3] [1, 0] [4, 3] [2, 2] = .ok _ := rfl
  obtain ⟨first, last, -, hlast, -, hnoted, hmemory⟩ := read_within_selection hs r (heap 8)
  obtain ⟨_, _, -, -, -, hscarce, -⟩ := read_within_selection hs r (heap 7)
  obtain ⟨-, hfits, -⟩ := Region.eq_along_of_select hs
  obtain rfl : last = 11 := hlast.unique (Region.isGreatest_selectedOffsets hfits)
  obtain ⟨-, -, -, -, hscarce⟩ := hscarce Memory (plane 25)
  obtain ⟨hleft, hpanic⟩ := hscarce (by decide)
  refine ⟨_, hs, ?_, ?_, ⟨_, rfl, rfl, (hnoted Memory (plane 24)).2.1⟩, Prod.ext ?_ hleft⟩
  · exact (hmemory rfl (plane 25) fun _ => nofun).1.2 (by decide)
  · exact (hmemory rfl (plane 24) fun _ => nofun).2 (by decide)
  · exact hpanic fun _ => nofun

/-- Without memory for the elements a read does not get as far as the end of the input. -/
theorem read_exhausted :
    let r : Reader := ⟨.byte, 0⟩
    let empty : Memory := { name := "empty", order := .big, bytes := #[] }
    ∃ region, Region.select [2 ^ 63] [0] [2 ^ 63] [1] = .ok region ∧
      let result := ((r.read region .addressable).run.run empty).result.1
      (∀ quantity, result ≠ .error (.overflow quantity)) ∧
        (∃ last ∈ Region.selectedOffsets (Slice.ofLists [2 ^ 63] [0] [2 ^ 63] [1]),
          empty.bytes.size < r.origin + r.dataSize * (last + 1)) ∧
        ¬∃ e, result = .error (.source e) ∧ e.kind = .unexpectedEnd := by
  intro r empty
  have hs : Region.select [2 ^ 63] [0] [2 ^ 63] [1] = .ok _ := rfl
  obtain ⟨-, hfits, -⟩ := Region.eq_along_of_select hs
  refine ⟨_, hs, fun _ => nofun, ⟨_, (Region.isGreatest_selectedOffsets hfits).1, ?_⟩, ?_⟩
  · exact Nat.lt_add_left _ (Nat.mul_pos (by decide) (Nat.succ_pos _))
  · rintro ⟨e, he, -⟩
    cases he

end Reader

end Gridded
