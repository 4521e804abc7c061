import Gridded.Proofs.Reader.Accounting
import Gridded.Proofs.Reader.Extraction
import Gridded.Proofs.Region.Declared
import Mathlib

namespace Gridded

namespace Reader

/--
What is counted on of arrays with a shape: they are made of as many elements as their shape has
indices, and of no other number, and lay them out with the last dimension varying fastest.
-/
structure RowMajor {α β : Type} (ofValues? : List Nat → Array α → Option β) (shape : β → List Nat)
    (get? : β → List Nat → Option α) : Prop where
  isSome_iff (sizes : List Nat) (values : Array α) :
    (ofValues? sizes values).isSome ↔ values.size = sizes.prod
  shape_eq {sizes : List Nat} {values : Array α} {b : β} : ofValues? sizes values = some b →
    shape b = sizes
  get?_eq {sizes : List Nat} {values : Array α} {b : β} : ofValues? sizes values = some b →
    ∀ index, List.Forall₂ (· < ·) index sizes → get? b index = values[rowMajorOffset sizes index]?

section Run

variable {ι β : Type} [Input ι] {i : ι} {r : Reader} {k : ElementKind} {region : Region}
  {heap : Heap} {ofValues? : List Nat → Array k.Element → Option β}

theorem readBlock_of_error {e : StoreError} {j : ι}
    (h : ((r.readAs k region heap).run.run i).result = (.error e, j)) :
    ((r.readBlock k ofValues? region heap).run.run i).result = (.error e, j) := by
  rw [readBlock, ReadM.run_bind, Logged.result_bind, h]
  rfl

theorem readBlock_of_ok {shape : β → List Nat} {get? : β → List Nat → Option k.Element}
    (hb : RowMajor ofValues? shape get?) (hs : region.Selected) {values : Array k.Element} {j : ι}
    (h : ((r.readAs k region heap).run.run i).result = (.ok values, j)) :
    ∃ b, ofValues? region.declaredShape values = some b ∧
      ((r.readBlock k ofValues? region heap).run.run i).result = (.ok b, j) := by
  have hsize : values.size = region.declaredShape.prod := by
    have hread := h
    rw [readAs_of_holds (holds_of_readAs (congrArg Prod.fst h))] at hread
    rw [size_of_readAs hs hread, ← hs.prod_counts, Region.declaredShape, List.prod_reverse]
  obtain ⟨b, hfilled⟩ := Option.isSome_iff_exists.1 ((hb.isSome_iff _ _).2 hsize)
  refine ⟨b, hfilled, ?_⟩
  rw [readBlock, ReadM.run_bind, Logged.result_bind, h]
  simp only [hfilled]
  rfl

theorem readRuns_ne_content (k : ElementKind) (origin : Nat) (region : Region) (i : ι) :
    Ensures (readRuns k origin region) i (fun _ _ => True) fun e _ => ∀ c, e ≠ .content c := by
  apply readRuns_ensures (I := fun _ _ _ => True)
  · exact fun _ _ _ _ _ _ =>
      readRun_ensures (fun _ _ _ => trivial) (fun _ _ _ => nofun) fun _ _ => nofun
  · exact fun _ _ _ _ => nofun
  · exact fun _ _ => nofun
  · trivial

theorem content_of_readAs {c : ContentError}
    (h : ((r.readAs k region heap).run.run i).result.1 = .error (.content c)) :
    k ≠ r.kind ∧ c = .kindMismatch (Input.name i) r.kind k := by
  rw [run_readAs] at h
  split at h
  · next hk =>
    cases h
    exact ⟨hk, rfl⟩
  · rcases hrun : (readRuns k r.origin region heap).run.run i with ⟨e | p, j⟩
    · rw [hrun] at h
      cases h
      by_cases hheap : heap.holds (region.length * k.size)
      · rw [readRuns_of_holds hheap] at hrun
        exact absurd rfl ((readRuns_ne_content k r.origin region i).of_run_eq_error hrun c)
      · obtain ⟨e, hcause, he⟩ := run_readRuns_of_not_holds hheap r.origin
        cases hrun.symm.trans (he i)
        rcases hcause with hcause | ⟨quantity, hcause⟩
        · cases hcause
        · cases hcause
    · rw [hrun] at h
      cases h

end Run

theorem element_of_readAs {ι : Type} [Input ι] [FaithfulInput ι] {c : Contents} {i : ι}
    (hi : FaithfulInput.Over c i) {r : Reader} {k : ElementKind} {ss : List Slice}
    (hss : ∀ s ∈ ss, s.Fits) {values : Array k.Element}
    (h : ((r.readAs k (Region.Partial.along ss.reverse).toRegion).run.run i).result.1 = .ok values)
    {index : List Nat} (hindex : List.Forall₂ (· < ·) index (ss.map Slice.count)) :
    let p := r.origin + k.size * rowMajorOffset (ss.map Slice.size) (List.zipWith Slice.nth ss index)
    p + k.size ≤ c.bytes.size ∧
      ∃ x, values[rowMajorOffset (ss.map Slice.count) index]? = some x ∧
        k.toWord x = c.wordAt k.size p := by
  have hfits : ∀ s ∈ ss.reverse, s.Fits := fun s hs => hss s (List.mem_reverse.1 hs)
  have hlength : ss.length = index.length := by simpa using hindex.length_eq.symm
  have hreverse : List.Forall₂ (· < ·) index.reverse (ss.reverse.map Slice.count) := by
    rw [List.map_reverse]
    exact List.rel_reverse hindex
  have hvisit := Region.getElem?_visits hfits hreverse
  rw [List.map_reverse, List.map_reverse, ← List.reverse_zipWith hlength,
    offsetIn_reverse (by simpa using hlength.symm), offsetIn_reverse (by simp [hlength])] at hvisit
  obtain ⟨p, hp, rfl⟩ := valuesOf_eq_ok (valuesOf_of_readAs hi (Region.runLength_pos hfits) h)
  obtain ⟨hrange, hvalues⟩ := runsOf_eq_ok hfits hp
  have hstored := hrange _ (List.mem_of_getElem? hvisit)
  refine ⟨hstored, _, ?_, c.toWord_element k hstored⟩
  rw [← Array.getElem?_toList, hvalues, List.getElem?_map, hvisit]
  rfl

/--
An array with the declared shape is read if and only if the elements are; else the failures agree,
and none is about the shape. Each size of the array is the number of indices covered over the step,
rounded up, and an index in declaration order finds the element where the variable declares it.
-/
theorem readBlock_exact {ι : Type} [Input ι] (i : ι) {sizes starts extents steps : List Nat}
    {region : Region} (hs : Region.selectDeclared sizes starts extents steps = .ok region)
    (r : Reader) (k : ElementKind) (heap : Heap) {β : Type}
    {ofValues? : List Nat → Array k.Element → Option β} {shape : β → List Nat}
    {get? : β → List Nat → Option k.Element} (hb : RowMajor ofValues? shape get?) :
    let read := ((r.readAs k region heap).run.run i).result
    let block := ((r.readBlock k ofValues? region heap).run.run i).result
    ((∃ b, block.1 = .ok b) ↔ ∃ values, read.1 = .ok values) ∧
      (∀ e, block.1 = .error e ↔ read.1 = .error e) ∧ block.2 = read.2 ∧
      (∀ n sizes, block.1 ≠ .error (.content (.shape n sizes))) ∧
      ∀ b, block.1 = .ok b →
        shape b = List.zipWith (· ⌈/⌉ ·) extents steps ∧
        ∀ [FaithfulInput ι] (c : Contents), FaithfulInput.Over c i →
          ∀ index, List.Forall₂ (· < ·) index (shape b) →
            let source := List.zipWith (· + ·) starts (List.zipWith (· * ·) index steps)
            let p := r.origin + k.size * rowMajorOffset sizes source
            List.Forall₂ (· < ·) source sizes ∧ p + k.size ≤ c.bytes.size ∧
              ∃ x, get? b index = some x ∧ k.toWord x = c.wordAt k.size p := by
  intro read block
  rcases hread : ((r.readAs k region heap).run.run i).result with ⟨e | values, j⟩
  · have hblock : block = (.error e, j) := readBlock_of_error hread
    rw [hblock, show read = (.error e, j) from hread]
    refine ⟨iff_of_false nofun nofun, fun _ => ?_, rfl, ?_, nofun⟩
    · rw [Except.error.injEq, Except.error.injEq]
    · rintro n sizes ⟨⟩
      cases (content_of_readAs (congrArg Prod.fst hread)).2
  · obtain ⟨b, hfilled, hblock⟩ := readBlock_of_ok hb (Region.Selected.of_selectDeclared hs) hread
    rw [show block = (.ok b, j) from hblock, show read = (.ok values, j) from hread]
    refine ⟨iff_of_true ⟨b, rfl⟩ ⟨values, rfl⟩, fun _ => iff_of_false nofun nofun, rfl, nofun, ?_⟩
    rintro _ ⟨⟩
    rw [readAs_of_holds (holds_of_readAs (congrArg Prod.fst hread))] at hread
    obtain ⟨ss, hfits, rfl, rfl, rfl, rfl, rfl⟩ := Region.eq_along_of_selectDeclared hs
    rw [Region.declaredShape_along] at hfilled
    rw [hb.shape_eq hfilled]
    constructor
    · rw [List.zipWith_map, List.zipWith_self]
      exact List.map_congr_left fun s _ => s.count_eq_ceilDiv
    · intro _ c hi index hindex
      rw [← Slice.zipWith_nth, hb.get?_eq hfilled index hindex]
      exact ⟨Slice.zipWith_nth_lt hfits hindex,
        element_of_readAs hi hfits (congrArg Prod.fst hread) hindex⟩

theorem readBlock_exact_rows :
    let m : Memory :=
      { name := "plane", order := .little, bytes := .ofFn fun i : Fin 25 => .ofNat (250 - i) }
    let ofValues? (sizes : List Nat) (values : Array Int16) :=
      if values.size = sizes.prod then some (sizes, values) else none
    let get? (b : List Nat × Array Int16) (index : List Nat) := b.2[rowMajorOffset b.1 index]?
    let rows : List Nat × Array Int16 := ([2, 2], #[-4369, -5397, -6425, -7453])
    RowMajor ofValues? Prod.fst get? ∧
      ∃ region, Region.selectDeclared [3, 4] [1, 1] [2, 3] [1, 2] = .ok region ∧
        (((⟨.short, 1⟩ : Reader).readBlock .short ofValues? region .addressable).run.run
          m).result.1 = .ok rows ∧
        ∃ x, get? rows [1, 0] = some x ∧ ElementKind.short.toWord x = 0xe6e7 := by
  intro m ofValues? get? rows
  have hb : RowMajor ofValues? Prod.fst get? := by
    have hmade {sizes values b} (h : ofValues? sizes values = some b) : (sizes, values) = b :=
      Option.some.inj (Option.ite_none_right_eq_some.1 h).2
    refine ⟨fun sizes values => by simp [ofValues?], fun h => ?_, fun h index _ => ?_⟩
    · obtain rfl := hmade h
      rfl
    · obtain rfl := hmade h
      rfl
  have hi : FaithfulInput.Over ⟨m.name, m.order, m.bytes⟩ m := ⟨0, rfl⟩
  obtain ⟨region, hs⟩ : ∃ region, Region.selectDeclared [3, 4] [1, 1] [2, 3] [1, 2] = .ok region :=
    ⟨_, rfl⟩
  have hread : (((⟨.short, 1⟩ : Reader).readBlock .short ofValues? region .addressable).run.run
      m).result.1 = .ok rows := by
    obtain rfl := Except.ok.inj hs
    decide +kernel
  obtain ⟨-, -, -, -, hblock⟩ := readBlock_exact m hs ⟨.short, 1⟩ .short .addressable hb
  obtain ⟨-, helement⟩ := hblock _ hread
  obtain ⟨-, -, x, hx, hword⟩ :=
    helement _ hi [1, 0] (.cons (by decide) (.cons (by decide) .nil))
  exact ⟨hb, region, hs, hread, x, hx, hword.trans (by decide)⟩

end Reader

end Gridded
