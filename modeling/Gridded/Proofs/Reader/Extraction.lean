import Gridded.Proofs.Input.Window
import Gridded.Proofs.Reader.Accounting
import Gridded.Proofs.Reader.Decoding
import Mathlib

namespace Gridded

namespace Reader

variable {ι : Type} [Input ι] [FaithfulInput ι] {c : Contents} {i : ι}

theorem valuesOf_eq_ok {r : Reader} {k : ElementKind} {region : Region}
    {values : Array k.Element} (h : r.valuesOf c k region = .ok values) :
    ∃ p, runsOf c k r.origin region = .ok p ∧ values = p.values := by
  unfold valuesOf at h
  split at h
  · cases h
  · obtain ⟨p, hp, h⟩ := Except.bind_eq_ok_iff.1 h
    exact ⟨p, hp, (Except.ok.inj h).symm⟩

theorem valuesOf_of_readAs {r : Reader} {k : ElementKind} {region : Region}
    {values : Array k.Element} (hi : FaithfulInput.Over c i) (hlength : 0 < region.runLength)
    (h : ((r.readAs k region).run.run i).result.1 = .ok values) :
    r.valuesOf c k region = .ok values := by
  have hf := (readAs_follows hi hlength r k).of_quiet
  revert hf h
  rcases ((r.readAs k region).run.run i).result with ⟨x, j⟩
  rintro rfl hf
  exact hf.2

/--
A successful read gives one element for each index selected, in storage order. The bytes where its
index is stored, each with the weight that the byte order gives to its place, add up to the word of
the element, and each place of the result is that of one index.
-/
theorem readAs_exact (hi : FaithfulInput.Over c i) {sizes lowers uppers steps : List Nat}
    {region : Region} (hs : Region.select sizes lowers uppers steps = .ok region)
    (k : ElementKind) (origin : Nat) (heap : Heap) {values : Array k.Element}
    (h : (((⟨k, origin⟩ : Reader).readAs k region heap).run.run i).result.1 = .ok values) :
    let slices := Slice.ofLists sizes lowers uppers steps
    let counts := slices.map fun s => (s.upper - s.lower) ⌈/⌉ s.step
    values.size = counts.prod ∧
      (∀ index, List.Forall₂ (· < ·) index counts →
        let p := origin + k.size * offsetIn sizes (List.zipWith Slice.nth slices index)
        p + k.size ≤ c.bytes.size ∧
          ∃ x, values[offsetIn counts index]? = some x ∧ k.toWord x = c.wordAt k.size p) ∧
      ∀ n < values.size,
        ∃! index, List.Forall₂ (· < ·) index counts ∧ offsetIn counts index = n := by
  rw [readAs_of_holds (holds_of_readAs h)] at h
  obtain ⟨hsizes, hfits, rfl⟩ := Region.eq_along_of_select hs
  intro slices counts
  obtain ⟨p, hp, rfl⟩ := valuesOf_eq_ok (valuesOf_of_readAs hi (Region.runLength_pos hfits) h)
  obtain ⟨hrange, hvalues⟩ := runsOf_eq_ok hfits hp
  have hsize : p.values.size = counts.prod := by
    rw [← Array.length_toList, hvalues, List.length_map, Region.length_visits]
    rfl
  refine ⟨hsize, ?_, ?_⟩
  · intro index hindex
    have hvisit := Region.getElem?_visits hfits hindex
    rw [hsizes] at hvisit
    have hstored := hrange _ (List.mem_of_getElem? hvisit)
    refine ⟨hstored, _, ?_, c.toWord_element k hstored⟩
    rw [← Array.getElem?_toList, hvalues, List.getElem?_map]
    exact congrArg (Option.map _) hvisit
  · intro n hn
    exact existsUnique_offsetIn (hsize ▸ hn)

theorem readAs_exact_plane :
    let plane (order : ByteOrder) : Memory :=
      { name := "plane", order, bytes := .ofFn fun i : Fin 25 => .ofNat (250 - i) }
    let read (order : ByteOrder) (region : Region) :=
      (((⟨.short, 1⟩ : Reader).readAs .short region .addressable).run.run (plane order)).result.1
    let values : Array Int16 := #[-2058, -3086, -6170, -7198]
    ∃ region, Region.select [4, 3] [1, 0] [4, 3] [2, 2] = .ok region ∧
      read .big region = .ok values ∧
      read .little region = .ok #[-2313, -3341, -6425, -7453] ∧
      ∃ x, values[offsetIn [2, 2] [1, 1]]? = some x ∧ ElementKind.short.toWord x = 0xe3e2 := by
  intro plane read values
  have hi : FaithfulInput.Over ⟨"plane", .big, (plane .big).bytes⟩ (plane .big) := ⟨0, rfl⟩
  obtain ⟨region, hs⟩ : ∃ region, Region.select [4, 3] [1, 0] [4, 3] [2, 2] = .ok region :=
    ⟨_, rfl⟩
  have hbig : read .big region = .ok values := by
    obtain rfl := Except.ok.inj hs
    decide +kernel
  have hlittle : read .little region = .ok #[-2313, -3341, -6425, -7453] := by
    obtain rfl := Except.ok.inj hs
    decide +kernel
  obtain ⟨-, helement, -⟩ := readAs_exact hi hs .short 1 .addressable hbig
  obtain ⟨-, x, hx, hword⟩ := helement [1, 1] (.cons (by decide) (.cons (by decide) .nil))
  exact ⟨region, hs, hbig, hlittle, x, hx, hword.trans (by decide)⟩

end Reader

end Gridded
