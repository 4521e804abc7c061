import Gridded.Proofs.Grid.Orders
import Gridded.Proofs.Reader.Whole
import Mathlib

namespace Gridded

namespace Grid

theorem shape_eq_some_iff {g : Grid} {sizes : List Nat} :
    g.shape = some sizes ↔
      sizes.map some = (g.domain.map Dimension.length).reverse ∧ ∀ n ∈ sizes, 0 < n := by
  unfold shape
  rw [← List.map_reverse]
  generalize g.domain.reverse = ds
  induction ds generalizing sizes with
  | nil =>
    rw [List.mapM_nil, List.map_nil, List.map_eq_nil_iff]
    constructor
    · rintro ⟨⟩
      exact ⟨rfl, List.forall_mem_nil _⟩
    · rintro ⟨rfl, -⟩
      rfl
  | cons d ds ih =>
    simp only [List.mapM_cons, Option.bind_eq_bind, Option.bind_eq_some_iff, ih]
    constructor
    · rintro ⟨n, hn, ns, ⟨hns, hpos⟩, ⟨⟩⟩
      obtain ⟨hd, h⟩ := Option.filter_eq_some_iff.1 hn
      rw [List.map_cons, List.map_cons, hns, hd]
      exact ⟨rfl, List.forall_mem_cons.2 ⟨of_decide_eq_true h, hpos⟩⟩
    · rintro ⟨hsizes, hpos⟩
      cases sizes with
      | nil => cases hsizes
      | cons n ns =>
        obtain ⟨hd, hns⟩ := List.cons.inj hsizes
        obtain ⟨h, hpos⟩ := List.forall_mem_cons.1 hpos
        exact ⟨n, Option.filter_eq_some_iff.2 ⟨hd.symm, decide_eq_true h⟩, ns, ⟨hns, hpos⟩, rfl⟩

theorem isSome_shape_iff {g : Grid} :
    g.shape.isSome ↔ ∀ d ∈ g.domain, ∃ n, d.length = some n ∧ 0 < n := by
  rw [Option.isSome_iff_exists]
  constructor
  · rintro ⟨sizes, hshape⟩ d hd
    obtain ⟨hsizes, hpos⟩ := shape_eq_some_iff.1 hshape
    have hmem : d.length ∈ sizes.map some := by
      rw [hsizes, List.mem_reverse]
      exact List.mem_map_of_mem hd
    obtain ⟨n, hn, hlength⟩ := List.mem_map.1 hmem
    exact ⟨n, hlength.symm, hpos n hn⟩
  · intro h
    refine ⟨g.domain.reverse.map fun d => d.length.getD 0, shape_eq_some_iff.2 ⟨?_, ?_⟩⟩
    · rw [List.map_map, ← List.map_reverse]
      apply List.map_congr_left
      intro d hd
      obtain ⟨n, hn, -⟩ := h d (List.mem_reverse.1 hd)
      rw [Function.comp_apply, hn]
      rfl
    · intro m hm
      obtain ⟨d, hd, rfl⟩ := List.mem_map.1 hm
      obtain ⟨n, hn, hpos⟩ := h d (List.mem_reverse.1 hd)
      rw [hn]
      exact hpos

end Grid

namespace Family

variable {handle : Nat} {s : CoordinateSystem} {f g : Family} {trace : List (Call × Option Nat)}

end Family

end Gridded
