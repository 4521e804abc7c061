import Gridded.Proofs.Grid.Orders
import Mathlib.Data.List.Induction

namespace Gridded

namespace Family

def Call.Distinct : Call → Prop
  | .rebind _ ds _ => ds.Nodup
  | .axes .. => True

section Step

variable {handle : Nat} {s : CoordinateSystem} {f g : Family} {i j : Nat} {ds : List Dimension}
  {cs : List Nat} {r : Option Nat}

theorem Sound.find?_eq_some_iff (h : Sound handle s f) :
    f.find? ds = some j ↔ 0 < j ∧ f.orders[j]? = some ds := by
  constructor
  · exact orders_of_find?_eq_some
  · rintro ⟨hj, horder⟩
    obtain ⟨j, rfl⟩ := Nat.exists_eq_succ_of_ne_zero (Nat.ne_of_gt hj)
    simp only [orders, List.getElem?_cons_succ] at horder
    cases hfind : f.find? ds with
    | none => exact absurd (List.mem_of_getElem? horder) (notMem_of_find?_eq_none hfind)
    | some k =>
      obtain ⟨hk, horder'⟩ := orders_of_find?_eq_some hfind
      obtain ⟨k, rfl⟩ := Nat.exists_eq_succ_of_ne_zero (Nat.ne_of_gt hk)
      simp only [orders, List.getElem?_cons_succ] at horder'
      obtain ⟨hlt, -⟩ := List.getElem?_eq_some_iff.1 horder'
      rw [(List.getElem?_inj hlt h.nodup).1 (horder'.trans horder.symm)]

theorem Rebound.perm_orders (hr : Rebound f i ds cs r g) (hi : i < f.orders.length)
    (hds : ds.Nodup) (h : ∀ l ∈ f.orders, l.Perm s.domain) : ∀ l ∈ g.orders, l.Perm s.domain := by
  cases hr with
  | refused => exact h
  | own => exact h
  | earlier => exact h
  | new _ _ _ hlength hsub =>
    intro l hl
    simp only [orders, List.map_append, List.map_singleton] at hl
    rw [← List.cons_append, List.mem_append, List.mem_singleton] at hl
    rcases hl with hold | rfl
    · exact h l hold
    · have hown : l.Perm (f.grid i).domain :=
        (List.subperm_of_subset hds hsub).perm_of_length_le (Nat.le_of_eq hlength.symm)
      exact hown.trans (h _ (List.mem_of_getElem? (orders_eq_of_lt hi)))

theorem perm_orders_call (f : Family) {c : Call} (hc : c.grid < f.orders.length)
    (hdistinct : c.Distinct) (h : ∀ l ∈ f.orders, l.Perm s.domain) :
    ∀ l ∈ (f.call c).2.orders, l.Perm s.domain := by
  cases c with
  | rebind i ds cs => exact (rebind_rebound f i ds cs).perm_orders hc hdistinct h
  | axes i d =>
    obtain ⟨-, ho⟩ := axes_keeps f i d
    exact ho ▸ h

theorem Rebound.isSome_iff (hr : Rebound f i ds cs r g) (h : Sound handle s f)
    (hi : i < f.orders.length) (hds : ds.Nodup) (hperm : ∀ l ∈ f.orders, l.Perm s.domain) :
    r.isSome ↔ handle ∈ cs ∧ ds.Perm s.domain := by
  cases r with
  | none =>
    refine iff_of_false Bool.false_ne_true ?_
    rintro ⟨hcs, hsame⟩
    have hown : ds.Perm (f.grid i).domain :=
      hsame.trans (hperm _ (List.mem_of_getElem? (orders_eq_of_lt hi))).symm
    cases hr with
    | refused hrefused =>
      exact (hrefused (h.handle_eq ▸ hcs)).2.2 ⟨hown.length_eq, hown.subset⟩
  | some j =>
    refine iff_of_true rfl ?_
    have ha := hr.answered h hi
    have hg := hr.sound h hi
    exact ⟨hg.handle_eq ▸ ha.candidate,
      hr.perm_orders hi hds hperm ds (List.mem_of_getElem? ha.order)⟩

end Step

section Runs

variable {handle : Nat} {s : CoordinateSystem} {f g : Family}
  {trace more : List (Call × Option Nat)}

theorem Run.unique (h : Run handle s trace f) (h' : Run handle s trace g) : f = g := by
  induction h generalizing g with
  | start =>
    generalize hnil : ([] : List (Call × Option Nat)) = t at h'
    cases h' with
    | start => rfl
    | call => exact absurd hnil.symm (List.append_ne_nil_of_right_ne_nil _ (List.cons_ne_nil _ _))
  | @call trace f c _ _ ih =>
    obtain ⟨f', hf', -, -, rfl⟩ := run_concat_iff.1 h'
    obtain rfl := ih hf'
    rfl

theorem Run.orders_prefix (h : Run handle s trace f) (h' : Run handle s (trace ++ more) g) :
    f.orders <+: g.orders := by
  induction more using List.reverseRecOn generalizing g with
  | nil =>
    rw [List.append_nil] at h'
    obtain rfl := h.unique h'
    exact List.prefix_rfl
  | append_singleton more x ih =>
    rw [← List.append_assoc] at h'
    obtain ⟨f', hf', -, -, rfl⟩ := run_concat_iff.1 h'
    exact (ih hf').trans (call_keeps f' x.1).2

theorem Run.perm_orders (h : Run handle s trace f)
    (hdistinct : ∀ c r, (c, r) ∈ trace → c.Distinct) : ∀ l ∈ f.orders, l.Perm s.domain := by
  induction h with
  | start =>
    intro l hl
    rw [List.mem_singleton.1 hl]
    rfl
  | @call trace f c h hc ih =>
    have hold := ih fun c' r hmem => hdistinct c' r (List.mem_append_left _ hmem)
    exact perm_orders_call f (h.lt_of_reached hc)
      (hdistinct c _ (List.mem_append_right _ (List.mem_singleton.2 rfl))) hold

/--
Over distinct dimensions there is a grid for a variable if and only if the system is a candidate
and has the dimensions of the variable, in any order; the grid has the order of the variable. A grid
asked for is kept under its own order, a reordering of the system, however the run goes on.
-/
theorem Run.isSome_rebind_iff_perm (h : Run handle s trace f)
    (hdistinct : ∀ c r, (c, r) ∈ trace → c.Distinct) :
    (∀ i ∈ reached trace, ∀ ds cs, ds.Nodup →
      ((f.rebind i ds cs).1.isSome ↔ handle ∈ cs ∧ ds.Perm s.domain) ∧
        ∀ j g, f.rebind i ds cs = (some j, g) → (g.grid j).domain = ds) ∧
    (∀ ds j, f.find? ds = some j ↔ 0 < j ∧ f.orders[j]? = some ds) ∧
    (∀ ds ∈ f.orders, ds.Perm s.domain) ∧
    ∀ more g, Run handle s (trace ++ more) g →
      ∀ ds j, f.find? ds = some j → g.find? ds = some j := by
  obtain ⟨hsound, -⟩ := h.sound
  have hperm := h.perm_orders hdistinct
  refine ⟨?_, fun ds j => hsound.find?_eq_some_iff, hperm, ?_⟩
  · intro i hi ds cs hds
    have hlt := h.lt_of_reached hi
    have hr := rebind_rebound f i ds cs
    refine ⟨hr.isSome_iff hsound hlt hds hperm, ?_⟩
    intro j g heq
    rw [heq] at hr
    exact domain_eq_of_orders (hr.answered hsound hlt).order
  · intro more g hmore ds j hfind
    obtain ⟨hj, horder⟩ := hsound.find?_eq_some_iff.1 hfind
    obtain ⟨hlt, hds⟩ := List.getElem?_eq_some_iff.1 horder
    refine hmore.sound.1.find?_eq_some_iff.2 ⟨hj, ?_⟩
    rw [← hds, (h.orders_prefix hmore).getElem hlt]
    exact List.getElem?_eq_getElem _

theorem Run.isSome_rebind_iff_perm_reversed :
    let x : Dimension := ⟨"x", some 4⟩
    let y : Dimension := ⟨"y", some 5⟩
    let s : CoordinateSystem := ⟨"s", [x, y], []⟩
    let trace : List (Call × Option Nat) := [(.rebind 0 [y, x] [0], some 1)]
    let more : List (Call × Option Nat) := [(.rebind 1 [x, y] [0], some 2)]
    ∃ f g, Run 0 s trace f ∧ Run 0 s (trace ++ more) g ∧
      (∀ c r, (c, r) ∈ trace → c.Distinct) ∧ 1 ∈ reached trace ∧ [x, y].Nodup ∧
      (f.rebind 1 [x, y] [0]).1.isSome ∧ g.find? [y, x] = some 1 := by
  intro x y s trace more
  have h : Run 0 s trace _ := .call (.rebind 0 [y, x] [0]) .start (by decide)
  have hmore : Run 0 s (trace ++ more) _ := .call (.rebind 1 [x, y] [0]) h (by decide)
  have hdistinct : ∀ c r, (c, r) ∈ trace → c.Distinct := by
    intro c r hmem
    obtain ⟨rfl, -⟩ := Prod.mk.inj (List.mem_singleton.1 hmem)
    exact show [y, x].Nodup by decide
  obtain ⟨hanswer, -, -, hkept⟩ := h.isSome_rebind_iff_perm hdistinct
  refine ⟨_, _, h, hmore, hdistinct, by decide, by decide, ?_, ?_⟩
  · exact (hanswer 1 (by decide) [x, y] [0] (by decide)).1.2 ⟨by decide, by decide⟩
  · exact hkept _ _ hmore [y, x] 1 rfl

end Runs

end Family

end Gridded
