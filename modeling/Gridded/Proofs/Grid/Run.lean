import Gridded.Grid.Family

/-!
Runs of a family: grids are asked for variables and for their axes, starting from the grid of the
system and going on from any grid given out so far. A call either leaves the orders of the grids as
they are or adds one that no variable has asked for.
-/

namespace Gridded

namespace Family

def orders (f : Family) : List (List Dimension) := f.first.domain :: f.others.map Grid.domain

section Orders

variable {f : Family} {i j : Nat} {ds : List Dimension}

theorem domain_eq_of_orders (h : f.orders[i]? = some ds) : (f.grid i).domain = ds := by
  cases i with
  | zero => exact Option.some.inj h
  | succ i =>
    simp only [orders, List.getElem?_cons_succ, List.getElem?_map, Option.map_eq_some_iff] at h
    obtain ⟨g, hg, rfl⟩ := h
    simp [grid, hg]

theorem orders_eq_of_lt (h : i < f.orders.length) : f.orders[i]? = some (f.grid i).domain := by
  have hi := List.getElem?_eq_getElem h
  rw [hi, domain_eq_of_orders hi]

theorem orders_of_find?_eq_some (h : f.find? ds = some j) : 0 < j ∧ f.orders[j]? = some ds := by
  simp only [find?, Option.map_eq_some_iff, List.findIdx?_eq_some_iff_getElem,
    decide_eq_true_eq] at h
  obtain ⟨i, ⟨hi, hdomain, -⟩, rfl⟩ := h
  refine ⟨Nat.succ_pos i, ?_⟩
  simp [orders, hi, hdomain]

theorem notMem_of_find?_eq_none (h : f.find? ds = none) : ds ∉ f.others.map Grid.domain := by
  simp only [find?, Option.map_eq_none_iff, List.findIdx?_eq_none_iff, decide_eq_false_iff_not] at h
  rintro hmem
  obtain ⟨g, hg, hdomain⟩ := List.mem_map.1 hmem
  exact h g hg hdomain

end Orders

inductive Rebound (f : Family) (i : Nat) (ds : List Dimension) (cs : List Nat) :
    Option Nat → Family → Prop
  | refused : (f.handle ∈ cs → (f.grid i).domain ≠ ds ∧ ds ∉ f.others.map Grid.domain ∧
      ¬(ds.length = (f.grid i).domain.length ∧ ds ⊆ (f.grid i).domain)) → Rebound f i ds cs none f
  | own : f.handle ∈ cs → (f.grid i).domain = ds → Rebound f i ds cs (some i) f
  | earlier {j : Nat} : f.handle ∈ cs → (f.grid i).domain ≠ ds → 0 < j →
      f.orders[j]? = some ds → Rebound f i ds cs (some j) f
  | new : f.handle ∈ cs → (f.grid i).domain ≠ ds → ds ∉ f.others.map Grid.domain →
      ds.length = (f.grid i).domain.length → ds ⊆ (f.grid i).domain →
      Rebound f i ds cs (some (f.others.length + 1))
        { f with others := f.others ++ [{ domain := ds }] }

theorem rebind_rebound (f : Family) (i : Nat) (ds : List Dimension) (cs : List Nat) :
    Rebound f i ds cs (f.rebind i ds cs).1 (f.rebind i ds cs).2 := by
  simp only [rebind]
  split
  · next hcs => exact .refused fun h => absurd h hcs
  · next hcs =>
    have hcs := Decidable.not_not.1 hcs
    split
    · next hown => exact .own hcs hown
    · next hown =>
      split
      · next j hfind =>
        obtain ⟨hj, horder⟩ := orders_of_find?_eq_some hfind
        exact .earlier hcs hown hj horder
      · next hfind =>
        split
        · next hsame =>
          obtain ⟨hlength, hall⟩ := hsame
          refine .new hcs hown (notMem_of_find?_eq_none hfind) hlength.symm fun d hd => ?_
          simpa using List.all_eq_true.1 hall d hd
        · next hsame =>
          refine .refused fun _ => ⟨hown, notMem_of_find?_eq_none hfind, ?_⟩
          rintro ⟨hlength, hsub⟩
          refine hsame ⟨hlength.symm, ?_⟩
          exact List.all_eq_true.2 fun d hd => by simpa using hsub hd

theorem Rebound.system_eq {f g : Family} {i : Nat} {ds : List Dimension} {cs : List Nat}
    {r : Option Nat} (hr : Rebound f i ds cs r g) : g.system = f.system := by
  cases hr <;> rfl

section Keep

variable (f : Family) (i : Nat)

theorem orders_keep (axes : List Axis) : (f.keep axes i).orders = f.orders := by
  cases i with
  | zero => rfl
  | succ i =>
    simp only [orders, keep]
    congr 1
    apply List.ext_getElem?
    intro n
    simp only [List.getElem?_map, List.getElem?_modify]
    split
    · cases f.others[n]? <;> rfl
    · cases f.others[n]? <;> rfl

theorem handle_keep (axes : List Axis) : (f.keep axes i).handle = f.handle := by
  cases i <;> rfl

theorem system_keep (axes : List Axis) : (f.keep axes i).system = f.system := by
  cases i <;> rfl

inductive Asked (f : Family) (i : Nat) (d : Dataset) : Except StoreError (List Axis) × Family → Prop
  | kept {axes : List Axis} : (f.grid i).axes = some axes → Asked f i d (.ok axes, f)
  | made {axes : List Axis} : (f.grid i).axes = none → (f.createAxes i d).run.result = .ok axes →
      Asked f i d (.ok axes, f.keep axes i)
  | failed {e : StoreError} : (f.grid i).axes = none →
      (f.createAxes i d).run.result = .error e → Asked f i d (.error e, f)

theorem axes_asked (d : Dataset) : Asked f i d (f.axes i d).result := by
  unfold axes
  split
  · next axes hkept => exact .kept hkept
  · next hnone =>
    rw [Logged.result_bind]
    split
    · next axes hmade => exact .made hnone hmade
    · next e hfailed => exact .failed hnone hfailed

variable {f : Family} {i : Nat} {d : Dataset} {answer : Except StoreError (List Axis) × Family}

theorem Asked.keeps (ha : Asked f i d answer) :
    answer.2.handle = f.handle ∧ answer.2.orders = f.orders := by
  cases ha with
  | kept => exact ⟨rfl, rfl⟩
  | made => exact ⟨handle_keep f i _, orders_keep f i _⟩
  | failed => exact ⟨rfl, rfl⟩

theorem Asked.system_eq (ha : Asked f i d answer) : answer.2.system = f.system := by
  cases ha with
  | kept => rfl
  | made => exact system_keep f i _
  | failed => rfl

theorem axes_keeps (f : Family) (i : Nat) (d : Dataset) :
    (f.axes i d).result.2.handle = f.handle ∧ (f.axes i d).result.2.orders = f.orders :=
  (axes_asked f i d).keeps

end Keep

inductive Call
  | rebind (grid : Nat) (dimensions : List Dimension) (candidates : List Nat)
  | axes (grid : Nat) (dataset : Dataset)

def Call.grid : Call → Nat
  | .rebind i _ _ => i
  | .axes i _ => i

def call (f : Family) : Call → Option Nat × Family
  | .rebind i ds cs => f.rebind i ds cs
  | .axes i d => (none, (f.axes i d).result.2)

def reached (trace : List (Call × Option Nat)) : List Nat := 0 :: trace.filterMap Prod.snd

inductive Run (handle : Nat) (s : CoordinateSystem) : List (Call × Option Nat) → Family → Prop
  | start : Run handle s [] (ofSystem handle s)
  | call {trace : List (Call × Option Nat)} {f : Family} (c : Call) : Run handle s trace f →
      c.grid ∈ reached trace → Run handle s (trace ++ [(c, (f.call c).1)]) (f.call c).2

section Runs

variable {handle : Nat} {s : CoordinateSystem} {f : Family} {trace : List (Call × Option Nat)}

theorem run_concat_iff {c : Call} {r : Option Nat} :
    Run handle s (trace ++ [(c, r)]) f ↔ ∃ g, Run handle s trace g ∧ c.grid ∈ reached trace ∧
      r = (g.call c).1 ∧ f = (g.call c).2 := by
  constructor
  · intro h
    generalize htrace : trace ++ [(c, r)] = t at h
    cases h with
    | start => exact absurd htrace (List.append_ne_nil_of_right_ne_nil _ (List.cons_ne_nil _ _))
    | @call trace' g c' h hc =>
      obtain ⟨rfl, hlast⟩ := List.append_inj' htrace rfl
      obtain ⟨rfl, hr⟩ := Prod.mk.inj (List.singleton_inj.1 hlast)
      exact ⟨g, h, hc, hr, rfl⟩
  · rintro ⟨g, h, hc, rfl, rfl⟩
    exact .call c h hc

theorem system_call (f : Family) (c : Call) : (f.call c).2.system = f.system := by
  cases c with
  | rebind i ds cs => exact (rebind_rebound f i ds cs).system_eq
  | axes i d => exact (axes_asked f i d).system_eq

theorem Run.system_eq (h : Run handle s trace f) : f.system = s := by
  induction h with
  | start => rfl
  | @call trace f c _ _ ih => exact (system_call f c).trans ih

end Runs

end Family

end Gridded
