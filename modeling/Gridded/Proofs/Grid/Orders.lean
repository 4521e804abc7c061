import Gridded.Proofs.Grid.Run
import Mathlib.Data.List.Perm.Subperm

namespace Gridded

namespace Family

structure Sound (handle : Nat) (s : CoordinateSystem) (f : Family) : Prop where
  handle_eq : f.handle = handle
  first_eq : f.first.domain = s.domain
  nodup : (f.others.map Grid.domain).Nodup
  ordered : ∀ ds ∈ f.orders, ds.length = s.domain.length ∧ ds ⊆ s.domain

structure Answered (s : CoordinateSystem) (f : Family) (i : Nat) (ds : List Dimension)
    (cs : List Nat) (j : Nat) : Prop where
  candidate : f.handle ∈ cs
  order : f.orders[j]? = some ds
  first_iff : j = 0 ↔ i = 0 ∧ ds = s.domain

section Step

variable {handle : Nat} {s : CoordinateSystem} {f g : Family} {i j : Nat} {ds : List Dimension}
  {cs : List Nat} {r : Option Nat}

theorem sound_ofSystem : Sound handle s (ofSystem handle s) where
  handle_eq := rfl
  first_eq := rfl
  nodup := .nil
  ordered := by simp [orders, ofSystem]

theorem Sound.ordered_grid (h : Sound handle s f) (hi : i < f.orders.length) :
    (f.grid i).domain.length = s.domain.length ∧ (f.grid i).domain ⊆ s.domain :=
  h.ordered _ (List.mem_of_getElem? (orders_eq_of_lt hi))

theorem Sound.eq_of_domain_eq (h : Sound handle s f) (hi : i < f.orders.length)
    (hj : j < f.orders.length) (hi0 : i ≠ 0) (hj0 : j ≠ 0)
    (hdomain : (f.grid i).domain = (f.grid j).domain) : i = j := by
  have horders : f.orders[i]? = f.orders[j]? := by
    rw [orders_eq_of_lt hi, orders_eq_of_lt hj, hdomain]
  obtain ⟨i, rfl⟩ := Nat.exists_eq_succ_of_ne_zero hi0
  obtain ⟨j, rfl⟩ := Nat.exists_eq_succ_of_ne_zero hj0
  simp only [orders, List.getElem?_cons_succ] at horders
  exact congrArg Nat.succ ((List.getElem?_inj (Nat.lt_of_succ_lt_succ hi) h.nodup).1 horders)

theorem Sound.of_orders_eq (h : Sound handle s f) (hh : g.handle = f.handle)
    (ho : g.orders = f.orders) : Sound handle s g := by
  obtain ⟨hfirst, hothers⟩ := List.cons.inj ho
  constructor
  · exact hh.trans h.handle_eq
  · exact hfirst.trans h.first_eq
  · exact hothers ▸ h.nodup
  · exact ho ▸ h.ordered

theorem Rebound.sound (hr : Rebound f i ds cs r g) (h : Sound handle s f)
    (hi : i < f.orders.length) : Sound handle s g := by
  cases hr with
  | refused => exact h
  | own => exact h
  | earlier => exact h
  | new _ _ hnew hlength hsub =>
    obtain ⟨hl, hs⟩ := h.ordered_grid hi
    constructor
    · exact h.handle_eq
    · exact h.first_eq
    · simpa [List.nodup_append] using ⟨h.nodup, by simpa using hnew⟩
    · intro ds' hds'
      simp only [orders, List.map_append, List.map_singleton] at hds'
      rw [← List.cons_append, List.mem_append, List.mem_singleton] at hds'
      rcases hds' with hold | rfl
      · exact h.ordered ds' hold
      · exact ⟨hlength.trans hl, fun _ hd => hs (hsub hd)⟩

theorem Rebound.keeps (hr : Rebound f i ds cs r g) :
    g.handle = f.handle ∧ f.orders <+: g.orders := by
  cases hr with
  | refused => exact ⟨rfl, List.prefix_rfl⟩
  | own => exact ⟨rfl, List.prefix_rfl⟩
  | earlier => exact ⟨rfl, List.prefix_rfl⟩
  | new => exact ⟨rfl, by simp [orders]⟩

theorem Rebound.answered (hr : Rebound f i ds cs (some j) g) (h : Sound handle s f)
    (hi : i < f.orders.length) : Answered s g i ds cs j := by
  -- A grid other than the one asked is no answer to the first for the dimensions of the system.
  have hfirst (hne : (f.grid i).domain ≠ ds) : ¬(i = 0 ∧ ds = s.domain) := by
    rintro ⟨rfl, rfl⟩
    exact hne h.first_eq
  cases hr with
  | own hcs hown =>
    refine ⟨hcs, hown ▸ orders_eq_of_lt hi, ?_⟩
    constructor
    · rintro rfl
      exact ⟨rfl, hown.symm.trans h.first_eq⟩
    · exact And.left
  | earlier hcs hown hj horder =>
    exact ⟨hcs, horder, iff_of_false (Nat.ne_of_gt hj) (hfirst hown)⟩
  | new hcs hown =>
    refine ⟨hcs, ?_, iff_of_false (Nat.succ_ne_zero _) (hfirst hown)⟩
    simp [orders]

theorem Rebound.ordered (hr : Rebound f i ds cs (some j) g) (h : Sound handle s f)
    (hi : i < f.orders.length) :
    handle ∈ cs ∧ ds.length = s.domain.length ∧ ds ⊆ s.domain := by
  have ha := hr.answered h hi
  have hg := hr.sound h hi
  exact ⟨hg.handle_eq ▸ ha.candidate, hg.ordered ds (List.mem_of_getElem? ha.order)⟩

theorem Answered.mono (h : Answered s f i ds cs j) (hh : g.handle = f.handle)
    (ho : f.orders <+: g.orders) : Answered s g i ds cs j where
  candidate := hh ▸ h.candidate
  order := by
    obtain ⟨hj, hds⟩ := List.getElem?_eq_some_iff.1 h.order
    rw [← hds, ho.getElem hj]
    exact List.getElem?_eq_getElem _
  first_iff := h.first_iff

theorem call_keeps (f : Family) (c : Call) :
    (f.call c).2.handle = f.handle ∧ f.orders <+: (f.call c).2.orders := by
  cases c with
  | rebind i ds cs => exact (rebind_rebound f i ds cs).keeps
  | axes i d =>
    obtain ⟨hh, ho⟩ := axes_keeps f i d
    exact ⟨hh, ho ▸ List.prefix_rfl⟩

theorem Sound.call (h : Sound handle s f) {c : Call} (hc : c.grid < f.orders.length) :
    Sound handle s (f.call c).2 := by
  cases c with
  | rebind i ds cs => exact (rebind_rebound f i ds cs).sound h hc
  | axes i d =>
    obtain ⟨hh, ho⟩ := axes_keeps f i d
    exact h.of_orders_eq hh ho

def CallAnswered (s : CoordinateSystem) (f : Family) (c : Call) (j : Nat) : Prop :=
  ∃ i ds cs, c = .rebind i ds cs ∧ Answered s f i ds cs j

theorem Sound.callAnswered (h : Sound handle s f) {c : Call} (hc : c.grid < f.orders.length)
    (hj : (f.call c).1 = some j) : CallAnswered s (f.call c).2 c j := by
  cases c with
  | rebind i ds cs =>
    have hr := rebind_rebound f i ds cs
    rw [show (f.rebind i ds cs).1 = some j from hj] at hr
    exact ⟨i, ds, cs, rfl, hr.answered h hc⟩
  | axes => cases hj

end Step

section Runs

variable {handle : Nat} {s : CoordinateSystem} {f : Family} {trace : List (Call × Option Nat)}

theorem mem_reached_iff {j : Nat} : j ∈ reached trace ↔ j = 0 ∨ ∃ c, (c, some j) ∈ trace := by
  simp [reached]

theorem lt_of_mem_reached (h : ∀ c j, (c, some j) ∈ trace → CallAnswered s f c j) {i : Nat}
    (hi : i ∈ reached trace) : i < f.orders.length := by
  rcases mem_reached_iff.1 hi with rfl | ⟨c, hc⟩
  · exact Nat.succ_pos _
  · obtain ⟨_, _, _, _, ha⟩ := h c i hc
    exact (List.getElem?_eq_some_iff.1 ha.order).1

theorem Run.sound (h : Run handle s trace f) :
    Sound handle s f ∧ ∀ c j, (c, some j) ∈ trace → CallAnswered s f c j := by
  induction h with
  | start => exact ⟨sound_ofSystem, by simp⟩
  | @call trace f c _ hc ih =>
    obtain ⟨hs, htrace⟩ := ih
    have hlt := lt_of_mem_reached htrace hc
    refine ⟨hs.call hlt, fun c' j hmem => ?_⟩
    rcases List.mem_append.1 hmem with hold | hnew
    · obtain ⟨i, ds, cs, rfl, ha⟩ := htrace c' j hold
      obtain ⟨hh, ho⟩ := call_keeps f c
      exact ⟨i, ds, cs, rfl, ha.mono hh ho⟩
    · obtain ⟨rfl, hj⟩ := Prod.mk.inj (List.mem_singleton.1 hnew)
      exact hs.callAnswered hlt hj.symm

theorem Run.lt_of_reached (h : Run handle s trace f) {i : Nat} (hi : i ∈ reached trace) :
    i < f.orders.length :=
  lt_of_mem_reached h.sound.2 hi

/--
Grids of one order are one grid, but for a grid of the order of the system beside the first. There
is one if and only if some grid other than the first was asked for that order and gave a grid.
-/
theorem Run.order_injective_iff (h : Run handle s trace f) :
    (∀ i ∈ reached trace, ∀ j ∈ reached trace, i ≠ 0 → j ≠ 0 →
      (f.grid i).domain = (f.grid j).domain → i = j) ∧
    ((∀ i ∈ reached trace, ∀ j ∈ reached trace,
      (f.grid i).domain = (f.grid j).domain → i = j) ↔
      ∀ i cs j, (.rebind i s.domain cs, some j) ∈ trace → i = 0) := by
  obtain ⟨hs, htrace⟩ := h.sound
  have hothers : ∀ i ∈ reached trace, ∀ j ∈ reached trace, i ≠ 0 → j ≠ 0 →
      (f.grid i).domain = (f.grid j).domain → i = j :=
    fun i hi j hj => hs.eq_of_domain_eq (h.lt_of_reached hi) (h.lt_of_reached hj)
  refine ⟨hothers, ?_⟩
  constructor
  · intro hone i cs j hmem
    obtain ⟨_, _, _, hcall, ha⟩ := htrace _ j hmem
    cases hcall
    have hj : 0 = j := hone 0 (.head _) j (mem_reached_iff.2 (.inr ⟨_, hmem⟩))
      (hs.first_eq.trans (domain_eq_of_orders ha.order).symm)
    exact (ha.first_iff.1 hj.symm).1
  · intro hasked
    -- Two grids of one order would have to be the first one and another of the order of the system.
    have hfirst : ∀ j ∈ reached trace, j ≠ 0 → s.domain ≠ (f.grid j).domain := by
      intro j hj hj0 hdomain
      obtain ⟨c, hmem⟩ := (mem_reached_iff.1 hj).resolve_left hj0
      obtain ⟨i, ds, cs, rfl, ha⟩ := htrace c j hmem
      obtain rfl : ds = s.domain := (domain_eq_of_orders ha.order).symm.trans hdomain.symm
      exact hj0 (ha.first_iff.2 ⟨hasked i cs j hmem, rfl⟩)
    intro i hi j hj hdomain
    by_cases hi0 : i = 0
    · subst hi0
      by_cases hj0 : j = 0
      · exact hj0.symm
      · exact absurd (hs.first_eq.symm.trans hdomain) (hfirst j hj hj0)
    · by_cases hj0 : j = 0
      · subst hj0
        exact absurd (hs.first_eq.symm.trans hdomain.symm) (hfirst i hi hi0)
      · exact hothers i hi j hj hi0 hj0 hdomain

theorem Run.order_injective_iff_reversed :
    let x : Dimension := ⟨"x", some 4⟩
    let y : Dimension := ⟨"y", some 5⟩
    let s : CoordinateSystem := ⟨"s", [x, y], []⟩
    let trace : List (Call × Option Nat) := [(.rebind 0 [y, x] [0], some 1),
      (.rebind 0 [x, y] [0], some 0), (.rebind 0 [y, x] [0], some 1)]
    ∃ f, Run 0 s trace f ∧ ∀ i ∈ reached trace, ∀ j ∈ reached trace,
      (f.grid i).domain = (f.grid j).domain → i = j := by
  intro x y s trace
  have h : Run 0 s trace _ :=
    .call (.rebind 0 [y, x] [0])
      (.call (.rebind 0 [x, y] [0]) (.call (.rebind 0 [y, x] [0]) .start (by decide)) (by decide))
      (by decide)
  refine ⟨_, h, h.order_injective_iff.2.2 ?_⟩
  intro i cs j hmem
  simp only [trace, List.mem_cons, Prod.mk.injEq, Call.rebind.injEq, List.not_mem_nil,
    or_false] at hmem
  rcases hmem with ⟨⟨hi, -⟩, -⟩ | ⟨⟨hi, -⟩, -⟩ | ⟨⟨hi, -⟩, -⟩
  · exact hi
  · exact hi
  · exact hi

/-- Going to the reverse order and back ends at a second grid of the first order. -/
theorem order_not_injective :
    let x : Dimension := ⟨"x", some 4⟩
    let y : Dimension := ⟨"y", some 5⟩
    let s : CoordinateSystem := ⟨"s", [x, y], []⟩
    ¬∀ trace f, Run 0 s trace f → ∀ i ∈ reached trace, ∀ j ∈ reached trace,
      (f.grid i).domain = (f.grid j).domain → i = j := by
  intro x y s hall
  have hswap : Run 0 s [(.rebind 0 [y, x] [0], some 1)] _ :=
    .call (.rebind 0 [y, x] [0]) .start (by decide)
  have hback : Run 0 s [(.rebind 0 [y, x] [0], some 1), (.rebind 1 [x, y] [0], some 2)] _ :=
    .call (.rebind 1 [x, y] [0]) hswap (by decide)
  have h := hall _ _ hback 0 (by decide) 2 (by decide) rfl
  cases h

/--
The grid found for a variable has the order of the variable, which is one of the system unless it
lists some dimension more often. From the first grid there is one for each list that is as long as
the domain and made of its dimensions.
-/
theorem Run.rebind_perm_iff (h : Run handle s trace f) :
    (∀ i ∈ reached trace, ∀ ds cs j g, f.rebind i ds cs = (some j, g) →
      handle ∈ cs ∧ (g.grid j).domain = ds ∧
        (ds.Perm s.domain ↔ ∀ d, ds.count d ≤ s.domain.count d)) ∧
    ∀ ds cs, (f.rebind 0 ds cs).1.isSome ↔
      handle ∈ cs ∧ ds.length = s.domain.length ∧ ds ⊆ s.domain := by
  obtain ⟨hs, -⟩ := h.sound
  constructor
  · intro i hi ds cs j g heq
    have hr := rebind_rebound f i ds cs
    rw [heq] at hr
    have ha := hr.answered hs (h.lt_of_reached hi)
    obtain ⟨hcs, hlength, -⟩ := hr.ordered hs (h.lt_of_reached hi)
    refine ⟨hcs, domain_eq_of_orders ha.order, ?_⟩
    constructor
    · intro hperm d
      exact Nat.le_of_eq (hperm.count_eq d)
    · intro hcount
      have hsub : ds.Subperm s.domain := List.subperm_ext_iff.2 fun d _ => hcount d
      exact hsub.perm_of_length_le (Nat.le_of_eq hlength.symm)
  · intro ds cs
    have hr := rebind_rebound f 0 ds cs
    have hlt : 0 < f.orders.length := Nat.succ_pos _
    constructor
    · intro hsome
      obtain ⟨j, hj⟩ := Option.isSome_iff_exists.1 hsome
      rw [hj] at hr
      exact hr.ordered hs hlt
    · rintro ⟨hcs, hsame⟩
      revert hr
      generalize (f.rebind 0 ds cs).1 = r, (f.rebind 0 ds cs).2 = g
      rintro (hrefused | _ | _ | _)
      · rw [← hs.first_eq] at hsame
        exact absurd hsame (hrefused (hs.handle_eq ▸ hcs)).2.2
      · rfl
      · rfl
      · rfl

theorem Run.rebind_perm_iff_reversed :
    let x : Dimension := ⟨"x", some 4⟩
    let y : Dimension := ⟨"y", some 5⟩
    let s : CoordinateSystem := ⟨"s", [x, y], []⟩
    ∃ trace f j g, Run 0 s trace f ∧ 1 ∈ reached trace ∧ f.rebind 1 [x, y] [0] = (some j, g) ∧
      (g.grid j).domain = [x, y] ∧ [x, y].Perm s.domain := by
  intro x y s
  have h : Run 0 s [(.rebind 0 [y, x] [0], some 1)] _ :=
    .call (.rebind 0 [y, x] [0]) .start (by decide)
  obtain ⟨-, hdomain, hperm⟩ := h.rebind_perm_iff.1 1 (by decide) [x, y] [0] _ _ rfl
  exact ⟨_, _, _, _, h, by decide, rfl, hdomain, hperm.2 fun d => Nat.le_refl _⟩

theorem rebind_not_perm :
    let x : Dimension := ⟨"x", some 4⟩
    let y : Dimension := ⟨"y", some 5⟩
    let s : CoordinateSystem := ⟨"s", [x, y], []⟩
    ¬∀ trace f, Run 0 s trace f → ∀ i ∈ reached trace, ∀ ds cs j g,
      f.rebind i ds cs = (some j, g) →
        0 ∈ cs ∧ (g.grid j).domain = ds ∧ ds.Perm s.domain := by
  intro x y s hall
  have h := hall [] _ .start 0 (by decide) [x, x] [0] _ _ rfl
  exact absurd h.2.2 (by decide)

end Runs

end Family

end Gridded
