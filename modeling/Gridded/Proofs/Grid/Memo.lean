import Gridded.Proofs.Grid.Independence
import Gridded.Proofs.Outcome

namespace Gridded

namespace Family

def grids (f : Family) : List Grid := f.first :: f.others

def Call.made? (s : CoordinateSystem) (domain : List Dimension) (i : Nat) :
    Call → Option (List Axis)
  | .rebind .. => none
  | .axes k d => if k = i then (s.createAxes domain d).run.result.toOption else none

section Grids

variable {f g : Family} {i j : Nat}

theorem length_grids (f : Family) : f.grids.length = f.orders.length := by
  simp [grids, orders]

theorem getElem?_grids (h : i < f.orders.length) : f.grids[i]? = some (f.grid i) := by
  cases i with
  | zero => rfl
  | succ i =>
    have hi : i < f.others.length := by simpa [orders] using h
    simp [grids, grid, hi]

theorem grids_keep (f : Family) (axes : List Axis) (i : Nat) :
    (f.keep axes i).grids = f.grids.modify i fun g => { g with axes } := by
  cases i <;> rfl

theorem getElem?_grids_keep (f : Family) (axes : List Axis) (h : j ≠ i) :
    (f.keep axes i).grids[j]? = f.grids[j]? := by
  rw [grids_keep, List.getElem?_modify]
  simp [h.symm]

theorem axes_of_kept {axes : List Axis} (h : (f.grid i).axes = some axes) (d : Dataset) :
    f.axes i d = pure (.ok axes, f) := by
  rw [Family.axes, h]

theorem answer_congr (hsystem : f.system = g.system) (hgrid : f.grid i = g.grid i) (d : Dataset) :
    Prod.fst <$> f.axes i d = Prod.fst <$> g.axes i d := by
  unfold Family.axes createAxes
  rw [hsystem, hgrid]
  cases (g.grid i).axes with
  | some axes => rfl
  | none =>
    simp only [map_bind]
    congr 1
    funext made
    cases made <;> rfl

end Grids

section Memo

variable {handle : Nat} {s : CoordinateSystem} {f g : Family} {i k : Nat} {d : Dataset}
  {ds domain : List Dimension} {cs : List Nat} {r : Option Nat}
  {trace more : List (Call × Option Nat)}

def firstMade? (s : CoordinateSystem) (domain : List Dimension) (i : Nat)
    (trace : List (Call × Option Nat)) : Option (List Axis) :=
  trace.findSome? fun c => c.1.made? s domain i

theorem Call.made?_eq_some_iff {c : Call} {axes : List Axis} :
    c.made? s domain i = some axes ↔
      ∃ d, c = .axes i d ∧ (s.createAxes domain d).run.result = .ok axes := by
  cases c with
  | rebind => exact iff_of_false nofun nofun
  | axes k d =>
    by_cases hki : k = i
    · subst hki
      simp only [made?, if_true, Call.axes.injEq, true_and, exists_eq_left']
      rcases (s.createAxes domain d).run.result with e | made
      · exact iff_of_false nofun nofun
      · rw [Except.toOption, Option.some_inj, Except.ok.injEq]
    · rw [made?, if_neg hki]
      exact iff_of_false nofun fun ⟨_, h, _⟩ => hki (Call.axes.inj h).1

theorem firstMade?_eq_some_iff {axes : List Axis} :
    firstMade? s domain i trace = some axes ↔
      ∃ before d r after, trace = before ++ (.axes i d, r) :: after ∧
        (s.createAxes domain d).run.result = .ok axes ∧
        ∀ d' r', (.axes i d', r') ∈ before →
          ∀ axes', (s.createAxes domain d').run.result ≠ .ok axes' := by
  simp only [firstMade?, List.findSome?_eq_some_iff, Option.eq_none_iff_forall_ne_some, ne_eq,
    Call.made?_eq_some_iff]
  constructor
  · rintro ⟨before, ⟨_, r⟩, after, htrace, ⟨d, rfl, hmade⟩, hbefore⟩
    refine ⟨before, d, r, after, htrace, hmade, fun d' r' hmem axes' hmade' => ?_⟩
    exact hbefore _ hmem axes' ⟨d', rfl, hmade'⟩
  · rintro ⟨before, d, r, after, htrace, hmade, hbefore⟩
    refine ⟨before, _, after, htrace, ⟨d, rfl, hmade⟩, ?_⟩
    rintro ⟨_, r'⟩ hmem axes' ⟨d', rfl, hmade'⟩
    exact hbefore d' r' hmem axes' hmade'

theorem firstMade?_append :
    firstMade? s domain i (trace ++ more) =
      (firstMade? s domain i trace).or (firstMade? s domain i more) :=
  List.findSome?_append

theorem firstMade?_rebind : firstMade? s domain i [(.rebind k ds cs, r)] = none := rfl

theorem firstMade?_axes :
    firstMade? s domain i [(.axes k d, r)] =
      if k = i then (s.createAxes domain d).run.result.toOption else none :=
  List.findSome?_singleton

theorem firstMade?_eq_none_of_lt (h : ∀ c r, (c, r) ∈ trace → c.grid < i) :
    firstMade? s domain i trace = none := by
  refine List.findSome?_eq_none_iff.2 fun c hc => ?_
  have hlt := h c.1 c.2 hc
  rcases c with ⟨_ | ⟨k, d⟩, r⟩
  · rfl
  · exact if_neg (Nat.ne_of_lt hlt)

def Memoised (s : CoordinateSystem) (trace : List (Call × Option Nat)) (f : Family) : Prop :=
  ∀ i grid, f.grids[i]? = some grid → grid.axes = firstMade? s grid.domain i trace

theorem Memoised.axes_grid (h : Memoised s trace f) (hi : i < f.orders.length) :
    (f.grid i).axes = firstMade? s (f.grid i).domain i trace :=
  h i _ (getElem?_grids hi)

theorem Rebound.memoised (hr : Rebound f k ds cs r g) (h : Memoised s trace f)
    (hcalls : ∀ c r, (c, r) ∈ trace → c.grid < f.orders.length) :
    Memoised s (trace ++ [(.rebind k ds cs, r)]) g := by
  intro i grid hgrid
  rw [firstMade?_append, firstMade?_rebind, Option.or_none]
  cases hr with
  | refused => exact h i grid hgrid
  | own => exact h i grid hgrid
  | earlier => exact h i grid hgrid
  | new =>
    have hgrids : (f.grids ++ [{ domain := ds }])[i]? = some grid := hgrid
    rw [List.getElem?_append] at hgrids
    split at hgrids
    · exact h i grid hgrids
    · next hlength =>
      -- No call of the run has asked for the axes of a grid that was not there.
      obtain rfl := List.mem_singleton.1 (List.mem_of_getElem? hgrids)
      rw [length_grids] at hlength
      refine (firstMade?_eq_none_of_lt fun c r hmem => ?_).symm
      exact Nat.lt_of_lt_of_le (hcalls c r hmem) (Nat.not_lt.1 hlength)

theorem Asked.memoised {answer : Except StoreError (List Axis) × Family} (ha : Asked f k d answer)
    (hk : k < f.orders.length) (hsystem : f.system = s) (h : Memoised s trace f) :
    Memoised s (trace ++ [(.axes k d, r)]) answer.2 := by
  intro i grid hgrid
  rw [firstMade?_append, firstMade?_axes]
  by_cases hki : k = i
  · subst hki
    have hasked := h.axes_grid hk
    rw [if_pos rfl]
    cases ha with
    | kept hkept =>
      obtain rfl := Option.some.inj ((getElem?_grids hk).symm.trans hgrid)
      rw [← hasked, hkept, Option.some_or]
    | made hnone hmade =>
      rw [grids_keep, List.getElem?_modify_eq, getElem?_grids hk] at hgrid
      obtain rfl := Option.some.inj hgrid
      rw [createAxes, hsystem] at hmade
      rw [← hasked, hnone, Option.none_or, hmade]
      rfl
    | failed hnone hfailed =>
      obtain rfl := Option.some.inj ((getElem?_grids hk).symm.trans hgrid)
      rw [createAxes, hsystem] at hfailed
      rw [← hasked, hnone, Option.none_or, hfailed]
      rfl
  · rw [if_neg hki, Option.or_none]
    cases ha with
    | kept => exact h i grid hgrid
    | made =>
      rw [getElem?_grids_keep f _ (Ne.symm hki)] at hgrid
      exact h i grid hgrid
    | failed => exact h i grid hgrid

theorem Run.grid_lt (h : Run handle s trace f) :
    ∀ c r, (c, r) ∈ trace → c.grid < f.orders.length := by
  induction h with
  | start => exact fun _ _ => nofun
  | @call trace f c h hc ih =>
    intro c' r hmem
    have hle : f.orders.length ≤ (f.call c).2.orders.length := (call_keeps f c).2.length_le
    rcases List.mem_append.1 hmem with hold | hnew
    · exact Nat.lt_of_lt_of_le (ih c' r hold) hle
    · obtain ⟨rfl, -⟩ := Prod.mk.inj (List.mem_singleton.1 hnew)
      exact Nat.lt_of_lt_of_le (h.lt_of_reached hc) hle

theorem Run.memoised (h : Run handle s trace f) : Memoised s trace f := by
  induction h with
  | start =>
    intro i grid hgrid
    obtain rfl := List.mem_singleton.1 (List.mem_of_getElem? hgrid)
    rfl
  | @call trace f c h hc ih =>
    cases c with
    | rebind k ds cs => exact (rebind_rebound f k ds cs).memoised ih h.grid_lt
    | axes k d => exact (axes_asked f k d).memoised (h.lt_of_reached hc) h.system_eq ih

end Memo

section Skip

variable {handle : Nat} {s : CoordinateSystem} {f g : Family} {i k : Nat} {d : Dataset}
  {ds : List Dimension} {cs : List Nat} {r : Option Nat} {trace more : List (Call × Option Nat)}

structure AgreesBut (i : Nat) (f g : Family) : Prop where
  handle_eq : f.handle = g.handle
  system_eq : f.system = g.system
  orders_eq : f.orders = g.orders
  grids_eq : ∀ j, j ≠ i → f.grids[j]? = g.grids[j]?

theorem AgreesBut.refl (i : Nat) (f : Family) : AgreesBut i f f := ⟨rfl, rfl, rfl, fun _ _ => rfl⟩

theorem AgreesBut.trans {f' : Family} (h : AgreesBut i f g) (h' : AgreesBut i g f') :
    AgreesBut i f f' where
  handle_eq := h.handle_eq.trans h'.handle_eq
  system_eq := h.system_eq.trans h'.system_eq
  orders_eq := h.orders_eq.trans h'.orders_eq
  grids_eq j hj := (h.grids_eq j hj).trans (h'.grids_eq j hj)

theorem AgreesBut.symm (h : AgreesBut i f g) : AgreesBut i g f where
  handle_eq := h.handle_eq.symm
  system_eq := h.system_eq.symm
  orders_eq := h.orders_eq.symm
  grids_eq j hj := (h.grids_eq j hj).symm

theorem agreesBut_keep (f : Family) (axes : List Axis) (i : Nat) :
    AgreesBut i (f.keep axes i) f where
  handle_eq := handle_keep f i axes
  system_eq := system_keep f i axes
  orders_eq := orders_keep f i axes
  grids_eq _ hj := getElem?_grids_keep f axes hj

theorem AgreesBut.keep (h : AgreesBut i f g) (axes : List Axis) (k : Nat) :
    AgreesBut i (f.keep axes k) (g.keep axes k) where
  handle_eq := by rw [handle_keep, handle_keep, h.handle_eq]
  system_eq := by rw [system_keep, system_keep, h.system_eq]
  orders_eq := by rw [orders_keep, orders_keep, h.orders_eq]
  grids_eq j hj := by
    rw [grids_keep, grids_keep, List.getElem?_modify, List.getElem?_modify, h.grids_eq j hj]

theorem Asked.agreesBut {answer : Except StoreError (List Axis) × Family}
    (ha : Asked f i d answer) : AgreesBut i answer.2 f := by
  cases ha with
  | kept => exact .refl i f
  | made => exact agreesBut_keep f _ i
  | failed => exact .refl i f

theorem AgreesBut.grid_eq (h : AgreesBut i f g) (hk : k ≠ i) (hlt : k < f.orders.length) :
    f.grid k = g.grid k := by
  have hgrids := h.grids_eq k hk
  rw [getElem?_grids hlt, getElem?_grids (h.orders_eq ▸ hlt)] at hgrids
  exact Option.some.inj hgrids

theorem AgreesBut.domain_eq (h : AgreesBut i f g) (hlt : k < f.orders.length) :
    (f.grid k).domain = (g.grid k).domain := by
  have horders := orders_eq_of_lt hlt
  rw [h.orders_eq, orders_eq_of_lt (h.orders_eq ▸ hlt)] at horders
  exact (Option.some.inj horders).symm

theorem find?_eq (f : Family) (ds : List Dimension) :
    f.find? ds = (f.orders.tail.findIdx? (· = ds)).map (· + 1) := by
  rw [orders, List.tail_cons, List.findIdx?_map]
  rfl

theorem AgreesBut.rebind (h : AgreesBut i f g) (hk : k < f.orders.length) :
    (f.rebind k ds cs).1 = (g.rebind k ds cs).1 ∧
      AgreesBut i (f.rebind k ds cs).2 (g.rebind k ds cs).2 := by
  have hfind : f.find? ds = g.find? ds := by rw [find?_eq, find?_eq, h.orders_eq]
  have hlength : f.others.length = g.others.length := by
    have := congrArg List.length h.orders_eq
    simpa [orders] using this
  let asked : Grid := { domain := ds }
  have horders : ({ f with others := f.others ++ [asked] } : Family).orders =
      ({ g with others := g.others ++ [asked] } : Family).orders := by
    simp only [orders, List.map_append, ← List.cons_append]
    exact congrArg (· ++ [ds]) h.orders_eq
  have hgrids : ∀ j, j ≠ i → (f.grids ++ [asked])[j]? = (g.grids ++ [asked])[j]? := by
    intro j hj
    rw [List.getElem?_append, List.getElem?_append, h.grids_eq j hj, length_grids, length_grids,
      h.orders_eq]
  simp only [Family.rebind, h.handle_eq, h.domain_eq hk, hfind, hlength]
  split
  · exact ⟨rfl, h⟩
  · split
    · exact ⟨rfl, h⟩
    · split
      · exact ⟨rfl, h⟩
      · split
        · exact ⟨rfl, rfl, h.system_eq, horders, hgrids⟩
        · exact ⟨rfl, h⟩

theorem AgreesBut.axes (h : AgreesBut i f g) (hk : k < f.orders.length) :
    AgreesBut i (f.axes k d).result.2 (g.axes k d).result.2 := by
  by_cases hki : k = i
  · subst hki
    exact (axes_asked f k d).agreesBut.trans (h.trans (axes_asked g k d).agreesBut.symm)
  · have hgrid := h.grid_eq hki hk
    unfold Family.axes createAxes
    rw [h.system_eq, hgrid]
    cases (g.grid k).axes with
    | some axes => exact h
    | none =>
      simp only [Logged.result_bind]
      rcases (g.system.createAxes (g.grid k).domain d).run.result with e | axes
      · exact h
      · exact h.keep axes k

theorem AgreesBut.call (h : AgreesBut i f g) {c : Call} (hc : c.grid < f.orders.length) :
    (f.call c).1 = (g.call c).1 ∧ AgreesBut i (f.call c).2 (g.call c).2 := by
  cases c with
  | rebind k ds cs => exact h.rebind hc
  | axes k d => exact ⟨rfl, h.axes hc⟩

theorem reached_axes (trace more : List (Call × Option Nat)) (i : Nat) (d : Dataset) :
    reached (trace ++ (.axes i d, none) :: more) = reached (trace ++ more) := by
  simp [reached]

theorem Run.without_axes (h : Run handle s (trace ++ (.axes i d, none) :: more) g) :
    ∃ g', Run handle s (trace ++ more) g' ∧ AgreesBut i g g' := by
  induction more using List.reverseRecOn generalizing g with
  | nil =>
    obtain ⟨f, hf, -, -, rfl⟩ := run_concat_iff.1 h
    rw [List.append_nil]
    exact ⟨f, hf, (axes_asked f i d).agreesBut⟩
  | append_singleton more c ih =>
    rw [← List.cons_append, ← List.append_assoc] at h
    obtain ⟨f, hf, hc, hr, rfl⟩ := run_concat_iff.1 h
    obtain ⟨f', hf', hagrees⟩ := ih hf
    obtain ⟨hanswer, hcall⟩ := hagrees.call (hf.lt_of_reached hc)
    rw [reached_axes] at hc
    refine ⟨_, ?_, hcall⟩
    rw [← List.append_assoc]
    exact run_concat_iff.2 ⟨f', hf', hc, hr.trans hanswer, rfl⟩

theorem Run.skip_iff (h : Run handle s trace f) (hi : i ∈ reached trace)
    (hsame : (f.axes i d).result.2 = f) :
    Run handle s (trace ++ (.axes i d, none) :: more) g ↔ Run handle s (trace ++ more) g := by
  induction more using List.reverseRecOn generalizing g with
  | nil =>
    rw [run_concat_iff, List.append_nil]
    constructor
    · rintro ⟨f', hf', -, -, rfl⟩
      obtain rfl := h.unique hf'
      exact hsame.symm ▸ h
    · intro hg
      obtain rfl := h.unique hg
      exact ⟨f, h, hi, rfl, hsame.symm⟩
  | append_singleton more c ih =>
    rw [← List.cons_append, ← List.append_assoc, ← List.append_assoc, run_concat_iff,
      run_concat_iff, reached_axes]
    simp only [ih]

theorem Asked.firstMade?_eq {answer : Except StoreError (List Axis) × Family} {axes : List Axis}
    (ha : Asked f i d answer) (hok : answer.1 = .ok axes) (h : Memoised s trace f)
    (hi : i < f.orders.length) (hsystem : f.system = s) :
    firstMade? s (f.grid i).domain i (trace ++ [(.axes i d, none)]) = some axes := by
  have hasked := h.axes_grid hi
  rw [firstMade?_append, firstMade?_axes, if_pos rfl, ← hasked]
  cases ha with
  | kept hkept =>
    obtain rfl := Except.ok.inj hok
    rw [hkept, Option.some_or]
  | made hnone hmade =>
    obtain rfl := Except.ok.inj hok
    rw [createAxes, hsystem] at hmade
    rw [hnone, Option.none_or, hmade]
    rfl
  | failed => cases hok

theorem Asked.eq_of_error {answer : Except StoreError (List Axis) × Family} {e : StoreError}
    (ha : Asked f i d answer) (he : answer.1 = .error e) : answer.2 = f := by
  cases ha with
  | kept => cases he
  | made => cases he
  | failed => rfl

theorem Run.domain_eq_of_append (h : Run handle s trace f) (hi : i < f.orders.length)
    (hg : Run handle s (trace ++ more) g) :
    i < g.orders.length ∧ (g.grid i).domain = (f.grid i).domain := by
  have hprefix := h.orders_prefix hg
  have hlt := Nat.lt_of_lt_of_le hi hprefix.length_le
  refine ⟨hlt, domain_eq_of_orders ?_⟩
  rw [← orders_eq_of_lt hi, List.getElem?_eq_getElem hlt, List.getElem?_eq_getElem hi,
    hprefix.getElem hi]

/--
Axes of grids are created once. A call for axes that fails leaves the family as it was, so a run is
one without it too. Once a call gives axes, each later one for that grid gives the same, those
created with the first dataset from which they could be, and consults and tells nothing. Grids of
other orders answer as if the call had not been made.
-/
theorem Run.axes_memoised (h : Run handle s trace f) (hi : i ∈ reached trace) (d : Dataset) :
    let asked := (f.axes i d).result
    let domain := (f.grid i).domain
    (∀ e, asked.1 = .error e → asked.2 = f ∧ ∀ more g,
      Run handle s (trace ++ (.axes i d, none) :: more) g ↔ Run handle s (trace ++ more) g) ∧
    (∀ axes, asked.1 = .ok axes →
      (∃ before first r after,
        trace ++ [(.axes i d, none)] = before ++ (.axes i first, r) :: after ∧
        (s.createAxes domain first).run.result = .ok axes ∧
        ∀ d' r', (.axes i d', r') ∈ before →
          ∀ axes', (s.createAxes domain d').run.result ≠ .ok axes') ∧
      ∀ more g, Run handle s (trace ++ (.axes i d, none) :: more) g →
        ∀ d', g.axes i d' = pure (.ok axes, g)) ∧
    ∀ more g, Run handle s (trace ++ (.axes i d, none) :: more) g →
      ∃ g', Run handle s (trace ++ more) g' ∧ ∀ j ∈ reached (trace ++ more),
        (g.grid j).domain ≠ domain →
          ∀ d', Prod.fst <$> g.axes j d' = Prod.fst <$> g'.axes j d' := by
  intro asked domain
  have hlt := h.lt_of_reached hi
  have ha : Asked f i d asked := axes_asked f i d
  refine ⟨fun e he => ?_, fun axes hok => ?_, fun more g hg => ?_⟩
  · have hsame : asked.2 = f := ha.eq_of_error he
    exact ⟨hsame, fun more g => h.skip_iff hi hsame⟩
  · have hfirst := ha.firstMade?_eq hok h.memoised hlt h.system_eq
    refine ⟨firstMade?_eq_some_iff.1 hfirst, fun more g hg d' => axes_of_kept ?_ d'⟩
    obtain ⟨hlt', hdomain⟩ := h.domain_eq_of_append hlt hg
    rw [hg.memoised.axes_grid hlt', hdomain, List.append_cons, firstMade?_append, hfirst,
      Option.some_or]
  · obtain ⟨g', hg', hagrees⟩ := hg.without_axes
    refine ⟨g', hg', fun j hj hdomain d' => ?_⟩
    have hji : j ≠ i := by
      rintro rfl
      exact hdomain (h.domain_eq_of_append hlt hg).2
    rw [← reached_axes] at hj
    exact answer_congr hagrees.system_eq (hagrees.grid_eq hji (hg.lt_of_reached hj)) d'

theorem Run.axes_memoised_unreadable :
    let x : Dimension := ⟨"x", some 4⟩
    let y : Dimension := ⟨"y", some 5⟩
    let s : CoordinateSystem := ⟨"s", [x, y], [⟨"lon", some .lon, none, [x]⟩]⟩
    let without : Dataset := { name := "f" }
    let d : Dataset := { name := "f", «variables» := [⟨⟨"lon", []⟩, .double, [x], true⟩] }
    let trace : List (Call × Option Nat) := [(.rebind 0 [y, x] [0], some 1)]
    ∃ f g axes, Run 0 s trace f ∧ 0 ∈ reached trace ∧ (f.axes 0 without).result.2 = f ∧
      Run 0 s (trace ++ [(.axes 0 d, none)]) g ∧ axes.map Axis.sources = [[(0, 4)]] ∧
      g.axes 0 without = pure (.ok axes, g) ∧
      (g.axes 1 without).result.1 = .error (.content (.missingAxis "f" "lon")) := by
  intro x y s without d trace
  have h : Run 0 s trace _ := .call (.rebind 0 [y, x] [0]) .start (by decide)
  have hi : 0 ∈ reached trace := by decide
  have hd : Run 0 s (trace ++ [(.axes 0 d, none)]) _ := .call (.axes 0 d) h hi
  obtain ⟨hfail, -, -⟩ := h.axes_memoised hi without
  obtain ⟨-, hok, hothers⟩ := h.axes_memoised hi d
  obtain ⟨-, hlater⟩ := hok _ rfl
  obtain ⟨g', hg', hanswer⟩ := hothers [] _ hd
  obtain rfl := h.unique hg'
  have hsame := congrArg Logged.result (hanswer 1 (by decide) (by decide) without)
  exact ⟨_, _, _, h, hi, (hfail _ rfl).1, hd, rfl, hlater [] _ hd without, hsame⟩

end Skip

end Family

end Gridded
