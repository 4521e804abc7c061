import Gridded.Proofs.Grid.Independence
import Gridded.Proofs.Grid.Listing
import Gridded.Proofs.Grid.Shape
import Mathlib

namespace Gridded

def Renames (domain domain' : List Dimension) (place : Nat → Nat) : Prop :=
  ∀ i < domain.length, domain'[place i]? = domain[i]?

section Places

variable {domain domain' : List Dimension} {place : Nat → Nat}

theorem exists_renames (h : domain.Perm domain') : ∃ place, Renames domain domain' place := by
  refine ⟨fun i => (domain[i]?.map domain'.idxOf).getD i, fun i hi => ?_⟩
  have hmem : domain[i] ∈ domain' := h.subset (List.getElem_mem hi)
  simp only [List.getElem?_eq_getElem hi, Option.map_some, Option.getD_some]
  rw [List.getElem?_eq_getElem (List.idxOf_lt_length_of_mem hmem), List.getElem_idxOf]

theorem Renames.lastPlace? (hplace : Renames domain domain' place) (h : domain.Perm domain')
    (hdistinct : domain.Nodup) (d : Dimension) :
    lastPlace? domain' d = (lastPlace? domain d).map place := by
  cases hd : Gridded.lastPlace? domain d with
  | none =>
    rw [lastPlace?_eq_none_iff] at hd
    exact lastPlace?_eq_none_iff.2 (mt h.mem_iff.2 hd)
  | some i =>
    obtain ⟨hi, -⟩ := lastPlace?_eq_some_iff.1 hd
    obtain ⟨hlt, -⟩ := List.getElem?_eq_some_iff.1 hi
    exact lastPlace?_of_nodup (h.nodup_iff.1 hdistinct) ((hplace i hlt).trans hi)

theorem Renames.place_eq (hplace : Renames domain domain' place) (hdistinct : domain'.Nodup)
    {i k : Nat} (hi : i < domain.length) (hk : domain'[k]? = domain[i]?) : place i = k := by
  have heq := (hplace i hi).trans hk.symm
  obtain ⟨hlt, -⟩ := List.getElem?_eq_some_iff.1 ((hplace i hi).trans (List.getElem?_eq_getElem hi))
  exact (List.getElem?_inj hlt hdistinct).1 heq

end Places

def Axis.rename (place : Nat → Nat) (a : Axis) : Axis :=
  { a with sources := a.sources.map (Prod.map place id) }

theorem Axis.map_sources_rename (place : Nat → Nat) (axes : List Axis) :
    (axes.map (rename place)).map sources =
      (axes.map sources).map (List.map (Prod.map place id)) := by
  simp only [List.map_map, Function.comp_def, rename]

theorem Grid.shape_rename {g g' : Grid} {place : Nat → Nat}
    (hplace : Renames g.domain g'.domain place) {sizes sizes' : List Nat}
    (h : g.shape = some sizes) (h' : g'.shape = some sizes') :
    ∀ n < g.domain.length, sizes'.reverse[place n]? = sizes.reverse[n]? := by
  intro n hn
  have hsizes : sizes.reverse.map some = g.domain.map Dimension.length := by
    rw [List.map_reverse, (shape_eq_some_iff.1 h).1, List.reverse_reverse]
  have hsizes' : sizes'.reverse.map some = g'.domain.map Dimension.length := by
    rw [List.map_reverse, (shape_eq_some_iff.1 h').1, List.reverse_reverse]
  apply Option.map_injective (Option.some_injective Nat)
  rw [← List.getElem?_map, hsizes', ← List.getElem?_map, hsizes, List.getElem?_map,
    List.getElem?_map, hplace n hn]

theorem Grid.isSome_shape_of_perm {g g' : Grid} (h : g.domain.Perm g'.domain) :
    g'.shape.isSome ↔ g.shape.isSome := by
  simp only [isSome_shape_iff, h.mem_iff]

theorem mapM_map_result {m : Type → Type} [Monad m] [LawfulMonad m] {α β γ : Type} (f : α → m β)
    (g : β → γ) (xs : List α) : (xs.mapM fun x => g <$> f x) = List.map g <$> xs.mapM f := by
  induction xs with
  | nil => rw [List.mapM_nil, List.mapM_nil, map_pure, List.map_nil]
  | cons x xs ih =>
    simp only [List.mapM_cons, ih, bind_map_left, map_bind, map_pure, List.map_cons]

namespace CoordinateSystem

variable {s : CoordinateSystem} {domain domain' : List Dimension} {place : Nat → Nat}

theorem sources_rename (hplace : ∀ d, lastPlace? domain' d = (lastPlace? domain d).map place)
    (axis : String) (ds : List Dimension) :
    s.sources domain' axis ds = List.map (Prod.map place id) <$> s.sources domain axis ds := by
  induction ds with
  | nil => rfl
  | cons d ds ih =>
    rw [sources, sources, hplace]
    cases lastPlace? domain d with
    | none => simp only [Option.map_none, ih, map_bind]
    | some i =>
      simp only [Option.map_some, ih]
      split
      · simp only [bind_map_left, map_bind, map_pure, List.map_cons, Prod.map_apply, id_eq]
      · rfl

theorem createAxis_rename (hplace : ∀ d, lastPlace? domain' d = (lastPlace? domain d).map place)
    (d : Dataset) (a : CoordinateAxis) :
    s.createAxis domain' d a = Axis.rename place <$> s.createAxis domain d a := by
  simp only [createAxis, sources_rename hplace, bind_map_left, map_bind]
  congr 1
  funext sources
  rcases d.findVariable a.name with e | _ | v <;> rfl

theorem made_rename (hplace : ∀ d, lastPlace? domain' d = (lastPlace? domain d).map place)
    (d : Dataset) :
    s.axes.reverse.mapM (s.createAxis domain' d) =
      List.map (Axis.rename place) <$> s.axes.reverse.mapM (s.createAxis domain d) := by
  rw [← mapM_map_result]
  congr 1
  funext a
  exact createAxis_rename hplace d a

theorem warnings_createAxes_eq (s : CoordinateSystem) (domain : List Dimension) (d : Dataset) :
    (s.createAxes domain d).run.events.filter (·.level = .warn) =
      (s.axes.reverse.mapM (s.createAxis domain d)).run.events.filter (·.level = .warn) := by
  rw [createAxes, ExceptT.run_bind, Logged.events_bind, List.filter_append]
  rcases (s.axes.reverse.mapM (s.createAxis domain d)).run.result with e | made
  · exact List.append_nil _
  · cases s.inDomainOrder domain <;> exact List.append_nil _

theorem createAxes_rename (hplace : ∀ d, lastPlace? domain' d = (lastPlace? domain d).map place)
    (d : Dataset) :
    (s.createAxes domain' d).run.result = (s.createAxes domain d).run.result.map fun axes =>
      let renamed := axes.map (Axis.rename place)
      if s.ListedInOrder domain' ↔ s.ListedInOrder domain then renamed else renamed.reverse := by
  simp only [result_createAxes, ← Logged.result_run_mapM, made_rename hplace, Logged.result_run_map,
    inDomainOrder_iff]
  rcases (s.axes.reverse.mapM (s.createAxis domain d)).run.result with e | made
  · rfl
  · simp only [Except.map]
    by_cases h : s.ListedInOrder domain <;> by_cases h' : s.ListedInOrder domain' <;>
      simp [h, h']

theorem warnings_createAxes_rename
    (hplace : ∀ d, lastPlace? domain' d = (lastPlace? domain d).map place) (d : Dataset) :
    (s.createAxes domain' d).run.events.filter (·.level = .warn) =
      (s.createAxes domain d).run.events.filter (·.level = .warn) := by
  rw [warnings_createAxes_eq, warnings_createAxes_eq, made_rename hplace, Logged.events_run_map]

end CoordinateSystem

namespace Family

variable {handle : Nat} {s : CoordinateSystem} {f : Family} {trace : List (Call × Option Nat)}

theorem Run.exists_rebind_of_perm (h : Run handle s trace f) {i : Nat} (hi : i ∈ reached trace)
    {ds : List Dimension} {cs : List Nat} (hds : ds.Perm (f.grid i).domain) (hcs : handle ∈ cs) :
    ∃ j g, f.rebind i ds cs = (some j, g) ∧ (g.grid j).domain = ds ∧ g.system = s := by
  have hr := rebind_rebound f i ds cs
  obtain ⟨hsound, -⟩ := h.sound
  cases hanswer : f.rebind i ds cs with
  | mk r g =>
    rw [hanswer] at hr
    cases r with
    | none =>
      cases hr with
      | refused hrefused =>
        exact absurd ⟨hds.length_eq, hds.subset⟩ (hrefused (hsound.handle_eq ▸ hcs)).2.2
    | some j =>
      refine ⟨j, g, rfl, ?_, hr.system_eq.trans h.system_eq⟩
      exact domain_eq_of_orders (hr.answered hsound (h.lt_of_reached hi)).order

/--
For each order of distinct dimensions there is a grid of the same system. Its axes are those of the
grid that is asked with the places of the sources renamed, or the failure is the same; the warnings
are the same, and its shape has the same sizes with the dimensions in their places. Only the
direction of the list of axes differs if one of the orders lists them in its own and one does not.
-/
theorem Run.createAxes_reordered (h : Run handle s trace f) (hdistinct : s.domain.Nodup) {i : Nat}
    (hi : i ∈ reached trace) (hown : (f.grid i).domain.Perm s.domain) {ds : List Dimension}
    {cs : List Nat} (hds : ds.Perm s.domain) (hcs : handle ∈ cs) :
    ∃ j g place, f.rebind i ds cs = (some j, g) ∧ (g.grid j).domain = ds ∧ g.system = f.system ∧
      g.sourceRank = f.sourceRank ∧ g.targetRank = f.targetRank ∧
      Renames (f.grid i).domain ds place ∧
      (∀ d, (g.createAxes j d).run.result = (f.createAxes i d).run.result.map (fun axes =>
          let renamed := axes.map (Axis.rename place)
          if s.ListedInOrder ds ↔ s.ListedInOrder (f.grid i).domain then renamed
          else renamed.reverse) ∧
        (g.createAxes j d).run.events.filter (·.level = .warn) =
          (f.createAxes i d).run.events.filter (·.level = .warn)) ∧
      ((g.grid j).shape.isSome ↔ (f.grid i).shape.isSome) ∧
      ∀ sizes sizes', (f.grid i).shape = some sizes → (g.grid j).shape = some sizes' →
        ∀ n < (f.grid i).domain.length, sizes'.reverse[place n]? = sizes.reverse[n]? := by
  have hperm : (f.grid i).domain.Perm ds := hown.trans hds.symm
  obtain ⟨j, g, hg, hdomain, hsystem⟩ := h.exists_rebind_of_perm hi hperm.symm hcs
  obtain ⟨place, hplace⟩ := exists_renames hperm
  have hlast := hplace.lastPlace? hperm (hown.nodup_iff.2 hdistinct)
  have hsame : g.system = f.system := hsystem.trans h.system_eq.symm
  refine ⟨j, g, place, hg, hdomain, hsame, congrArg CoordinateSystem.sourceRank hsame,
    congrArg CoordinateSystem.targetRank hsame, hplace, fun d => ?_, ?_, ?_⟩
  · simp only [createAxes, hdomain, hsystem, h.system_eq]
    exact ⟨s.createAxes_rename hlast d, s.warnings_createAxes_rename hlast d⟩
  · exact Grid.isSome_shape_of_perm (hdomain.symm ▸ hperm)
  · intro sizes sizes' hsizes hsizes'
    exact Grid.shape_rename (hdomain.symm ▸ hplace) hsizes hsizes'

theorem Run.createAxes_reordered_rotated :
    let t : Dimension := ⟨"t", some 3⟩
    let y : Dimension := ⟨"y", some 4⟩
    let x : Dimension := ⟨"x", some 5⟩
    let s : CoordinateSystem := ⟨"s", [t, y, x],
      [⟨"time", some .time, none, [t]⟩, ⟨"lat", some .lat, none, [y]⟩,
        ⟨"lon", some .lon, none, [x]⟩]⟩
    let d : Dataset := {
      name := "f"
      «variables» := [⟨⟨"time", []⟩, .double, [t], true⟩, ⟨⟨"lat", []⟩, .double, [y], true⟩,
        ⟨⟨"lon", []⟩, .double, [x], true⟩] }
    ∃ j g axes, (ofSystem 0 s).rebind 0 [x, t, y] [0] = (some j, g) ∧
      (g.createAxes j d).run.result = .ok axes ∧
      axes.map Axis.sources = [[(0, 5)], [(2, 4)], [(1, 3)]] ∧
      (g.grid j).shape.isSome := by
  intro t y x s d
  have h : Run 0 s [] _ := .start
  have hds : [x, t, y].Perm s.domain := by decide
  have hcs : 0 ∈ [0] := by decide
  obtain ⟨j, g, place, hg, -, -, -, -, hplace, haxes, hshape, -⟩ :=
    h.createAxes_reordered (by decide) (i := 0) (by decide) (.refl _) hds hcs
  have hdistinct : [x, t, y].Nodup := by decide
  have ht : place 0 = 1 := hplace.place_eq hdistinct (by decide) rfl
  have hy : place 1 = 2 := hplace.place_eq hdistinct (by decide) rfl
  have hx : place 2 = 0 := hplace.place_eq hdistinct (by decide) rfl
  obtain ⟨original, horiginal, hsources⟩ : ∃ original,
      ((ofSystem 0 s).createAxes 0 d).run.result = .ok original ∧
        original.map Axis.sources = [[(0, 3)], [(1, 4)], [(2, 5)]] := ⟨_, rfl, rfl⟩
  have hmade := (haxes d).1
  rw [horiginal, Except.map, if_neg (by decide)] at hmade
  refine ⟨j, g, _, hg, hmade, ?_, hshape.2 (by decide)⟩
  rw [List.map_reverse, Axis.map_sources_rename, hsources]
  simp [ht, hy, hx]

end Family

end Gridded
