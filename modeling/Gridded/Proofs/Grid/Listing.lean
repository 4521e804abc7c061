import Gridded.Proofs.Grid.Axes
import Mathlib.Data.List.Nodup

namespace Gridded

variable {domain : List Dimension} {as : List CoordinateAxis}

def AxisPerDimension (as : List CoordinateAxis) (domain : List Dimension) : Prop :=
  List.Forall₂ (fun a dim => a.dimensions = [dim]) as domain

instance (as : List CoordinateAxis) (domain : List Dimension) :
    Decidable (AxisPerDimension as domain) :=
  inferInstanceAs (Decidable (List.Forall₂ _ _ _))

theorem AxisPerDimension.reverse (h : AxisPerDimension as domain) :
    AxisPerDimension as.reverse domain.reverse :=
  List.forall₂_reverse_iff.2 h

theorem AxisPerDimension.domain_eq {domain' : List Dimension} (h : AxisPerDimension as domain)
    (h' : AxisPerDimension as domain') : domain = domain' :=
  List.right_unique_forall₂' (fun _ _ _ hdim hdim' => List.singleton_inj.1 (hdim.symm.trans hdim'))
    h h'

theorem lastPlace?_of_nodup {dim : Dimension} {i : Nat} (hdistinct : domain.Nodup)
    (h : domain[i]? = some dim) : lastPlace? domain dim = some i := by
  refine lastPlace?_eq_some_iff.2 ⟨h, fun j hij hj => ?_⟩
  obtain ⟨hi, rfl⟩ := List.getElem?_eq_some_iff.1 h
  obtain ⟨hj, heq⟩ := List.getElem?_eq_some_iff.1 hj
  have := hdistinct.getElem_inj_iff.1 heq
  omega

theorem AxisPerDimension.map_sources_eq (has : AxisPerDimension as domain)
    (hdistinct : domain.Nodup) :
    (as.map fun a =>
        a.dimensions.filterMap fun dim => (lastPlace? domain dim).map (·, dim.length.getD 0)) =
      domain.mapIdx fun i dim => [(i, dim.length.getD 0)] := by
  apply List.ext_getElem
  · rw [List.length_map, List.length_mapIdx, has.length_eq]
  · intro i hi hi'
    rw [List.length_map] at hi
    rw [List.length_mapIdx] at hi'
    have hdims : as[i].dimensions = [domain[i]] := has.get hi hi'
    have hplace := lastPlace?_of_nodup hdistinct (List.getElem?_eq_getElem hi')
    simp only [List.getElem_map, List.getElem_mapIdx, hdims, List.filterMap_cons, hplace,
      Option.map_some, List.filterMap_nil]

theorem length_le_one_of_reverse_eq (hdistinct : domain.Nodup) (h : domain.reverse = domain) :
    domain.length ≤ 1 := by
  by_contra hlong
  have hlast : domain.reverse[0]? = domain[0]? := by rw [h]
  rw [List.getElem?_reverse (by omega), List.getElem?_eq_getElem (by omega),
    List.getElem?_eq_getElem (by omega), Option.some_inj, hdistinct.getElem_inj_iff] at hlast
  omega

namespace CoordinateSystem

variable {s : CoordinateSystem} {d : Dataset}

theorem listedInOrder_iff_of_length_eq (h : s.axes.length = domain.length) :
    s.ListedInOrder domain ↔ AxisPerDimension s.axes domain := by
  rw [← inDomainOrder_iff, inDomainOrder, List.all_eq_true, AxisPerDimension, List.forall₂_iff_zip,
    and_iff_right h]
  simp only [decide_eq_true_eq, Prod.forall]

theorem inOrder_eq (hdistinct : domain.Nodup) (has : AxisPerDimension as domain)
    (hlisted : s.axes = as ∨ s.axes = as.reverse) :
    (if s.ListedInOrder domain then s.axes else s.axes.reverse) = as := by
  obtain haxes | haxes := hlisted
  · rw [if_pos, haxes]
    rwa [listedInOrder_iff_of_length_eq (haxes ▸ has.length_eq), haxes]
  · have hlength : s.axes.length = domain.length := by
      rw [haxes, List.length_reverse, has.length_eq]
    split
    · next horder =>
      -- then the domain reads the same in reverse, and so do the axes
      rw [listedInOrder_iff_of_length_eq hlength, haxes] at horder
      have hshort : as.length ≤ 1 :=
        has.length_eq ▸ length_le_one_of_reverse_eq hdistinct (has.reverse.domain_eq horder)
      rw [haxes]
      match as, hshort with
      | [], _ => rfl
      | [_], _ => rfl
    · rw [haxes, List.reverse_reverse]

/--
A system with an axis for each dimension has the same axes whether it lists them in the order of the
domain or in reverse: at each place the axis of the dimension there.
-/
theorem createAxes_of_axisPerDimension (hdistinct : domain.Nodup)
    (hlengths : ∀ dim ∈ domain, dim.length.getD 0 < Axis.sizeLimit)
    (has : AxisPerDimension as domain)
    (hvariables : ∀ a ∈ as, ∃ v, d.findVariable a.name = .ok (some v)) :
    ∃ axes, (∀ s : CoordinateSystem, s.axes = as ∨ s.axes = as.reverse →
        (s.createAxes domain d).run.result = .ok axes) ∧
      axes.length = domain.length ∧
      axes.map Axis.sources = domain.mapIdx (fun i dim => [(i, dim.length.getD 0)]) ∧
      List.Forall₂ (CoordinateAxis.Makes domain d) as axes := by
  have hcountable : ∀ a : CoordinateAxis, a.Countable domain := fun a dim _ => hlengths dim
  have hmade : ∀ s : CoordinateSystem, s.axes = as ∨ s.axes = as.reverse → ∀ axes,
      (s.createAxes domain d).run.result = .ok axes ↔
        List.Forall₂ (CoordinateAxis.Makes domain d) as axes := by
    intro s hlisted axes
    rw [createAxes_eq_ok_iff, inOrder_eq hdistinct has hlisted]
    exact and_iff_right fun a _ => hcountable a
  obtain ⟨axes, haxes⟩ := exists_createAxes_eq_ok_iff (s := ⟨"", domain, as⟩).2
    fun a ha => ⟨hcountable a, hvariables a ha⟩
  have hmakes := (hmade _ (.inl rfl) axes).1 haxes
  refine ⟨axes, fun s hlisted => (hmade s hlisted axes).2 hmakes, ?_, ?_, hmakes⟩
  · rw [← hmakes.length_eq, has.length_eq]
  · rw [map_sources_of_makes hmakes, has.map_sources_eq hdistinct]

theorem createAxes_of_axisPerDimension_unlimited :
    let time : Dimension := ⟨"time", none⟩
    let lat : Dimension := ⟨"lat", some 4294967295⟩
    let lon : Dimension := ⟨"lon", some 5⟩
    let domain := [time, lat, lon]
    let as : List CoordinateAxis :=
      [⟨"t", some .time, none, [time]⟩, ⟨"y", some .lat, none, [lat]⟩,
        ⟨"x", some .lon, none, [lon]⟩]
    let d : Dataset := {
      name := "f"
      «variables» := [⟨⟨"x", []⟩, .double, [lon], true⟩, ⟨⟨"y", []⟩, .double, [lat], true⟩,
        ⟨⟨"t", []⟩, .double, [time], true⟩] }
    (domain.Nodup ∧ (∀ dim ∈ domain, dim.length.getD 0 < Axis.sizeLimit) ∧
      AxisPerDimension as domain ∧ ∀ a ∈ as, ∃ v, d.findVariable a.name = .ok (some v)) ∧
    ∃ axes, (createAxes ⟨"s", domain, as⟩ domain d).run.result = .ok axes ∧
      (createAxes ⟨"s", domain, as.reverse⟩ domain d).run.result = .ok axes ∧
      axes.map Axis.sources = [[(0, 0)], [(1, 4294967295)], [(2, 5)]] := by
  intro time lat lon domain as d
  have hdistinct : domain.Nodup := by decide
  have hlengths : ∀ dim ∈ domain, dim.length.getD 0 < Axis.sizeLimit := by decide
  have has : AxisPerDimension as domain := by decide
  have hvariables : ∀ a ∈ as, ∃ v, d.findVariable a.name = .ok (some v) := by
    simp only [as, List.forall_mem_cons]
    exact ⟨⟨_, rfl⟩, ⟨_, rfl⟩, ⟨_, rfl⟩, nofun⟩
  obtain ⟨axes, hmade, -, hsources, -⟩ :=
    createAxes_of_axisPerDimension hdistinct hlengths has hvariables
  exact ⟨⟨hdistinct, hlengths, has, hvariables⟩, axes, hmade _ (.inl rfl), hmade _ (.inr rfl),
    hsources⟩

end CoordinateSystem

end Gridded
