import Gridded.Grid.Axes
import Gridded.Proofs.Outcome

namespace Gridded

theorem lastPlace?_eq_some_iff {domain : List Dimension} {d : Dimension} {i : Nat} :
    lastPlace? domain d = some i ↔ domain[i]? = some d ∧ ∀ j, i < j → domain[j]? ≠ some d := by
  simp only [lastPlace?, Option.map_eq_some_iff, List.idxOf?_eq_some_iff, List.getElem_reverse]
  constructor
  · rintro ⟨k, ⟨hk, hget, hbefore⟩, rfl⟩
    rw [List.length_reverse] at hk
    refine ⟨List.getElem?_eq_some_iff.2 ⟨_, hget⟩, fun j hj hjd => ?_⟩
    obtain ⟨hlt, hjd⟩ := List.getElem?_eq_some_iff.1 hjd
    apply hbefore (domain.length - 1 - j) (by omega)
    rw [← hjd]
    congr 1
    omega
  · rintro ⟨hget, hafter⟩
    obtain ⟨hlt, hget⟩ := List.getElem?_eq_some_iff.1 hget
    refine ⟨domain.length - 1 - i, ⟨by rw [List.length_reverse]; omega, ?_, ?_⟩, by omega⟩
    · rw [← hget]
      congr 1
      omega
    · intro j hj hjd
      exact hafter (domain.length - 1 - j) (by omega) (List.getElem?_eq_some_iff.2 ⟨_, hjd⟩)

theorem lastPlace?_eq_none_iff {domain : List Dimension} {d : Dimension} :
    lastPlace? domain d = none ↔ d ∉ domain := by
  simp [lastPlace?]

structure Placed (domain : List Dimension) (d : Dimension) (source : Nat × Nat) : Prop where
  place : domain[source.1]? = some d
  last : ∀ i, source.1 < i → domain[i]? ≠ some d
  size : source.2 = d.length.getD 0

theorem placed_iff {domain : List Dimension} {d : Dimension} {source : Nat × Nat} :
    Placed domain d source ↔ (lastPlace? domain d).map (·, d.length.getD 0) = some source := by
  obtain ⟨i, n⟩ := source
  simp only [Option.map_eq_some_iff, lastPlace?_eq_some_iff, Prod.mk.injEq]
  constructor
  · rintro ⟨hplace, hlast, hsize⟩
    exact ⟨i, ⟨hplace, hlast⟩, rfl, hsize.symm⟩
  · rintro ⟨_, ⟨hplace, hlast⟩, rfl, hsize⟩
    exact ⟨hplace, hlast, hsize.symm⟩

namespace CoordinateAxis

variable (domain : List Dimension) (d : Dataset) (a : CoordinateAxis)

def Countable : Prop := ∀ dim ∈ a.dimensions, dim ∈ domain → dim.length.getD 0 < Axis.sizeLimit

instance : Decidable (a.Countable domain) := inferInstanceAs (Decidable (∀ _ ∈ _, _))

structure Makes (x : Axis) : Prop where
  abbreviation : x.abbreviation = a.type.bind AxisType.abbreviation?
  direction : x.direction = a.direction
  sources : List.Forall₂ (Placed domain) (a.dimensions.filter (· ∈ domain)) x.sources
  coordinates : d.findVariable a.name = .ok (some x.coordinates)

/-- Why nothing comes of a coordinate axis. Sizes are looked at before the variable is. -/
inductive Fault : StoreError → Prop
  | size : ¬ a.Countable domain → Fault (.overflow "axis size")
  | missing : a.Countable domain → d.findVariable a.name = .ok none →
      Fault (.content (.missingAxis d.name a.name))
  | unreadable {e : SourceError} : a.Countable domain → d.findVariable a.name = .error e →
      Fault (.source e)

def strays (system : String) : List Event :=
  (a.dimensions.filter (· ∉ domain)).map (.strayDimension system · a.name)

theorem level_of_mem_strays {system : String} {e : Event} (h : e ∈ a.strays domain system) :
    e.level = .warn := by
  obtain ⟨_, -, rfl⟩ := List.mem_map.1 h
  rfl

end CoordinateAxis

namespace CoordinateSystem

variable {s : CoordinateSystem} {domain : List Dimension} {d : Dataset} {a : CoordinateAxis}

theorem sources_of_notMem {dim : Dimension} (h : dim ∉ domain) (axis : String)
    (ds : List Dimension) :
    (s.sources domain axis (dim :: ds)).run =
      ⟨(s.sources domain axis ds).run.result,
        .strayDimension s.name dim axis :: (s.sources domain axis ds).run.events⟩ := by
  rw [sources, lastPlace?_eq_none_iff.2 h]
  rfl

theorem sources_of_lastPlace {dim : Dimension} {place : Nat}
    (h : lastPlace? domain dim = some place) (axis : String) (ds : List Dimension) :
    s.sources domain axis (dim :: ds) =
      if dim.length.getD 0 < Axis.sizeLimit then
        s.sources domain axis ds >>= fun sources => pure ((place, dim.length.getD 0) :: sources)
      else throw (.overflow "axis size") := by
  rw [sources, h]

theorem result_sources (axis : String) (ds : List Dimension) :
    (s.sources domain axis ds).run.result =
      if ∀ dim ∈ ds, dim ∈ domain → dim.length.getD 0 < Axis.sizeLimit then
        .ok (ds.filterMap fun dim => (lastPlace? domain dim).map (·, dim.length.getD 0))
      else .error (.overflow "axis size") := by
  induction ds with
  | nil => rfl
  | cons dim ds ih =>
    simp only [List.forall_mem_cons, List.filterMap_cons]
    cases hplace : lastPlace? domain dim with
    | none =>
      have hmem := lastPlace?_eq_none_iff.1 hplace
      rw [sources_of_notMem hmem, ih]
      simp only [hmem, false_implies, true_and, Option.map_none]
    | some place =>
      have hmem : dim ∈ domain := List.mem_of_getElem? (lastPlace?_eq_some_iff.1 hplace).1
      rw [sources_of_lastPlace hplace]
      simp only [hmem, true_implies, Option.map_some]
      by_cases hsize : dim.length.getD 0 < Axis.sizeLimit
      · simp only [hsize, true_and, if_true, Logged.result_run_bind, ih]
        split <;> rfl
      · simp only [hsize, false_and, if_false]
        rfl

theorem events_sources {axis : String} {ds : List Dimension} {sources : List (Nat × Nat)}
    (h : (s.sources domain axis ds).run.result = .ok sources) :
    (s.sources domain axis ds).run.events =
      (ds.filter (· ∉ domain)).map (.strayDimension s.name · axis) := by
  induction ds generalizing sources with
  | nil => rfl
  | cons dim ds ih =>
    rw [List.filter_cons]
    cases hplace : lastPlace? domain dim with
    | none =>
      have hmem := lastPlace?_eq_none_iff.1 hplace
      rw [sources_of_notMem hmem] at h ⊢
      simp only [hmem, not_false_eq_true, decide_true, if_true, List.map_cons, ih h]
    | some place =>
      have hmem : dim ∈ domain := List.mem_of_getElem? (lastPlace?_eq_some_iff.1 hplace).1
      rw [sources_of_lastPlace hplace] at h ⊢
      simp only [hmem, not_true_eq_false, decide_false, Bool.false_eq_true, if_false]
      split at h
      · next hsize =>
        rw [Logged.result_run_bind, Except.bind_eq_ok_iff] at h
        obtain ⟨rest, hrest, -⟩ := h
        rw [if_pos hsize, Logged.events_run_bind hrest, ih hrest]
        exact List.append_nil _
      · cases h

theorem forall₂_placed_iff {ds : List Dimension} {sources : List (Nat × Nat)} :
    List.Forall₂ (Placed domain) (ds.filter (· ∈ domain)) sources ↔
      sources = ds.filterMap fun dim => (lastPlace? domain dim).map (·, dim.length.getD 0) := by
  induction ds generalizing sources with
  | nil => exact List.forall₂_nil_left_iff
  | cons dim ds ih =>
    rw [List.filter_cons, List.filterMap_cons]
    cases hplace : lastPlace? domain dim with
    | none =>
      have hmem := lastPlace?_eq_none_iff.1 hplace
      simp only [hmem, decide_false, Bool.false_eq_true, if_false, Option.map_none, ih]
    | some place =>
      have hmem : dim ∈ domain := List.mem_of_getElem? (lastPlace?_eq_some_iff.1 hplace).1
      simp only [hmem, decide_true, if_true, Option.map_some, List.forall₂_cons_left_iff,
        placed_iff, hplace, Option.some_inj, ih]
      constructor
      · rintro ⟨_, _, rfl, rfl, rfl⟩
        rfl
      · rintro rfl
        exact ⟨_, _, rfl, rfl, rfl⟩

theorem map_sources_of_makes {as : List CoordinateAxis} {axes : List Axis}
    (h : List.Forall₂ (CoordinateAxis.Makes domain d) as axes) :
    axes.map Axis.sources = as.map fun a =>
      a.dimensions.filterMap fun dim => (lastPlace? domain dim).map (·, dim.length.getD 0) := by
  induction h with
  | nil => rfl
  | cons hmakes _ ih =>
    rw [List.map_cons, List.map_cons, ih, forall₂_placed_iff.1 hmakes.sources]

theorem result_createAxis (s : CoordinateSystem) (domain : List Dimension) (d : Dataset)
    (a : CoordinateAxis) :
    (s.createAxis domain d a).run.result =
      if a.Countable domain then
        match d.findVariable a.name with
        | .error e => .error (.source e)
        | .ok none => .error (.content (.missingAxis d.name a.name))
        | .ok (some v) => .ok {
            abbreviation := a.type.bind AxisType.abbreviation?
            direction := a.direction
            sources := a.dimensions.filterMap fun dim =>
              (lastPlace? domain dim).map (·, dim.length.getD 0)
            coordinates := v }
      else .error (.overflow "axis size") := by
  rw [createAxis, Logged.result_run_bind, result_sources]
  change _ = if ∀ dim ∈ a.dimensions, dim ∈ domain → dim.length.getD 0 < Axis.sizeLimit then _
    else _
  split
  · rcases d.findVariable a.name with e | _ | v <;> rfl
  · rfl

theorem createAxis_eq_ok_iff {x : Axis} :
    (s.createAxis domain d a).run.result = .ok x ↔ a.Countable domain ∧ a.Makes domain d x := by
  rw [result_createAxis]
  split
  · next hcount =>
    rw [and_iff_right hcount]
    constructor
    · intro h
      split at h
      · cases h
      · cases h
      · next v hv =>
        obtain rfl := Except.ok.inj h
        exact ⟨rfl, rfl, forall₂_placed_iff.2 rfl, hv⟩
    · rintro ⟨habbreviation, hdirection, hsources, hv⟩
      obtain ⟨_, _, _, _⟩ := x
      rw [hv, ← habbreviation, ← hdirection, ← forall₂_placed_iff.1 hsources]
  · next hcount => exact iff_of_false nofun fun h => hcount h.1

theorem createAxis_eq_error_iff {e : StoreError} :
    (s.createAxis domain d a).run.result = .error e ↔ a.Fault domain d e := by
  rw [result_createAxis]
  split
  · next hcount =>
    constructor
    · intro h
      split at h
      · next e hv =>
        obtain rfl := Except.error.inj h
        exact .unreadable hcount hv
      · next hv =>
        obtain rfl := Except.error.inj h
        exact .missing hcount hv
      · cases h
    · intro h
      cases h with
      | size hsize => exact absurd hcount hsize
      | missing _ hv => rw [hv]
      | unreadable _ hv => rw [hv]
  · next hcount =>
    constructor
    · intro h
      obtain rfl := Except.error.inj h
      exact .size hcount
    · intro h
      cases h with
      | size => rfl
      | missing hsize => exact absurd hsize hcount
      | unreadable hsize => exact absurd hsize hcount

theorem events_createAxis {x : Axis} (h : (s.createAxis domain d a).run.result = .ok x) :
    (s.createAxis domain d a).run.events = a.strays domain s.name := by
  rw [createAxis, Logged.result_run_bind, Except.bind_eq_ok_iff] at h
  obtain ⟨sources, hsources, h⟩ := h
  rw [createAxis, Logged.events_run_bind hsources, events_sources hsources]
  split at h
  · cases h
  · cases h
  · next v hv => exact List.append_nil _

theorem exists_createAxis_eq_ok_iff :
    (∃ x, (s.createAxis domain d a).run.result = .ok x) ↔
      a.Countable domain ∧ ∃ v, d.findVariable a.name = .ok (some v) := by
  simp only [createAxis_eq_ok_iff]
  constructor
  · rintro ⟨x, hcount, hmakes⟩
    exact ⟨hcount, x.coordinates, hmakes.coordinates⟩
  · rintro ⟨hcount, v, hv⟩
    exact ⟨⟨_, _, _, v⟩, hcount, rfl, rfl, forall₂_placed_iff.2 rfl, hv⟩

def ListedInOrder (s : CoordinateSystem) (domain : List Dimension) : Prop :=
  ∀ (i : Nat) (a : CoordinateAxis) (dim : Dimension), s.axes[i]? = some a →
    domain[i]? = some dim → a.dimensions = [dim]

theorem inDomainOrder_iff : s.inDomainOrder domain = true ↔ s.ListedInOrder domain := by
  simp only [inDomainOrder, ListedInOrder, List.all_eq_true, decide_eq_true_eq,
    List.mem_iff_getElem?, Prod.forall, List.getElem?_zip_eq_some]
  constructor
  · exact fun h i a dim ha hdim => h a dim ⟨i, ha, hdim⟩
  · exact fun h a dim ⟨i, ha, hdim⟩ => h i a dim ha hdim

instance (s : CoordinateSystem) (domain : List Dimension) : Decidable (s.ListedInOrder domain) :=
  decidable_of_iff _ inDomainOrder_iff

theorem result_createAxes (s : CoordinateSystem) (domain : List Dimension) (d : Dataset) :
    (s.createAxes domain d).run.result =
      (s.axes.reverse.mapM fun a => (s.createAxis domain d a).run.result).map fun axes =>
        if s.inDomainOrder domain then axes.reverse else axes := by
  rw [createAxes, Logged.result_run_bind, Logged.result_run_mapM]
  split <;> rfl

theorem exists_createAxes_eq_ok_iff :
    (∃ axes, (s.createAxes domain d).run.result = .ok axes) ↔
      ∀ a ∈ s.axes, a.Countable domain ∧ ∃ v, d.findVariable a.name = .ok (some v) := by
  have hmade : (∃ made, s.axes.reverse.mapM (fun a => (s.createAxis domain d a).run.result) =
      .ok made) ↔ _ := Except.exists_mapM_eq_ok_iff
  simp only [exists_createAxis_eq_ok_iff, List.mem_reverse] at hmade
  rw [← hmade, result_createAxes]
  rcases s.axes.reverse.mapM fun a => (s.createAxis domain d a).run.result with e | made
  · exact iff_of_false nofun nofun
  · exact iff_of_true ⟨_, rfl⟩ ⟨_, rfl⟩

theorem createAxes_eq_error_iff {e : StoreError} :
    (s.createAxes domain d).run.result = .error e ↔
      ∃ before a after, s.axes = before ++ a :: after ∧
        (∀ b ∈ after, b.Countable domain ∧ ∃ v, d.findVariable b.name = .ok (some v)) ∧
        a.Fault domain d e := by
  have hmap : (s.createAxes domain d).run.result = .error e ↔
      (s.axes.reverse.mapM fun a => (s.createAxis domain d a).run.result) = .error e := by
    rw [result_createAxes]
    rcases s.axes.reverse.mapM fun a => (s.createAxis domain d a).run.result with e' | axes
    · rfl
    · exact iff_of_false nofun nofun
  simp only [hmap, Except.mapM_eq_error_iff, exists_createAxis_eq_ok_iff, createAxis_eq_error_iff,
    List.reverse_eq_iff, List.reverse_append, List.reverse_cons, List.append_assoc,
    List.singleton_append]
  constructor
  · rintro ⟨after, a, before, haxes, hafter, hfault⟩
    refine ⟨before.reverse, a, after.reverse, haxes, ?_, hfault⟩
    simpa only [List.mem_reverse] using hafter
  · rintro ⟨before, a, after, haxes, hafter, hfault⟩
    refine ⟨after.reverse, a, before.reverse, ?_, ?_, hfault⟩
    · simpa only [List.reverse_reverse] using haxes
    · simpa only [List.mem_reverse] using hafter

theorem createAxes_eq_ok_iff {axes : List Axis} :
    (s.createAxes domain d).run.result = .ok axes ↔
      (∀ a ∈ s.axes, a.Countable domain) ∧
        List.Forall₂ (CoordinateAxis.Makes domain d)
          (if s.ListedInOrder domain then s.axes else s.axes.reverse) axes := by
  have hmap : (s.createAxes domain d).run.result = .ok axes ↔
      (s.axes.reverse.mapM fun a => (s.createAxis domain d a).run.result) =
        .ok (if s.ListedInOrder domain then axes.reverse else axes) := by
    rw [result_createAxes]
    simp only [inDomainOrder_iff]
    rcases s.axes.reverse.mapM fun a => (s.createAxis domain d a).run.result with e | made
    · exact iff_of_false nofun nofun
    · rw [Except.map, Except.ok.injEq, Except.ok.injEq]
      split
      · exact List.reverse_eq_iff
      · exact Iff.rfl
  rw [hmap, Except.mapM_eq_ok_iff]
  simp only [createAxis_eq_ok_iff, List.forall₂_and_left, List.mem_reverse]
  refine and_congr_right fun _ => ?_
  split
  · exact List.forall₂_reverse_iff
  · exact Iff.rfl

theorem events_createAxes {axes : List Axis} (h : (s.createAxes domain d).run.result = .ok axes) :
    (s.createAxes domain d).run.events =
      s.axes.reverse.flatMap (·.strays domain s.name) ++
        [if s.ListedInOrder domain then .axesKept s.name else .axesReversed s.name] := by
  rw [createAxes, Logged.result_run_bind, Except.bind_eq_ok_iff] at h
  obtain ⟨made, hmade, -⟩ := h
  rw [createAxes, Logged.events_run_bind hmade,
    Logged.events_run_mapM (fun a x => events_createAxis) hmade]
  simp only [inDomainOrder_iff]
  split <;> rfl

theorem warnings_createAxes {axes : List Axis} (h : (s.createAxes domain d).run.result = .ok axes) :
    (s.createAxes domain d).run.events.filter (·.level = .warn) =
      s.axes.reverse.flatMap (·.strays domain s.name) := by
  have hwarn : ∀ e ∈ s.axes.reverse.flatMap (·.strays domain s.name), e.level = .warn := by
    intro e he
    obtain ⟨a, -, ha⟩ := List.mem_flatMap.1 he
    exact a.level_of_mem_strays domain ha
  rw [events_createAxes h, List.filter_append,
    List.filter_eq_self.2 fun e he => decide_eq_true (hwarn e he)]
  split <;> exact List.append_nil _

/--
A coordinate system has axes over a domain exactly if each of its coordinate axes has a variable and
lengths that fit a size; otherwise it fails as the last one that is listed without. There is one
axis for each, in the order in which they are listed if each varies along the dimension at its own
place alone, and in the reverse order if not. Of an axis all dimensions in the domain are sources,
by their last places, and there is a warning for each of the others.
-/
theorem run_createAxes (s : CoordinateSystem) (domain : List Dimension) (d : Dataset) :
    let made := (s.createAxes domain d).run
    let strays := s.axes.reverse.flatMap (·.strays domain s.name)
    ((∃ axes, made.result = .ok axes) ↔
      ∀ a ∈ s.axes, a.Countable domain ∧ ∃ v, d.findVariable a.name = .ok (some v)) ∧
    (∀ axes, made.result = .ok axes →
      s.targetRank = s.axes.length ∧ axes.length = s.targetRank ∧
      made.events.filter (·.level = .warn) = strays ∧
      (s.ListedInOrder domain →
        List.Forall₂ (CoordinateAxis.Makes domain d) s.axes axes ∧
          made.events = strays ++ [.axesKept s.name]) ∧
      (¬s.ListedInOrder domain →
        List.Forall₂ (CoordinateAxis.Makes domain d) s.axes.reverse axes ∧
          made.events = strays ++ [.axesReversed s.name])) ∧
    ∀ e, made.result = .error e ↔
      ∃ before a after, s.axes = before ++ a :: after ∧
        (∀ b ∈ after, b.Countable domain ∧ ∃ v, d.findVariable b.name = .ok (some v)) ∧
        a.Fault domain d e := by
  intro made strays
  refine ⟨exists_createAxes_eq_ok_iff, fun axes haxes => ?_, fun e => createAxes_eq_error_iff⟩
  have hmakes := (createAxes_eq_ok_iff.1 haxes).2
  have hevents : made.events = _ := events_createAxes haxes
  by_cases horder : s.ListedInOrder domain
  · rw [if_pos horder] at hmakes hevents
    exact ⟨rfl, hmakes.length_eq.symm, warnings_createAxes haxes, fun _ => ⟨hmakes, hevents⟩,
      fun h => absurd horder h⟩
  · rw [if_neg horder] at hmakes hevents
    refine ⟨rfl, ?_, warnings_createAxes haxes, fun h => absurd h horder,
      fun _ => ⟨hmakes, hevents⟩⟩
    rw [← hmakes.length_eq, List.length_reverse, targetRank]

theorem run_createAxes_localization :
    let x : Dimension := ⟨"x", some 5⟩
    let y : Dimension := ⟨"y", some 4⟩
    let lat : CoordinateAxis := ⟨"lat", some .lat, none, [y, ⟨"t", none⟩]⟩
    let lon : CoordinateAxis := ⟨"lon", some .lon, none, [y, x]⟩
    let s : CoordinateSystem := ⟨"s", [y, x, y], [lat, lon]⟩
    let d : Dataset := {
      name := "f"
      «variables» := [⟨⟨"lat", []⟩, .double, [y], true⟩, ⟨⟨"lon", []⟩, .double, [y, x], true⟩] }
    (∃ axes, (s.createAxes s.domain d).run.result = .ok axes ∧ axes.length = s.targetRank ∧
      axes.map Axis.sources = [[(2, 4), (1, 5)], [(2, 4)]] ∧
      (s.createAxes s.domain d).run.events =
        [.strayDimension "s" ⟨"t", none⟩ "lat", .axesReversed "s"]) ∧
    (s.createAxes s.domain { d with «variables» := [] }).run.result =
      .error (.content (.missingAxis "f" "lon")) := by
  intro x y lat lon s d
  obtain ⟨hok, hmade, -⟩ := run_createAxes s s.domain d
  obtain ⟨-, -, herror⟩ := run_createAxes s s.domain { d with «variables» := [] }
  have hcountable : ∀ a ∈ s.axes, a.Countable s.domain := by decide
  have hvariables : ∀ a ∈ s.axes, ∃ v, d.findVariable a.name = .ok (some v) := by
    simp only [s, List.forall_mem_cons]
    exact ⟨⟨_, rfl⟩, ⟨_, rfl⟩, nofun⟩
  constructor
  · obtain ⟨axes, haxes⟩ := hok.2 fun a ha => ⟨hcountable a ha, hvariables a ha⟩
    obtain ⟨-, hlength, -, -, hreversed⟩ := hmade axes haxes
    obtain ⟨hmakes, hevents⟩ := hreversed (by decide)
    refine ⟨axes, haxes, hlength, ?_, hevents⟩
    rw [map_sources_of_makes hmakes]
    decide
  · refine (herror _).2 ⟨[lat], lon, [], rfl, nofun, .missing (hcountable lon ?_) rfl⟩
    exact List.mem_cons_of_mem _ (List.mem_singleton_self lon)

end CoordinateSystem

end Gridded
