import Gridded.Convention.Range
import Gridded.Proofs.Number.Order
import Gridded.Proofs.Number.Value
import Mathlib.Data.List.Basic
import Mathlib.Data.List.Induction

namespace Gridded

theorem Number.kind_maxAsInfinity (x : Number) : x.maxAsInfinity.kind = x.kind := by
  cases x <;> rfl

theorem AttributeValue.kind_of_mem_numericValues {v : AttributeValue} {x : Number}
    (h : x ∈ v.numericValues) : x.kind = v.numberKind?.getD .double := by
  cases v with
  | numbers s => exact s.uniform x h
  | texts ts =>
    obtain ⟨_, _, rfl⟩ := List.mem_map.1 h
    rfl
  | flag b => cases h

namespace Node

variable (n : Node) (name : String)

def rangeValues : List Number := (n.numbersOf name).map Number.maxAsInfinity

variable {n name} in
theorem kind_of_mem_numbersOf {x : Number} (h : x ∈ n.numbersOf name) :
    x.kind = (n.kindOf? name).getD .double := by
  change x ∈ (n.get? name).elim [] AttributeValue.numericValues at h
  unfold kindOf?
  cases hv : n.get? name with
  | none =>
    rw [hv] at h
    cases h
  | some v =>
    rw [hv] at h
    exact AttributeValue.kind_of_mem_numericValues h

theorem standsFor_rangeValues :
    List.Forall₂ Number.StandsFor (n.numbersOf name) (n.rangeValues name) := by
  rw [rangeValues, List.forall₂_map_right_iff, List.forall₂_same]
  exact fun x _ => x.standsFor_maxAsInfinity

theorem exists_kind_rangeValues : ∃ k, ∀ x ∈ n.rangeValues name, x.kind = k := by
  refine ⟨(n.kindOf? name).getD .double, List.forall_mem_map.2 fun x hx => ?_⟩
  rw [Number.kind_maxAsInfinity, kind_of_mem_numbersOf hx]

end Node

namespace NumberRange

structure Spans (r : NumberRange) (xs : List Number) : Prop where
  kind : ∀ x ∈ xs, x.kind = r.kind
  least : Number.Extreme .lt r.minimum xs
  greatest : Number.Extreme .gt r.maximum xs
  contains : ∀ x ∈ xs, r.contains x

structure Joins (r : NumberRange) (lower upper : List Number) : Prop where
  kind : ∀ x ∈ lower, ∀ y ∈ upper, r.kind = x.kind.widest y.kind
  least : ∃ m, Number.Extreme .lt m lower ∧ r.minimum = m.cast r.kind
  greatest : Number.Extreme .gt r.maximum (upper.map (·.cast r.kind))

section

variable {r r' : NumberRange} {xs ys lower upper lower' upper' : List Number} {m l : Number}
  {j k : NumberKind}

theorem eq_of_bounds_eq (hmin : r.minimum = r'.minimum) (hmax : r.maximum = r'.maximum) :
    r = r' := by
  obtain ⟨k, m, l, hm, hl⟩ := r
  obtain ⟨k', m', l', hm', hl'⟩ := r'
  obtain rfl : m = m' := hmin
  obtain rfl : l = l' := hmax
  obtain rfl : k = k' := hm.symm.trans hm'
  rfl

theorem spans_ofBounds (hkind : ∀ x ∈ xs, x.kind = k) (hm : Number.Extreme .lt m xs)
    (hl : Number.Extreme .gt l xs) : (ofBounds k m l).Spans xs := by
  have hmin : (ofBounds k m l).minimum = m := Number.cast_of_kind_eq (hkind m hm.1)
  have hmax : (ofBounds k m l).maximum = l := Number.cast_of_kind_eq (hkind l hl.1)
  refine ⟨hkind, hmin.symm ▸ hm, hmax.symm ▸ hl, fun x hx => ?_⟩
  simp only [contains, hmin, hmax, Bool.and_eq_true, decide_eq_true_eq]
  exact ⟨hm.2 x hx, hl.2 x hx⟩

theorem Spans.ne_nil (h : r.Spans xs) : xs ≠ [] := List.ne_nil_of_mem h.least.1

theorem Spans.unique (h : r.Spans xs) (h' : r'.Spans xs) : r = r' :=
  eq_of_bounds_eq (h.least.eq h'.least h.kind nofun) (h.greatest.eq h'.greatest h.kind nofun)

theorem Spans.congr (h : r.Spans xs) (hmem : ∀ x, x ∈ ys ↔ x ∈ xs) : r.Spans ys where
  kind x hx := h.kind x ((hmem x).1 hx)
  least := h.least.congr hmem
  greatest := h.greatest.congr hmem
  contains x hx := h.contains x ((hmem x).1 hx)

theorem joins_ofBounds (hlower : ∀ x ∈ lower, x.kind = j) (hupper : ∀ x ∈ upper, x.kind = k)
    (hm : Number.Extreme .lt m lower)
    (hl : Number.Extreme .gt l (upper.map (·.cast (j.widest k)))) :
    (ofBounds (j.widest k) (m.cast (j.widest k)) l).Joins lower upper := by
  obtain ⟨y, -, rfl⟩ := List.mem_map.1 hl.1
  refine ⟨fun x hx y hy => ?_, ⟨m, hm, Number.cast_cast m _⟩, ?_⟩
  · rw [hlower x hx, hupper y hy]
    rfl
  · have hmax : (ofBounds (j.widest k) (m.cast (j.widest k)) (y.cast (j.widest k))).maximum =
        y.cast (j.widest k) := Number.cast_cast y _
    rw [hmax]
    exact hl

theorem Joins.ne_nil (h : r.Joins lower upper) : lower ≠ [] ∧ upper ≠ [] := by
  obtain ⟨m, hm, -⟩ := h.least
  obtain ⟨y, hy, -⟩ := List.mem_map.1 h.greatest.1
  exact ⟨List.ne_nil_of_mem hm.1, List.ne_nil_of_mem hy⟩

theorem Joins.unique (hlower : ∀ x ∈ lower, x.kind = k) (h : r.Joins lower upper)
    (h' : r'.Joins lower upper) : r = r' := by
  obtain ⟨m, hm, hmin⟩ := h.least
  obtain ⟨m', hm', hmin'⟩ := h'.least
  obtain ⟨y, hy, -⟩ := List.mem_map.1 h.greatest.1
  obtain rfl := hm.eq hm' hlower nofun
  have hkind : r.kind = r'.kind := (h.kind m hm.1 y hy).trans (h'.kind m hm.1 y hy).symm
  have hgreatest := h'.greatest
  rw [← hkind] at hmin' hgreatest
  exact eq_of_bounds_eq (hmin.trans hmin'.symm)
    (h.greatest.eq hgreatest (Number.kind_of_mem_map_cast upper r.kind) nofun)

theorem Joins.congr (h : r.Joins lower upper) (hlower : ∀ x, x ∈ lower' ↔ x ∈ lower)
    (hupper : ∀ x, x ∈ upper' ↔ x ∈ upper) : r.Joins lower' upper' where
  kind x hx y hy := h.kind x ((hlower x).1 hx) y ((hupper y).1 hy)
  least := h.least.imp fun _ => And.imp_left (Number.Extreme.congr · hlower)
  greatest := h.greatest.congr fun x => by simp only [List.mem_map, hupper]

end

inductive Declared (values : String → List Number) : Option NumberRange → Prop
  | valid {r : NumberRange} : r.Spans (values "valid_range") → Declared values r
  | actual {r : NumberRange} :
      values "valid_range" = [] → r.Spans (values "actual_range") → Declared values r
  | limits {r : NumberRange} :
      values "valid_range" = [] → values "actual_range" = [] →
        r.Joins (values "valid_min") (values "valid_max") → Declared values r
  | nothing :
      values "valid_range" = [] → values "actual_range" = [] →
        values "valid_min" = [] ∨ values "valid_max" = [] → Declared values none

theorem eq_nil_of_forall_mem_iff {xs ys : List Number} (h : ∀ x, x ∈ ys ↔ x ∈ xs)
    (hnil : xs = []) : ys = [] :=
  List.eq_nil_iff_forall_not_mem.2 fun x hx => List.not_mem_nil (hnil ▸ (h x).1 hx)

theorem Declared.congr {values values' : String → List Number} {o : Option NumberRange}
    (h : Declared values o)
    (hvalid : ∀ x, x ∈ values' "valid_range" ↔ x ∈ values "valid_range")
    (hactual : values "valid_range" = [] →
      ∀ x, x ∈ values' "actual_range" ↔ x ∈ values "actual_range")
    (hlimits : values "valid_range" = [] → values "actual_range" = [] →
      ∀ name ∈ ["valid_min", "valid_max"], ∀ x, x ∈ values' name ↔ x ∈ values name) :
    Declared values' o := by
  cases h with
  | valid hr => exact .valid (hr.congr hvalid)
  | actual hnil hr =>
    exact .actual (eq_nil_of_forall_mem_iff hvalid hnil) (hr.congr (hactual hnil))
  | limits hnil hnil' hr =>
    have hnil₂ := eq_nil_of_forall_mem_iff (hactual hnil) hnil'
    have hlimits := hlimits hnil hnil'
    exact .limits (eq_nil_of_forall_mem_iff hvalid hnil) hnil₂
      (hr.congr (hlimits _ (by simp)) (hlimits _ (by simp)))
  | nothing hnil hnil' hlimit =>
    have hnil₂ := eq_nil_of_forall_mem_iff (hactual hnil) hnil'
    have hlimits := hlimits hnil hnil'
    exact .nothing (eq_nil_of_forall_mem_iff hvalid hnil) hnil₂
      (hlimit.imp (eq_nil_of_forall_mem_iff (hlimits _ (by simp)))
        (eq_nil_of_forall_mem_iff (hlimits _ (by simp))))

theorem Declared.unique {values : String → List Number} {o o' : Option NumberRange}
    (hkind : ∀ name, ∃ k, ∀ x ∈ values name, x.kind = k) (h : Declared values o)
    (h' : Declared values o') : o = o' := by
  cases h with
  | valid hr =>
    cases h' with
    | valid hr' => rw [hr.unique hr']
    | actual hnil => exact absurd hnil hr.ne_nil
    | limits hnil => exact absurd hnil hr.ne_nil
    | nothing hnil => exact absurd hnil hr.ne_nil
  | actual hnil hr =>
    cases h' with
    | valid hr' => exact absurd hnil hr'.ne_nil
    | actual _ hr' => rw [hr.unique hr']
    | limits _ hnil' => exact absurd hnil' hr.ne_nil
    | nothing _ hnil' => exact absurd hnil' hr.ne_nil
  | limits hnil hnil' hr =>
    cases h' with
    | valid hr' => exact absurd hnil hr'.ne_nil
    | actual _ hr' => exact absurd hnil' hr'.ne_nil
    | limits _ _ hr' =>
      obtain ⟨k, hk⟩ := hkind "valid_min"
      rw [hr.unique hk hr']
    | nothing _ _ hlimit => exact absurd hlimit (not_or.2 hr.ne_nil)
  | nothing hnil hnil' hlimit =>
    cases h' with
    | valid hr' => exact absurd hnil hr'.ne_nil
    | actual _ hr' => exact absurd hnil' hr'.ne_nil
    | limits _ _ hr' => exact absurd hlimit (not_or.2 hr'.ne_nil)
    | nothing => rfl

end NumberRange

namespace PartialRange

variable {a : RangeAttribute} {p : PartialRange} {n : Node} {xs ys : List Number} {k : NumberKind}

def boundWith (contributes : Bool) (o : Ordering) (bound : Option Number) (xs : List Number) :
    Option Number :=
  if contributes then xs.foldl (Number.tighten o) bound else bound

def read (a : RangeAttribute) (p : PartialRange) (k : NumberKind) (xs : List Number) :
    PartialRange where
  kind := k
  minimum := boundWith a.toMinimum .lt (p.minimum.map (·.cast k)) (xs.map (·.cast k))
  maximum := boundWith a.toMaximum .gt (p.maximum.map (·.cast k)) (xs.map (·.cast k))

def kindWith (p : PartialRange) (k : NumberKind) : NumberKind := p.kind.elim k (·.widest k)

theorem boundWith_append (contributes : Bool) (o : Ordering) (bound : Option Number)
    (xs ys : List Number) :
    boundWith contributes o bound (xs ++ ys) =
      boundWith contributes o (boundWith contributes o bound xs) ys := by
  cases contributes with
  | false => rfl
  | true => exact List.foldl_append

theorem map_cast_boundWith (contributes : Bool) (o : Ordering) (bound : Option Number)
    (xs : List Number) :
    (boundWith contributes o (bound.map (·.cast k)) (xs.map (·.cast k))).map (·.cast k) =
      boundWith contributes o (bound.map (·.cast k)) (xs.map (·.cast k)) := by
  have hbound : (bound.map (·.cast k)).map (·.cast k) = bound.map (·.cast k) := by
    simp only [Option.map_map, Function.comp_def, Number.cast_cast]
  cases contributes with
  | false => exact hbound
  | true =>
    simp only [boundWith, if_true]
    generalize bound.map (·.cast k) = b at hbound
    induction xs generalizing b with
    | nil => exact hbound
    | cons x xs ih =>
      rw [List.map_cons, List.foldl_cons]
      apply ih
      unfold Number.tighten
      split
      · simp only [Option.map_some, Number.cast_cast]
      · exact hbound

theorem add_eq (a : RangeAttribute) (p : PartialRange) (x : Number) :
    add a p x = p.read a (p.kindWith x.kind) [x.maxAsInfinity] := by
  simp only [add, read, kindWith, boundWith, Number.tighten, Number.kind_maxAsInfinity,
    List.map_cons, List.map_nil, List.foldl_cons, List.foldl_nil, Bool.and_eq_true]
  congr 1
  · cases a.toMinimum <;> simp
  · cases a.toMaximum <;> simp

theorem read_read (a : RangeAttribute) (p : PartialRange) (k : NumberKind) (xs ys : List Number) :
    (p.read a k xs).read a k ys = p.read a k (xs ++ ys) := by
  simp only [read, map_cast_boundWith, List.map_append, boundWith_append]

theorem foldl_add (hne : xs ≠ []) (hkind : ∀ x ∈ xs, x.kind = k) :
    xs.foldl (add a) p = p.read a (p.kindWith k) (xs.map Number.maxAsInfinity) := by
  induction xs using List.reverseRecOn with
  | nil => exact absurd rfl hne
  | append_singleton xs x ih =>
    obtain ⟨hxs, hx⟩ := List.forall_mem_append.1 hkind
    rw [List.forall_mem_singleton] at hx
    rw [List.foldl_append, List.foldl_cons, List.foldl_nil, List.map_append]
    rcases eq_or_ne xs [] with rfl | hnil
    · rw [List.foldl_nil, add_eq, hx]
      rfl
    · have hwide : (p.read a (p.kindWith k) (xs.map Number.maxAsInfinity)).kindWith k =
          p.kindWith k := by
        unfold kindWith
        cases p.kind with
        | none => exact NumberKind.widest_self k
        | some l => exact NumberKind.widest_widest_right l k
      rw [ih hnil hxs, add_eq, hx, hwide, read_read]
      rfl

theorem foldl_add_numbersOf (hne : n.rangeValues a.name ≠ [])
    (hkind : ∀ x ∈ n.rangeValues a.name, x.kind = k) :
    (n.numbersOf a.name).foldl (add a) p = p.read a (p.kindWith k) (n.rangeValues a.name) := by
  refine foldl_add (mt List.map_eq_nil_iff.2 hne) fun x hx => ?_
  rw [← Number.kind_maxAsInfinity]
  exact hkind _ (List.mem_map_of_mem hx)

theorem scan_of_eq_nil (hnil : n.rangeValues a.name = []) (hp : p.complete? = none)
    (as : List RangeAttribute) : scan n (a :: as) p = scan n as p := by
  rw [scan, List.map_eq_nil_iff.1 hnil]
  simp only [List.foldl_nil, hp, Option.none_or]

theorem exists_scan_spans (name : String) (hne : n.rangeValues name ≠ [])
    (as : List RangeAttribute) :
    ∃ r, scan n (⟨name, true, true⟩ :: as) {} = some r ∧ r.Spans (n.rangeValues name) := by
  obtain ⟨k, hkind⟩ := n.exists_kind_rangeValues name
  obtain ⟨m, hm, hleast⟩ := Number.foldl_tighten (o := .lt) nofun hkind hne
  obtain ⟨l, hl, hgreatest⟩ := Number.foldl_tighten (o := .gt) nofun hkind hne
  have hcast := Number.map_cast_of_kind_eq hkind
  refine ⟨.ofBounds k m l, ?_, NumberRange.spans_ofBounds hkind hleast hgreatest⟩
  rw [scan, foldl_add_numbersOf hne hkind]
  simp only [read, kindWith, boundWith, Option.elim_none, Option.map_none, if_true, hcast, hm, hl]
  rfl

theorem exists_scan_joins (low high : String) (hlow : n.rangeValues low ≠ [])
    (hhigh : n.rangeValues high ≠ []) :
    ∃ r, scan n [⟨low, true, false⟩, ⟨high, false, true⟩] {} = some r ∧
      r.Joins (n.rangeValues low) (n.rangeValues high) := by
  obtain ⟨j, hj⟩ := n.exists_kind_rangeValues low
  obtain ⟨k, hk⟩ := n.exists_kind_rangeValues high
  obtain ⟨m, hm, hleast⟩ := Number.foldl_tighten (o := .lt) nofun hj hlow
  have hcast := Number.map_cast_of_kind_eq hj
  obtain ⟨l, hl, hgreatest⟩ := Number.foldl_tighten (o := .gt) nofun
    (Number.kind_of_mem_map_cast (n.rangeValues high) (j.widest k))
    (mt List.map_eq_nil_iff.1 hhigh)
  refine ⟨_, ?_, NumberRange.joins_ofBounds hj hk hleast hgreatest⟩
  rw [scan, foldl_add_numbersOf hlow hj, scan, foldl_add_numbersOf hhigh hk]
  simp only [read, kindWith, boundWith, Option.elim_none, Option.elim_some, Option.map_none,
    Option.map_some, if_true, if_false, Bool.false_eq_true, hcast, hm, hl]
  rfl

theorem complete?_eq_none_of_maximum (h : p.maximum = none) : p.complete? = none := by
  unfold complete?
  rw [h]
  cases p.kind with
  | none => rfl
  | some k => cases p.minimum <;> rfl

theorem scan_limits_eq_none (low high : String)
    (hnil : n.rangeValues low = [] ∨ n.rangeValues high = []) :
    scan n [⟨low, true, false⟩, ⟨high, false, true⟩] {} = none := by
  rcases eq_or_ne (n.rangeValues low) [] with hlow | hlow
  · rw [scan_of_eq_nil hlow rfl]
    rcases eq_or_ne (n.rangeValues high) [] with hhigh | hhigh
    · exact scan_of_eq_nil hhigh rfl []
    · obtain ⟨k, hk⟩ := n.exists_kind_rangeValues high
      rw [scan, foldl_add_numbersOf hhigh hk]
      rfl
  · obtain ⟨j, hj⟩ := n.exists_kind_rangeValues low
    have hhigh := hnil.resolve_left hlow
    have hlone (k : NumberKind) (xs : List Number) :
        (read ⟨low, true, false⟩ {} k xs).complete? = none := complete?_eq_none_of_maximum rfl
    rw [scan, foldl_add_numbersOf hlow hj, hlone, Option.none_or]
    exact scan_of_eq_nil hhigh (hlone _ _) []

end PartialRange

namespace ValidRange

theorem map_range_ofVariable (v : Variable) :
    (ofVariable v).map range = PartialRange.scan v.toNode rangeAttributes {} := by
  have hrange (b : Bool) (r : NumberRange) :
      (if b then measurement r v.unit else packed r).range = r := by cases b <;> rfl
  simp only [ofVariable, Option.map_map, Function.comp_def, hrange, Option.map_id']

theorem declared_map_range (v : Variable) :
    NumberRange.Declared v.rangeValues ((ofVariable v).map range) := by
  rw [map_range_ofVariable]
  rcases eq_or_ne (v.rangeValues "valid_range") [] with hvalid | hvalid
  · rw [rangeAttributes, PartialRange.scan_of_eq_nil hvalid rfl]
    rcases eq_or_ne (v.rangeValues "actual_range") [] with hactual | hactual
    · rw [PartialRange.scan_of_eq_nil hactual rfl]
      by_cases hnil : v.rangeValues "valid_min" = [] ∨ v.rangeValues "valid_max" = []
      · rw [PartialRange.scan_limits_eq_none _ _ hnil]
        exact .nothing hvalid hactual hnil
      · obtain ⟨hlow, hhigh⟩ := not_or.1 hnil
        obtain ⟨r, hr, hjoins⟩ := PartialRange.exists_scan_joins _ _ hlow hhigh
        rw [hr]
        exact .limits hvalid hactual hjoins
    · obtain ⟨r, hr, hspans⟩ := PartialRange.exists_scan_spans _ hactual _
      rw [hr]
      exact .actual hvalid hspans
  · obtain ⟨r, hr, hspans⟩ := PartialRange.exists_scan_spans _ hvalid _
    rw [rangeAttributes, hr]
    exact .valid hspans

/--
The range of a variable is the one that its range attributes declare, and there is none exactly if
they declare none. Variables have one range if the attributes that declare it have the same values,
in any order and number.
-/
theorem map_range_ofVariable_eq_iff (v : Variable) :
    (∀ name, List.Forall₂ Number.StandsFor (v.numbersOf name) (v.rangeValues name)) ∧
    (∀ o, (ofVariable v).map range = o ↔ NumberRange.Declared v.rangeValues o) ∧
    ∀ w : Variable,
      (∀ x, x ∈ w.rangeValues "valid_range" ↔ x ∈ v.rangeValues "valid_range") →
      (v.rangeValues "valid_range" = [] →
        ∀ x, x ∈ w.rangeValues "actual_range" ↔ x ∈ v.rangeValues "actual_range") →
      (v.rangeValues "valid_range" = [] → v.rangeValues "actual_range" = [] →
        ∀ name ∈ ["valid_min", "valid_max"],
          ∀ x, x ∈ w.rangeValues name ↔ x ∈ v.rangeValues name) →
      (ofVariable w).map range = (ofVariable v).map range := by
  have hdeclared := declared_map_range v
  refine ⟨fun _ => v.standsFor_rangeValues _, fun o => ⟨fun ho => ho ▸ hdeclared, ?_⟩,
    fun w hvalid hactual hlimits => ?_⟩
  · exact hdeclared.unique v.exists_kind_rangeValues
  · exact (declared_map_range w).unique w.exists_kind_rangeValues
      (hdeclared.congr hvalid hactual hlimits)

theorem map_range_ofVariable_eq_iff_limits :
    let v : Variable := {
      name := "T"
      attributes := [("valid_max", .numbers (.ofNumbers .int [.int 7, .int 200])),
        ("valid_min", .numbers (.ofNumbers .short [.short 5, .short (-3), .short 5]))]
      type := .short, dimensions := [], isAxis := false }
    let w : Variable := {
      name := "S"
      attributes := [("valid_min", .numbers (.ofNumbers .short [.short (-3), .short 5])),
        ("valid_max", .numbers (.ofNumbers .int [.int 200, .int 7])), ("actual_range", .flag true)]
      type := .double, dimensions := [], isAxis := true }
    let r := NumberRange.ofBounds .int (.int (-3)) (.int 200)
    let ofValidRange (k : NumberKind) (xs : List Number) : Variable := {
      name := "T", attributes := [("valid_range", .numbers (.ofNumbers k xs))]
      type := .short, dimensions := [], isAxis := false }
    let singles := ofValidRange .float [.float ⟨0x3f800000#32⟩, .float ⟨0x7f7fffff#32⟩,
      .float ⟨0xff7fffff#32⟩]
    let doubles := ofValidRange .double [.double ⟨0x7feffffffffffffe#64⟩,
      .double ⟨0xffefffffffffffff#64⟩]
    (ofVariable v).map range = some r ∧ (ofVariable w).map range = some r ∧
      (ofVariable singles).map range =
        some (.ofBounds .float (.float ⟨0xff800000#32⟩) (.float ⟨0x7f800000#32⟩)) ∧
      (ofVariable doubles).map range =
        some (.ofBounds .double (.double ⟨0xfff0000000000000#64⟩)
          (.double ⟨0x7feffffffffffffe#64⟩)) := by
  intro v w r ofValidRange singles doubles
  obtain ⟨-, hiff, hsame⟩ := map_range_ofVariable_eq_iff v
  have hv : (ofVariable v).map range = some r := by
    apply (hiff (some r)).2
    refine .limits (by decide) (by decide) ⟨by decide, ⟨.short (-3), by decide, by decide⟩, ?_⟩
    decide
  have hmem (name : String) (hvw : v.rangeValues name ⊆ w.rangeValues name)
      (hwv : w.rangeValues name ⊆ v.rangeValues name) (x : Number) :
      x ∈ w.rangeValues name ↔ x ∈ v.rangeValues name := ⟨@hwv x, @hvw x⟩
  refine ⟨hv, (hsame w ?_ ?_ ?_).trans hv, ?_, ?_⟩
  · exact hmem _ (by decide) (by decide)
  · exact fun _ => hmem _ (by decide) (by decide)
  · intro _ _ name hname
    rw [List.mem_pair] at hname
    rcases hname with rfl | rfl
    · exact hmem _ (by decide) (by decide)
    · exact hmem _ (by decide) (by decide)
  · refine ((map_range_ofVariable_eq_iff singles).2.1 _).2 (.valid ⟨?_, ?_, ?_, ?_⟩)
    all_goals decide +kernel
  · refine ((map_range_ofVariable_eq_iff doubles).2.1 _).2 (.valid ⟨?_, ?_, ?_, ?_⟩)
    all_goals decide +kernel

end ValidRange

end Gridded
