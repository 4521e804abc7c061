import Gridded.Convention.Registry
import Mathlib.Data.List.Forall2

/-!
Selection from a registry that the tests of its conventions may search as well. A search fetches one
convention at a time, by its place, and does not fetch the next before the test has answered. If all
tests come to an end, their answers make the registry one of the kind that `Registry.find` reads,
and it finds what the search does.
-/

namespace Gridded

def Convention.policies (c : Convention) : Convention :=
  { c with isApplicable := fun _ => pure false }

/--
What a test does: it answers, tells an event, or searches the registry for the convention of some
dataset and goes on with that.
-/
inductive Probe
  | answer (applies : Bool)
  | tell (e : Event) (rest : Probe)
  | search (d : Dataset) (rest : Convention → Probe)

structure Candidate where
  convention : Convention
  probe : Dataset → Probe

structure Found where
  convention : Convention
  probed : List Nat

inductive Task
  | test (p : Probe)
  | search (d : Dataset) (i : Nat)

abbrev Task.Result : Task → Type
  | .test _ => Bool
  | .search _ _ => Found

inductive Ends (cs : List Candidate) : (t : Task) → Logged t.Result → Prop
  | answer (applies : Bool) : Ends cs (.test (.answer applies)) ⟨applies, []⟩
  | tell {e : Event} {p : Probe} {b : Bool} {es : List Event} : Ends cs (.test p) ⟨b, es⟩ →
      Ends cs (.test (.tell e p)) ⟨b, e :: es⟩
  | search {d : Dataset} {p : Convention → Probe} {x : Found} {b : Bool} {es es' : List Event} :
      Ends cs (.search d 0) ⟨x, es⟩ → Ends cs (.test (p x.convention)) ⟨b, es'⟩ →
      Ends cs (.test (.search d p)) ⟨b, es ++ es'⟩
  | default {d : Dataset} {i : Nat} : cs[i]? = none →
      Ends cs (.search d i) ⟨⟨.cf, []⟩, [.defaultConvention d.name Convention.cf.identifier]⟩
  | accept {d : Dataset} {i : Nat} {c : Candidate} {es : List Event} : cs[i]? = some c →
      Ends cs (.test (c.probe d)) ⟨true, es⟩ →
      Ends cs (.search d i)
        ⟨⟨c.convention.policies, [i]⟩, es ++ [.convention d.name c.convention.identifier]⟩
  | reject {d : Dataset} {i : Nat} {c : Candidate} {es es' : List Event} {x : Found} :
      cs[i]? = some c → Ends cs (.test (c.probe d)) ⟨false, es⟩ →
      Ends cs (.search d (i + 1)) ⟨x, es'⟩ →
      Ends cs (.search d i) ⟨⟨x.convention, i :: x.probed⟩, es ++ es'⟩

variable {cs : List Candidate}

theorem Ends.unique {t : Task} {x y : Logged t.Result} (hx : Ends cs t x) (hy : Ends cs t y) :
    x = y := by
  induction hx with
  | answer =>
    cases hy
    rfl
  | tell _ ih =>
    cases hy with
    | tell hy =>
      cases ih hy
      rfl
  | search _ _ ih ihrest =>
    cases hy with
    | search hy hrest =>
      cases ih hy
      cases ihrest hrest
      rfl
  | default hend =>
    cases hy with
    | default => rfl
    | accept hc | reject hc =>
      rw [hend] at hc
      cases hc
  | accept hc _ ih =>
    cases hy with
    | default hend =>
      rw [hend] at hc
      cases hc
    | accept hc' hy | reject hc' hy =>
      obtain rfl := Option.some.inj (hc.symm.trans hc')
      cases ih hy
      try rfl
  | reject hc _ _ ih ihrest =>
    cases hy with
    | default hend =>
      rw [hend] at hc
      cases hc
    | accept hc' hy =>
      obtain rfl := Option.some.inj (hc.symm.trans hc')
      cases ih hy
    | reject hc' hy hrest =>
      obtain rfl := Option.some.inj (hc.symm.trans hc')
      cases ih hy
      cases ihrest hrest
      rfl

theorem Ends.iff {t : Task} {x y : Logged t.Result} (hx : Ends cs t x) : Ends cs t y ↔ y = x :=
  ⟨fun hy => hy.unique hx, fun h => h ▸ hx⟩

def Probe.ofLogged (x : Logged Bool) : Probe := x.events.foldr .tell (.answer x.result)

theorem ends_ofLogged (x : Logged Bool) : Ends cs (.test (.ofLogged x)) x := by
  obtain ⟨b, es⟩ := x
  induction es with
  | nil => exact .answer b
  | cons e es ih => exact .tell ih

def Terminating (cs : List Candidate) : Prop :=
  ∀ c ∈ cs, ∀ d, ∃ x, Ends cs (.test (c.probe d)) x

structure Candidate.Stands (cs : List Candidate) (c : Candidate) (a : Convention) : Prop where
  policies : a.policies = c.convention.policies
  test (d : Dataset) : Ends cs (.test (c.probe d)) (a.isApplicable d)

namespace Candidate

def ofConvention (a : Convention) : Candidate := ⟨a, fun d => .ofLogged (a.isApplicable d)⟩

theorem stands_ofConvention (a : Convention) : (ofConvention a).Stands cs a :=
  ⟨rfl, fun _ => ends_ofLogged _⟩

variable {c : Candidate} {a b : Convention}

theorem Stands.eq (ha : c.Stands cs a) (hb : c.Stands cs b) : a = b := by
  have hpolicies := ha.policies.trans hb.policies.symm
  have htest : a.isApplicable = b.isApplicable :=
    funext fun d => (ha.test d).unique (hb.test d)
  cases a
  cases b
  simp only [Convention.policies, Convention.mk.injEq] at hpolicies htest ⊢
  exact ⟨hpolicies.1, htest, hpolicies.2.2⟩

theorem Stands.identifier_eq (h : c.Stands cs a) : c.convention.identifier = a.identifier :=
  (congrArg Convention.identifier h.policies).symm

theorem exists_stands (h : ∀ d, ∃ x, Ends cs (.test (c.probe d)) x) : ∃ a, c.Stands cs a := by
  choose test htest using h
  exact ⟨{ c.convention with isApplicable := test }, rfl, htest⟩

end Candidate

namespace Registry

variable {r r' : Registry} {d : Dataset} {i j n : Nat} {a b : Convention}

def Holds (r : Registry) (cs : List Candidate) : Prop := List.Forall₂ (Candidate.Stands cs) cs r

theorem Holds.unique (h : r.Holds cs) (h' : r'.Holds cs) : r = r' :=
  Relator.RightUnique.forall₂ (R := Candidate.Stands cs) (fun _ _ _ => Candidate.Stands.eq) h h'

theorem exists_holds (h : Terminating cs) : ∃ r : Registry, r.Holds cs := by
  have hstands : ∀ c ∈ cs, ∃ a, c.Stands cs a := fun c hc => Candidate.exists_stands (h c hc)
  have : Nonempty Convention := ⟨.cf⟩
  choose! entry hentry using hstands
  exact ⟨cs.map entry, List.forall₂_map_right_iff.2 (List.forall₂_same.2 hentry)⟩

theorem Holds.terminating (h : r.Holds cs) : Terminating cs := by
  intro c hc d
  obtain ⟨hlength, hstands⟩ := List.forall₂_iff_get.1 h
  obtain ⟨i, hi, rfl⟩ := List.getElem_of_mem hc
  exact ⟨_, (hstands i hi (hlength ▸ hi)).test d⟩

def told (d : Dataset) (r : Registry) : List Event := r.flatMap fun a => (a.isApplicable d).events

structure FirstAt (r : Registry) (d : Dataset) (i : Nat) (a : Convention) : Prop where
  fetched : r[i]? = some a
  applies : (a.isApplicable d).result = true
  earliest : ∀ j < i, ∀ b ∈ r[j]?, (b.isApplicable d).result = false

theorem firstAt_zero_iff :
    FirstAt (b :: r) d 0 a ↔ b = a ∧ (a.isApplicable d).result = true :=
  ⟨fun h => ⟨Option.some.inj h.fetched, h.applies⟩,
    fun h => ⟨congrArg some h.1, h.2, fun _ hj => absurd hj (Nat.not_lt_zero _)⟩⟩

theorem firstAt_succ_iff :
    FirstAt (b :: r) d (i + 1) a ↔ (b.isApplicable d).result = false ∧ r.FirstAt d i a := by
  constructor
  · intro h
    exact ⟨h.earliest 0 (Nat.succ_pos i) b rfl, h.fetched, h.applies,
      fun j hj => h.earliest (j + 1) (Nat.succ_lt_succ hj)⟩
  · rintro ⟨hb, h⟩
    refine ⟨h.fetched, h.applies, fun j hj b' hb' => ?_⟩
    cases j with
    | zero =>
      cases hb'
      exact hb
    | succ j => exact h.earliest j (Nat.lt_of_succ_lt_succ hj) b' hb'

theorem exists_firstAt_or (r : Registry) (d : Dataset) :
    (∃ i a, r.FirstAt d i a) ∨ ∀ a ∈ r, (a.isApplicable d).result = false := by
  induction r with
  | nil => exact .inr nofun
  | cons b r ih =>
    cases hb : (b.isApplicable d).result with
    | true => exact .inl ⟨0, b, firstAt_zero_iff.2 ⟨rfl, hb⟩⟩
    | false =>
      apply ih.imp
      · rintro ⟨i, a, h⟩
        exact ⟨i + 1, a, firstAt_succ_iff.2 ⟨hb, h⟩⟩
      · exact fun h => List.forall_mem_cons.2 ⟨hb, h⟩

theorem find_cons_of_applies (h : (b.isApplicable d).result = true) :
    find d (b :: r) = ⟨b, (b.isApplicable d).events ++ [.convention d.name b.identifier]⟩ := by
  change Logged.mk _ _ = _
  simp only [h, if_true]
  rfl

theorem find_cons_of_not_applies (h : (b.isApplicable d).result = false) :
    find d (b :: r) = ⟨(r.find d).result, (b.isApplicable d).events ++ (r.find d).events⟩ := by
  change Logged.mk _ _ = _
  simp only [h, Bool.false_eq_true, if_false]

theorem find_of_firstAt (h : r.FirstAt d i a) :
    r.find d = ⟨a, told d (r.take (i + 1)) ++ [.convention d.name a.identifier]⟩ := by
  induction r generalizing i with
  | nil => cases h.fetched
  | cons b r ih =>
    cases i with
    | zero =>
      obtain ⟨rfl, happlies⟩ := firstAt_zero_iff.1 h
      rw [find_cons_of_applies happlies]
      simp [told]
    | succ i =>
      obtain ⟨hb, h⟩ := firstAt_succ_iff.1 h
      rw [find_cons_of_not_applies hb, ih h]
      simp [told]

theorem find_of_forall (h : ∀ a ∈ r, (a.isApplicable d).result = false) :
    r.find d = ⟨.cf, told d r ++ [.defaultConvention d.name Convention.cf.identifier]⟩ := by
  induction r with
  | nil => rfl
  | cons b r ih =>
    obtain ⟨hb, h⟩ := List.forall_mem_cons.1 h
    rw [find_cons_of_not_applies hb, ih h]
    simp [told]

theorem getElem?_of_forall₂_drop (h : List.Forall₂ (Candidate.Stands cs) (cs.drop n) (b :: r)) :
    ∃ c, cs[n]? = some c ∧ c.Stands cs b ∧
      List.Forall₂ (Candidate.Stands cs) (cs.drop (n + 1)) r := by
  obtain ⟨c, rest, hc, hrest, hdrop⟩ := List.forall₂_cons_right_iff.1 h
  refine ⟨c, ?_, hc, ?_⟩
  · rw [← Nat.add_zero n, ← List.getElem?_drop, hdrop]
    rfl
  · rwa [← List.tail_drop, hdrop]

theorem ends_of_firstAt (hr : List.Forall₂ (Candidate.Stands cs) (cs.drop n) r)
    (h : r.FirstAt d i a) :
    Ends cs (.search d n) ⟨⟨a.policies, List.range' n (i + 1)⟩, (r.find d).events⟩ := by
  induction r generalizing n i with
  | nil => cases h.fetched
  | cons b r ih =>
    obtain ⟨c, hc, hb, hr⟩ := getElem?_of_forall₂_drop hr
    have htest := hb.test d
    cases i with
    | zero =>
      obtain ⟨rfl, happlies⟩ := firstAt_zero_iff.1 h
      rw [find_cons_of_applies happlies, hb.policies, ← hb.identifier_eq]
      refine .accept hc ?_
      rwa [← happlies]
    | succ i =>
      obtain ⟨hnot, h⟩ := firstAt_succ_iff.1 h
      rw [find_cons_of_not_applies hnot]
      refine .reject hc ?_ (ih hr h)
      rwa [← hnot]

theorem ends_of_forall (hr : List.Forall₂ (Candidate.Stands cs) (cs.drop n) r)
    (h : ∀ a ∈ r, (a.isApplicable d).result = false) :
    Ends cs (.search d n) ⟨⟨.cf, List.range' n r.length⟩, (r.find d).events⟩ := by
  induction r generalizing n with
  | nil =>
    have hend := List.forall₂_nil_right_iff.1 hr
    exact .default (List.getElem?_eq_none (List.drop_eq_nil_iff.1 hend))
  | cons b r ih =>
    obtain ⟨c, hc, hb, hr⟩ := getElem?_of_forall₂_drop hr
    obtain ⟨hnot, h⟩ := List.forall_mem_cons.1 h
    have htest := hb.test d
    rw [find_cons_of_not_applies hnot]
    refine .reject hc ?_ (ih hr h)
    rwa [← hnot]

theorem foldl_register (r as : Registry) : as.foldl register r = r ++ as := by
  induction as generalizing r with
  | nil => exact (List.append_nil r).symm
  | cons a as ih => rw [List.foldl_cons, ih, register, List.append_assoc, List.singleton_append]

theorem map_policies_of_forall₂ {cs' : List Candidate}
    (h : List.Forall₂ (Candidate.Stands cs) cs' r) :
    r.map Convention.policies = cs'.map fun c => c.convention.policies := by
  induction h with
  | nil => rfl
  | cons h _ ih => rw [List.map_cons, List.map_cons, h.policies, ih]

def SameAnswers (r r' : Registry) (d : Dataset) : Prop :=
  ∀ (i : Nat) (a b : Convention), r[i]? = some a → r'[i]? = some b →
    (a.isApplicable d).result = (b.isApplicable d).result

section Grown

variable {new : List Candidate} (hr : r.Holds cs) (hr' : r'.Holds (cs ++ new))

include hr hr'

theorem map_policies_grown : r'.map Convention.policies =
    (new.map fun c => c.convention.policies).foldl register (r.map Convention.policies) := by
  rw [foldl_register, map_policies_of_forall₂ hr, map_policies_of_forall₂ hr', List.map_append]

theorem getElem?_grown (h : r[i]? = some a) : ∃ b, r'[i]? = some b ∧ b.policies = a.policies := by
  have hi : (r.map Convention.policies)[i]? = some a.policies := by
    rw [List.getElem?_map, h, Option.map_some]
  have hgrown := map_policies_grown hr hr'
  rw [foldl_register] at hgrown
  have hi' : (r'.map Convention.policies)[i]? = some a.policies := by
    rw [hgrown, List.getElem?_append_left (List.getElem?_eq_some_iff.1 hi).1, hi]
  rwa [List.getElem?_map, Option.map_eq_some_iff] at hi'

theorem firstAt_grown (hsame : r.SameAnswers r' d) (h : r.FirstAt d i a) :
    ∃ b, b.policies = a.policies ∧ r'.FirstAt d i b := by
  obtain ⟨b, hb, hpolicies⟩ := getElem?_grown hr hr' h.fetched
  refine ⟨b, hpolicies, hb, (hsame i a b h.fetched hb).symm.trans h.applies, fun j hj b' hb' => ?_⟩
  have hlt := Nat.lt_trans hj (List.getElem?_eq_some_iff.1 h.fetched).1
  have ha' := List.getElem?_eq_getElem hlt
  exact (hsame j _ b' ha' hb').symm.trans (h.earliest j hj _ ha')

end Grown

section None

variable (hsame : r.SameAnswers r' d) (hnone : ∀ a ∈ r, (a.isApplicable d).result = false)

include hsame hnone

theorem not_applies_of_lt (hi : i < r.length) (hb : r'[i]? = some b) :
    (b.isApplicable d).result = false := by
  have ha := List.getElem?_eq_getElem hi
  exact (hsame i _ b ha hb).symm.trans (hnone _ (List.mem_of_getElem? ha))

theorem firstAt_of_drop (h : FirstAt (r'.drop r.length) d j b) :
    r'.FirstAt d (r.length + j) b := by
  refine ⟨List.getElem?_drop.symm.trans h.fetched, h.applies, fun k hk b' hb' => ?_⟩
  rcases Nat.lt_or_ge k r.length with hlt | hge
  · exact not_applies_of_lt hsame hnone hlt hb'
  · obtain ⟨m, rfl⟩ := Nat.exists_eq_add_of_le hge
    exact h.earliest m (Nat.lt_of_add_lt_add_left hk) b' (List.getElem?_drop.trans hb')

theorem forall_of_drop (h : ∀ b ∈ r'.drop r.length, (b.isApplicable d).result = false) :
    ∀ b ∈ r', (b.isApplicable d).result = false := by
  intro b hb
  obtain ⟨i, hi⟩ := List.getElem?_of_mem hb
  rcases Nat.lt_or_ge i r.length with hlt | hge
  · exact not_applies_of_lt hsame hnone hlt hi
  · obtain ⟨m, rfl⟩ := Nat.exists_eq_add_of_le hge
    exact h b (List.mem_of_getElem? (List.getElem?_drop.trans hi))

end None

end Registry

namespace Catalog

def candidates : List Candidate :=
  (plugins.map Plugin.convention ++ [inert, satellite]).map .ofConvention ++
    [{ convention := { identifier := "nested" }
       probe d := if (d.globalText "nested").isSome then
           .search inner fun a => .answer (a.identifier = Convention.cf.identifier)
         else .answer false }]

theorem ends_inner : Ends candidates (.search inner 0)
    ⟨⟨.cf, [0, 1, 2, 3]⟩, [.defaultConvention inner.name Convention.cf.identifier]⟩ := by
  have hend : Ends candidates (.search inner 4) _ := .default rfl
  have hnested := Ends.reject (i := 3) rfl (.answer false) hend
  have hsatellite := Ends.reject (i := 2) rfl (.answer false) hnested
  have hinert := Ends.reject (i := 1) rfl (.answer false) hsatellite
  exact Ends.reject (i := 0) rfl (.answer false) hinert

theorem holds_candidates : registry.Holds candidates := by
  refine .cons (Candidate.stands_ofConvention _) <| .cons (Candidate.stands_ofConvention _) <|
    .cons (Candidate.stands_ofConvention _) <| .cons ⟨rfl, fun d => ?_⟩ .nil
  change Ends candidates (.test (if _ then _ else _)) (if _ then _ else _)
  by_cases h : (d.globalText "nested").isSome = true
  · rw [if_pos h, if_pos h]
    exact .search ends_inner (.answer _)
  · rw [if_neg h, if_neg h]
    exact .answer false

end Catalog

namespace Registry

/--
Conventions whose tests come to an end make up one registry. A search finds the first that applies,
or else the default, after the tests of all up to that one, each once and in turn; it tells what the
tests tell and after that which convention is used. When more conventions are registered and the
tests answer as before, what was found first is found still, and what was not found is the first of
the new ones that applies, if one does.
-/
theorem find_first_applicable :
    (∀ cs, Terminating cs ↔ ∃! r : Registry, r.Holds cs) ∧
    (∀ (cs : List Candidate) (r : Registry) (d : Dataset), r.Holds cs →
      (∃ i a, r.FirstAt d i a ∧
        r.find d = ⟨a, told d (r.take (i + 1)) ++ [.convention d.name a.identifier]⟩ ∧
        ∀ x, Ends cs (.search d 0) x ↔
          x = ⟨⟨a.policies, List.range (i + 1)⟩, (r.find d).events⟩) ∨
      ((∀ a ∈ r, (a.isApplicable d).result = false) ∧
        r.find d = ⟨.cf, told d r ++ [.defaultConvention d.name Convention.cf.identifier]⟩ ∧
        ∀ x, Ends cs (.search d 0) x ↔
          x = ⟨⟨.cf, List.range r.length⟩, (r.find d).events⟩)) ∧
    (∀ file identifier, (Event.convention file identifier).level = .debug ∧
      (Event.defaultConvention file identifier).level = .debug) ∧
    (∀ (cs new : List Candidate) (r r' : Registry) (d : Dataset), r.Holds cs →
      r'.Holds (cs ++ new) → r.SameAnswers r' d →
      r'.map Convention.policies =
        (new.map fun c => c.convention.policies).foldl register (r.map Convention.policies) ∧
      (∀ i a, r.FirstAt d i a → ∃ b, b.policies = a.policies ∧ r'.FirstAt d i b ∧
        (r'.find d).result = b) ∧
      ((∀ a ∈ r, (a.isApplicable d).result = false) →
        (∀ j b, FirstAt (r'.drop r.length) d j b →
          r'.FirstAt d (r.length + j) b ∧ (r'.find d).result = b) ∧
        ((∀ b ∈ r'.drop r.length, (b.isApplicable d).result = false) →
          (r'.find d).result = .cf))) := by
  refine ⟨fun cs => ⟨fun h => ?_, fun ⟨r, hr, _⟩ => hr.terminating⟩, fun cs r d hr => ?_,
    fun _ _ => ⟨rfl, rfl⟩, fun cs new r r' d hr hr' hsame => ?_⟩
  · obtain ⟨r, hr⟩ := exists_holds h
    exact ⟨r, hr, fun _ hr' => hr'.unique hr⟩
  · have hdrop : List.Forall₂ (Candidate.Stands cs) (cs.drop 0) r := hr
    apply (exists_firstAt_or r d).imp
    · rintro ⟨i, a, h⟩
      refine ⟨i, a, h, find_of_firstAt h, fun x => ?_⟩
      rw [List.range_eq_range', (ends_of_firstAt hdrop h).iff]
    · intro h
      refine ⟨h, find_of_forall h, fun x => ?_⟩
      rw [List.range_eq_range', (ends_of_forall hdrop h).iff]
  · have hresult {i : Nat} {b : Convention} (h : r'.FirstAt d i b) : (r'.find d).result = b :=
      congrArg Logged.result (find_of_firstAt h)
    refine ⟨map_policies_grown hr hr', fun i a h => ?_, fun hnone => ⟨fun j b h => ?_, fun h => ?_⟩⟩
    · obtain ⟨b, hpolicies, hb⟩ := firstAt_grown hr hr' hsame h
      exact ⟨b, hpolicies, hb, hresult hb⟩
    · have hb := firstAt_of_drop hsame hnone h
      exact ⟨hb, hresult hb⟩
    · exact congrArg Logged.result (find_of_forall (forall_of_drop hsame hnone h))

theorem find_first_applicable_catalog :
    let d : Dataset := { name := "nested.nc", root := ⟨"", [("nested", .texts ["yes"])]⟩ }
    let d' : Dataset := { name := "sat.nc", root := ⟨"", [("platform", .texts ["satellite"])]⟩ }
    (∃! r : Registry, r.Holds Catalog.candidates) ∧
    (∀ x, Ends Catalog.candidates (.search d 0) x →
      x.events = [.defaultConvention "inner.nc" "cf", .convention "nested.nc" "nested"]) ∧
    (find d' Catalog.registry).result = Catalog.satellite := by
  intro d d'
  obtain ⟨hexists, hfind, -, hgrown⟩ := find_first_applicable
  have hr := Catalog.holds_candidates
  refine ⟨(hexists _).1 hr.terminating, fun x hx => ?_, ?_⟩
  · have hevents : (find d Catalog.registry).events =
        [.defaultConvention "inner.nc" "cf", .convention "nested.nc" "nested"] := by
      decide +kernel
    rcases hfind Catalog.candidates Catalog.registry d hr with ⟨_, _, -, -, hends⟩ | ⟨-, -, hends⟩
    all_goals rw [(hends x).1 hx, hevents]
  · let old : Registry := [Catalog.ghrsst, Catalog.inert]
    have hold : old.Holds (old.map .ofConvention) :=
      .cons (Candidate.stands_ofConvention _) <| .cons (Candidate.stands_ofConvention _) .nil
    have hsame : old.SameAnswers Catalog.registry d' := by
      rintro (_ | _ | i) a b ha hb
      · cases ha
        cases hb
        rfl
      · cases ha
        cases hb
        rfl
      · cases ha
    have hnone : ∀ a ∈ old, (a.isApplicable d').result = false := by decide +kernel
    obtain ⟨-, -, hnew⟩ := hgrown (old.map .ofConvention) (Catalog.candidates.drop 2) old
      Catalog.registry d' hold hr hsame
    exact ((hnew hnone).1 0 _ (firstAt_zero_iff.2 ⟨rfl, by decide +kernel⟩)).2

end Registry

end Gridded
