import Gridded.Proofs.Convention.Parameters
import Mathlib

namespace Gridded

def NodeView.endsScan (v : NodeView) (name : String) : Bool :=
  "_name".toList.isSuffixOf (lowerCase name).toList && (v.textOf name).isSome

theorem ProjectionReading.ofAttribute_endScan (v : NodeView) (name : String) :
    ofAttribute .endScan v name =
      if v.endsScan name then .finish else ofAttribute .keep v name := by
  unfold ofAttribute NodeView.endsScan
  dsimp only
  rcases "_name".toList.isSuffixOf (lowerCase name).toList with _ | _
  · rfl
  · rcases v.textOf name with _ | s
    · simp
    · rfl

namespace ProjectionParameters

variable (v : NodeView)

theorem collect_endScan (names : List String) (p : ProjectionParameters) :
    collect .endScan v names p =
      collect .keep v (names.takeWhile fun name => !v.endsScan name) p := by
  induction names generalizing p with
  | nil => rfl
  | cons name names ih =>
    rw [collect, ProjectionReading.ofAttribute_endScan, List.takeWhile_cons]
    rcases v.endsScan name with _ | _
    · simp only [ih, Bool.not_false, Bool.false_eq_true, if_true, if_false, collect]
    · rfl

theorem entries_prefix_keep (p : ProjectionParameters) (name : String) :
    p.entries <+: (keep v p name).result.entries := by
  unfold keep
  split
  · next x _ =>
    rw [insertNew?_eq]
    by_cases hmem : name ∈ p.entries.map Prod.fst
    · rw [if_pos hmem]
      exact List.prefix_refl _
    · rw [if_neg hmem]
      exact List.prefix_append _ _
  · exact List.prefix_refl _

theorem entries_prefix_collect_keep (names : List String) (p : ProjectionParameters) :
    p.entries <+: (collect .keep v names p).result.entries := by
  rw [collect_keep_eq_foldlM]
  induction names generalizing p with
  | nil => exact List.prefix_refl _
  | cons name names ih =>
    rw [List.foldlM_cons, Logged.result_bind]
    exact (entries_prefix_keep v p name).trans (ih _)

theorem collect_keep_append (names names' : List String) (p : ProjectionParameters) :
    collect .keep v (names ++ names') p =
      collect .keep v names p >>= collect .keep v names' := by
  rw [collect_keep_eq_foldlM, collect_keep_eq_foldlM, List.foldlM_append]
  exact bind_congr fun q => (collect_keep_eq_foldlM v names' q).symm

theorem collect_keep_declared (declared names : List String) (p : ProjectionParameters) :
    collect .keep { v with attributeNames := declared } names p = collect .keep v names p := by
  rw [collect_keep_eq_foldlM, collect_keep_eq_foldlM]
  rfl

/--
If a name ends the reading, a node has parameters exactly if it has any with all attributes read. It
is read as if only the attributes before the first name with a text were declared, so what is told
and the parameters, the method first, are where what is told and the parameters otherwise start.
-/
theorem ofView_endScan (v : NodeView) :
    let before := v.attributeNames.takeWhile fun name => !v.endsScan name
    let ended := ofView .endScan v
    let kept := ofView .keep v
    (ended.result.isSome ↔ kept.result.isSome) ∧
      ended = ofView .keep { v with attributeNames := before } ∧
      (∀ method, v.textOf gridMappingName = some method →
        ∃ p q, ended.result = some p ∧ kept.result = some q ∧ p.entries <+: q.entries ∧
          p.entries.head? = some (gridMappingName, .text method)) ∧
      ended.events <+: kept.events := by
  intro before ended kept
  rcases h : v.textOf gridMappingName with _ | method
  · have hended : ended = pure none := ofView_of_eq_none h .endScan
    have hkept : kept = pure none := ofView_of_eq_none h .keep
    have hcut : ofView .keep { v with attributeNames := before } = pure none :=
      ofView_of_eq_none (v := { v with attributeNames := before }) h .keep
    rw [hended, hkept, hcut]
    exact ⟨Iff.rfl, rfl, nofun, List.prefix_refl _⟩
  · have hended : ended = _ := ofView_of_eq_some h .endScan
    have hkept : kept = _ := ofView_of_eq_some h .keep
    have hcut : ofView .keep { v with attributeNames := before } = _ :=
      ofView_of_eq_some (v := { v with attributeNames := before }) h .keep
    rw [collect_endScan] at hended
    rw [collect_keep_declared] at hcut
    rw [← List.takeWhile_append_dropWhile (p := fun name => !v.endsScan name)
      (l := v.attributeNames), collect_keep_append] at hkept
    rw [hended, hkept, hcut]
    refine ⟨iff_of_true rfl rfl, rfl, ?_, List.prefix_append _ _⟩
    rintro _ ⟨⟩
    refine ⟨_, _, rfl, rfl, entries_prefix_collect_keep v _ _, ?_⟩
    obtain ⟨rest, hrest⟩ := entries_prefix_collect_keep v before ⟨[(gridMappingName, .text method)]⟩
    rw [← hrest]
    rfl

theorem ofView_endScan_plane :
    let v : NodeView := {
      name := "crs"
      attributeNames := ["false_easting", "Datum_Name", "false_easting", "Ellipsoid_NAME",
        "false_northing", gridMappingName]
      get? := fun name => [("false_easting", .texts ["1"]), ("Datum_Name", .texts [" "]),
        ("Ellipsoid_NAME", .texts ["Airy 1830"]), ("false_northing", .texts ["2"]),
        (gridMappingName, .texts ["mercator"])].lookup name }
    v.textOf gridMappingName = some "mercator" ∧
      ∃ p q, (ofView .endScan v).result = some p ∧ (ofView .keep v).result = some q ∧
        p.entries <+: q.entries ∧ p.size = 2 ∧ q.size = 4 ∧
        (ofView .endScan v).events = [.duplicateParameter "crs" "false_easting"] := by
  intro v
  have h : v.textOf gridMappingName = some "mercator" := by decide
  have hended : (ofView .endScan v).result.map size = some 2 := by decide
  have hkept : (ofView .keep v).result.map size = some 4 := by decide
  obtain ⟨-, -, hall, -⟩ := ofView_endScan v
  obtain ⟨p, q, hp, hq, hpre, -⟩ := hall _ h
  rw [hp] at hended
  rw [hq] at hkept
  exact ⟨h, p, q, hp, hq, hpre, Option.some.inj hended, Option.some.inj hkept, by decide⟩

end ProjectionParameters

end Gridded
