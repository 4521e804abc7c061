import Gridded.Convention.Projection
import Mathlib

namespace Gridded

theorem eraseDups_concat {α : Type} [DecidableEq α] (l : List α) (a : α) :
    (l ++ [a]).eraseDups = if a ∈ l then l.eraseDups else l.eraseDups ++ [a] := by
  rw [List.eraseDups_append, List.removeAll]
  split
  · next h => simp [h]
  · next h => simp [h, List.eraseDups_cons]

namespace DatumShift

end DatumShift

namespace NodeView

variable (v : NodeView)

def parameter? (name : String) : Option ProjectionValue :=
  let lower := lowerCase name
  if lower = gridMappingName then none
  else if "_name".toList.isSuffixOf lower.toList then (v.textOf name).map .text
  else if lower = "towgs84" then
    (DatumShift.ofValues? wgs84 ((v.numbersOf name).map Number.toDouble)).map .shift
  else if lower = "crs_wkt" then none
  else match v.numbersOf name with
    | [] => none
    | [x] => some (.number x)
    | xs => some (.vector (xs.map Number.toDouble))

def warnings (before : List String) (name : String) : List Event :=
  match v.parameter? name with
  | some _ => if name ∈ before then [.duplicateParameter v.name name] else []
  | none =>
    if lowerCase name = "towgs84" ∧ 7 < (v.numbersOf name).length then
      [.longDatumShift v.name name (v.numbersOf name).length]
    else []

end NodeView

namespace ProjectionReading

theorem ofShift_eq (values : List Double) :
    ofShift values =
      match DatumShift.ofValues? wgs84 values with
      | some s => .value (.shift s)
      | none => if 7 < values.length then .tooLong values.length else .nothing := by
  unfold ofShift DatumShift.ofValues?
  rcases Nat.lt_or_ge values.length 3 with hfew | hfew
  · rw [if_pos hfew, if_neg (by omega), if_neg (by omega)]
  · rw [if_neg (by omega)]
    rcases Nat.lt_or_ge 7 values.length with hmany | hmany
    · rw [if_neg (by omega), if_pos hmany]
    · rw [if_pos ⟨hfew, hmany⟩]

theorem ofAttribute_keep (v : NodeView) (name : String) :
    ofAttribute .keep v name =
      match v.parameter? name with
      | some x => .value x
      | none =>
        if lowerCase name = "towgs84" ∧ 7 < (v.numbersOf name).length then
          .tooLong (v.numbersOf name).length
        else .nothing := by
  have hname : "_name".toList.isSuffixOf gridMappingName.toList = true := by decide
  have hshift : "_name".toList.isSuffixOf "towgs84".toList = false := by decide
  unfold ofAttribute NodeView.parameter?
  dsimp only
  split
  · next hsuffix =>
    have hne : lowerCase name ≠ "towgs84" := by
      rintro heq
      rw [heq, hshift] at hsuffix
      cases hsuffix
    simp only [hne, false_and, if_false, true_and]
    split
    · rfl
    · cases v.textOf name with
      | none => rfl
      | some s => rfl
  · next hsuffix =>
    have hne : lowerCase name ≠ gridMappingName := by
      rintro heq
      exact hsuffix (heq ▸ hname)
    simp only [hne, if_false]
    split
    · next heq =>
      rw [ofShift_eq, List.length_map]
      simp only [heq, true_and]
      rcases DatumShift.ofValues? wgs84 ((v.numbersOf name).map Number.toDouble) with _ | s
      · rfl
      · rfl
    · next heq =>
      simp only [heq, false_and, if_false]
      split
      · rfl
      · rcases v.numbersOf name with _ | ⟨x, _ | ⟨y, xs⟩⟩
        · rfl
        · rfl
        · rfl

end ProjectionReading

namespace ProjectionParameters

variable (v : NodeView)

def keep (p : ProjectionParameters) (name : String) : Logged ProjectionParameters :=
  match v.parameter? name with
  | some x =>
    match p.insertNew? name x with
    | some p => pure p
    | none => do
        Logged.tell (.duplicateParameter v.name name)
        return p
  | none => ⟨p, v.warnings [] name⟩

theorem collect_keep_eq_foldlM (names : List String) (p : ProjectionParameters) :
    collect .keep v names p = names.foldlM (keep v) p := by
  induction names generalizing p with
  | nil => rfl
  | cons name names ih =>
    rw [List.foldlM_cons, collect, ProjectionReading.ofAttribute_keep, keep, NodeView.warnings]
    rcases v.parameter? name with _ | x
    · by_cases hlong : lowerCase name = "towgs84" ∧ 7 < (v.numbersOf name).length
      · simp only [if_pos hlong, ih]
        rfl
      · simp only [if_neg hlong, ih]
        rfl
    · simp only
      rcases p.insertNew? name x with _ | p'
      · simp only [ih]
        rfl
      · exact ih p'

theorem insertNew?_eq {p : ProjectionParameters} {name : String} {x : ProjectionValue} :
    p.insertNew? name x =
      if name ∈ p.entries.map Prod.fst then none else some ⟨p.entries ++ [(name, x)]⟩ := by
  have h : (p.get? name).isSome ↔ name ∈ p.entries.map Prod.fst := by
    rw [get?, List.lookup_isSome_iff, List.mem_map]
    simp only [beq_iff_eq, @eq_comm _ name]
  unfold insertNew?
  simp only [h]

theorem ofView_of_eq_none {v : NodeView} (h : v.textOf gridMappingName = none)
    (handling : NameAttributes) : ofView handling v = pure none := by
  simp only [ofView, h]

theorem ofView_of_eq_some {v : NodeView} {method : String}
    (h : v.textOf gridMappingName = some method) (handling : NameAttributes) :
    ofView handling v =
      let reading := collect handling v v.attributeNames ⟨[(gridMappingName, .text method)]⟩
      ⟨some reading.result, reading.events⟩ := by
  simp only [ofView, h]
  rw [map_eq_pure_bind]
  exact congrArg (Logged.mk _) (List.append_nil _)

end ProjectionParameters

end Gridded
