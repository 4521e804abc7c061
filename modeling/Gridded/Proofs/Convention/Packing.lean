import Gridded.Convention.Basic
import Gridded.Proofs.Convention.ValidRange

namespace Gridded

namespace NumberKind

theorem le_double (k : NumberKind) : k ≤ .double := by cases k <;> decide

theorem eq_double_of_le {k : NumberKind} (h : .double ≤ k) : k = .double := by
  cases k <;> first | rfl | exact absurd h (by decide)

theorem le_of_covers {k l : NumberKind} (h : k.covers (some l)) : l ≤ k := of_decide_eq_true h

end NumberKind

theorem AttributeValue.forall_kind_le_iff {a : AttributeValue} {k : NumberKind}
    (h : k.covers a.numberKind?) :
    (∀ x ∈ a.numericValues, x.kind ≤ k) ↔
      k = .double ∨ ∀ ts, a = .texts ts → a.numericValues = [] := by
  cases a with
  | numbers s =>
    exact iff_of_true (fun x hx => (s.uniform x hx).symm ▸ NumberKind.le_of_covers h) (.inr nofun)
  | texts ts =>
    have hkind : ∀ x ∈ numericValues (.texts ts), x.kind = .double :=
      fun _ => kind_of_mem_numericValues
    constructor
    · intro hle
      rcases eq_or_ne (numericValues (.texts ts)) [] with hnil | hne
      · exact .inr fun _ _ => hnil
      · obtain ⟨x, hx⟩ := List.exists_mem_of_ne_nil _ hne
        exact .inl (NumberKind.eq_double_of_le (hkind x hx ▸ hle x hx))
    · rintro (rfl | hnil) x hx
      · exact x.kind.le_double
      · rw [hnil ts rfl] at hx
        cases hx
  | flag b => exact iff_of_true nofun (.inr nofun)

theorem Node.forall_kind_le_iff {n : Node} {name : String} {k : NumberKind}
    (h : k.covers (n.kindOf? name)) :
    (∀ x ∈ n.numbersOf name, x.kind ≤ k) ↔
      k = .double ∨ ∀ ts, n.get? name = some (.texts ts) → n.numbersOf name = [] := by
  have hnumbers : n.numbersOf name = (n.get? name).elim [] AttributeValue.numericValues := rfl
  unfold kindOf? at h
  rw [hnumbers]
  generalize n.get? name = found at h
  cases found with
  | none => exact iff_of_true nofun (.inr nofun)
  | some a =>
    simp only [Option.some_inj]
    exact AttributeValue.forall_kind_le_iff h

namespace ValidRange

variable {v : Variable} {r : NumberRange} {unit : Option String}

theorem covers_of_measurement (h : ofVariable v = some (.measurement r unit)) :
    r.kind.covers v.type.numberKind? ∧
      ∀ name ∈ [scaleFactor, addOffset], r.kind.covers (v.kindOf? name) := by
  obtain ⟨r', -, hr⟩ := Option.map_eq_some_iff.1 h
  split at hr
  · next hcovers =>
    obtain ⟨rfl, -⟩ := measurement.inj hr
    simpa [and_assoc] using hcovers
  · cases hr

/--
A range in measurements is as wide as the stored values and as each number that scales them, unless
one of these is read from a text: a range of another kind than doubles is then too narrow for it.
-/
theorem measurement_covers_iff (h : ofVariable v = some (.measurement r unit)) :
    (∀ k, v.type.numberKind? = some k → k ≤ r.kind) ∧
    (∀ name ∈ [scaleFactor, addOffset], ∀ s, v.get? name = some (.numbers s) →
      ∀ x ∈ v.numbersOf name, x.kind ≤ r.kind) ∧
    ((∀ name ∈ [scaleFactor, addOffset], ∀ x ∈ v.numbersOf name, x.kind ≤ r.kind) ↔
      r.kind = .double ∨ ∀ name ∈ [scaleFactor, addOffset], ∀ ts,
        v.get? name = some (.texts ts) → v.numbersOf name = []) := by
  obtain ⟨htype, hscales⟩ := covers_of_measurement h
  refine ⟨fun k hk => NumberKind.le_of_covers (hk ▸ htype), fun name hname s hs => ?_, ?_⟩
  · refine (Node.forall_kind_le_iff (hscales name hname)).2 (.inr fun ts hts => ?_)
    cases hs.symm.trans hts
  · rw [forall₂_congr fun name hname => Node.forall_kind_le_iff (hscales name hname)]
    rcases em (r.kind = .double) with hk | hk
    · simp only [hk, true_or, implies_true]
    · simp only [hk, false_or]

theorem measurement_covers_iff_kelvin :
    let v : Variable := {
      name := "T"
      attributes := [("valid_range", .numbers (.ofNumbers .float [.int (-2), .int 40])),
        (scaleFactor, .numbers (.ofNumbers .short [.short 2])), (addOffset, .texts ["none"])]
      type := .short, dimensions := [], isAxis := false }
    ∃ r, ofVariable v = some (.measurement r none) ∧
      ∀ name ∈ [scaleFactor, addOffset], ∀ x ∈ v.numbersOf name, x.kind ≤ r.kind := by
  intro v
  have h : ofVariable v = some (.measurement (.ofBounds .float (.int (-2)) (.int 40)) none) := by
    decide
  obtain ⟨-, -, hiff⟩ := measurement_covers_iff h
  refine ⟨_, h, hiff.2 (.inr fun name hname ts hts => ?_)⟩
  rcases List.mem_pair.1 hname with rfl | rfl
  · cases hts
  · decide

/-- Short codes are taken for measurements, although a scale given in a text applies to them. -/
theorem measurement_below_scale :
    let v : Variable := {
      name := "T"
      attributes := [("valid_range", .numbers (.ofNumbers .short [.short 0, .short 100])),
        (scaleFactor, .texts ["0.5"])]
      type := .short, dimensions := [], isAxis := false }
    ∃ r x, ofVariable v = some (.measurement r none) ∧ x ∈ v.numbersOf scaleFactor ∧
      ¬ x.kind ≤ r.kind ∧ (Affine.ofNode v.toNode).scale = x.toDouble ∧
      (Affine.ofNode v.toNode).isIdentity = false := by
  intro v
  refine ⟨.ofBounds .short (.short 0) (.short 100),
    .double ((Binary.ofInt .double 1).div (.ofInt .double 2)), ?_⟩
  decide

end ValidRange

end Gridded
