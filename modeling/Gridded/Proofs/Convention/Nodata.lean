import Gridded.Convention.Nodata
import Gridded.Proofs.Convention.Parameters

namespace Gridded

namespace NodataRole

theorem testBit_pad {b : Nat} : pad.testBit b ↔ b = 0 := by
  rw [show pad = 2 ^ 0 from rfl, Nat.testBit_two_pow, decide_eq_true_eq, eq_comm]

theorem testBit_missing {b : Nat} : missing.testBit b ↔ b = 1 := by
  rw [show missing = 2 ^ 1 from rfl, Nat.testBit_two_pow, decide_eq_true_eq, eq_comm]

end NodataRole

namespace NodataValues

variable {x y : Number} {role : NodataRole} {bits : Nat} {v : NodataValues}
  {f : Option NodataRole → NodataRole} {es : List (Number × NodataRole)}
  {mentions : List (Number × Nat)}

theorem map_fst_update :
    (update x f es).map Prod.fst =
      if x ∈ es.map Prod.fst then es.map Prod.fst else es.map Prod.fst ++ [x] := by
  induction es with
  | nil => rfl
  | cons e es ih =>
    rw [update]
    by_cases he : e.1 = x
    · simp [he]
    · have hx : x ≠ e.1 := Ne.symm he
      simp only [he, if_false, List.map_cons, ih, List.mem_cons, hx, false_or]
      split <;> rfl

theorem nodup_map_fst_update (h : (es.map Prod.fst).Nodup) :
    ((update x f es).map Prod.fst).Nodup := by
  rw [map_fst_update]
  split
  · exact h
  · next hnew =>
    refine List.nodup_append.2 ⟨h, List.nodup_singleton x, ?_⟩
    rintro a ha b hb rfl
    exact hnew (List.mem_singleton.1 hb ▸ ha)

theorem map_fst_update_eq_eraseDups {xs : List Number} (h : es.map Prod.fst = xs.eraseDups) :
    (update x f es).map Prod.fst = (xs ++ [x]).eraseDups := by
  simp only [map_fst_update, eraseDups_concat, h, List.mem_eraseDups]

theorem lookup_cons (e : Number × NodataRole) (es : List (Number × NodataRole)) (y : Number) :
    (e :: es).lookup y = if y = e.1 then some e.2 else es.lookup y := by
  obtain ⟨x, role⟩ := e
  rw [List.lookup_cons]
  by_cases h : y = x
  · rw [if_pos h, beq_iff_eq.2 h]
  · rw [if_neg h, beq_eq_false_iff_ne.2 h]

theorem lookup_update :
    (update x f es).lookup y = if y = x then some (f (es.lookup x)) else es.lookup y := by
  induction es with
  | nil => exact lookup_cons _ [] y
  | cons e es ih =>
    rw [update]
    by_cases he : e.1 = x
    · subst he
      simp only [if_true, lookup_cons]
      split <;> rfl
    · simp only [he, if_false, lookup_cons, ih, Ne.symm he]
      by_cases hy : y = e.1
      · rw [if_pos hy, if_pos hy, if_neg (hy ▸ he)]
      · rw [if_neg hy, if_neg hy]

def keys (v : NodataValues) : List Number := v.entries.map Prod.fst

def maskOf (v : NodataValues) (x : Number) : Nat := ((v.get? x).bind NodataRole.mask?).getD 0

theorem get?_merge :
    (v.merge x bits).get? y = if y = x then some (.mask (v.maskOf x ||| bits)) else v.get? y :=
  lookup_update

theorem maskOf_merge :
    (v.merge x bits).maskOf y = if y = x then v.maskOf x ||| bits else v.maskOf y := by
  rw [maskOf, get?_merge]
  split <;> rfl

theorem mem_entries_iff (h : v.keys.Nodup) : (x, role) ∈ v.entries ↔ v.get? x = some role := by
  obtain ⟨es⟩ := v
  unfold get?
  unfold keys at h
  induction es with
  | nil => exact iff_of_false nofun nofun
  | cons e es ih =>
    obtain ⟨hnew, hes⟩ := List.nodup_cons.1 h
    rw [lookup_cons, List.mem_cons]
    by_cases hx : x = e.1
    · subst hx
      have hout : (e.1, role) ∉ es := fun hmem => hnew (List.mem_map.2 ⟨_, hmem, rfl⟩)
      rw [if_pos rfl, Option.some_inj, or_iff_left hout, Prod.ext_iff, and_iff_right rfl, eq_comm]
    · rw [if_neg hx, ← ih hes, or_iff_right]
      rintro rfl
      exact hx rfl

structure Collects (mentions : List (Number × Nat)) (v : NodataValues) : Prop where
  nodup : v.keys.Nodup
  keys_eq : v.keys = (mentions.map Prod.fst).eraseDups
  mask : ∀ x role, v.get? x = some role → role = .mask (v.maskOf x)
  testBit : ∀ x b, (v.maskOf x).testBit b ↔ ∃ m ∈ mentions, m.1 = x ∧ m.2.testBit b

theorem collects_empty : Collects [] {} where
  nodup := .nil
  keys_eq := rfl
  mask _ _ := nofun
  testBit x b := iff_of_false (by simp [maskOf, get?]) (by simp)

theorem Collects.merge (h : Collects mentions v) (x : Number) (bits : Nat) :
    Collects (mentions ++ [(x, bits)]) (v.merge x bits) where
  nodup := nodup_map_fst_update h.nodup
  keys_eq := by
    rw [List.map_append]
    exact map_fst_update_eq_eraseDups h.keys_eq
  mask y role hrole := by
    rw [get?_merge] at hrole
    rw [maskOf_merge]
    split at hrole
    · next hy => rw [if_pos hy, Option.some.inj hrole]
    · next hy => rw [if_neg hy, ← h.mask y role hrole]
  testBit y b := by
    rw [maskOf_merge]
    simp only [List.mem_append, List.mem_singleton, or_and_right, exists_or, exists_eq_left]
    by_cases hy : y = x
    · subst hy
      rw [if_pos rfl, Nat.testBit_or, Bool.or_eq_true, h.testBit, and_iff_right rfl]
    · rw [if_neg hy, h.testBit, or_iff_left fun hx => hy hx.1.symm]

theorem exists_mention_iff {xs : List Number} {b : Nat} :
    (∃ m ∈ xs.map (·, bits), m.1 = x ∧ m.2.testBit b) ↔ bits.testBit b ∧ x ∈ xs := by
  constructor
  · rintro ⟨_, hm, rfl, hb⟩
    obtain ⟨y, hy, rfl⟩ := List.mem_map.1 hm
    exact ⟨hb, hy⟩
  · rintro ⟨hb, hx⟩
    exact ⟨_, List.mem_map.2 ⟨x, hx, rfl⟩, rfl, hb⟩

theorem collects_foldl (mentions : List (Number × Nat)) :
    Collects mentions (mentions.foldl (fun v m => v.merge m.1 m.2) {}) := by
  induction mentions using List.reverseRecOn with
  | nil => exact collects_empty
  | append_singleton mentions m ih =>
    rw [List.foldl_concat]
    exact ih.merge m.1 m.2

/--
The keys of the no-data values of a node are the values of `_FillValue` and then those of
`missing_value`, each where it is mentioned first. The role of a key is a mask that has bit 0
exactly for the values of the one, bit 1 exactly for those of the other, and no other bit.
-/
theorem entries_ofNode (n : Node) :
    let fill := n.numbersOf "_FillValue"
    let missing := n.numbersOf "missing_value"
    let values := ofNode n
    (values.entries.map Prod.fst).Nodup ∧
      values.entries.map Prod.fst = (fill ++ missing).eraseDups ∧
      (∀ x role, (x, role) ∈ values.entries ↔ values.get? x = some role) ∧
      ∀ x role, (x, role) ∈ values.entries → ∃ bits, role = .mask bits ∧
        ∀ b, bits.testBit b ↔ b = 0 ∧ x ∈ fill ∨ b = 1 ∧ x ∈ missing := by
  intro fill missing values
  let mentions := fill.map (·, NodataRole.pad) ++ missing.map (·, NodataRole.missing)
  have hvalues : values = mentions.foldl (fun v m => v.merge m.1 m.2) {} := by
    rw [List.foldl_append, List.foldl_map, List.foldl_map]
    rfl
  have h := collects_foldl mentions
  rw [← hvalues] at h
  refine ⟨h.nodup, ?_, fun x role => mem_entries_iff h.nodup, fun x role hmem => ?_⟩
  · refine h.keys_eq.trans ?_
    simp only [mentions, List.map_append, List.map_map, Function.comp_def, List.map_id']
  · refine ⟨_, h.mask x role ((mem_entries_iff h.nodup).1 hmem), fun b => ?_⟩
    simp only [h.testBit, mentions, List.mem_append, or_and_right, exists_or, exists_mention_iff,
      NodataRole.testBit_pad, NodataRole.testBit_missing, fill, missing]

end NodataValues

end Gridded
