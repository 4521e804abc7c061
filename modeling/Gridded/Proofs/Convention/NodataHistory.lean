import Gridded.Proofs.Convention.Nodata
import Mathlib

namespace Gridded

namespace NodataValues

inductive Operation
  | merge (x : Number) (bits : Nat)
  | insert (x : Number) (role : NodataRole)
  deriving DecidableEq

namespace Operation

def value : Operation → Number
  | .merge x _ => x
  | .insert x _ => x

def role : Option NodataRole → Operation → NodataRole
  | some (.mask old), .merge _ bits => .mask (old ||| bits)
  | some (.description _), .merge _ bits => .mask bits
  | none, .merge _ bits => .mask bits
  | _, .insert _ role => role

end Operation

def perform (v : NodataValues) : Operation → NodataValues
  | .merge x bits => v.merge x bits
  | .insert x role => v.insert x role

def ofOperations (ops : List Operation) : NodataValues := ops.foldl perform {}

def replay (ops : List Operation) : Option NodataRole :=
  ops.foldl (fun current op => some (op.role current)) none

variable {v : NodataValues} {op : Operation} {ops more : List Operation} {x : Number}

theorem Operation.role_merge (current : Option NodataRole) (bits : Nat) :
    (merge x bits).role current = .mask ((current.bind NodataRole.mask?).getD 0 ||| bits) := by
  rcases current with _ | _ | _
  · exact congrArg _ (Nat.zero_or bits).symm
  · rfl
  · exact congrArg _ (Nat.zero_or bits).symm

theorem Operation.role_insert (current : Option NodataRole) (role : NodataRole) :
    (insert x role).role current = role := by
  rcases current with _ | _ | _ <;> rfl

theorem entries_perform :
    (v.perform op).entries = update op.value (fun current => op.role current) v.entries := by
  cases op with
  | merge x bits =>
    simp only [Operation.role_merge]
    rfl
  | insert x role =>
    simp only [Operation.role_insert]
    rfl

theorem keys_prefix_perform : v.keys <+: (v.perform op).keys := by
  rw [keys, keys, entries_perform, map_fst_update]
  split
  · exact List.prefix_refl _
  · exact List.prefix_append _ _

theorem get?_perform :
    (v.perform op).get? x = if x = op.value then some (op.role (v.get? x)) else v.get? x := by
  rw [get?, entries_perform, lookup_update]
  split
  · next hx => rw [hx, get?]
  · rfl

theorem replay_concat : replay (ops ++ [op]) = some (op.role (replay ops)) :=
  List.foldl_concat ..

structure Records (ops : List Operation) (v : NodataValues) : Prop where
  nodup : v.keys.Nodup
  keys_eq : v.keys = (ops.map Operation.value).eraseDups
  get?_eq : ∀ x, v.get? x = replay (ops.filter (·.value = x))

theorem records_empty : Records [] {} := ⟨.nil, rfl, fun _ => rfl⟩

theorem Records.perform (h : Records ops v) (op : Operation) :
    Records (ops ++ [op]) (v.perform op) where
  nodup := by
    rw [keys, entries_perform]
    exact nodup_map_fst_update h.nodup
  keys_eq := by
    rw [keys, entries_perform, List.map_append]
    exact map_fst_update_eq_eraseDups h.keys_eq
  get?_eq x := by
    rw [get?_perform, h.get?_eq, List.filter_append]
    by_cases hx : x = op.value
    · subst hx
      rw [if_pos rfl, List.filter_cons_of_pos (by simp), List.filter_nil, replay_concat]
    · rw [if_neg hx, List.filter_cons_of_neg (by simpa using Ne.symm hx), List.filter_nil,
        List.append_nil]

theorem ofOperations_concat : ofOperations (ops ++ [op]) = (ofOperations ops).perform op :=
  List.foldl_concat ..

theorem records_ofOperations (ops : List Operation) : Records ops (ofOperations ops) := by
  induction ops using List.reverseRecOn with
  | nil => exact records_empty
  | append_singleton ops op ih =>
    rw [ofOperations_concat]
    exact ih.perform op

theorem keys_prefix_ofOperations (ops more : List Operation) :
    (ofOperations ops).keys <+: (ofOperations (ops ++ more)).keys := by
  induction more using List.reverseRecOn with
  | nil => rw [List.append_nil]
  | append_singleton more op ih =>
    rw [← List.append_assoc, ofOperations_concat]
    exact ih.trans keys_prefix_perform

theorem get?_ofOperations_append (h : ∀ op ∈ more, op.value ≠ x) :
    (ofOperations (ops ++ more)).get? x = (ofOperations ops).get? x := by
  have hmore : more.filter (·.value = x) = [] := by simpa [List.filter_eq_nil_iff] using h
  rw [(records_ofOperations _).get?_eq, (records_ofOperations _).get?_eq, List.filter_append, hmore,
    List.append_nil]

/--
After any operations on no values, each value mentioned is a key once, in the order of the first
mentions, and it stays in its place whatever follows. Its role is that of the operations on it alone
in their order, and operations on other values do not change it.
-/
theorem ofOperations_eq_replay (ops : List Operation) :
    let values := ofOperations ops
    (values.entries.map Prod.fst).Nodup ∧
      values.entries.map Prod.fst = (ops.map Operation.value).eraseDups ∧
      (∀ x role, (x, role) ∈ values.entries ↔ values.get? x = some role) ∧
      (∀ x, values.get? x = replay (ops.filter (·.value = x))) ∧
      ∀ more, values.entries.map Prod.fst <+: (ofOperations (ops ++ more)).entries.map Prod.fst ∧
        ∀ x, (∀ op ∈ more, op.value ≠ x) → (ofOperations (ops ++ more)).get? x = values.get? x := by
  intro values
  have h := records_ofOperations ops
  exact ⟨h.nodup, h.keys_eq, fun _ _ => mem_entries_iff h.nodup, h.get?_eq, fun more =>
    ⟨keys_prefix_ofOperations ops more, fun _ => get?_ofOperations_append⟩⟩

theorem ofOperations_eq_replay_mixed :
    let ops : List Operation := [.merge (.short (-1)) NodataRole.pad, .merge (.int (-1)) 1,
      .insert (.short (-1)) (.description "none"), .merge (.short (-1)) NodataRole.missing,
      .merge (.int (-1)) 2]
    let later : Operation := .insert (.short (-1)) (.mask 0)
    (ofOperations ops).entries.map Prod.fst = [.short (-1), .int (-1)] ∧
      (ofOperations ops).get? (.short (-1)) = some (.mask 2) ∧
      (∀ op ∈ [later], op.value ≠ .int (-1)) ∧
      (ofOperations (ops ++ [later])).get? (.int (-1)) = some (.mask 3) := by
  intro ops later
  obtain ⟨-, hkeys, -, hrole, hmore⟩ := ofOperations_eq_replay ops
  have hint : (ofOperations ops).get? (.int (-1)) = some (.mask 3) :=
    (hrole _).trans (by decide)
  have hlater : ∀ op ∈ [later], op.value ≠ .int (-1) := by decide
  exact ⟨hkeys.trans (by decide), (hrole _).trans (by decide), hlater,
    ((hmore [later]).2 _ hlater).trans hint⟩

end NodataValues

end Gridded
