import Gridded.Region.Basic
import Mathlib

namespace Gridded

def offsetIn (sizes index : List Nat) : Nat :=
  (index.mapIdx fun d i => i * (sizes.take d).prod).sum

theorem forall₂_concat_right {α β : Type} {R : α → β → Prop} {xs : List α} {ys : List β} {y : β} :
    List.Forall₂ R xs (ys ++ [y]) ↔ ∃ l x, xs = l ++ [x] ∧ List.Forall₂ R l ys ∧ R x y := by
  constructor
  · intro h
    have hr := List.rel_reverse h
    rw [List.reverse_concat, List.forall₂_cons_right_iff] at hr
    obtain ⟨x, l, hx, hl, hxs⟩ := hr
    refine ⟨l.reverse, x, ?_, ?_, hx⟩
    · simpa using congrArg List.reverse hxs
    · simpa using List.rel_reverse hl
  · rintro ⟨l, x, rfl, hl, hx⟩
    exact List.rel_append hl (.cons hx .nil)

@[simp] theorem offsetIn_nil (sizes : List Nat) : offsetIn sizes [] = 0 := rfl

theorem offsetIn_concat {sizes index : List Nat} (h : index.length = sizes.length) (n i : Nat) :
    offsetIn (sizes ++ [n]) (index ++ [i]) = offsetIn sizes index + i * sizes.prod := by
  have hd : index.mapIdx (fun d i => i * ((sizes ++ [n]).take d).prod) =
      index.mapIdx fun d i => i * (sizes.take d).prod := by
    apply List.ext_getElem
    · simp
    · intro d hd _
      have : d ≤ sizes.length := by simp at hd; omega
      simp [List.take_append_of_le_length this]
  simp [offsetIn, hd, h]

theorem offsetIn_cons (sizes index : List Nat) (n i : Nat) :
    offsetIn (n :: sizes) (i :: index) = i + n * offsetIn sizes index := by
  have hd : index.mapIdx (fun d i => i * ((n :: sizes).take (d + 1)).prod) =
      (index.mapIdx fun d i => i * (sizes.take d).prod).map (n * ·) := by
    apply List.ext_getElem
    · simp
    · intro d _ _
      simp [Nat.mul_left_comm]
  rw [offsetIn, List.mapIdx_cons, List.sum_cons, List.take_zero, List.prod_nil, Nat.mul_one, hd,
    List.sum_map_mul_left, List.map_id']
  rfl

theorem offsetIn_lt {sizes index : List Nat} (h : List.Forall₂ (· < ·) index sizes) :
    offsetIn sizes index < sizes.prod := by
  induction sizes using List.reverseRecOn generalizing index with
  | nil => cases h; simp
  | append_singleton sizes n ih =>
    obtain ⟨l, i, rfl, hl, hi⟩ := forall₂_concat_right.1 h
    rw [offsetIn_concat hl.length_eq, List.prod_append, List.prod_singleton]
    have := ih hl
    calc
      offsetIn sizes l + i * sizes.prod < sizes.prod + i * sizes.prod := by omega
      _ = (i + 1) * sizes.prod := by rw [Nat.add_one_mul, Nat.add_comm]
      _ ≤ n * sizes.prod := Nat.mul_le_mul_right _ hi
      _ = sizes.prod * n := Nat.mul_comm _ _

theorem existsUnique_offsetIn {sizes : List Nat} {n : Nat} (h : n < sizes.prod) :
    ∃! index, List.Forall₂ (· < ·) index sizes ∧ offsetIn sizes index = n := by
  induction sizes using List.reverseRecOn generalizing n with
  | nil =>
    refine ⟨[], ⟨.nil, ?_⟩, fun index hi => ?_⟩
    · simp at h; simp [h]
    · exact List.forall₂_nil_right_iff.1 hi.1
  | append_singleton sizes m ih =>
    rw [List.prod_append, List.prod_singleton] at h
    have hp : 0 < sizes.prod := Nat.pos_of_ne_zero fun h0 => by simp [h0] at h
    obtain ⟨index, ⟨hi, ho⟩, unique⟩ := ih (Nat.mod_lt n hp)
    refine ⟨index ++ [n / sizes.prod], ⟨?_, ?_⟩, ?_⟩
    · exact forall₂_concat_right.2 ⟨index, _, rfl, hi, Nat.div_lt_of_lt_mul h⟩
    · rw [offsetIn_concat hi.length_eq, ho, Nat.mul_comm]
      exact Nat.mod_add_div n sizes.prod
    · rintro _ ⟨hj, hn⟩
      obtain ⟨l, j, rfl, hl, -⟩ := forall₂_concat_right.1 hj
      rw [offsetIn_concat hl.length_eq] at hn
      have hlt := offsetIn_lt hl
      -- The last number is the quotient and the offset of the others the remainder.
      have hq : n / sizes.prod = j := by
        rw [← hn, Nat.add_mul_div_right _ _ hp, Nat.div_eq_of_lt hlt, Nat.zero_add]
      have hr : offsetIn sizes l = n % sizes.prod := by
        rw [← hn, Nat.add_mul_mod_self_right, Nat.mod_eq_of_lt hlt]
      rw [hq, unique l ⟨hl, hr⟩]

end Gridded
