import Gridded.Number.Basic
import Mathlib.Data.Bool.Basic
import Mathlib.Data.Int.Order.Basic

namespace Gridded

namespace Binary

variable {f : Format}

theorem toNat_eq (x : Binary f) :
    x.toNat = x.magnitude + if x.negative then 2 ^ f.payload else 0 := by
  have hlt : x.toNat < 2 ^ f.payload + 2 ^ f.payload := by
    rw [← Nat.two_mul, ← Nat.pow_succ']
    exact x.bits.isLt
  simp only [negative, magnitude, decide_eq_true_eq]
  split
  · next hle =>
    rw [Nat.mod_eq_sub_mod hle, Nat.mod_eq_of_lt (by omega)]
    omega
  · next hle => rw [Nat.mod_eq_of_lt (by omega), Nat.add_zero]

theorem key_injective {x y : Binary f} (h : x.key = y.key) : x = y := by
  have hparts : x.negative = y.negative ∧ x.magnitude = y.magnitude := by
    unfold key at h
    split at h <;> split at h
    · next hx hy => exact ⟨hx.trans hy.symm, by omega⟩
    · omega
    · omega
    · next hx hy => exact ⟨(Bool.eq_false_of_not_eq_true hx).trans
        (Bool.eq_false_of_not_eq_true hy).symm, by omega⟩
  have hnat : x.toNat = y.toNat := by rw [toNat_eq, toNat_eq, hparts.1, hparts.2]
  cases x
  cases y
  exact congrArg mk (BitVec.eq_of_toNat_eq hnat)

end Binary

namespace NumberKind

@[simp] theorem widest_self (k : NumberKind) : k.widest k = k := ite_self k

@[simp] theorem widest_widest_right (k l : NumberKind) : (k.widest l).widest l = k.widest l := by
  cases k <;> cases l <;> rfl

end NumberKind

namespace Number

variable {x y : Number} {xs ys : List Number} {k : NumberKind} {o : Ordering}

theorem cast_of_kind_eq (h : x.kind = k) : x.cast k = x := if_pos h

@[simp] theorem cast_cast (x : Number) (k : NumberKind) : (x.cast k).cast k = x.cast k :=
  cast_of_kind_eq (kind_cast x k)

theorem map_cast_of_kind_eq (h : ∀ x ∈ xs, x.kind = k) : xs.map (·.cast k) = xs :=
  (List.map_congr_left fun x hx => cast_of_kind_eq (h x hx)).trans (List.map_id' xs)

theorem kind_of_mem_map_cast (xs : List Number) (k : NumberKind) :
    ∀ x ∈ xs.map (·.cast k), x.kind = k :=
  List.forall_mem_map.2 fun x _ => kind_cast x k

theorem eq_of_key_eq (hkind : x.kind = y.kind) (hkey : x.key = y.key) : x = y := by
  cases x <;> cases y <;> cases hkind
  case byte => exact congrArg _ (Int8.toInt_inj.1 hkey)
  case short => exact congrArg _ (Int16.toInt_inj.1 hkey)
  case int => exact congrArg _ (Int32.toInt_inj.1 hkey)
  case long => exact congrArg _ (Int64.toInt_inj.1 hkey)
  case float => exact congrArg _ (Binary.key_injective hkey)
  case double => exact congrArg _ (Binary.key_injective hkey)

theorem compare_of_kind_eq (h : x.kind = y.kind) : x.compare y = Ord.compare x.key y.key := by
  simp only [compare, ← h, NumberKind.widest_self, cast_of_kind_eq rfl, cast_of_kind_eq h.symm]

def keyFrom (o : Ordering) (x : Number) : Int := if o = .gt then -x.key else x.key

theorem compare_eq_iff_keyFrom_lt (ho : o ≠ .eq) (h : x.kind = y.kind) :
    x.compare y = o ↔ keyFrom o x < keyFrom o y := by
  rw [compare_of_kind_eq h]
  cases o with
  | lt => exact compare_lt_iff_lt
  | eq => exact absurd rfl ho
  | gt => exact compare_gt_iff_gt.trans Int.neg_lt_neg_iff.symm

/-- No member goes beyond this one: below the least, for `lt`, or above the greatest, for `gt`. -/
def Extreme (o : Ordering) (m : Number) (xs : List Number) : Prop :=
  m ∈ xs ∧ ∀ x ∈ xs, x.compare m ≠ o

instance (o : Ordering) (m : Number) (xs : List Number) : Decidable (Extreme o m xs) :=
  inferInstanceAs (Decidable (_ ∧ _))

theorem extreme_iff (ho : o ≠ .eq) (hkind : ∀ x ∈ xs, x.kind = k) {m : Number} :
    Extreme o m xs ↔ m ∈ xs ∧ ∀ x ∈ xs, keyFrom o m ≤ keyFrom o x := by
  refine and_congr_right fun hm => forall₂_congr fun x hx => ?_
  rw [ne_eq, compare_eq_iff_keyFrom_lt ho ((hkind x hx).trans (hkind m hm).symm), Int.not_lt]

theorem Extreme.eq (hx : Extreme o x xs) (hy : Extreme o y xs) (hkind : ∀ x ∈ xs, x.kind = k)
    (ho : o ≠ .eq) : x = y := by
  rw [extreme_iff ho hkind] at hx hy
  apply eq_of_key_eq ((hkind x hx.1).trans (hkind y hy.1).symm)
  have heq : keyFrom o x = keyFrom o y := Int.le_antisymm (hx.2 y hy.1) (hy.2 x hx.1)
  unfold keyFrom at heq
  split at heq
  · exact Int.neg_inj.1 heq
  · exact heq

theorem Extreme.congr (h : Extreme o x xs) (hmem : ∀ y, y ∈ ys ↔ y ∈ xs) : Extreme o x ys :=
  ⟨(hmem x).2 h.1, fun y hy => h.2 y ((hmem y).1 hy)⟩

def tighten (o : Ordering) (bound : Option Number) (x : Number) : Option Number :=
  if bound.all (x.compare · = o) then some x else bound

theorem foldl_tighten_some (ho : o ≠ .eq) (m : Number) (hkind : ∀ x ∈ m :: xs, x.kind = k) :
    ∃ r, xs.foldl (tighten o) (some m) = some r ∧ Extreme o r (m :: xs) := by
  induction xs generalizing m with
  | nil =>
    refine ⟨m, rfl, (extreme_iff ho hkind).2 ⟨List.mem_singleton_self m, fun x hx => ?_⟩⟩
    rw [List.mem_singleton.1 hx]
  | cons x xs ih =>
    obtain ⟨hm, hx, hxs⟩ : m.kind = k ∧ x.kind = k ∧ ∀ y ∈ xs, y.kind = k := by
      simpa only [List.forall_mem_cons] using hkind
    have hbeyond := compare_eq_iff_keyFrom_lt ho (hx.trans hm.symm)
    simp only [List.foldl_cons, tighten, Option.all_some, decide_eq_true_eq]
    split
    · next hlt =>
      obtain ⟨r, hr, hextreme⟩ := ih x (List.forall_mem_cons.2 ⟨hx, hxs⟩)
      refine ⟨r, hr, ?_⟩
      rw [extreme_iff ho (List.forall_mem_cons.2 ⟨hx, hxs⟩), List.forall_mem_cons] at hextreme
      rw [extreme_iff ho hkind, List.forall_mem_cons, List.forall_mem_cons]
      obtain ⟨hmem, hle, hall⟩ := hextreme
      have hlt := hbeyond.1 hlt
      exact ⟨List.mem_cons_of_mem _ hmem, by omega, hle, hall⟩
    · next hge =>
      obtain ⟨r, hr, hextreme⟩ := ih m (List.forall_mem_cons.2 ⟨hm, hxs⟩)
      refine ⟨r, hr, ?_⟩
      rw [extreme_iff ho (List.forall_mem_cons.2 ⟨hm, hxs⟩), List.forall_mem_cons] at hextreme
      rw [extreme_iff ho hkind, List.forall_mem_cons, List.forall_mem_cons]
      obtain ⟨hmem, hle, hall⟩ := hextreme
      have hge := mt hbeyond.2 hge
      refine ⟨?_, hle, by omega, hall⟩
      rw [List.mem_cons] at hmem ⊢
      exact hmem.imp_right (List.mem_cons_of_mem _)

theorem foldl_tighten (ho : o ≠ .eq) (hkind : ∀ x ∈ xs, x.kind = k) (hne : xs ≠ []) :
    ∃ r, xs.foldl (tighten o) none = some r ∧ Extreme o r xs := by
  obtain ⟨m, xs, rfl⟩ := List.exists_cons_of_ne_nil hne
  exact foldl_tighten_some ho m hkind

end Number

end Gridded
