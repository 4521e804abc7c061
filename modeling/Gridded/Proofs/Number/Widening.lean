import Gridded.Proofs.Number.Order
import Gridded.Proofs.Number.Value

/-!
Two numbers widened to one kind. Widening never reverses their order; but rounding may make a tie
of what was none, and a second rounding may break a tie that a first one has made. Neither happens
to numbers that the casts keep.
-/

namespace Gridded

namespace NumberKind

variable {k l m : NumberKind}

theorem widest_comm (k l : NumberKind) : k.widest l = l.widest k := by
  cases k <;> cases l <;> rfl

theorem le_widest_left (k l : NumberKind) : k ≤ k.widest l := by
  cases k <;> cases l <;> decide

theorem le_widest_right (k l : NumberKind) : l ≤ k.widest l := by
  cases k <;> cases l <;> decide

theorem widest_lt_iff : k.widest l < m ↔ k < m ∧ l < m := by
  cases k <;> cases l <;> cases m <;> decide

theorem widest_of_lt (h : k < l) : k.widest l = l := if_pos (Nat.le_of_lt h)

theorem widest_of_not_lt (h : ¬ k < l) : k.widest l = k := by
  revert h
  cases k <;> cases l <;> decide

theorem widest_rotate (k l m : NumberKind) :
    (l.widest m).widest k = (k.widest l).widest m := by
  cases k <;> cases l <;> cases m <;> rfl

theorem widest_right_comm (k l m : NumberKind) :
    (k.widest m).widest l = (k.widest l).widest m := by
  cases k <;> cases l <;> cases m <;> rfl

theorem ne_of_lt (h : k < l) : k ≠ l := by
  rintro rfl
  exact Nat.lt_irrefl _ h

theorem lt_trans (hkl : k < l) (hlm : l < m) : k < m := Nat.lt_trans hkl hlm

end NumberKind

namespace Number

variable {x y : Number} {k : NumberKind} {i j : Int}

theorem compare_swap (x y : Number) : y.compare x = (x.compare y).swap := by
  simp only [compare, NumberKind.widest_comm y.kind]
  exact Std.OrientedOrd.eq_swap

def isSignalling : Number → Bool
  | .float v => v.isSignalling
  | .double v => v.isSignalling
  | _ => false

theorem cast_of_integer (hi : x.integer? = some i) (hne : x.kind ≠ k) : x.cast k = ofInt i k := by
  rw [cast, if_neg hne, hi]

theorem kind_lt_float (hi : x.integer? = some i) : x.kind < .float := by
  cases x <;> cases hi <;> simp only [kind] <;> decide

theorem integer_or_float (hx : x.kind < k) :
    (∃ i, x.integer? = some i) ∨ ∃ v, x = .float v ∧ k = .double := by
  cases x with
  | float v =>
    simp only [kind] at hx
    cases k <;> first
      | exact absurd hx (by decide)
      | exact .inr ⟨v, rfl, rfl⟩
  | double v =>
    simp only [kind] at hx
    cases k <;> exact absurd hx (by decide)
  | _ => exact .inl ⟨_, rfl⟩

theorem key_cast_of_integer (hi : x.integer? = some i) (hle : x.kind ≤ k) (hk : k < .float) :
    (x.cast k).key = i := by
  cases x <;> cases hi <;> cases k <;> simp only [kind] at hle <;> first
    | exact absurd hle (by decide)
    | exact absurd hk (by decide)
    | simp [cast, kind, integer?, ofInt, key]

theorem compare_of_integers (hi : x.integer? = some i) (hj : y.integer? = some j) :
    x.compare y = Ord.compare i j := by
  have hk := NumberKind.widest_lt_iff.2 ⟨kind_lt_float hi, kind_lt_float hj⟩
  rw [compare, key_cast_of_integer hi (NumberKind.le_widest_left _ _) hk,
    key_cast_of_integer hj (NumberKind.le_widest_right _ _) hk]

theorem compare_integer_float (hi : x.integer? = some i) (v : Single) :
    x.compare (.float v) = Ord.compare (Binary.ofInt .single i).key v.key := by
  have hlt := kind_lt_float hi
  have hkind : x.kind.widest (kind (.float v)) = .float := if_pos (Nat.le_of_lt hlt)
  rw [compare, hkind, cast_of_integer hi (NumberKind.ne_of_lt hlt),
    cast_of_kind_eq (x := .float v) (k := .float) rfl]
  rfl

theorem key_cast_double (hi : x.integer? = some i) :
    (x.cast .double).key = (Binary.ofInt .double i).key := by
  have hlt := NumberKind.lt_trans (kind_lt_float hi) (by decide : NumberKind.float < .double)
  rw [cast_of_integer hi (NumberKind.ne_of_lt hlt)]
  rfl

theorem key_ofInt_mono (hk : .long < k) (h : i < j) : (ofInt i k).key ≤ (ofInt j k).key := by
  cases k <;> first
    | exact absurd hk (by decide)
    | exact Binary.key_ofInt_mono h

theorem key_cast_mono_of_integers (hi : x.integer? = some i) (hj : y.integer? = some j)
    (hx : x.kind < k) (hy : y.kind < k) (h : i < j) : (x.cast k).key ≤ (y.cast k).key := by
  by_cases hk : k < .float
  · rw [key_cast_of_integer hi (Nat.le_of_lt hx) hk, key_cast_of_integer hj (Nat.le_of_lt hy) hk]
    exact h.le
  · rw [cast_of_integer hi (NumberKind.ne_of_lt hx), cast_of_integer hj (NumberKind.ne_of_lt hy)]
    exact key_ofInt_mono (Nat.lt_of_not_le fun hle => hk (Nat.lt_succ_of_le hle)) h

theorem key_cast_le (hx : x.kind < k) (hy : y.kind < k) (hquiet : x.isSignalling = false)
    (hquiet' : y.isSignalling = false) (h : x.compare y = .lt) :
    (x.cast k).key ≤ (y.cast k).key := by
  have hwidens := Format.single_widens_double
  -- Only doubles are wider than a float, so a float beside an integer has rounded it once already.
  rcases integer_or_float hx with ⟨i, hi⟩ | ⟨u, rfl, rfl⟩ <;>
    rcases integer_or_float hy with ⟨j, hj⟩ | ⟨v, rfl, hk⟩
  · rw [compare_of_integers hi hj, compare_lt_iff_lt] at h
    exact key_cast_mono_of_integers hi hj hx hy h
  · subst hk
    rw [compare_integer_float hi, compare_lt_iff_lt] at h
    rw [key_cast_double hi]
    exact Binary.key_ofInt_le_of_lt hwidens hquiet' h
  · rw [compare_swap, compare_integer_float hj, Ordering.swap_eq_lt, compare_gt_iff_gt] at h
    rw [key_cast_double hj]
    exact Binary.le_key_ofInt_of_lt hwidens hquiet h
  · rw [compare_of_kind_eq (x := .float u) (y := .float v) rfl, compare_lt_iff_lt] at h
    exact (Binary.key_convert_lt hwidens hquiet hquiet' h).le

theorem isSignalling_of_integer (hi : x.integer? = some i) : x.isSignalling = false := by
  cases x <;> first
    | rfl
    | cases hi

def KeepsLE (k : NumberKind) (x y : Number) : Prop :=
  (x.compare y).isLE → ((x.cast k).compare (y.cast k)).isLE

def ReflectsLE (k : NumberKind) (x y : Number) : Prop :=
  ((x.cast k).compare (y.cast k)).isLE → (x.compare y).isLE

def KeepsTies (k : NumberKind) (x y : Number) : Prop :=
  (x.cast k).compare (y.cast k) = .eq ↔ x.compare y = .eq

theorem compare_cast (x y : Number) (k : NumberKind) :
    (x.cast k).compare (y.cast k) = Ord.compare (x.cast k).key (y.cast k).key :=
  compare_of_kind_eq ((kind_cast x k).trans (kind_cast y k).symm)

theorem compare_cast_isLE :
    ((x.cast k).compare (y.cast k)).isLE ↔ (x.cast k).key ≤ (y.cast k).key := by
  rw [compare_cast, Std.isLE_compare]

theorem keepsLE_of_tie (hx : x.kind < k) (hy : y.kind < k) (hquiet : x.isSignalling = false)
    (hquiet' : y.isSignalling = false)
    (htie : x.compare y = .eq → (x.cast k).compare (y.cast k) = .eq) : KeepsLE k x y := by
  -- Widening does not reverse the order, so a broken tie is all that could put `x` behind `y`.
  intro h
  cases ho : x.compare y with
  | lt => exact compare_cast_isLE.2 (key_cast_le hx hy hquiet hquiet' ho)
  | eq =>
    rw [htie ho]
    rfl
  | gt =>
    rw [ho] at h
    cases h

theorem reflectsLE_of_tie (hx : x.kind < k) (hy : y.kind < k) (hquiet : x.isSignalling = false)
    (hquiet' : y.isSignalling = false)
    (htie : (x.cast k).compare (y.cast k) = .eq → x.compare y = .eq) : ReflectsLE k x y := by
  intro h
  cases ho : x.compare y with
  | lt => rfl
  | eq => rfl
  | gt =>
    have hgt := compare_swap x y
    rw [ho] at hgt
    have hkey := le_antisymm (compare_cast_isLE.1 h) (key_cast_le hy hx hquiet' hquiet hgt)
    have heq := htie ((compare_cast x y k).trans (compare_eq_iff_eq.2 hkey))
    rw [ho] at heq
    cases heq

theorem keepsLE_of_integers (hi : x.integer? = some i) (hj : y.integer? = some j)
    (hx : x.kind < k) (hy : y.kind < k) : KeepsLE k x y := by
  refine keepsLE_of_tie hx hy (isSignalling_of_integer hi) (isSignalling_of_integer hj) fun h => ?_
  rw [compare_of_integers hi hj, compare_eq_iff_eq] at h
  subst h
  rw [compare_cast, cast_of_integer hi (NumberKind.ne_of_lt hx),
    cast_of_integer hj (NumberKind.ne_of_lt hy)]
  exact compare_eq_iff_eq.2 rfl

def KeepsInteger (x : Number) (k : NumberKind) : Prop :=
  ∀ i, x.integer? = some i → (x.cast k).rational? = some (i : ℚ)

theorem KeepsTies.symm (h : KeepsTies k x y) : KeepsTies k y x := by
  rw [KeepsTies, compare_swap x, compare_swap (x.cast k), Ordering.swap_eq_eq, Ordering.swap_eq_eq]
  exact h

theorem KeepsTies.of_floats {u v : Single} (hu : u.isSignalling = false)
    (hv : v.isSignalling = false) : KeepsTies .double (.float u) (.float v) := by
  have hwidens := Format.single_widens_double
  rw [KeepsTies, compare_cast, compare_of_kind_eq (x := .float u) (y := .float v) rfl,
    compare_eq_iff_eq, compare_eq_iff_eq]
  change (u.convert .double).key = (v.convert .double).key ↔ u.key = v.key
  refine ⟨fun h => ?_, fun h => by rw [Binary.key_injective h]⟩
  by_contra hne
  rcases lt_or_gt_of_ne hne with hlt | hgt
  · exact (Binary.key_convert_lt hwidens hu hv hlt).ne h
  · exact (Binary.key_convert_lt hwidens hv hu hgt).ne h.symm

theorem KeepsTies.of_integers (hi : x.integer? = some i) (hj : y.integer? = some j)
    (hx : x.kind < k) (hy : y.kind < k) (hxk : x.KeepsInteger k) (hyk : y.KeepsInteger k) :
    KeepsTies k x y := by
  rw [KeepsTies, compare_cast, compare_of_integers hi hj, compare_eq_iff_eq, compare_eq_iff_eq]
  constructor
  · intro h
    have hcast := eq_of_key_eq ((kind_cast x k).trans (kind_cast y k).symm) h
    have hval := hxk i hi
    rw [hcast, hyk j hj] at hval
    exact_mod_cast (Option.some.inj hval).symm
  · rintro rfl
    rw [cast_of_integer hi (NumberKind.ne_of_lt hx), cast_of_integer hj (NumberKind.ne_of_lt hy)]

theorem isSignalling_ofInt (f : Format) (i : Int) : (Binary.ofInt f i).isSignalling = false := by
  have hmag := Binary.magnitude_ofParts (s := i < 0) (f.roundQuotient_lt i.natAbs 1)
  have hnum : (Binary.ofInt f i).isNaN = false := by
    rw [Binary.isNaN, Binary.ofInt, Binary.ofQuotient, hmag]
    exact decide_eq_false (Nat.not_lt_of_le (f.roundQuotient_le i.natAbs 1))
  rw [Binary.isSignalling, hnum, Bool.false_and]

theorem KeepsTies.of_integer_float {v : Single} (hi : x.integer? = some i)
    (hx : x.KeepsInteger .float) (hv : v.isSignalling = false) :
    KeepsTies .double x (.float v) := by
  have hcast := cast_of_integer hi (NumberKind.ne_of_lt (kind_lt_float hi))
  have hexact : (Binary.ofInt .single i).rational? = some (i : ℚ) := by
    have := hx i hi
    rw [hcast] at this
    exact this
  -- The float of the integer stands for it in both comparisons.
  have hties := KeepsTies.of_floats (isSignalling_ofInt .single i) hv
  rw [KeepsTies, compare_of_kind_eq (x := .float (.ofInt .single i)) (y := .float v) rfl,
    compare_cast] at hties
  rw [KeepsTies, compare_integer_float hi, compare_cast, key_cast_double hi,
    ← Binary.convert_ofInt (g := .double) hexact]
  exact hties

theorem KeepsTies.of_keepsInteger (hk : x.kind.widest y.kind < k) (hsx : x.isSignalling = false)
    (hsy : y.isSignalling = false)
    (h : ∀ n ∈ [x, y], n.KeepsInteger (x.kind.widest y.kind) ∧ n.KeepsInteger k) :
    KeepsTies k x y := by
  obtain ⟨hx, hy⟩ := NumberKind.widest_lt_iff.1 hk
  obtain ⟨hxw, hxk⟩ := h x List.mem_cons_self
  obtain ⟨hyw, hyk⟩ := h y (List.mem_cons_of_mem _ List.mem_cons_self)
  rcases integer_or_float hx with ⟨i, hi⟩ | ⟨u, rfl, rfl⟩ <;>
    rcases integer_or_float hy with ⟨j, hj⟩ | ⟨v, rfl, hkind⟩
  · exact .of_integers hi hj hx hy hxk hyk
  · subst hkind
    rw [show x.kind.widest (kind (.float v)) = .float from if_pos (Nat.le_of_lt (kind_lt_float hi))]
      at hxw
    exact .of_integer_float hi hxw hsy
  · rw [NumberKind.widest_comm,
      show y.kind.widest (kind (.float u)) = .float from if_pos (Nat.le_of_lt (kind_lt_float hj))]
      at hyw
    exact (KeepsTies.of_integer_float hj hyw hsx).symm
  · exact .of_floats hsx hsy

end Number

end Gridded
