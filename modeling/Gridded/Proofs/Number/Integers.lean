import Gridded.Proofs.Binary.Order
import Gridded.Proofs.Number.Comparison

namespace Gridded

namespace Number

variable {x y : Number} {k : NumberKind} {i j : Int}

theorem key_of_integer (hi : x.integer? = some i) : x.key = i := by
  cases x <;> cases hi <;> rfl

theorem integer?_of_kind_lt (h : x.kind < .float) : x.integer? = some x.key := by
  cases x <;> simp only [kind] at h <;> first
    | rfl
    | exact absurd h (by decide)

theorem key_ofInt_nearest (hy : y.kind < .float) (hne : y.key ≠ (ofInt i y.kind).key) :
    (i - (ofInt i y.kind).key).natAbs < (i - y.key).natAbs := by
  cases y <;> simp only [kind] at hy <;> try exact absurd hy (by decide)
  all_goals
    rename_i v
    have hlow := v.minValue_le_toInt
    have hhigh := v.toInt_le
    -- The cast keeps an integer within the limits of the kind and stops at them otherwise.
    revert hne
    simp only [kind, ofInt, key, Int8.ofIntClamp, Int16.ofIntClamp, Int32.ofIntClamp,
      Int64.ofIntClamp]
    split
    · split
      · simp only [Int8.toInt_ofIntLE, Int16.toInt_ofIntLE, Int32.toInt_ofIntLE,
          Int64.toInt_ofIntLE]
        omega
      · omega
    · omega

theorem integer?_cast (hi : x.integer? = some i) (hle : x.kind ≤ k) (hk : k < .float) :
    (x.cast k).integer? = some i := by
  rw [integer?_of_kind_lt ((kind_cast x k).symm ▸ hk), key_cast_of_integer hi hle hk]

theorem cast_nearest (hi : x.integer? = some i) (hk : k < .float) :
    ∃ j, (x.cast k).integer? = some j ∧ ∀ (y : Number) (m : Int), y.kind = k →
      y.integer? = some m → m ≠ j → (i - j).natAbs < (i - m).natAbs := by
  refine ⟨_, integer?_of_kind_lt ((kind_cast x k).symm ▸ hk), fun y m hy hm hne => ?_⟩
  obtain rfl := key_of_integer hm
  by_cases hkind : x.kind = k
  · rw [cast_of_kind_eq hkind, key_of_integer hi] at hne ⊢
    omega
  · rw [cast_of_integer hi hkind] at hne ⊢
    subst hy
    exact key_ofInt_nearest hk hne

theorem contains_ofBounds_iff {low high v : Number} {a b : Int} (hlow : low.integer? = some a)
    (hhigh : high.integer? = some b) (hlowk : low.kind ≤ k) (hhighk : high.kind ≤ k)
    (hk : k < .float) (hi : v.integer? = some i) :
    (NumberRange.ofBounds k low high).contains v ↔ a ≤ i ∧ i ≤ b := by
  rw [NumberRange.contains_iff, NumberRange.ofBounds,
    compare_of_integers (integer?_cast hlow hlowk hk) hi, Int.isLE_compare,
    compare_of_integers hi (integer?_cast hhigh hhighk hk), Int.isLE_compare]

abbrev OfKind (k : NumberKind) := { x : Number // x.kind = k }

def OfKind.compare (x y : OfKind k) : Ordering := x.1.compare y.1

theorem OfKind.compare_eq (x y : OfKind k) : x.compare y = Ord.compare x.1.key y.1.key :=
  compare_of_kind_eq (x.2.trans y.2.symm)

instance : Std.TransCmp (OfKind.compare (k := k)) where
  eq_swap {x y} := compare_swap y.1 x.1
  isLE_trans {x y z} hxy hyz := by
    rw [OfKind.compare_eq] at *
    exact Std.TransOrd.isLE_trans hxy hyz

instance : Std.LawfulEqCmp (OfKind.compare (k := k)) where
  compare_self {x} := by
    rw [OfKind.compare_eq]
    exact Std.ReflOrd.compare_self
  eq_of_compare {x y} h := by
    rw [OfKind.compare_eq, compare_eq_iff_eq] at h
    exact Subtype.ext (eq_of_key_eq (x.2.trans y.2.symm) h)

theorem compare_float (u v : Single) :
    (float u).compare (float v) = Ord.compare u.flipped v.flipped := by
  rw [Binary.flipped_eq_key, Binary.flipped_eq_key]
  exact compare_of_kind_eq rfl

theorem compare_double (u v : Double) :
    (double u).compare (double v) = Ord.compare u.flipped v.flipped := by
  rw [Binary.flipped_eq_key, Binary.flipped_eq_key]
  exact compare_of_kind_eq rfl

/--
Integers of any kinds are compared as they are, a cast takes one to the nearest of an integer kind,
and a range of integers contains those between its bounds. The order of the numbers of one kind is
total, with ties only of equal numbers, and it is that of the flipped words for data.
-/
theorem compare_exact :
    (∀ (x y : Number) (i j : Int), x.integer? = some i → y.integer? = some j →
      x.compare y = Ord.compare i j) ∧
    (∀ (x : Number) (i : Int) (k : NumberKind), x.integer? = some i → k < .float →
      ∃ j, (x.cast k).integer? = some j ∧ ∀ (y : Number) (m : Int), y.kind = k →
        y.integer? = some m → m ≠ j → (i - j).natAbs < (i - m).natAbs) ∧
    (∀ (k : NumberKind) (low high v : Number) (a b i : Int), low.integer? = some a →
      high.integer? = some b → low.kind ≤ k → high.kind ≤ k → k < .float → v.integer? = some i →
        ((NumberRange.ofBounds k low high).contains v ↔ a ≤ i ∧ i ≤ b)) ∧
    (∀ k : NumberKind, Std.TransCmp (fun x y : OfKind k => x.1.compare y.1) ∧
      Std.LawfulEqCmp (fun x y : OfKind k => x.1.compare y.1)) ∧
    (∀ u v : Single, (float u).compare (float v) = Ord.compare u.flipped v.flipped) ∧
    (∀ u v : Double, (double u).compare (double v) = Ord.compare u.flipped v.flipped) := by
  refine ⟨fun _ _ _ _ => compare_of_integers, fun _ _ _ => cast_nearest, ?_, ?_, compare_float,
    compare_double⟩
  · exact fun _ _ _ _ _ _ _ => contains_ofBounds_iff
  · exact fun k => ⟨inferInstanceAs (Std.TransCmp (OfKind.compare (k := k))),
      inferInstanceAs (Std.LawfulEqCmp (OfKind.compare (k := k)))⟩

theorem compare_exact_limits :
    (byte (-1)).compare (long (-1)) = .eq
      ∧ ((int 300).cast .byte = byte 127 ∧ (300 - 127 : Int).natAbs < (300 - 126 : Int).natAbs)
      ∧ ((NumberRange.ofBounds .short (byte (-100)) (short 400)).contains (long 400)
        ∧ ¬ (NumberRange.ofBounds .short (byte (-100)) (short 400)).contains (long 401))
      ∧ (float ⟨0x80000000#32⟩).compare (float ⟨0x00000000#32⟩) = .lt
      ∧ (float ⟨0x7f800000#32⟩).compare (float ⟨0x7fc00000#32⟩) = .lt := by
  obtain ⟨hintegers, hcast, hrange, -, hfloat, -⟩ := compare_exact
  refine ⟨?_, ?_, ⟨?_, ?_⟩, ?_, ?_⟩
  · rw [hintegers _ _ (-1) (-1) rfl rfl]
    rfl
  · obtain ⟨j, hj, hnearest⟩ := hcast (int 300) 300 .byte rfl (by decide)
    obtain rfl : 127 = j := Option.some.inj hj
    exact ⟨rfl, hnearest (byte 126) 126 rfl rfl (by decide)⟩
  · rw [hrange .short _ _ _ (-100) 400 400 rfl rfl (by decide) (by decide) (by decide) rfl]
    decide
  · rw [hrange .short _ _ _ (-100) 400 401 rfl rfl (by decide) (by decide) (by decide) rfl]
    decide
  · rw [hfloat]
    decide
  · rw [hfloat]
    decide

end Number

end Gridded
