import Gridded.Proofs.Binary.Integral
import Gridded.Proofs.Number.Integers

namespace Gridded

inductive Amount
  | undefined
  | infinite (negative : Bool)
  | rational (q : ℚ)

namespace Binary

variable {f g : Format} {x : Binary f} {m : Nat}

def amount (x : Binary f) : Amount :=
  match x.value with
  | .nan => .undefined
  | .infinite s => .infinite s
  | .finite s m q => .rational (if s then -(m * 2 ^ q) else m * 2 ^ q)

theorem amount_eq_rational_iff {q : ℚ} : x.amount = .rational q ↔ x.rational? = some q := by
  cases hv : x.value <;> simp [amount, rational?, hv]

theorem amount_eq (x : Binary f) : x.amount =
    if f.infinity < x.magnitude then .undefined
    else if x.magnitude = f.infinity then .infinite x.negative
    else .rational (if x.negative then -f.measure x.magnitude else f.measure x.magnitude) := by
  rcases Nat.lt_trichotomy x.magnitude f.infinity with h | h | h
  · simp only [amount, value, if_neg (Nat.not_lt_of_lt h), if_neg h.ne, Format.measure]
  · simp only [amount, value, h, Nat.lt_irrefl, if_true, if_false]
  · simp only [amount, value, if_pos h]

theorem magnitude_le (hx : x.amount ≠ .undefined) : x.magnitude ≤ f.infinity := by
  by_contra h
  exact hx (by rw [amount_eq, if_pos (Nat.lt_of_not_le h)])

theorem ofParts_self (x : Binary f) : ofParts f x.negative x.magnitude = x :=
  key_injective (key_ofParts x.magnitude_lt)

section Widens

variable (hfg : f.Widens g)

include hfg

theorem carry_le_infinity (hm : m ≤ f.infinity) : carry f g m ≤ g.infinity := by
  rcases hm.eq_or_lt with rfl | hm
  · exact (carry_infinity f g).le
  · exact (measure_carry hfg hm).1.le

theorem carry_carry (hm : m ≤ f.infinity) : carry g f (carry f g m) = m := by
  rcases hm.eq_or_lt with rfl | hlt
  · rw [carry_infinity, carry_infinity]
  · obtain ⟨hfin, hmeasure⟩ := measure_carry hfg hlt
    rw [carry_of_finite hfin]
    apply Format.roundQuotient_of_eq_measure (Nat.two_pow_pos _) hm
    rw [← Format.measure_eq_div, hmeasure]

variable (hx : x.amount ≠ .undefined)

include hx

theorem parts_convert :
    (x.convert g).negative = x.negative ∧ (x.convert g).magnitude = carry f g x.magnitude := by
  have hlt : carry f g x.magnitude < 2 ^ g.payload := by
    have := carry_le_infinity hfg (magnitude_le hx)
    have := Format.infinity_add g
    have := Nat.two_pow_pos g.fraction
    omega
  rw [convert_eq, negative_ofParts hlt, magnitude_ofParts hlt]
  exact ⟨rfl, rfl⟩

theorem convert_convert : (x.convert g).convert f = x := by
  obtain ⟨hnegative, hmagnitude⟩ := parts_convert hfg hx
  rw [convert_eq f, hnegative, hmagnitude, carry_carry hfg (magnitude_le hx), ofParts_self]

theorem amount_convert : (x.convert g).amount = x.amount := by
  obtain ⟨hnegative, hmagnitude⟩ := parts_convert hfg hx
  have hle := magnitude_le hx
  rw [amount_eq, amount_eq, hnegative, hmagnitude, if_neg (carry_le_infinity hfg hle).not_gt,
    if_neg hle.not_gt]
  rcases hle.eq_or_lt with heq | hlt
  · rw [heq, carry_infinity, if_pos rfl, if_pos rfl]
  · obtain ⟨hfin, hmeasure⟩ := measure_carry hfg hlt
    rw [if_neg hfin.ne, if_neg hlt.ne, hmeasure]

end Widens

end Binary

def NumberKind.format? : NumberKind → Option Format
  | .float => some .single
  | .double => some .double
  | _ => none

theorem NumberKind.eq_or_lt {k l : NumberKind} (h : k ≤ l) : k = l ∨ k < l := by
  revert h
  cases k <;> cases l <;> decide

theorem NumberKind.format?_of_lt {k : NumberKind} (h : k < .float) : k.format? = none := by
  cases k <;> first
    | rfl
    | exact absurd h (by decide)

namespace Number

variable {x : Number} {k : NumberKind} {i : Int}

def amount : Number → Amount
  | .byte v => .rational v.toInt
  | .short v => .rational v.toInt
  | .int v => .rational v.toInt
  | .long v => .rational v.toInt
  | .float v => v.amount
  | .double v => v.amount

def Fits (x : Number) (k : NumberKind) : Prop := ∀ i ∈ x.integer?, ∀ f ∈ k.format?, f.Holds i

theorem amount_of_integer (hi : x.integer? = some i) : x.amount = .rational i := by
  cases x <;> cases hi <;> rfl

theorem natAbs_le_of_integer (hi : x.integer? = some i) : i.natAbs ≤ 2 ^ 63 := by
  cases x <;> cases hi
  all_goals
    rename_i v
    have hlow := v.le_toInt
    have hhigh := v.toInt_lt
    omega

theorem fits_of_kind_lt (h : k < .float) : x.Fits k := by
  intro i _ f hf
  rw [NumberKind.format?_of_lt h] at hf
  cases hf

theorem fits_of_integer?_eq_none (h : x.integer? = none) : x.Fits k := by
  intro i hi
  rw [h] at hi
  cases hi

theorem fits_self (x : Number) : x.Fits x.kind := by
  cases hi : x.integer? with
  | none => exact fits_of_integer?_eq_none hi
  | some i => exact fits_of_kind_lt (kind_lt_float hi)

theorem fits_iff_of_integer (hi : x.integer? = some i) : x.Fits k ↔ ∀ f ∈ k.format?, f.Holds i := by
  simp [Fits, hi]

theorem amount_ofInt_iff (hi : i.natAbs ≤ 2 ^ 63) (hk : ¬ k < .float) :
    (ofInt i k).amount = .rational i ↔ ∀ f ∈ k.format?, f.Holds i := by
  cases k <;> try exact absurd (by decide) hk
  case float =>
    simp only [NumberKind.format?, Option.mem_some_iff, forall_eq']
    exact Binary.amount_eq_rational_iff.trans (Binary.rational?_ofInt_iff Format.single_ample hi)
  case double =>
    simp only [NumberKind.format?, Option.mem_some_iff, forall_eq']
    exact Binary.amount_eq_rational_iff.trans (Binary.rational?_ofInt_iff Format.double_ample hi)

theorem amount_cast_iff (hle : x.kind ≤ k) (hx : x.amount ≠ .undefined) :
    (x.cast k).amount = x.amount ↔ x.Fits k := by
  rcases NumberKind.eq_or_lt hle with hk | hlt
  · rw [cast_of_kind_eq hk]
    exact iff_of_true rfl (hk ▸ fits_self x)
  rcases integer_or_float hlt with ⟨i, hi⟩ | ⟨v, rfl, rfl⟩
  · rw [amount_of_integer hi, fits_iff_of_integer hi]
    by_cases hk : k < .float
    · rw [amount_of_integer (integer?_cast hi hle hk)]
      exact iff_of_true rfl ((fits_iff_of_integer hi).1 (fits_of_kind_lt hk))
    · rw [cast_of_integer hi (NumberKind.ne_of_lt hlt)]
      exact amount_ofInt_iff (natAbs_le_of_integer hi) hk
  · exact iff_of_true (Binary.amount_convert Format.single_widens_double hx)
      (fits_of_integer?_eq_none rfl)

theorem ofInt_integer (hi : x.integer? = some i) : ofInt i x.kind = x := by
  cases x <;> cases hi <;> simp [ofInt, kind]

theorem ofDouble_integer {v : Double} (hi : x.integer? = some i) (hv : v.rational? = some (i : ℚ)) :
    ofDouble v x.kind = x := by
  cases x <;> cases hi
  all_goals
    rename_i w
    have hlow := w.le_toInt
    have hhigh := w.toInt_lt
    simp only [kind, ofDouble, truncateTo, Binary.truncate_of_rational? hv]
    rw [min_eq_right (by omega), max_eq_right (by omega)]
    simp only [Int8.ofInt_toInt, Int16.ofInt_toInt, Int32.ofInt_toInt, Int64.ofInt_toInt]

theorem amount_toDouble (hx : x.amount ≠ .undefined) (hk : x.integer? = none) :
    x.toDouble.amount = x.amount := by
  cases x with
  | float v => exact Binary.amount_convert Format.single_widens_double hx
  | double v => rfl
  | _ => cases hk

theorem cast_of_amount {y : Number} (hi : x.integer? = some i) (hy : y.amount = .rational i) :
    y.cast x.kind = x := by
  cases hj : y.integer? with
  | none =>
    have hne : y.kind ≠ x.kind := by
      intro heq
      rw [integer?_of_kind_lt (heq ▸ kind_lt_float hi)] at hj
      cases hj
    rw [cast, if_neg hne, hj]
    apply ofDouble_integer hi
    rw [← Binary.amount_eq_rational_iff, amount_toDouble (by simp [hy]) hj, hy]
  | some j =>
    rw [amount_of_integer hj] at hy
    obtain rfl : j = i := by simpa using hy
    by_cases heq : y.kind = x.kind
    · rw [cast_of_kind_eq heq]
      exact eq_of_key_eq heq ((key_of_integer hj).trans (key_of_integer hi).symm)
    · rw [cast_of_integer hj heq, ofInt_integer hi]

theorem cast_cast_of_fits (hle : x.kind ≤ k) (hx : x.amount ≠ .undefined) (h : x.Fits k) :
    (x.cast k).cast x.kind = x := by
  cases hi : x.integer? with
  | some i => exact cast_of_amount hi (((amount_cast_iff hle hx).2 h).trans (amount_of_integer hi))
  | none =>
    rcases NumberKind.eq_or_lt hle with hk | hlt
    · rw [cast_of_kind_eq hk, cast_of_kind_eq rfl]
    · rcases integer_or_float hlt with ⟨i, hi'⟩ | ⟨v, rfl, rfl⟩
      · rw [hi] at hi'
        cases hi'
      · exact congrArg float (Binary.convert_convert Format.single_widens_double hx)

theorem fits_of_not_long (hlong : x.kind ≠ .long) (hfloat : ¬ (x.kind = .int ∧ k = .float)) :
    x.Fits k := by
  intro i hi f hf
  have hi : x.integer? = some i := hi
  apply Format.holds_of_lt
  have hsingle : 2 ^ 24 ≤ 2 ^ (f.fraction + 1) := by
    cases k <;> cases hf <;> decide
  have hdouble : x.kind = .int → 2 ^ 53 ≤ 2 ^ (f.fraction + 1) := by
    intro hint
    cases k <;> cases hf
    · exact absurd ⟨hint, rfl⟩ hfloat
    · decide
  cases x <;> cases hi
  case long => exact absurd rfl hlong
  case int v =>
    have := hdouble rfl
    have := v.le_toInt
    have := v.toInt_lt
    omega
  all_goals
    rename_i v
    have := v.le_toInt
    have := v.toInt_lt
    omega

theorem cast_cast_int_iff {v : Int32} : ((int v).cast .float).cast .int = int v ↔
    Format.single.Holds v.toInt ∨ v = Int32.maxValue := by
  constructor
  · intro h
    have hlow := v.le_toInt
    have hhigh := v.toInt_lt
    have hle : v.toInt.natAbs ≤ 2 ^ 63 := by omega
    rw [or_iff_not_imp_left]
    intro hholds
    -- The integer is rounded to another one, which comes back unless it is beyond the limit.
    obtain ⟨j, hj⟩ := Binary.exists_rational?_ofInt Format.single_ample hle
    have hne : j ≠ v.toInt := by
      rintro rfl
      exact hholds ((Binary.rational?_ofInt_iff Format.single_ample hle).1 hj)
    have hleast : v.toInt ≠ -2 ^ 31 := by
      intro heq
      rw [heq] at hholds
      exact hholds (by decide)
    have hamount := Binary.amount_eq_rational_iff.2 hj
    have hdouble : ((Binary.ofInt .single v.toInt).convert .double).rational? = some (j : ℚ) := by
      rw [← Binary.amount_eq_rational_iff, ← hamount]
      exact Binary.amount_convert Format.single_widens_double (by simp [hamount])
    have hback : Int32.ofInt (max (-2 ^ 31) (min (2 ^ 31 - 1) j)) = v := by
      rw [← Binary.truncate_of_rational? hdouble]
      exact int.inj h
    rw [← Int32.toInt_inj, Int32.toInt_ofInt_of_le (by omega) (by omega)] at hback
    rw [← Int32.toInt_inj, Int32.toInt_maxValue]
    omega
  · rintro (h | rfl)
    · have hle : NumberKind.int ≤ .float := by decide
      apply cast_cast_of_fits (x := int v) hle (by simp [amount])
      rw [fits_iff_of_integer rfl]
      simpa [NumberKind.format?] using h
    · decide +kernel

/--
A cast to a wider kind keeps what a number stands for if and only if the kind has it, and then
casting back gives the number. Of numbers that are not long, only an integer of 32 bits can be
missing, from the floats; it comes back all the same if it is the greatest one.
-/
theorem cast_keeps_iff (hle : x.kind ≤ k) (hx : x.amount ≠ .undefined) :
    ((x.cast k).amount = x.amount ↔ x.Fits k) ∧
    (x.Fits k → (x.cast k).cast x.kind = x) ∧
    (x.kind ≠ .long →
      ((x.cast k).cast x.kind = x ↔ x.Fits k ∨ x = .int Int32.maxValue ∧ k = .float) ∧
      (¬ (x.kind = .int ∧ k = .float) → x.Fits k)) := by
  have hback := cast_cast_of_fits hle hx
  refine ⟨amount_cast_iff hle hx, hback, fun hlong => ⟨?_, fits_of_not_long hlong⟩⟩
  by_cases hfloat : x.kind = .int ∧ k = .float
  · obtain ⟨hint, rfl⟩ := hfloat
    cases x <;> cases hint
    rw [kind, cast_cast_int_iff, fits_iff_of_integer rfl]
    simp [NumberKind.format?]
  · have hfits := fits_of_not_long hlong hfloat
    exact iff_of_true (hback hfits) (.inl hfits)

theorem cast_keeps_iff_int :
    let x : Number := .int 16777217
    let y : Number := .int Int32.maxValue
    (x.cast .double).amount = x.amount ∧ (x.cast .double).cast .int = x
      ∧ (x.cast .float).amount ≠ x.amount
      ∧ (y.cast .float).amount ≠ y.amount ∧ (y.cast .float).cast .int = y := by
  intro x y
  have hamount (z : Number) (i : Int) (hi : z.integer? = some i) : z.amount ≠ .undefined := by
    simp [amount_of_integer hi]
  have hx := hamount x _ rfl
  have hy := hamount y _ rfl
  obtain ⟨hdouble, hback, hnarrow⟩ := cast_keeps_iff (x := x) (k := .double) (by decide) hx
  obtain ⟨hfloat, -⟩ := cast_keeps_iff (x := x) (k := .float) (by decide) hx
  obtain ⟨hlast, -, hlimit⟩ := cast_keeps_iff (x := y) (k := .float) (by decide) hy
  have hfits := (hnarrow (by decide)).2 (by decide)
  refine ⟨hdouble.2 hfits, hback hfits, fun h => ?_, fun h => ?_,
    (hlimit (by decide)).1.2 (.inr ⟨rfl, rfl⟩)⟩
  · exact absurd (hfloat.1 h _ rfl _ rfl) (by decide)
  · exact absurd (hlast.1 h _ rfl _ rfl) (by decide)

/-- The integer after `2 ^ 24` becomes the one before as a float, and stays it. -/
theorem cast_rounds_int :
    let x : Number := .int 16777217
    x.kind ≠ .long ∧ x.amount ≠ .undefined ∧ x.kind ≤ .float
      ∧ (x.cast .float).amount ≠ x.amount ∧ (x.cast .float).cast x.kind ≠ x := by
  refine ⟨by decide, by simp [amount], by decide, ?_, by decide +kernel⟩
  change (Binary.ofInt .single 16777217).amount ≠ .rational (16777217 : Int)
  rw [ne_eq, Binary.amount_eq_rational_iff,
    Binary.rational?_ofInt_iff Format.single_ample (by decide)]
  decide

end Number

end Gridded
