import Gridded.Number.Basic
import Gridded.Proofs.Binary.Conversion

namespace Gridded

namespace Binary

variable {f g : Format}

def rational? (x : Binary f) : Option ℚ :=
  match x.value with
  | .finite s m q => some (if s then -(m * 2 ^ q) else m * 2 ^ q)
  | .nan | .infinite _ => none

theorem rational?_eq (x : Binary f) : x.rational? = if x.magnitude < f.infinity then
    some (if x.negative then -f.measure x.magnitude else f.measure x.magnitude) else none := by
  rcases Nat.lt_trichotomy x.magnitude f.infinity with h | h | h
  · simp only [rational?, value, if_neg (Nat.not_lt_of_lt h), if_neg h.ne, if_pos h,
      Format.measure]
  · simp only [rational?, value, h, Nat.lt_irrefl, if_true, if_false]
  · simp only [rational?, value, if_pos h, if_neg (Nat.not_lt_of_lt h)]

theorem rational?_ofParts {s : Bool} {m : Nat} (hm : m < f.infinity) :
    (ofParts f s m).rational? = some (if s then -f.measure m else f.measure m) := by
  have hlt : m < 2 ^ f.payload := f.infinity_add ▸ Nat.lt_add_right _ hm
  rw [rational?_eq, magnitude_ofParts hlt, negative_ofParts hlt, if_pos hm]

theorem abs_of_rational? {x : Binary f} {q : ℚ} (h : x.rational? = some q) :
    x.magnitude < f.infinity ∧ |q| = f.measure x.magnitude := by
  rw [rational?_eq] at h
  split at h
  · next hlt =>
    have hnonneg : 0 ≤ f.measure x.magnitude := by
      unfold Format.measure
      positivity
    obtain rfl := Option.some.inj h
    refine ⟨hlt, ?_⟩
    split
    · rw [abs_neg, abs_of_nonneg hnonneg]
    · exact abs_of_nonneg hnonneg
  · cases h

def Largest (x : Binary f) : Prop :=
  ∃ q, x.rational? = some q ∧ ∀ (y : Binary f) (r : ℚ), y.rational? = some r → |r| ≤ |q|

theorem largest_iff (hf : 0 < f.infinity) (x : Binary f) :
    x.Largest ↔ x.magnitude + 1 = f.infinity := by
  constructor
  · rintro ⟨q, hq, hmax⟩
    obtain ⟨hlt, habs⟩ := abs_of_rational? hq
    have hlast : f.infinity - 1 < f.infinity := Nat.sub_lt hf one_pos
    have hle := hmax (ofParts f false (f.infinity - 1)) _ (rational?_ofParts hlast)
    rw [habs] at hle
    have := f.measure_strictMono.le_iff_le.1 ((le_abs_self _).trans hle)
    omega
  · intro hx
    have hlt : x.magnitude < f.infinity := by omega
    refine ⟨_, (rational?_eq x).trans (if_pos hlt), fun y r hr => ?_⟩
    obtain ⟨hy, hr⟩ := abs_of_rational? hr
    rw [hr, (abs_of_rational? ((rational?_eq x).trans (if_pos hlt))).2]
    apply f.measure_strictMono.monotone
    omega

theorem value_infinite (hf : f.infinity < 2 ^ f.payload) (s : Bool) :
    (infinite f s).value = .infinite s := by
  rw [value, infinite, magnitude_ofParts hf, negative_ofParts hf, if_neg (Nat.lt_irrefl _),
    if_pos rfl]

theorem measure_of_rational?_ofInt {i : Int} (h : (ofInt f i).rational? = some (i : ℚ)) :
    f.roundQuotient i.natAbs 1 < f.infinity ∧
      f.measure (f.roundQuotient i.natAbs 1) = i.natAbs := by
  obtain ⟨hfin, habs⟩ := abs_of_rational? h
  rw [ofInt, ofQuotient, magnitude_ofParts (f.roundQuotient_lt i.natAbs 1)] at hfin habs
  refine ⟨hfin, ?_⟩
  rw [← habs, Nat.cast_natAbs, Int.cast_abs]

theorem convert_ofInt {i : Int} (h : (ofInt f i).rational? = some (i : ℚ)) :
    (ofInt f i).convert g = ofInt g i := by
  have hlt := f.roundQuotient_lt i.natAbs 1
  obtain ⟨hfin, hmeasure⟩ := measure_of_rational?_ofInt h
  rw [convert_eq, ofInt, ofInt, ofQuotient, ofQuotient, negative_ofParts hlt, magnitude_ofParts hlt,
    carry_of_finite hfin]
  congr 1
  apply Format.roundQuotient_congr (Nat.two_pow_pos _) one_pos
  rw [← Format.measure_eq_div, hmeasure, Nat.cast_one, div_one]

end Binary

namespace Number

def rational? : Number → Option ℚ
  | .byte v => some (v.toInt : ℚ)
  | .short v => some (v.toInt : ℚ)
  | .int v => some (v.toInt : ℚ)
  | .long v => some (v.toInt : ℚ)
  | .float v => v.rational?
  | .double v => v.rational?

/-- The largest numbers of a floating-point kind stand for the infinities of their signs. -/
inductive StandsFor : Number → Number → Prop
  | single {v w : Single} : v.Largest → w.value = .infinite v.negative →
      StandsFor (.float v) (.float w)
  | double {v w : Double} : v.Largest → w.value = .infinite v.negative →
      StandsFor (.double v) (.double w)
  | itself {x : Number} : (∀ v, x = .float v → ¬ v.Largest) → (∀ v, x = .double v → ¬ v.Largest) →
      StandsFor x x

theorem largestAsInfinite_cases {f : Format} (hpos : 0 < f.infinity)
    (hlt : f.infinity < 2 ^ f.payload) (v : Binary f) :
    v.Largest ∧ (largestAsInfinite v).value = .infinite v.negative ∨
      ¬ v.Largest ∧ largestAsInfinite v = v := by
  rw [Binary.largest_iff hpos, largestAsInfinite]
  split
  · next hv => exact .inl ⟨hv, Binary.value_infinite hlt _⟩
  · next hv => exact .inr ⟨hv, rfl⟩

theorem standsFor_maxAsInfinity (x : Number) : x.StandsFor x.maxAsInfinity := by
  cases x with
  | float v =>
    rcases largestAsInfinite_cases (by decide) (by decide) v with ⟨hv, hinf⟩ | ⟨hv, hsame⟩
    · exact .single hv hinf
    · rw [maxAsInfinity, hsame]
      exact .itself (fun _ h => Number.float.inj h ▸ hv) nofun
  | double v =>
    rcases largestAsInfinite_cases (by decide) (by decide) v with ⟨hv, hinf⟩ | ⟨hv, hsame⟩
    · exact .double hv hinf
    · rw [maxAsInfinity, hsame]
      exact .itself nofun (fun _ h => Number.double.inj h ▸ hv)
  | _ => exact .itself nofun nofun

end Number

end Gridded
