import Gridded.Proofs.Binary.Rounding
import Mathlib.Tactic.Ring

namespace Gridded.Format

variable {f : Format} {n d m j k : Nat}

/-- The number a magnitude stands for. An infinity stands for the next power of two. -/
def measure (f : Format) (m : Nat) : ℚ := Binary.significand f m * 2 ^ Binary.scale f m

theorem measure_eq_div (f : Format) (m : Nat) :
    f.measure m = (Binary.significand f m * 2 ^ (Binary.scale f m).toNat : Nat)
      / (2 ^ (-Binary.scale f m).toNat : Nat) := by
  rw [measure, two_zpow_eq]
  push_cast
  rw [mul_div_assoc]

theorem significand_lt (f : Format) (m : Nat) : Binary.significand f m < 2 ^ (f.fraction + 1) := by
  have := Nat.mod_lt m (Nat.two_pow_pos f.fraction)
  rw [Nat.pow_succ, Binary.significand]
  split <;> omega

@[simp] theorem measure_zero : f.measure 0 = 0 := by
  simp [measure, Binary.significand]

theorem measure_pos (hm : 0 < m) : 0 < f.measure m := by
  have hsig : 0 < Binary.significand f m := by
    have := Nat.two_pow_pos f.fraction
    unfold Binary.significand
    split <;> omega
  unfold measure
  positivity

theorem measure_of_subnormal (hm : m < 2 ^ f.fraction) :
    f.measure m = m * 2 ^ f.leastExponent := by
  rw [measure, Binary.significand, Binary.scale, if_pos hm, Nat.div_eq_of_lt hm]
  simp

theorem measure_of_normal (hk : k < 2 ^ f.fraction) :
    f.measure ((j + 1) * 2 ^ f.fraction + k)
      = (2 ^ f.fraction + k : Nat) * 2 ^ (f.leastExponent + j) := by
  have hpos := Nat.two_pow_pos f.fraction
  have hdiv : ((j + 1) * 2 ^ f.fraction + k) / 2 ^ f.fraction = j + 1 := by
    rw [Nat.add_comm, Nat.add_mul_div_right _ _ hpos, Nat.div_eq_of_lt hk, Nat.zero_add]
  have hmod : ((j + 1) * 2 ^ f.fraction + k) % 2 ^ f.fraction = k := by
    rw [Nat.add_comm, Nat.add_mul_mod_self_right, Nat.mod_eq_of_lt hk]
  have hge : ¬ (j + 1) * 2 ^ f.fraction + k < 2 ^ f.fraction := by
    rw [Nat.add_mul]
    omega
  rw [measure, Binary.significand, Binary.scale, if_neg hge, hmod, hdiv, Nat.add_sub_cancel]

theorem measure_infinity (hf : 0 < f.exponent) :
    f.measure f.infinity = 2 ^ (f.leastExponent + (2 ^ f.exponent - 2 : Nat) + f.fraction) := by
  have htwo : 2 ≤ 2 ^ f.exponent := Nat.le_self_pow hf.ne' 2
  have hinf : f.infinity = (2 ^ f.exponent - 2 + 1) * 2 ^ f.fraction + 0 := by
    rw [infinity, Nat.add_zero]
    congr 1
    omega
  rw [hinf, measure_of_normal (Nat.two_pow_pos _), two_zpow_add_natCast _ f.fraction, Nat.add_zero]

/-- One formula for all magnitudes that share a place, up to the next power of two. -/
theorem measure_binade (hle : k ≤ 2 ^ (f.fraction + 1)) (hge : 0 < j → 2 ^ f.fraction ≤ k) :
    f.measure (j * 2 ^ f.fraction + k) = k * 2 ^ (f.leastExponent + j) := by
  rcases Nat.lt_or_ge k (2 ^ f.fraction) with hlow | hhigh
  · obtain rfl : j = 0 := Nat.eq_zero_of_not_pos fun hj => Nat.not_le_of_lt hlow (hge hj)
    simpa using measure_of_subnormal hlow
  obtain ⟨i, rfl⟩ := Nat.exists_eq_add_of_le hhigh
  rw [← Nat.add_assoc, ← Nat.succ_mul]
  rcases Nat.lt_or_ge i (2 ^ f.fraction) with hi | hi
  · exact measure_of_normal hi
  · obtain rfl : i = 2 ^ f.fraction := by
      rw [Nat.pow_succ] at hle
      omega
    have := measure_of_normal (f := f) (j := j + 1) (Nat.two_pow_pos f.fraction)
    rw [Nat.add_zero, Nat.add_zero] at this
    rw [← Nat.succ_mul, this]
    push_cast
    rw [← add_assoc, zpow_add₀ two_ne_zero, zpow_one]
    ring

theorem exists_binade (f : Format) (m : Nat) : ∃ j k, m = j * 2 ^ f.fraction + k
    ∧ k < 2 ^ (f.fraction + 1) ∧ (0 < j → 2 ^ f.fraction ≤ k) := by
  have hpos := Nat.two_pow_pos f.fraction
  rw [Nat.pow_succ]
  rcases Nat.lt_or_ge m (2 ^ f.fraction) with hlow | hhigh
  · exact ⟨0, m, by simp, by omega, by simp⟩
  · have hlt := Nat.mod_lt m hpos
    refine ⟨m / 2 ^ f.fraction - 1, 2 ^ f.fraction + m % 2 ^ f.fraction, ?_, by omega,
      fun _ => by omega⟩
    have hq := (Nat.one_le_div_iff hpos).2 hhigh
    rw [← Nat.add_assoc, ← Nat.succ_mul, Nat.succ_eq_add_one, Nat.sub_add_cancel hq,
      Nat.div_add_mod']

theorem placeOf_binade (hd : 0 < d) (hk : 0 < k) (hlt : k < 2 ^ (f.fraction + 1))
    (hge : 0 < j → 2 ^ f.fraction ≤ k) (h : (n : ℚ) / d = k * 2 ^ (f.leastExponent + j)) :
    f.placeOf n d = f.leastExponent + j := by
  have hr : (0 : ℚ) < n / d := by
    rw [h]
    positivity
  have hupper : Int.log 2 ((n : ℚ) / d) < f.leastExponent + j + (f.fraction + 1 : Nat) := by
    rw [← lt_two_zpow_iff hr, h, two_zpow_add_natCast _ (f.fraction + 1)]
    exact mul_lt_mul_of_pos_right (Nat.cast_lt.2 hlt) (by positivity)
  rw [placeOf_eq ((quotient_pos_iff hd).1 hr) hd]
  rcases Nat.eq_zero_or_pos j with rfl | hj
  · omega
  · have hlower : f.leastExponent + j + f.fraction ≤ Int.log 2 ((n : ℚ) / d) := by
      rw [← two_zpow_le_iff hr, h, two_zpow_add_natCast _ f.fraction]
      exact mul_le_mul_of_nonneg_right (Nat.cast_le.2 (hge hj)) (by positivity)
    omega

theorem nearest_of_eq_measure (hd : 0 < d) (hm : 0 < m) (h : (n : ℚ) / d = f.measure m) :
    f.nearest n d = m := by
  have hr : (0 : ℚ) < n / d := h ▸ measure_pos hm
  obtain ⟨j, k, rfl, hlt, hge⟩ := f.exists_binade m
  rw [measure_binade hlt.le hge] at h
  have hk : 0 < k := by
    rw [h] at hr
    exact Nat.cast_pos.1 ((mul_pos_iff_of_pos_right (by positivity)).1 hr)
  have hplace := placeOf_binade hd hk hlt hge h
  have hunits : (n : ℚ) / d / 2 ^ f.placeOf n d = k := by
    rw [hplace, h, mul_div_cancel_right₀ _ (by positivity)]
  simp only [nearest]
  rw [nearestEven_of_eq (scaled_pos hd _) ((scaled_div n d _).trans hunits), hplace,
    add_sub_cancel_left, Int.toNat_natCast]

theorem roundQuotient_of_eq_measure (hd : 0 < d) (hm : m ≤ f.infinity)
    (h : (n : ℚ) / d = f.measure m) : f.roundQuotient n d = m := by
  rcases Nat.eq_zero_or_pos m with rfl | hpos
  · have hn : ¬ 0 < n := fun hn => ((quotient_pos_iff hd).2 hn).ne' (h.trans measure_zero)
    obtain rfl := Nat.eq_zero_of_not_pos hn
    rfl
  · have hn : 0 < n := (quotient_pos_iff hd).1 (h ▸ measure_pos hpos)
    rw [roundQuotient_eq hn, nearest_of_eq_measure hd hpos h]
    exact Nat.min_eq_right hm

theorem roundQuotient_le_of_le_measure (hd : 0 < d) (hm : m ≤ f.infinity)
    (h : (n : ℚ) / d ≤ f.measure m) : f.roundQuotient n d ≤ m := by
  have := roundQuotient_mono (f := f) hd (Nat.two_pow_pos _) (h.trans (f.measure_eq_div m).le)
  rwa [roundQuotient_of_eq_measure (Nat.two_pow_pos _) hm (f.measure_eq_div m).symm] at this

theorem le_roundQuotient_of_measure_le (hd : 0 < d) (hm : m ≤ f.infinity)
    (h : f.measure m ≤ (n : ℚ) / d) : m ≤ f.roundQuotient n d := by
  have := roundQuotient_mono (f := f) (Nat.two_pow_pos _) hd ((f.measure_eq_div m).ge.trans h)
  rwa [roundQuotient_of_eq_measure (Nat.two_pow_pos _) hm (f.measure_eq_div m).symm] at this

theorem measure_strictMono (f : Format) : StrictMono f.measure := by
  intro m m' h
  have hm' := Nat.zero_lt_of_lt h
  rcases Nat.eq_zero_or_pos m with rfl | hm
  · simpa using measure_pos hm'
  by_contra hle
  rw [not_lt, f.measure_eq_div m, f.measure_eq_div m'] at hle
  have hpos : 0 < Binary.significand f m' * 2 ^ (Binary.scale f m').toNat := by
    rw [← quotient_pos_iff (Nat.two_pow_pos _), ← measure_eq_div]
    exact measure_pos hm'
  have := nearest_mono (f := f) hpos (Nat.two_pow_pos _) (Nat.two_pow_pos _) hle
  rw [nearest_of_eq_measure (Nat.two_pow_pos _) hm (f.measure_eq_div m).symm,
    nearest_of_eq_measure (Nat.two_pow_pos _) hm' (f.measure_eq_div m').symm] at this
  omega

theorem measure_nearest {q : Int} (hn : 0 < n) (hd : 0 < d) (hk : k < 2 ^ (f.fraction + 1))
    (hq : f.leastExponent ≤ q) (h : (n : ℚ) / d = k * 2 ^ q) :
    f.measure (f.nearest n d) = n / d := by
  have hr := (quotient_pos_iff hd).2 hn
  obtain ⟨hle, hge⟩ := nearest_parts (f := f) hn hd
  have hleast := f.le_placeOf n d
  have hplace : f.placeOf n d ≤ q := by
    have : Int.log 2 ((n : ℚ) / d) < q + (f.fraction + 1 : Nat) := by
      rw [← lt_two_zpow_iff hr, h, two_zpow_add_natCast]
      exact mul_lt_mul_of_pos_right (Nat.cast_lt.2 hk) (by positivity)
    rw [placeOf_eq hn hd]
    omega
  obtain ⟨i, hi⟩ := Int.le.dest hplace
  have hunits : (n : ℚ) / d / 2 ^ f.placeOf n d = (k * 2 ^ i : Nat) := by
    rw [h, ← hi, two_zpow_add_natCast, ← mul_assoc, mul_div_cancel_right₀ _ (by positivity),
      Nat.cast_mul]
  have hdigits := nearestEven_of_eq (scaled_pos hd _) ((scaled_div n d _).trans hunits)
  simp only [nearest]
  rw [hdigits] at hle hge ⊢
  rw [measure_binade hle (fun hj => hge (by omega)), ← hunits, Int.toNat_sub_of_le hleast,
    add_sub_cancel, div_mul_cancel₀ _ (by positivity)]

theorem measure_roundQuotient {q : Int} (hd : 0 < d) (hk : k < 2 ^ (f.fraction + 1))
    (hq : f.leastExponent ≤ q) (h : (n : ℚ) / d = k * 2 ^ q)
    (hlt : (n : ℚ) / d < f.measure f.infinity) :
    f.roundQuotient n d < f.infinity ∧ f.measure (f.roundQuotient n d) = n / d := by
  rcases Nat.eq_zero_or_pos n with rfl | hn
  · have hpos : f.measure 0 < f.measure f.infinity := by simpa using hlt
    exact ⟨f.measure_strictMono.lt_iff_lt.1 hpos, by simp [roundQuotient]⟩
  · have hnearest := measure_nearest hn hd hk hq h
    have hbelow : f.nearest n d < f.infinity := by
      rw [← f.measure_strictMono.lt_iff_lt, hnearest]
      exact hlt
    rw [roundQuotient_eq hn, Nat.min_eq_right hbelow.le]
    exact ⟨hbelow, hnearest⟩

end Gridded.Format
