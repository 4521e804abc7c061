import Gridded.Proofs.Number.Value

namespace Gridded

theorem mul_two_zpow_eq_iff {m n : Nat} {q : Int} :
    (m : ℚ) * 2 ^ q = n ↔ m * 2 ^ q.toNat = n * 2 ^ (-q).toNat := by
  rw [two_zpow_eq, ← mul_div_assoc, div_eq_iff (by positivity)]
  exact_mod_cast Iff.rfl

namespace Format

variable {f : Format} {i : Int} {k e m : Nat}

/-- The integer ends in enough zeros for what is left of it to be a significand. -/
def Holds (f : Format) (i : Int) : Prop := 2 ^ (i.natAbs.log2 - f.fraction) ∣ i.natAbs

instance (f : Format) (i : Int) : Decidable (f.Holds i) := inferInstanceAs (Decidable (_ ∣ _))

theorem holds_iff :
    f.Holds i ↔ ∃ k e : Nat, k < 2 ^ (f.fraction + 1) ∧ i.natAbs = k * 2 ^ e := by
  constructor
  · intro h
    refine ⟨_, _, ?_, (Nat.div_mul_cancel h).symm⟩
    apply Nat.div_lt_of_lt_mul
    rw [← Nat.pow_add]
    exact Nat.lt_log2_self.trans_le (Nat.pow_le_pow_right two_pos (by omega))
  · rintro ⟨k, e, hk, hn⟩
    rw [Holds]
    rcases Nat.eq_zero_or_pos i.natAbs with hzero | hpos
    · exact hzero ▸ Nat.dvd_zero _
    · have hlt : i.natAbs < 2 ^ (f.fraction + 1 + e) := by
        rw [hn, Nat.pow_add]
        exact Nat.mul_lt_mul_of_pos_right hk (Nat.two_pow_pos e)
      have hlog := (Nat.log2_lt hpos.ne').2 hlt
      calc 2 ^ (i.natAbs.log2 - f.fraction) ∣ 2 ^ e := Nat.pow_dvd_pow 2 (by omega)
        _ ∣ i.natAbs := hn ▸ Nat.dvd_mul_left _ _

theorem holds_of_lt (h : i.natAbs < 2 ^ (f.fraction + 1)) : f.Holds i :=
  holds_iff.2 ⟨i.natAbs, 0, h, (Nat.mul_one _).symm⟩

theorem measure_of_le (h : ((2 ^ (f.fraction + 1) : Nat) : ℚ) ≤ f.measure m) :
    f.measure m = (Binary.significand f m * 2 ^ (Binary.scale f m).toNat : Nat) := by
  have hscale : 0 ≤ Binary.scale f m := by
    by_contra hneg
    have hone : (2 : ℚ) ^ Binary.scale f m ≤ 1 := zpow_le_one_of_nonpos₀ one_le_two (by omega)
    have hlt : (Binary.significand f m : ℚ) < (2 ^ (f.fraction + 1) : Nat) :=
      Nat.cast_lt.2 (f.significand_lt m)
    exact absurd (mul_le_of_le_one_right (Nat.cast_nonneg _) hone) (not_le.2 (hlt.trans_le h))
  have hneg : (-Binary.scale f m).toNat = 0 := by omega
  rw [measure, mul_two_zpow_eq_iff, hneg, Nat.pow_zero, Nat.mul_one]

structure Ample (f : Format) : Prop where
  least_nonpos : f.leastExponent ≤ 0
  lt_infinity : 2 ^ 63 < f.measure f.infinity

theorem single_ample : single.Ample where
  least_nonpos := by decide
  lt_infinity := by
    rw [measure_infinity (by decide), ← zpow_natCast]
    exact zpow_lt_zpow_right₀ one_lt_two (by decide)

theorem double_ample : double.Ample where
  least_nonpos := by decide
  lt_infinity := by
    rw [measure_infinity (by decide), ← zpow_natCast]
    exact zpow_lt_zpow_right₀ one_lt_two (by decide)

section Ample

variable (hf : f.Ample)

include hf

theorem Ample.measure_roundQuotient_of_holds (hle : i.natAbs ≤ 2 ^ 63) (h : f.Holds i) :
    f.roundQuotient i.natAbs 1 < f.infinity ∧
      f.measure (f.roundQuotient i.natAbs 1) = i.natAbs := by
  obtain ⟨k, e, hk, hn⟩ := holds_iff.1 h
  have hlt : (i.natAbs : ℚ) < f.measure f.infinity :=
    lt_of_le_of_lt (by exact_mod_cast hle) hf.lt_infinity
  have := measure_roundQuotient (f := f) (n := i.natAbs) (q := e) one_pos hk
    (hf.least_nonpos.trans (Int.natCast_nonneg e)) (by rw [hn]; simp) (by simpa using hlt)
  simpa using this

theorem Ample.exists_measure_roundQuotient (hle : i.natAbs ≤ 2 ^ 63) :
    f.roundQuotient i.natAbs 1 < f.infinity ∧
      ∃ n : Nat, f.measure (f.roundQuotient i.natAbs 1) = n := by
  have hpower (e : Nat) (he : e ≤ 63) :=
    hf.measure_roundQuotient_of_holds (i := (2 ^ e : Nat)) (Nat.pow_le_pow_right two_pos he)
      (holds_iff.2 ⟨1, e, Nat.one_lt_two_pow (Nat.succ_ne_zero _), (Nat.one_mul _).symm⟩)
  rcases Nat.lt_or_ge i.natAbs (2 ^ (f.fraction + 1)) with hlt | hge
  · obtain ⟨hfin, hmeasure⟩ := hf.measure_roundQuotient_of_holds hle (holds_of_lt hlt)
    exact ⟨hfin, _, hmeasure⟩
  · have hplaces : f.fraction + 1 ≤ 63 := (Nat.pow_le_pow_iff_right one_lt_two).1 (hge.trans hle)
    have hfin := (roundQuotient_one_mono (f := f) hle).trans_lt (hpower 63 le_rfl).1
    have hmono := f.measure_strictMono.monotone (roundQuotient_one_mono (f := f) hge)
    exact ⟨hfin, _, measure_of_le ((hpower _ hplaces).2.symm.trans_le hmono)⟩

end Ample

end Format

namespace Binary

variable {f : Format} {i : Int} {x : Binary f}

theorem rational?_ofInt (h : f.roundQuotient i.natAbs 1 < f.infinity) {n : Nat}
    (hn : f.measure (f.roundQuotient i.natAbs 1) = n) :
    (ofInt f i).rational? = some ((if i < 0 then -n else n : Int) : ℚ) := by
  have hlt := f.roundQuotient_lt i.natAbs 1
  rw [rational?_eq, ofInt, ofQuotient, negative_ofParts hlt, magnitude_ofParts hlt, if_pos h, hn]
  simp only [decide_eq_true_eq]
  split <;> simp

theorem rational?_ofInt_iff (hf : f.Ample) (hle : i.natAbs ≤ 2 ^ 63) :
    (ofInt f i).rational? = some (i : ℚ) ↔ f.Holds i := by
  constructor
  · intro h
    obtain ⟨-, hmeasure⟩ := measure_of_rational?_ofInt h
    have hdigits := f.significand_lt (f.roundQuotient i.natAbs 1)
    rw [Format.measure, mul_two_zpow_eq_iff] at hmeasure
    generalize scale f (f.roundQuotient i.natAbs 1) = q at hmeasure
    rcases Int.le_total 0 q with hq | hq
    · rw [show (-q).toNat = 0 by omega, Nat.pow_zero, Nat.mul_one] at hmeasure
      exact Format.holds_iff.2 ⟨_, _, hdigits, hmeasure.symm⟩
    · rw [show q.toNat = 0 by omega, Nat.pow_zero, Nat.mul_one] at hmeasure
      apply Format.holds_of_lt
      calc i.natAbs ≤ i.natAbs * 2 ^ (-q).toNat := Nat.le_mul_of_pos_right _ (Nat.two_pow_pos _)
        _ < 2 ^ (f.fraction + 1) := hmeasure ▸ hdigits
  · intro h
    obtain ⟨hfin, hmeasure⟩ := hf.measure_roundQuotient_of_holds hle h
    rw [rational?_ofInt hfin hmeasure, show (if i < 0 then -(i.natAbs : Int) else i.natAbs) = i by
      split <;> omega]

theorem exists_rational?_ofInt (hf : f.Ample) (hle : i.natAbs ≤ 2 ^ 63) :
    ∃ j : Int, (ofInt f i).rational? = some (j : ℚ) := by
  obtain ⟨hfin, n, hn⟩ := hf.exists_measure_roundQuotient hle
  exact ⟨_, rational?_ofInt hfin hn⟩

theorem truncate_of_rational? {low high : Int} (h : x.rational? = some (i : ℚ)) :
    x.truncate low high = max low (min high i) := by
  unfold rational? at h
  unfold truncate
  split at h
  · next s m q hv =>
    have h := Option.some.inj h
    have hnonneg : (0 : ℚ) ≤ m * 2 ^ q := by positivity
    have habs : (m : ℚ) * 2 ^ q = i.natAbs := by
      rw [Nat.cast_natAbs, Int.cast_abs, ← h]
      split <;> simp only [abs_neg, abs_of_nonneg hnonneg]
    have hdiv : m * 2 ^ q.toNat / 2 ^ (-q).toNat = i.natAbs := by
      rw [mul_two_zpow_eq_iff.1 habs, Nat.mul_div_cancel _ (Nat.two_pow_pos _)]
    have hsign : (if s then -(i.natAbs : Int) else i.natAbs) = i := by
      cases s with
      | false =>
        have : 0 ≤ i := Int.cast_nonneg_iff.1 (hnonneg.trans_eq h)
        exact Int.natAbs_of_nonneg this
      | true =>
        have : i ≤ 0 := Int.cast_nonpos.1 (h.symm.trans_le (neg_nonpos.2 hnonneg))
        exact neg_eq_iff_eq_neg.2 (Int.ofNat_natAbs_of_nonpos this)
    simp only [hv, hdiv, hsign]
  · cases h
  · cases h

end Binary

end Gridded
