import Gridded.Binary.Arith
import Mathlib.Algebra.Order.Field.Power
import Mathlib.Data.Int.Log
import Mathlib.Data.Nat.Cast.Order.Field
import Mathlib.Data.Rat.Floor
import Mathlib.Tactic.Linarith
import Mathlib.Tactic.Positivity

namespace Gridded

variable {n d n' d' m : Nat}

theorem quotient_pos_iff (hd : 0 < d) : (0 : ℚ) < n / d ↔ 0 < n :=
  (div_pos_iff_of_pos_right (Nat.cast_pos.2 hd)).trans Nat.cast_pos

theorem nearestEven_spec (n : Nat) (hd : 0 < d) :
    |(nearestEven n d : ℚ) - n / d| ≤ 1 / 2 ∧
      (|(nearestEven n d : ℚ) - n / d| = 1 / 2 → nearestEven n d % 2 = 0) := by
  have hdq : (0 : ℚ) < d := Nat.cast_pos.2 hd
  have hquot : (n : ℚ) / d = (n / d : Nat) + ((n % d : Nat) : ℚ) / d := by
    rw [div_eq_iff hdq.ne', add_mul, div_mul_cancel₀ _ hdq.ne']
    exact_mod_cast (Nat.div_add_mod' n d).symm
  have hlt : ((n % d : Nat) : ℚ) / d < 1 / 2 ↔ 2 * (n % d) < d := by
    rw [div_lt_div_iff₀ hdq two_pos, one_mul, mul_comm]
    exact_mod_cast Iff.rfl
  have heq : ((n % d : Nat) : ℚ) / d = 1 / 2 ↔ 2 * (n % d) = d := by
    rw [div_eq_div_iff hdq.ne' two_ne_zero, one_mul, mul_comm]
    exact_mod_cast Iff.rfl
  have hnonneg : (0 : ℚ) ≤ ((n % d : Nat) : ℚ) / d := by positivity
  have hone : ((n % d : Nat) : ℚ) / d < 1 := (div_lt_one hdq).2 (Nat.cast_lt.2 (Nat.mod_lt n hd))
  rw [hquot]
  unfold nearestEven
  generalize ((n % d : Nat) : ℚ) / d = t at *
  split
  · next hdown =>
    rw [sub_add_cancel_left, abs_neg, abs_of_nonneg hnonneg]
    refine ⟨?_, fun h => ?_⟩
    · exact hdown.elim (fun h => (hlt.2 h).le) (fun h => (heq.2 h.1).le)
    · exact (hdown.resolve_left (fun hl => (hlt.2 hl).ne h)).2
  · next hup =>
    push_cast
    rw [add_sub_add_left_eq_sub, abs_of_pos (sub_pos.2 hone)]
    refine ⟨?_, fun h => ?_⟩
    · have : ¬ t < 1 / 2 := fun h => hup (.inl (hlt.1 h))
      linarith
    · have : 2 * (n % d) = d := heq.1 (by linarith)
      omega

theorem nearestEven_le_of_le (hd : 0 < d) (h : (n : ℚ) / d ≤ m) : nearestEven n d ≤ m := by
  have := (abs_le.1 (nearestEven_spec n hd).1).2
  have hlt : (nearestEven n d : ℚ) < (m + 1 : Nat) := by
    push_cast
    linarith
  exact Nat.lt_succ_iff.1 (Nat.cast_lt.1 hlt)

theorem le_nearestEven_of_le (hd : 0 < d) (h : (m : ℚ) ≤ n / d) : m ≤ nearestEven n d := by
  have := (abs_le.1 (nearestEven_spec n hd).1).1
  have hlt : (m : ℚ) < (nearestEven n d + 1 : Nat) := by
    push_cast
    linarith
  exact Nat.lt_succ_iff.1 (Nat.cast_lt.1 hlt)

theorem nearestEven_of_eq (hd : 0 < d) (h : (n : ℚ) / d = m) : nearestEven n d = m :=
  Nat.le_antisymm (nearestEven_le_of_le hd h.le) (le_nearestEven_of_le hd h.ge)

theorem nearestEven_mono (hd : 0 < d) (hd' : 0 < d') (h : (n : ℚ) / d ≤ n' / d') :
    nearestEven n d ≤ nearestEven n' d' := by
  obtain ⟨hnear, heven⟩ := nearestEven_spec n hd
  obtain ⟨hnear', heven'⟩ := nearestEven_spec n' hd'
  by_contra hlt
  have hstep : (nearestEven n' d' : ℚ) + 1 ≤ nearestEven n d := by
    exact_mod_cast Nat.lt_of_not_le hlt
  -- Both are then half way between two neighbours, of which only one is even.
  have hbelow := (abs_le.1 hnear).2
  have habove := (abs_le.1 hnear').1
  have htie : (nearestEven n d : ℚ) - n / d = 1 / 2 := by linarith
  have htie' : (nearestEven n' d' : ℚ) - n' / d' = -(1 / 2) := by linarith
  have hzero := heven (by rw [htie, abs_of_pos one_half_pos])
  have hzero' := heven' (by rw [htie', abs_neg, abs_of_pos one_half_pos])
  have hnext : nearestEven n d = nearestEven n' d' + 1 := by
    have : (nearestEven n d : ℚ) = (nearestEven n' d' + 1 : Nat) := by
      push_cast
      linarith
    exact_mod_cast this
  omega

theorem two_zpow_eq (k : Int) : (2 : ℚ) ^ k = 2 ^ k.toNat / 2 ^ (-k).toNat := by
  rw [← zpow_natCast, ← zpow_natCast, ← zpow_sub₀ two_ne_zero]
  congr 1
  omega

theorem two_zpow_add_natCast (p : Int) (i : Nat) : (2 : ℚ) ^ (p + i) = (2 ^ i : Nat) * 2 ^ p := by
  push_cast
  rw [zpow_add₀ two_ne_zero, zpow_natCast, mul_comm]

theorem two_zpow_le_iff {r : ℚ} (hr : 0 < r) (k : Int) : 2 ^ k ≤ r ↔ k ≤ Int.log 2 r := by
  exact_mod_cast Int.zpow_le_iff_le_log one_lt_two hr

theorem lt_two_zpow_iff {r : ℚ} (hr : 0 < r) (k : Int) : r < 2 ^ k ↔ Int.log 2 r < k := by
  exact_mod_cast Int.lt_zpow_iff_log_lt one_lt_two hr

theorem scaled_div (n d : Nat) (e : Int) :
    ((n * 2 ^ (-e).toNat : Nat) : ℚ) / (d * 2 ^ e.toNat : Nat) = n / d / 2 ^ e := by
  rw [two_zpow_eq]
  push_cast
  rw [div_div_div_eq, mul_comm (d : ℚ)]

theorem two_zpow_log2_le (hn : 0 < n) : (2 : ℚ) ^ (n.log2 : Int) ≤ n := by
  exact_mod_cast Nat.log2_self_le hn.ne'

theorem lt_two_zpow_log2 (n : Nat) : (n : ℚ) < 2 ^ ((n.log2 : Int) + 1) := by
  exact_mod_cast Nat.lt_log2_self (n := n)

theorem quotientLog_eq (hn : 0 < n) (hd : 0 < d) :
    quotientLog n d = Int.log 2 ((n : ℚ) / d) := by
  have hdq : (0 : ℚ) < d := Nat.cast_pos.2 hd
  have hr := (quotient_pos_iff hd).2 hn
  have hupper : Int.log 2 ((n : ℚ) / d) < n.log2 - d.log2 + 1 := by
    rw [← lt_two_zpow_iff hr, div_lt_iff₀ hdq]
    calc (n : ℚ) < 2 ^ ((n.log2 : Int) + 1) := lt_two_zpow_log2 n
      _ = 2 ^ ((n.log2 : Int) - d.log2 + 1) * 2 ^ (d.log2 : Int) := by
        rw [← zpow_add₀ two_ne_zero]
        congr 1
        omega
      _ ≤ _ := mul_le_mul_of_nonneg_left (two_zpow_log2_le hd) (by positivity)
  have hlower : (n.log2 : Int) - d.log2 - 1 ≤ Int.log 2 ((n : ℚ) / d) := by
    rw [← two_zpow_le_iff hr, le_div_iff₀ hdq]
    calc (2 : ℚ) ^ ((n.log2 : Int) - d.log2 - 1) * d
        ≤ 2 ^ ((n.log2 : Int) - d.log2 - 1) * 2 ^ ((d.log2 : Int) + 1) :=
          mul_le_mul_of_nonneg_left (lt_two_zpow_log2 d).le (by positivity)
      _ = 2 ^ (n.log2 : Int) := by
        rw [← zpow_add₀ two_ne_zero]
        congr 1
        omega
      _ ≤ n := two_zpow_log2_le hn
  have htest (k : Int) :
      d * 2 ^ k.toNat ≤ n * 2 ^ (-k).toNat ↔ k ≤ Int.log 2 ((n : ℚ) / d) := by
    rw [← two_zpow_le_iff hr, two_zpow_eq, div_le_div_iff₀ (by positivity) hdq, mul_comm]
    exact_mod_cast Iff.rfl
  simp only [quotientLog, htest]
  split <;> omega

namespace Format

variable {f : Format}

def nearest (f : Format) (n d : Nat) : Nat :=
  let e := f.placeOf n d
  (e - f.leastExponent).toNat * 2 ^ f.fraction
    + nearestEven (n * 2 ^ (-e).toNat) (d * 2 ^ e.toNat)

theorem roundQuotient_eq (hn : 0 < n) : f.roundQuotient n d = min f.infinity (f.nearest n d) :=
  if_neg hn.ne'

theorem roundQuotient_le (f : Format) (n d : Nat) : f.roundQuotient n d ≤ f.infinity := by
  rcases Nat.eq_zero_or_pos n with rfl | hn
  · exact Nat.zero_le _
  · rw [roundQuotient_eq hn]
    exact Nat.min_le_left _ _

theorem scaled_pos (hd : 0 < d) (e : Int) : 0 < d * 2 ^ e.toNat :=
  Nat.mul_pos hd (Nat.two_pow_pos _)

theorem le_placeOf (f : Format) (n d : Nat) : f.leastExponent ≤ f.placeOf n d :=
  Int.le_max_left _ _

theorem placeOf_eq (hn : 0 < n) (hd : 0 < d) :
    f.placeOf n d = max f.leastExponent (Int.log 2 ((n : ℚ) / d) - f.fraction) := by
  rw [placeOf, quotientLog_eq hn hd]

theorem placeOf_mono (hn : 0 < n) (hd : 0 < d) (hd' : 0 < d') (h : (n : ℚ) / d ≤ n' / d') :
    f.placeOf n d ≤ f.placeOf n' d' := by
  have hr := (quotient_pos_iff hd).2 hn
  have hn' := (quotient_pos_iff hd').1 (hr.trans_le h)
  have := Int.log_mono_right hr h (b := 2)
  rw [placeOf_eq hn hd, placeOf_eq hn' hd']
  omega

theorem div_placeOf_lt (hn : 0 < n) (hd : 0 < d) :
    (n : ℚ) / d / 2 ^ f.placeOf n d < (2 ^ (f.fraction + 1) : Nat) := by
  rw [div_lt_iff₀ (by positivity), ← two_zpow_add_natCast,
    lt_two_zpow_iff ((quotient_pos_iff hd).2 hn), placeOf_eq hn hd]
  omega

theorem le_div_placeOf (hn : 0 < n) (hd : 0 < d) (h : f.leastExponent < f.placeOf n d) :
    ((2 ^ f.fraction : Nat) : ℚ) ≤ n / d / 2 ^ f.placeOf n d := by
  rw [placeOf_eq hn hd] at h
  rw [le_div_iff₀ (by positivity), ← two_zpow_add_natCast,
    two_zpow_le_iff ((quotient_pos_iff hd).2 hn), placeOf_eq hn hd]
  omega

theorem nearest_parts (hn : 0 < n) (hd : 0 < d) :
    let e := f.placeOf n d
    let m := nearestEven (n * 2 ^ (-e).toNat) (d * 2 ^ e.toNat)
    m ≤ 2 ^ (f.fraction + 1) ∧ (f.leastExponent < e → 2 ^ f.fraction ≤ m) := by
  intro e m
  constructor
  · apply nearestEven_le_of_le (scaled_pos hd e)
    rw [scaled_div]
    exact (div_placeOf_lt hn hd).le
  · intro h
    apply le_nearestEven_of_le (scaled_pos hd e)
    rw [scaled_div]
    exact le_div_placeOf hn hd h

theorem nearest_mono (hn : 0 < n) (hd : 0 < d) (hd' : 0 < d') (h : (n : ℚ) / d ≤ n' / d') :
    f.nearest n d ≤ f.nearest n' d' := by
  have hn' := (quotient_pos_iff hd').1 (((quotient_pos_iff hd).2 hn).trans_le h)
  have hleast := f.le_placeOf n d
  obtain ⟨hle, -⟩ := nearest_parts (f := f) hn hd
  obtain ⟨-, hge⟩ := nearest_parts (f := f) hn' hd'
  simp only [nearest]
  rcases (placeOf_mono (f := f) hn hd hd' h).eq_or_lt with heq | hlt
  · rw [← heq]
    apply Nat.add_le_add_left
    apply nearestEven_mono (scaled_pos hd _) (scaled_pos hd' _)
    rw [scaled_div, scaled_div]
    exact div_le_div_of_nonneg_right h (by positivity)
  -- The power of two that ends the lower binade lies between the two.
  · have hge := hge (hleast.trans_lt hlt)
    rw [Nat.pow_succ] at hle
    have hstep : (f.placeOf n d - f.leastExponent).toNat + 1
        ≤ (f.placeOf n' d' - f.leastExponent).toNat := by omega
    have := Nat.mul_le_mul_right (2 ^ f.fraction) hstep
    rw [Nat.add_mul, Nat.one_mul] at this
    omega

theorem roundQuotient_mono (hd : 0 < d) (hd' : 0 < d') (h : (n : ℚ) / d ≤ n' / d') :
    f.roundQuotient n d ≤ f.roundQuotient n' d' := by
  rcases Nat.eq_zero_or_pos n with rfl | hn
  · exact Nat.zero_le _
  · have hn' := (quotient_pos_iff hd').1 (((quotient_pos_iff hd).2 hn).trans_le h)
    rw [roundQuotient_eq hn, roundQuotient_eq hn']
    have := nearest_mono (f := f) hn hd hd' h
    omega

theorem roundQuotient_congr (hd : 0 < d) (hd' : 0 < d') (h : (n : ℚ) / d = n' / d') :
    f.roundQuotient n d = f.roundQuotient n' d' :=
  Nat.le_antisymm (roundQuotient_mono hd hd' h.le) (roundQuotient_mono hd' hd h.ge)

end Format

end Gridded
