import Gridded.Binary.Arith
import Gridded.Proofs.Binary.Measure

namespace Gridded

namespace Format

variable {f : Format} {m n : Nat}

theorem infinity_add (f : Format) : f.infinity + 2 ^ f.fraction = 2 ^ f.payload := by
  rw [infinity, ← Nat.succ_mul, Nat.succ_eq_add_one,
    Nat.sub_add_cancel (Nat.two_pow_pos _), ← Nat.pow_add, Nat.add_comm, payload]

theorem roundQuotient_lt (f : Format) (n d : Nat) : f.roundQuotient n d < 2 ^ f.payload := by
  have := f.roundQuotient_le n d
  have := infinity_add f
  have := Nat.two_pow_pos f.fraction
  omega

theorem roundQuotient_one_mono (h : m ≤ n) : f.roundQuotient m 1 ≤ f.roundQuotient n 1 := by
  apply roundQuotient_mono one_pos one_pos
  simpa using h

/-- The second format has all numbers of the first one, and room for its payloads. -/
structure Widens (f g : Format) : Prop where
  fraction_pos : 0 < f.fraction
  fraction_le : f.fraction ≤ g.fraction
  least_le : g.leastExponent ≤ f.leastExponent
  infinity_le : f.measure f.infinity ≤ g.measure g.infinity

theorem single_widens_double : single.Widens double where
  fraction_pos := by decide
  fraction_le := by decide
  least_le := by decide
  infinity_le := by
    rw [measure_infinity (by decide), measure_infinity (by decide)]
    exact zpow_le_zpow_right₀ one_le_two (by decide)

end Format

namespace Binary

variable {f g : Format} {s t : Bool} {m n m' n' : Nat}

def keyOf (s : Bool) (m : Nat) : Int := if s then -(m : Int) - 1 else m

theorem key_eq (x : Binary f) : x.key = keyOf x.negative x.magnitude := rfl

theorem keyOf_le_keyOf (h : keyOf s m < keyOf t n) (hlt : m < n → m' ≤ n') (hgt : n < m → n' ≤ m') :
    keyOf s m' ≤ keyOf t n' := by
  cases s <;> cases t <;> simp only [keyOf, Bool.false_eq_true, ↓reduceIte] at h ⊢ <;> omega

theorem keyOf_lt_keyOf (h : keyOf s m < keyOf t n) (hlt : m < n → m' < n') (hgt : n < m → n' < m') :
    keyOf s m' < keyOf t n' := by
  cases s <;> cases t <;> simp only [keyOf, Bool.false_eq_true, ↓reduceIte] at h ⊢ <;> omega

theorem magnitude_lt (x : Binary f) : x.magnitude < 2 ^ f.payload :=
  Nat.mod_lt _ (Nat.two_pow_pos _)

theorem toNat_ofParts (hm : m < 2 ^ f.payload) :
    (ofParts f s m).toNat = m + if s then 2 ^ f.payload else 0 := by
  refine Nat.mod_eq_of_lt ?_
  rw [Format.width, Nat.pow_succ]
  split <;> omega

theorem negative_ofParts (hm : m < 2 ^ f.payload) : (ofParts f s m).negative = s := by
  rw [negative, toNat_ofParts hm]
  cases s <;> simp [hm]

theorem magnitude_ofParts (hm : m < 2 ^ f.payload) : (ofParts f s m).magnitude = m := by
  rw [magnitude, toNat_ofParts hm]
  cases s <;> simp [Nat.mod_eq_of_lt hm]

theorem key_ofParts (hm : m < 2 ^ f.payload) : (ofParts f s m).key = keyOf s m := by
  rw [key_eq, negative_ofParts hm, magnitude_ofParts hm]

theorem key_ofInt (f : Format) (i : Int) :
    (ofInt f i).key = keyOf (i < 0) (f.roundQuotient i.natAbs 1) :=
  key_ofParts (f.roundQuotient_lt _ 1)

theorem keyOf_natAbs (i : Int) : keyOf (i < 0) i.natAbs = if i < 0 then i - 1 else i := by
  simp only [keyOf, decide_eq_true_eq]
  split <;> omega

theorem key_ofInt_mono {i j : Int} (h : i < j) : (ofInt f i).key ≤ (ofInt f j).key := by
  rw [key_ofInt, key_ofInt]
  apply keyOf_le_keyOf (m := i.natAbs) (n := j.natAbs)
  · rw [keyOf_natAbs, keyOf_natAbs]
    split <;> split <;> omega
  · exact fun h => Format.roundQuotient_one_mono h.le
  · exact fun h => Format.roundQuotient_one_mono h.le

def isSignalling (x : Binary f) : Bool :=
  x.isNaN && decide (x.magnitude % 2 ^ f.fraction < f.quiet)

def carry (f g : Format) (m : Nat) : Nat :=
  if f.infinity < m then carryPayload f g m
  else if m = f.infinity then g.infinity
  else g.roundQuotient (significand f m * 2 ^ (scale f m).toNat) (2 ^ (-scale f m).toNat)

theorem convert_eq (g : Format) (x : Binary f) :
    x.convert g = ofParts g x.negative (carry f g x.magnitude) := by
  by_cases hnan : f.infinity < x.magnitude
  · simp only [convert, value, carry, if_pos hnan]
  by_cases hinf : x.magnitude = f.infinity
  · simp only [convert, value, carry, if_neg hnan, if_pos hinf, infinite]
  · simp only [convert, value, carry, if_neg hnan, if_neg hinf, ofDyadic, ofQuotient]

theorem carry_infinity (f g : Format) : carry f g f.infinity = g.infinity := by
  rw [carry, if_neg (Nat.lt_irrefl _), if_pos rfl]

theorem carry_of_finite (hm : m < f.infinity) : carry f g m =
    g.roundQuotient (significand f m * 2 ^ (scale f m).toNat) (2 ^ (-scale f m).toNat) := by
  rw [carry, if_neg (Nat.not_lt_of_lt hm), if_neg hm.ne]

theorem infinity_le_carry (hm : f.infinity ≤ m) : g.infinity ≤ carry f g m := by
  unfold carry
  split
  · exact Nat.le_add_right _ _
  · rw [if_pos (by omega)]

theorem roundQuotient_le_carry {d : Nat} (hd : 0 < d) (h : f.roundQuotient n d < m) :
    g.roundQuotient n d ≤ carry f g m := by
  rcases Nat.lt_or_ge m f.infinity with hm | hm
  · have hlt := not_le.1 (mt (Format.le_roundQuotient_of_measure_le hd hm.le) (Nat.not_le_of_lt h))
    rw [carry_of_finite hm]
    apply Format.roundQuotient_mono hd (Nat.two_pow_pos _)
    rw [← Format.measure_eq_div]
    exact hlt.le
  · exact (g.roundQuotient_le n d).trans (infinity_le_carry hm)

theorem carry_le_roundQuotient {d : Nat} (hd : 0 < d) (h : m < f.roundQuotient n d) :
    carry f g m ≤ g.roundQuotient n d := by
  have hm := h.trans_le (f.roundQuotient_le n d)
  have hlt := not_le.1 (mt (Format.roundQuotient_le_of_le_measure hd hm.le) (Nat.not_le_of_lt h))
  rw [carry_of_finite hm]
  apply Format.roundQuotient_mono (Nat.two_pow_pos _) hd
  rw [← Format.measure_eq_div]
  exact hlt.le

theorem or_two_pow {n i : Nat} (h : n.testBit i) : n ||| 2 ^ i = n := by
  apply Nat.eq_of_testBit_eq
  intro j
  rw [Nat.testBit_or, Nat.testBit_two_pow]
  rcases eq_or_ne i j with rfl | hne
  · simp [h]
  · simp [hne]

theorem carryPayload_of_quiet (hfg : f.Widens g) (hquiet : f.quiet ≤ m % 2 ^ f.fraction) :
    carryPayload f g m = g.infinity + m % 2 ^ f.fraction * 2 ^ (g.fraction - f.fraction) := by
  have hpos := hfg.fraction_pos
  have hle := hfg.fraction_le
  have hlt := Nat.mod_lt m (Nat.two_pow_pos f.fraction)
  rw [carryPayload, Nat.sub_eq_zero_of_le hle, Nat.pow_zero, Nat.div_one, Format.quiet]
  congr 1
  -- The quiet bit is set already, at the leading place of the fraction.
  apply or_two_pow
  have hplace : g.fraction - 1 = (f.fraction - 1) + (g.fraction - f.fraction) := by omega
  rw [Nat.testBit_eq_decide_div_mod_eq, hplace, Nat.pow_add,
    Nat.mul_div_mul_right _ _ (Nat.two_pow_pos _)]
  have hone : m % 2 ^ f.fraction / 2 ^ (f.fraction - 1) = 1 := by
    apply Nat.div_eq_of_lt_le
    · rw [Nat.one_mul]
      exact hquiet
    · rw [Nat.mul_comm, ← Nat.pow_succ, Nat.succ_eq_add_one, Nat.sub_add_cancel hpos]
      exact hlt
  simp [hone]

theorem eq_infinity_add (hm : f.infinity ≤ m) (hlt : m < 2 ^ f.payload) :
    m = f.infinity + m % 2 ^ f.fraction := by
  obtain ⟨k, rfl⟩ := Nat.exists_eq_add_of_le hm
  rw [← Format.infinity_add] at hlt
  rw [Format.infinity, Nat.mul_add_mod_self_right, Nat.mod_eq_of_lt (by omega)]

theorem measure_carry (hfg : f.Widens g) (hm : m < f.infinity) :
    carry f g m < g.infinity ∧ g.measure (carry f g m) = f.measure m := by
  have hbelow := (f.measure_strictMono hm).trans_le hfg.infinity_le
  have hdigits : significand f m < 2 ^ (g.fraction + 1) :=
    (f.significand_lt m).trans_le
      (Nat.pow_le_pow_right two_pos (Nat.add_le_add_right hfg.fraction_le 1))
  have hscale : g.leastExponent ≤ scale f m :=
    hfg.least_le.trans (Int.le_add_of_nonneg_right (Int.natCast_nonneg _))
  rw [carry_of_finite hm]
  have := Format.measure_roundQuotient (f := g) (Nat.two_pow_pos _) hdigits hscale
    (f.measure_eq_div m).symm (by rwa [← Format.measure_eq_div])
  rwa [← Format.measure_eq_div] at this

def Quiet (f : Format) (m : Nat) : Prop := f.infinity < m → f.quiet ≤ m % 2 ^ f.fraction

theorem quiet_magnitude {x : Binary f} (hx : x.isSignalling = false) : Quiet f x.magnitude := by
  intro h
  simpa [isSignalling, isNaN, h] using hx

theorem carry_of_nan (hfg : f.Widens g) (hm : f.infinity < m) (hquiet : Quiet f m) :
    carry f g m = g.infinity + m % 2 ^ f.fraction * 2 ^ (g.fraction - f.fraction) := by
  rw [carry, if_pos hm, carryPayload_of_quiet hfg (hquiet hm)]

theorem carry_lt_payload (hfg : f.Widens g) (hquiet : Quiet f m) :
    carry f g m < 2 ^ g.payload := by
  have hspare := Nat.two_pow_pos g.fraction
  rw [← Format.infinity_add]
  rcases Nat.lt_or_ge f.infinity m with hm | hm
  · rw [carry_of_nan hfg hm hquiet]
    apply Nat.add_lt_add_left
    calc m % 2 ^ f.fraction * 2 ^ (g.fraction - f.fraction)
        < 2 ^ f.fraction * 2 ^ (g.fraction - f.fraction) :=
          Nat.mul_lt_mul_of_pos_right (Nat.mod_lt _ (Nat.two_pow_pos _)) (Nat.two_pow_pos _)
      _ = 2 ^ g.fraction := by rw [← Nat.pow_add, Nat.add_sub_cancel' hfg.fraction_le]
  · rcases hm.eq_or_lt with rfl | hm
    · rw [carry_infinity]
      omega
    · have := (measure_carry hfg hm).1
      omega

theorem carry_lt_carry (hfg : f.Widens g) (h : m < n) (hn : n < 2 ^ f.payload)
    (hquiet : Quiet f m) (hquiet' : Quiet f n) : carry f g m < carry f g n := by
  -- Numbers come first, then the infinity, then the quiet payloads.
  rcases Nat.lt_trichotomy m f.infinity with hm | rfl | hm
  · obtain ⟨hbelow, hmeasure⟩ := measure_carry hfg hm
    rcases Nat.lt_or_ge n f.infinity with hn | hn
    · rw [← g.measure_strictMono.lt_iff_lt, hmeasure, (measure_carry hfg hn).2]
      exact f.measure_strictMono h
    · exact hbelow.trans_le (infinity_le_carry hn)
  all_goals
    have hn' : f.infinity < n := by omega
    have hdecomp := eq_infinity_add hn'.le hn
    rw [carry_of_nan hfg hn' hquiet']
  · rw [carry_infinity]
    apply Nat.lt_add_of_pos_right
    exact Nat.mul_pos (by omega) (Nat.two_pow_pos _)
  · have hdecomp' := eq_infinity_add hm.le (h.trans hn)
    rw [carry_of_nan hfg hm hquiet]
    apply Nat.add_lt_add_left
    exact Nat.mul_lt_mul_of_pos_right (by omega) (Nat.two_pow_pos _)

theorem key_convert {x : Binary f} (hfg : f.Widens g) (hx : x.isSignalling = false) :
    (x.convert g).key = keyOf x.negative (carry f g x.magnitude) := by
  rw [convert_eq, key_ofParts (carry_lt_payload hfg (quiet_magnitude hx))]

theorem key_convert_lt {x y : Binary f} (hfg : f.Widens g) (hx : x.isSignalling = false)
    (hy : y.isSignalling = false) (h : x.key < y.key) :
    (x.convert g).key < (y.convert g).key := by
  have hquiet := quiet_magnitude hx
  have hquiet' := quiet_magnitude hy
  rw [key_convert hfg hx, key_convert hfg hy]
  exact keyOf_lt_keyOf h
    (fun h => carry_lt_carry hfg h y.magnitude_lt hquiet hquiet')
    (fun h => carry_lt_carry hfg h x.magnitude_lt hquiet' hquiet)

theorem key_ofInt_le_of_lt {i : Int} {y : Binary f} (hfg : f.Widens g)
    (hy : y.isSignalling = false) (h : (ofInt f i).key < y.key) :
    (ofInt g i).key ≤ (y.convert g).key := by
  rw [key_ofInt, key_eq] at h
  rw [key_ofInt, key_convert hfg hy]
  exact keyOf_le_keyOf h (roundQuotient_le_carry one_pos) (carry_le_roundQuotient one_pos)

theorem le_key_ofInt_of_lt {i : Int} {x : Binary f} (hfg : f.Widens g)
    (hx : x.isSignalling = false) (h : x.key < (ofInt f i).key) :
    (x.convert g).key ≤ (ofInt g i).key := by
  rw [key_ofInt, key_eq] at h
  rw [key_ofInt, key_convert hfg hx]
  exact keyOf_le_keyOf h (carry_le_roundQuotient one_pos) (roundQuotient_le_carry one_pos)

end Binary

end Gridded
