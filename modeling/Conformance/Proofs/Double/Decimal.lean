import Conformance.Proofs.Double.Integers

/-!
# Decimal numerals of doubles

Numerals of the same value read as the same double (`ofDecimal_shift`), and a double that is
rounded once more stays what it is (`Magnitude.round_units`). So the shortest numeral of a magnitude
reads as that magnitude, with either sign (`Magnitude.reads_shortest`): a numeral that was found on a
grid was read back before it was chosen, and the one with all digits has the exact value.
-/

namespace Conformance

attribute [local instance (high)] instPowNat

/-! ## Lengths -/

theorem decimalLength_le_iff {n k : Nat} (hk : 0 < k) : decimalLength n ≤ k ↔ n < 10 ^ k :=
  Nat.length_toDigits_le_iff (by decide) hk

theorem decimalLength_mul_ten {n : Nat} (h : 0 < n) :
    decimalLength (n * 10) = decimalLength n + 1 := by
  have hdigits : Nat.toDigits 10 n ++ Nat.toDigits 10 0 = Nat.toDigits 10 (10 * n + 0) :=
    Nat.toDigits_append_toDigits (by decide) h (by decide)
  unfold decimalLength
  rw [Nat.mul_comm, ← Nat.add_zero (10 * n), ← hdigits, List.length_append]
  rfl

/-! ## Ratios -/

variable {k num den : Nat}

theorem roundDiv_scale (hk : 0 < k) : roundDiv (k * num) (k * den) = roundDiv num den := by
  have htwice : 2 * (k * (num % den)) = k * (2 * (num % den)) := Nat.mul_left_comm 2 k _
  unfold roundDiv
  rw [Nat.mul_div_mul_left num den hk, Nat.mul_mod_mul_left]
  simp only [htwice, Nat.mul_lt_mul_left hk]

theorem BinaryFormat.round_scale (f : BinaryFormat) (hk : 0 < k) :
    f.round (k * num) (k * den) = f.round num den := by
  unfold round
  rw [Nat.mul_div_mul_left num den hk]
  dsimp only
  rw [Nat.mul_assoc, roundDiv_scale hk]

theorem Double.ofRatio_scale (negative : Bool) (hk : 0 < k) :
    ofRatio negative (k * num) (k * den) = ofRatio negative num den := by
  unfold ofRatio
  rw [Nat.mul_assoc, BinaryFormat.round_scale _ hk]

/-! ## Numerals of one value -/

theorem Decimal.leading_shift {n : Nat} (hn : 0 < n) (e : Int) :
    Decimal.leading ⟨n * 10, e - 1⟩ = Decimal.leading ⟨n, e⟩ := by
  unfold leading
  dsimp only
  rw [decimalLength_mul_ten hn]
  omega

theorem Double.ofRatio_shift (negative : Bool) (n : Nat) (e : Int) :
    ofRatio negative (Decimal.ratio ⟨n * 10, e - 1⟩).1 (Decimal.ratio ⟨n * 10, e - 1⟩).2 =
      ofRatio negative (Decimal.ratio ⟨n, e⟩).1 (Decimal.ratio ⟨n, e⟩).2 := by
  unfold Decimal.ratio
  dsimp only
  rcases Int.lt_or_le 0 e with he | he
  · have hpos : e.toNat = (e - 1).toNat + 1 := by omega
    have hneg : (-(e - 1)).toNat = 0 := by omega
    have hneg' : (-e).toNat = 0 := by omega
    rw [hpos, hneg, hneg', Nat.pow_succ, Nat.mul_assoc, Nat.mul_comm 10]
  · have hpos : (e - 1).toNat = 0 := by omega
    have hpos' : e.toNat = 0 := by omega
    have hneg : (-(e - 1)).toNat = (-e).toNat + 1 := by omega
    rw [hpos, hpos', hneg, Nat.pow_succ, Nat.pow_zero, Nat.mul_one, Nat.mul_one, Nat.mul_comm n,
      Nat.mul_comm _ 10, ofRatio_scale negative (by decide)]

theorem Double.ofDecimal_shift (negative : Bool) (n : Nat) (e : Int) :
    ofDecimal negative ⟨n * 10, e - 1⟩ = ofDecimal negative ⟨n, e⟩ := by
  unfold ofDecimal
  by_cases hn : n = 0
  · subst hn
    simp
  · have hn' : n * 10 ≠ 0 := by omega
    simp only [hn, hn', Decimal.leading_shift (Nat.pos_of_ne_zero hn), ofRatio_shift]

theorem Double.ofDecimal_shift_pow (negative : Bool) (n k : Nat) (e : Int) :
    ofDecimal negative ⟨n * 10 ^ k, e - k⟩ = ofDecimal negative ⟨n, e⟩ := by
  induction k with
  | zero => rw [Nat.pow_zero, Nat.mul_one, Int.natCast_zero, Int.sub_zero]
  | succ k ih =>
    have hexponent : e - (k + 1 : Nat) = e - k - 1 := by omega
    rw [Nat.pow_succ, ← Nat.mul_assoc, hexponent, ofDecimal_shift, ih]

theorem Double.ofDecimal_trim (negative : Bool) (n : Nat) (d : Decimal) :
    ofDecimal negative (d.trim n) = ofDecimal negative d := by
  induction n generalizing d with
  | zero => rfl
  | succ n ih =>
    rw [Decimal.trim]
    split
    · next hzero =>
      have hdigits : d.digits / 10 * 10 = d.digits := by omega
      have hexponent : d.exponent + 1 - 1 = d.exponent := by omega
      rw [ih, ← ofDecimal_shift, hdigits, hexponent]
    · rfl

/-! ## Magnitudes -/

namespace Magnitude

variable (x : Magnitude)

theorem binade_units_le : binade x.units ≤ x.exponent :=
  binade_mul_two_pow_le x.significand_lt x.exponent

theorem two_pow_binade_dvd_units : 2 ^ binade x.units ∣ x.units :=
  Nat.dvd_mul_left_of_dvd (Nat.pow_dvd_pow 2 x.binade_units_le) x.significand

theorem ofUnits?_units : ofUnits? x.units = some x := by
  have hfinite : binade x.units ≤ 2045 := Nat.le_trans x.binade_units_le x.exponent_le
  obtain ⟨y, hy, hunits⟩ := exists_ofUnits?_eq hfinite x.two_pow_binade_dvd_units
  rw [hy, units_injective hunits]

theorem round_units : BinaryFormat.double.round x.units 1 = x.units := by
  refine BinaryFormat.round_of_dvd ?_
  rw [BinaryFormat.lastDigit_double]
  exact x.two_pow_binade_dvd_units

theorem units_lt {e : Nat} (h : x.exponent ≤ e) : x.units < 2 ^ (53 : Nat) * 2 ^ e :=
  calc x.units < 2 ^ (53 : Nat) * 2 ^ x.exponent :=
        Nat.mul_lt_mul_of_pos_right x.significand_lt (Nat.two_pow_pos _)
    _ ≤ 2 ^ (53 : Nat) * 2 ^ e := Nat.mul_le_mul_left _ (Nat.pow_le_pow_right (by decide) h)

end Magnitude

/-! ## Reading back -/

theorem Double.ofUnits_eq_finite_iff {negative : Bool} {n : Nat} {x : Magnitude} :
    ofUnits negative n = finite negative x ↔ Magnitude.ofUnits? n = some x := by
  unfold ofUnits
  cases Magnitude.ofUnits? n with
  | none => simp
  | some y => simp

theorem Double.ofDecimal_eq_finite {d : Decimal} {x : Magnitude}
    (h : ofDecimal false d = finite false x) (negative : Bool) :
    ofDecimal negative d = finite negative x := by
  unfold ofDecimal at h ⊢
  split
  · next hzero =>
    rw [if_pos hzero] at h
    cases h
    rfl
  · next hnonzero =>
    rw [if_neg hnonzero] at h
    split
    · next hinfinite =>
      rw [if_pos hinfinite] at h
      cases h
    · next hfinite =>
      rw [if_neg hfinite] at h
      exact ofUnits_eq_finite_iff.2 (ofUnits_eq_finite_iff.1 h)

namespace Magnitude

/-- The numeral reads as the magnitude, with either sign. -/
def Reads (x : Magnitude) (d : Decimal) : Prop :=
  ∀ negative, Double.ofDecimal negative d = .finite negative x

variable {x : Magnitude} {d : Decimal}

theorem reads_of_readsBack (h : x.readsBack d) : x.Reads d :=
  Double.ofDecimal_eq_finite (of_decide_eq_true h)

theorem reads_of_onGrid? {e : Int} (h : x.onGrid? e = some d) : x.Reads d := by
  unfold onGrid? at h
  dsimp only at h
  split at h
  · next hlow =>
    split at h
    · next hhigh =>
      cases h
      exact reads_of_readsBack (Bool.and_eq_true_iff.1 hhigh).2
    · cases h
      exact reads_of_readsBack hlow
  · split at h
    · next hhigh =>
      cases h
      exact reads_of_readsBack hhigh
    · cases h

theorem digits_exact_lt (x : Magnitude) : x.exact.digits < 10 ^ (1384 : Nat) := by
  have hbound : 2 ^ (53 : Nat) * 2 ^ (2045 : Nat) * 5 ^ (1074 : Nat) ≤ 10 ^ (1384 : Nat) := by
    decide +kernel
  have hunits := x.units_lt (e := 2045) x.exponent_le
  have hpos : 0 < 5 ^ (1074 : Nat) := Nat.pow_pos (a := 5) (n := 1074) (by decide)
  exact Nat.lt_of_lt_of_le (Nat.mul_lt_mul_of_pos_right hunits hpos) hbound

theorem le_digits_exact (hx : x.units ≠ 0) : 10 ^ (744 : Nat) ≤ x.exact.digits := by
  have hbound : 10 ^ (744 : Nat) ≤ 5 ^ (1074 : Nat) := by decide +kernel
  exact Nat.le_trans hbound (Nat.le_mul_of_pos_left _ (Nat.pos_of_ne_zero hx))

theorem ofRatio_exact (negative : Bool) (x : Magnitude) :
    Double.ofRatio negative x.exact.ratio.1 x.exact.ratio.2 = .finite negative x := by
  have hpow : 5 ^ (1074 : Nat) * 10 ^ (0 : Nat) * unitsPerOne = 10 ^ (1074 : Nat) := by
    decide +kernel
  have hunits : x.exact.ratio.1 * unitsPerOne = 10 ^ (1074 : Nat) * x.units := by
    show x.units * 5 ^ (1074 : Nat) * 10 ^ (0 : Nat) * unitsPerOne = _
    rw [← hpow]
    generalize 5 ^ (1074 : Nat) = p, 10 ^ (0 : Nat) = q, unitsPerOne = u
    rw [Nat.mul_assoc x.units, Nat.mul_assoc x.units, Nat.mul_comm]
  have hexponent : (-x.exact.exponent).toNat = 1074 := rfl
  have hden : x.exact.ratio.2 = 10 ^ (1074 : Nat) := by rw [Decimal.ratio, hexponent]
  have hpos : 0 < 10 ^ (1074 : Nat) := Nat.pow_pos (a := 10) (n := 1074) (by decide)
  unfold Double.ofRatio
  rw [hunits, hden]
  generalize 10 ^ (1074 : Nat) = p at hpos
  have hround : BinaryFormat.double.round (p * x.units) (p * 1) = x.units := by
    rw [BinaryFormat.round_scale _ hpos, round_units]
  rw [Nat.mul_one] at hround
  rw [hround]
  exact Double.ofUnits_eq_finite_iff.2 x.ofUnits?_units

theorem reads_exact (hx : x.units ≠ 0) : x.Reads x.exact := by
  intro negative
  have hlow : ¬ decimalLength x.exact.digits ≤ 744 := by
    rw [decimalLength_le_iff (by decide)]
    exact Nat.not_lt.2 (le_digits_exact hx)
  have hhigh : decimalLength x.exact.digits ≤ 1384 :=
    (decimalLength_le_iff (by decide)).2 x.digits_exact_lt
  have hleading : x.exact.leading = decimalLength x.exact.digits - 1 + -1074 := rfl
  have hpos : 0 < 10 ^ (744 : Nat) := Nat.pow_pos (a := 10) (n := 744) (by decide)
  have hzero : x.exact.digits ≠ 0 := Nat.ne_of_gt (Nat.lt_of_lt_of_le hpos (le_digits_exact hx))
  have hread : ¬ (x.exact.digits = 0 ∨ x.exact.leading < -330) := by omega
  have hfinite : ¬ 310 ≤ x.exact.leading := by omega
  unfold Double.ofDecimal
  rw [if_neg hread, if_neg hfinite, ofRatio_exact]

theorem reads_shortestFrom (hx : x.units ≠ 0) (n : Nat) (e : Int) :
    x.Reads (x.shortestFrom n e) := by
  induction n generalizing e with
  | zero => exact reads_exact hx
  | succ n ih =>
    rw [shortestFrom]
    cases hgrid : x.onGrid? e with
    | none => exact ih (e - 1)
    | some d => exact reads_of_onGrid? hgrid

/-- The shortest numeral of a magnitude reads as that magnitude. -/
theorem reads_shortest (hx : x.units ≠ 0) : x.Reads x.shortest := by
  intro negative
  rw [shortest, Double.ofDecimal_trim]
  exact reads_shortestFrom hx 17 x.leading negative

theorem Reads.digits_pos (h : x.Reads d) (hx : x.units ≠ 0) : 0 < d.digits := by
  refine Nat.pos_of_ne_zero fun hzero => hx ?_
  have hread := h false
  unfold Double.ofDecimal at hread
  rw [if_pos (.inl hzero)] at hread
  cases hread
  exact units_zero

end Magnitude

end Conformance
