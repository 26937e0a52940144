import Conformance.Proofs.Double.Decimal
import Mathlib.Data.Nat.Dist

/-!
# The nearest double

Rounding takes a number of units to a multiple of the last digit that the format keeps, the nearest
one and an even one of two that are as near (`roundDiv_nearest`, `roundDiv_even`). A magnitude is
such a multiple, or it is smaller than one that is not beyond the number (`dvd_units_or_lt`). So what
rounding leads to is the magnitude nearest to the number (`Magnitude.exists_isNearest`).
-/

namespace Conformance

attribute [local instance (high)] instPowNat

/-! ## Multiples -/

section Multiples

variable {num den k : Nat}

theorem roundDiv_cases (num den : Nat) :
    (roundDiv num den = num / den ∧ 2 * (num % den) ≤ den) ∨
      (roundDiv num den = num / den + 1 ∧ den ≤ 2 * (num % den)) := by
  unfold roundDiv
  dsimp only
  split
  · exact .inl ⟨rfl, by omega⟩
  · split
    · exact .inr ⟨rfl, by omega⟩
    · rcases Nat.mod_two_eq_zero_or_one (num / den) with h | h
      · exact .inl ⟨by omega, by omega⟩
      · exact .inr ⟨by omega, by omega⟩

theorem multiple_cases (k q den : Nat) :
    k * den + den ≤ q * den ∨ k = q ∨ k = q + 1 ∨ q * den + 2 * den ≤ k * den := by
  rcases Nat.lt_or_ge k q with hlt | hge
  · have := Nat.mul_le_mul_right den hlt
    rw [Nat.succ_mul] at this
    exact .inl this
  · rcases Nat.lt_or_ge (q + 1) k with hlt | hle
    · have := Nat.mul_le_mul_right den hlt
      rw [Nat.succ_mul, Nat.succ_mul] at this
      exact .inr (.inr (.inr (by omega)))
    · omega

/-- No multiple is nearer than the one that rounding leads to. -/
theorem roundDiv_nearest (h : 0 < den) (k : Nat) :
    Nat.dist num (roundDiv num den * den) ≤ Nat.dist num (k * den) := by
  have hdiv : num / den * den + num % den = num := Nat.div_add_mod' num den
  have hmod : num % den < den := Nat.mod_lt num h
  have hk := multiple_cases k (num / den) den
  have hnext : (num / den + 1) * den = num / den * den + den := Nat.succ_mul _ _
  unfold Nat.dist
  rcases roundDiv_cases num den with ⟨hround, hhalf⟩ | ⟨hround, hhalf⟩ <;> rw [hround]
  · rcases hk with hk | rfl | rfl | hk <;> omega
  · rcases hk with hk | rfl | rfl | hk <;> omega

/-- If another multiple is as near, the number is half-way, and the even one was taken. -/
theorem roundDiv_even (h : 0 < den) (hk : k ≠ roundDiv num den)
    (hdist : Nat.dist num (k * den) = Nat.dist num (roundDiv num den * den)) :
    roundDiv num den % 2 = 0 := by
  have hdiv : num / den * den + num % den = num := Nat.div_add_mod' num den
  have hmod : num % den < den := Nat.mod_lt num h
  have hnext : (num / den + 1) * den = num / den * den + den := Nat.succ_mul _ _
  have hhalf : 2 * (num % den) = den := by
    have hcases := multiple_cases k (num / den) den
    unfold Nat.dist at hdist
    rcases roundDiv_cases num den with ⟨hround, hle⟩ | ⟨hround, hle⟩ <;> rw [hround] at hk hdist
    · rcases hcases with hcases | rfl | rfl | hcases <;> omega
    · rcases hcases with hcases | rfl | rfl | hcases <;> omega
  unfold roundDiv
  dsimp only
  rw [if_neg (by omega), if_neg (by omega)]
  omega

end Multiples

/-! ## Magnitudes -/

namespace Magnitude

variable {x y : Magnitude} {n : Nat}

/-- Nothing of the format is nearer to `n` units than `x`, and if something is as near, the last
digit of `x` is even. -/
structure IsNearest (x : Magnitude) (n : Nat) : Prop where
  nearest : ∀ y : Magnitude, Nat.dist n x.units ≤ Nat.dist n y.units
  even : ∀ y : Magnitude, y ≠ x → Nat.dist n y.units = Nat.dist n x.units → x.significand % 2 = 0

theorem binade_eq_zero_or_le (n : Nat) : binade n = 0 ∨ 2 ^ (52 : Nat) * 2 ^ binade n ≤ n :=
  (binade_full n).imp_right (Nat.le_div_iff_mul_le (Nat.two_pow_pos _)).1

theorem binade_le_of_lt {b : Nat} (h : n < 2 ^ (53 : Nat) * 2 ^ b) : binade n ≤ b := by
  have hle := binade_eq_zero_or_le n
  rcases hle with hzero | hle
  · omega
  · refine Nat.le_of_lt_succ (Nat.lt_of_not_le fun hlt => ?_)
    have hpow : 2 ^ (53 : Nat) * 2 ^ b ≤ 2 ^ (52 : Nat) * 2 ^ binade n := by
      rw [← Nat.pow_add, ← Nat.pow_add]
      exact Nat.pow_le_pow_right (by decide) (by omega)
    omega

/-- A magnitude is a multiple of a digit, or all its digits are below the first place where one that
counts the digit could begin. -/
theorem dvd_units_or_lt (x : Magnitude) (e : Nat) :
    2 ^ e ∣ x.units ∨ 0 < e ∧ x.units < 2 ^ (52 : Nat) * 2 ^ e := by
  rcases Nat.lt_or_ge x.exponent e with hlt | hge
  · refine .inr ⟨by omega, ?_⟩
    calc x.units < 2 ^ (53 : Nat) * 2 ^ (e - 1) := x.units_lt (by omega)
      _ = 2 ^ (52 : Nat) * 2 ^ e := by rw [← two_pow_carry, Nat.sub_add_cancel (by omega)]
  · exact .inl (Nat.dvd_mul_left_of_dvd (Nat.pow_dvd_pow 2 hge) _)

/-- What is nearest among the multiples of the last digit that is kept is nearest of all. -/
theorem isNearest_of_units (hx : x.units = roundDiv n (2 ^ binade n) * 2 ^ binade n)
    (heven : roundDiv n (2 ^ binade n) % 2 = 0 → x.significand % 2 = 0) :
    x.IsNearest n := by
  have hpos : 0 < 2 ^ binade n := Nat.two_pow_pos _
  have hfirst := binade_eq_zero_or_le n
  -- A number that is not a multiple is below one that is not above `n`.
  have hbelow (y : Magnitude) (hy : 0 < binade n ∧ y.units < 2 ^ (52 : Nat) * 2 ^ binade n) :
      Nat.dist n x.units < Nat.dist n y.units := by
    have hle : Nat.dist n (roundDiv n (2 ^ binade n) * 2 ^ binade n) ≤
        Nat.dist n (2 ^ (52 : Nat) * 2 ^ binade n) := roundDiv_nearest hpos _
    rw [← hx] at hle
    unfold Nat.dist at hle ⊢
    omega
  constructor
  · intro y
    rcases y.dvd_units_or_lt (binade n) with ⟨k, hk⟩ | hlt
    · rw [hx, hk, Nat.mul_comm _ k]
      exact roundDiv_nearest hpos k
    · exact Nat.le_of_lt (hbelow y hlt)
  · intro y hne hdist
    rcases y.dvd_units_or_lt (binade n) with ⟨k, hk⟩ | hlt
    · have hother : k ≠ roundDiv n (2 ^ binade n) := by
        rintro rfl
        exact hne (units_injective (by rw [hk, hx, Nat.mul_comm]))
      rw [hx, hk, Nat.mul_comm _ k] at hdist
      exact heven (roundDiv_even hpos hother hdist)
    · have := hbelow y hlt
      omega

theorem round_eq (n : Nat) :
    BinaryFormat.double.round n 1 = roundDiv n (2 ^ binade n) * 2 ^ binade n := by
  unfold BinaryFormat.round
  rw [Nat.div_one, BinaryFormat.lastDigit_double]
  dsimp only
  rw [Nat.one_mul]

/-- Rounding leads to the nearest magnitude. One that gains a digit ends in a zero. -/
theorem exists_isNearest (h : binade n < 2045) :
    ∃ x : Magnitude, x.units = BinaryFormat.double.round n 1 ∧ x.IsNearest n := by
  have hlow : n / 2 ^ binade n < 2 ^ (53 : Nat) := div_binade_lt n
  have hfull := binade_full n
  obtain ⟨q, hq⟩ : ∃ q, roundDiv n (2 ^ binade n) = q := ⟨_, rfl⟩
  have hround := roundDiv_cases n (2 ^ binade n)
  rw [hq] at hround
  by_cases hcarry : q < 2 ^ (53 : Nat)
  · have hdigits : binade n = 0 ∨ 2 ^ (52 : Nat) ≤ q := by omega
    let x : Magnitude := ⟨q, binade n, hcarry, Nat.le_of_lt h, hdigits⟩
    have hx : x.units = roundDiv n (2 ^ binade n) * 2 ^ binade n := by rw [hq]; rfl
    exact ⟨x, hx.trans (round_eq n).symm, isNearest_of_units hx (hq ▸ id)⟩
  · obtain rfl : q = 2 ^ (53 : Nat) := by omega
    let x : Magnitude :=
      ⟨2 ^ (52 : Nat), binade n + 1, by decide, h, .inr (Nat.le_refl _)⟩
    have hx : x.units = roundDiv n (2 ^ binade n) * 2 ^ binade n := by
      rw [hq]
      exact two_pow_carry (binade n)
    have heven : 2 ^ (52 : Nat) % 2 = 0 := rfl
    exact ⟨x, hx.trans (round_eq n).symm, isNearest_of_units hx fun _ => heven⟩

theorem IsNearest.le_units (h : x.IsNearest n) (hy : y.units ≤ n) : y.units ≤ x.units := by
  have hle := h.nearest y
  unfold Nat.dist at hle
  omega

theorem IsNearest.units_pos (h : x.IsNearest n) (hn : 0 < n) : 0 < x.units := by
  let least : Magnitude := ⟨1, 0, by decide, by decide, .inl rfl⟩
  have hleast : least.units = 1 := rfl
  have hle : least.units ≤ x.units := h.le_units (by omega)
  omega

end Magnitude

/-! ## Whole numbers -/

namespace Double

theorem unitsPerOne_dvd_round (m : Nat) :
    unitsPerOne ∣ BinaryFormat.double.round (m * unitsPerOne) 1 := by
  obtain ⟨k, hk, -⟩ := exists_unitsPerOne_eq
  rw [hk]
  rcases Nat.le_total (Magnitude.binade (m * 2 ^ k)) k with hle | hge
  · have hdvd : 2 ^ Magnitude.binade (m * 2 ^ k) ∣ m * 2 ^ k :=
      Nat.dvd_mul_left_of_dvd (Nat.pow_dvd_pow 2 hle) m
    rw [BinaryFormat.round_of_dvd (by rwa [BinaryFormat.lastDigit_double])]
    exact Nat.dvd_mul_left _ m
  · rw [Magnitude.round_eq]
    exact Nat.dvd_mul_left_of_dvd (Nat.pow_dvd_pow 2 hge) _

theorem exists_ofInt_isNearest {n : Int} (h : n.natAbs < 2 ^ (65 : Nat)) :
    ∃ x w, ofInt n = finite (n < 0) x ∧ x.IsNearest (n.natAbs * unitsPerOne) ∧
      x.units = w * unitsPerOne := by
  obtain ⟨k, hk, hle⟩ := exists_unitsPerOne_eq
  have hlt : n.natAbs * unitsPerOne < 2 ^ (53 : Nat) * 2 ^ (12 + k) := by
    rw [hk, ← Nat.pow_add, ← Nat.add_assoc, Nat.pow_add]
    exact Nat.mul_lt_mul_of_pos_right h (Nat.two_pow_pos k)
  have hbinade := Magnitude.binade_le_of_lt hlt
  obtain ⟨x, hx, hnearest⟩ := Magnitude.exists_isNearest (n := n.natAbs * unitsPerOne) (by omega)
  obtain ⟨w, hw⟩ := unitsPerOne_dvd_round n.natAbs
  refine ⟨x, w, ?_, hnearest, by rw [hx, hw, Nat.mul_comm]⟩
  show ofUnits (n < 0) (BinaryFormat.double.round (n.natAbs * unitsPerOne) 1) = _
  rw [← hx]
  exact ofUnits_eq_finite_iff.2 x.ofUnits?_units

theorem isIntegral_of_units {negative : Bool} {x : Magnitude} {w : Nat}
    (h : x.units = w * unitsPerOne) : (finite negative x).isIntegral := by
  simp [isIntegral, isMultipleOf, h]

theorem isNonnegative_ofInt {n : Int} {x : Magnitude} (h : ofInt n = finite (n < 0) x)
    (hx : x.IsNearest (n.natAbs * unitsPerOne)) : (ofInt n).isNonnegative ↔ 0 ≤ n := by
  rw [h, isNonnegative]
  by_cases hn : n < 0
  · have hpos : 0 < n.natAbs * unitsPerOne := Nat.mul_pos (by omega) unitsPerOne_pos
    have hunits := hx.units_pos hpos
    simp only [hn, decide_true, Bool.not_true, Bool.false_or, beq_iff_eq]
    omega
  · simp only [hn, decide_false, Bool.not_false, Bool.true_or, true_iff]
    omega

theorem toJson_of_units {negative : Bool} {x : Magnitude} {w : Nat}
    (h : x.units = w * unitsPerOne) :
    (finite negative x).toJson =
      if w ≤ maxSafeInteger then .int (if negative then -(w : Int) else w)
      else .double (finite negative x) := by
  have hwhole : (x.units : Int) / unitsPerOne = w := by
    rw [h, Int.natCast_mul, Int.mul_ediv_cancel _ (by have := unitsPerOne_pos; omega)]
  have hint : (finite negative x).toInt? = some (if negative then -(w : Int) else w) := by
    simp only [toInt?, hwhole]
  have habs : (if negative then -(w : Int) else w).natAbs = w := by
    split <;> omega
  have hfinite : (finite negative x).isFinite := rfl
  simp only [toJson, hfinite, hint, isIntegral_of_units h, habs, Bool.not_true, Bool.false_eq_true,
    ↓reduceIte, Bool.true_and, decide_eq_true_eq]

theorem maxSafeInteger_lt_of_isNearest {x : Magnitude} {m w : Nat} (hm : maxSafeInteger < m)
    (hx : x.IsNearest (m * unitsPerOne)) (hw : x.units = w * unitsPerOne) : maxSafeInteger < w := by
  have hpos := unitsPerOne_pos
  have hsafe : maxSafeInteger + 1 = 2 ^ (53 : Nat) := rfl
  obtain ⟨k, hk, hle⟩ := exists_unitsPerOne_eq
  let y : Magnitude := ⟨2 ^ (52 : Nat), k + 1, by decide, by omega, .inr (Nat.le_refl _)⟩
  have hy : y.units = 2 ^ (53 : Nat) * unitsPerOne := by
    rw [hk]
    exact two_pow_carry k
  have hfull : 2 ^ (53 : Nat) ≤ m := by omega
  have hym : y.units ≤ m * unitsPerOne :=
    Nat.le_trans (Nat.le_of_eq hy) (Nat.mul_le_mul_right unitsPerOne hfull)
  have hyx : y.units ≤ x.units := hx.le_units hym
  rw [hy, hw] at hyx
  have := Nat.le_of_mul_le_mul_right hyx hpos
  omega

theorem signedUnits_of_units {n : Int} {x : Magnitude} (h : x.units = n.natAbs * unitsPerOne) :
    signedUnits (n < 0) x = n * unitsPerOne := by
  unfold signedUnits
  rw [h, Int.natCast_mul]
  by_cases hn : n < 0
  · have habs : (n.natAbs : Int) = -n := by omega
    simp only [hn, decide_true, if_true, habs, Int.neg_mul, Int.neg_neg]
  · have habs : (n.natAbs : Int) = n := by omega
    simp only [hn, decide_false, Bool.false_eq_true, if_false, habs]

theorem units_of_toJson_eq_int {y : Double} {m : Int} (h : y.toJson = .int m) :
    ∃ negative x, y = finite negative x ∧ signedUnits negative x = m * unitsPerOne ∧
      m.natAbs ≤ maxSafeInteger := by
  rcases toJson_cases y with ⟨-, hnull⟩ | ⟨n, hint, hsafe, heq⟩ | ⟨-, hdouble⟩
  · cases hnull.symm.trans h
  · obtain rfl : n = m := Json.int.inj (hint.symm.trans h)
    obtain ⟨x, hx, hunits⟩ := exists_ofInt_eq hsafe
    rw [hx] at heq
    cases y with
    | finite negative z =>
      refine ⟨negative, z, rfl, ?_, hsafe⟩
      have hsize : signedUnits (n < 0) x = signedUnits negative z := by simpa [eq] using heq
      rw [← hsize, signedUnits_of_units hunits]
    | _ => cases heq
  · cases hdouble.symm.trans h

end Double

end Conformance
