import Conformance.Proofs.Double.Equality

/-!
# Whole numbers as doubles

Rounding leaves a number as it is that has no more digits than the format (`round_of_dvd`). The
whole numbers of at most 53 binary digits are of this sort, so each of them is a double
(`exists_ofInt_eq`) and has itself for its JSON form (`toJson_ofInt`).
-/

namespace Conformance

attribute [local instance (high)] instPowNat

theorem exists_unitsPerOne_eq : ∃ k : Nat, unitsPerOne = 2 ^ k ∧ k ≤ 1074 := by
  refine ⟨1074, ?_, Nat.le_of_ble_eq_true rfl⟩
  delta unitsPerOne
  exact Eq.refl _

theorem unitsPerOne_pos : 0 < unitsPerOne := by
  obtain ⟨k, hk, -⟩ := exists_unitsPerOne_eq
  rw [hk]
  exact Nat.two_pow_pos k

theorem roundDiv_mul_self (q : Nat) {den : Nat} (h : 0 < den) : roundDiv (q * den) den = q := by
  unfold roundDiv
  rw [Nat.mul_mod_left, Nat.mul_div_cancel q h, if_pos (by omega)]

theorem BinaryFormat.round_of_dvd {f : BinaryFormat} {n : Nat} (h : 2 ^ f.lastDigit n ∣ n) :
    f.round n 1 = n := by
  unfold round
  dsimp only
  rw [Nat.div_one, Nat.one_mul]
  generalize f.lastDigit n = e at *
  obtain ⟨q, rfl⟩ := h
  rw [Nat.mul_comm (2 ^ e), roundDiv_mul_self q (Nat.two_pow_pos e)]

theorem BinaryFormat.lastDigit_double (n : Nat) :
    BinaryFormat.double.lastDigit n = Magnitude.binade n :=
  Nat.zero_max _

namespace Magnitude

theorem binade_mul_two_pow_le {n : Nat} (h : n < 2 ^ (53 : Nat)) (k : Nat) :
    binade (n * 2 ^ k) ≤ k := by
  unfold binade
  by_cases hn : n * 2 ^ k = 0
  · rw [hn]
    exact Nat.zero_le k
  · have hlog : (n * 2 ^ k).log2 < 53 + k := by
      rw [Nat.log2_lt hn, Nat.pow_add]
      exact Nat.mul_lt_mul_of_pos_right h (Nat.two_pow_pos k)
    omega

theorem exists_ofUnits?_eq {n : Nat} (hfinite : binade n ≤ 2045) (hdvd : 2 ^ binade n ∣ n) :
    ∃ x, ofUnits? n = some x ∧ x.units = n :=
  ⟨_, dif_pos hfinite, Nat.div_mul_cancel hdvd⟩

end Magnitude

namespace Double

/-- A whole number of at most 53 digits is a double. -/
theorem exists_ofInt_eq {n : Int} (h : n.natAbs ≤ maxSafeInteger) :
    ∃ x, ofInt n = finite (n < 0) x ∧ x.units = n.natAbs * unitsPerOne := by
  have hlt : n.natAbs < 2 ^ (53 : Nat) := by
    unfold maxSafeInteger at h
    omega
  obtain ⟨k, hk, hle⟩ := exists_unitsPerOne_eq
  rw [hk]
  have hbinade : Magnitude.binade (n.natAbs * 2 ^ k) ≤ k := Magnitude.binade_mul_two_pow_le hlt k
  have hdvd : 2 ^ Magnitude.binade (n.natAbs * 2 ^ k) ∣ n.natAbs * 2 ^ k :=
    Nat.dvd_mul_left_of_dvd (Nat.pow_dvd_pow 2 hbinade) _
  have hround : BinaryFormat.double.round (n.natAbs * 2 ^ k) 1 = n.natAbs * 2 ^ k :=
    BinaryFormat.round_of_dvd (by rwa [BinaryFormat.lastDigit_double])
  obtain ⟨x, hx, hunits⟩ := Magnitude.exists_ofUnits?_eq (by omega) hdvd
  refine ⟨x, ?_, hunits⟩
  have hratio : ofInt n =
      ofUnits (n < 0) (BinaryFormat.double.round (n.natAbs * unitsPerOne) 1) := rfl
  rw [hratio, hk, hround]
  unfold ofUnits
  rw [hx]

theorem toJson_ofInt {n : Int} (h : n.natAbs ≤ maxSafeInteger) : (ofInt n).toJson = .int n := by
  obtain ⟨x, hx, hunits⟩ := exists_ofInt_eq h
  have hwhole : (x.units : Int) / unitsPerOne = n.natAbs := by
    rw [hunits, Int.natCast_mul, Int.mul_ediv_cancel _ (by have := unitsPerOne_pos; omega)]
  have hint : (ofInt n).toInt? = some n := by
    rw [hx, toInt?]
    simp only [hwhole, decide_eq_true_eq, Option.some.injEq]
    split <;> omega
  have hintegral : (ofInt n).isIntegral := by
    rw [hx, isIntegral, isMultipleOf, hunits, Nat.one_mul, Nat.mul_mod_left]
    rfl
  have hfinite : (ofInt n).isFinite := by
    rw [hx]
    rfl
  simp [toJson, hfinite, hint, hintegral, h]

theorem ofInt_eq_of_isIntegral {x : Double} {n : Int} (hn : x.toInt? = some n)
    (hintegral : x.isIntegral) (h : n.natAbs ≤ maxSafeInteger) : (ofInt n).eq x := by
  obtain ⟨y, hy, hunits⟩ := exists_ofInt_eq h
  cases x with
  | finite s m =>
    have hdvd : unitsPerOne ∣ m.units := by
      simp only [isIntegral, isMultipleOf, Nat.one_mul, beq_iff_eq] at hintegral
      exact Nat.dvd_of_mod_eq_zero hintegral
    obtain ⟨q, hq⟩ := hdvd
    have hwhole : (m.units : Int) / unitsPerOne = q := by
      rw [hq, Int.natCast_mul, Int.mul_ediv_cancel_left _ (by have := unitsPerOne_pos; omega)]
    simp only [toInt?, hwhole, Option.some.injEq] at hn
    have habs : n.natAbs = q := by
      subst hn
      split <;> omega
    obtain rfl : y = m := Magnitude.units_injective (by rw [hunits, hq, habs, Nat.mul_comm])
    rw [hy, eq, beq_iff_eq, signedUnits_eq_iff]
    -- The signs agree, unless the number is zero.
    by_cases hzero : q = 0
    · subst hzero
      obtain rfl := Magnitude.units_eq_zero_iff.1 (hq.trans (Nat.mul_zero _))
      exact .inr ⟨rfl, rfl⟩
    · refine .inl ⟨?_, rfl⟩
      cases s <;> simp at hn ⊢ <;> omega
  | _ => cases hn

theorem toJson_cases (x : Double) :
    (x.isFinite = false ∧ x.toJson = .null) ∨
      (∃ n, x.toJson = .int n ∧ n.natAbs ≤ maxSafeInteger ∧ (ofInt n).eq x) ∨
      x.isFinite = true ∧ x.toJson = .double x := by
  cases x with
  | finite s m =>
    refine .inr ?_
    obtain ⟨n, hn⟩ : ∃ n, (finite s m).toInt? = some n := ⟨_, rfl⟩
    by_cases h : (finite s m).isIntegral ∧ n.natAbs ≤ maxSafeInteger
    · exact .inl ⟨n, by simp [toJson, isFinite, hn, h], h.2, ofInt_eq_of_isIntegral hn h.1 h.2⟩
    · exact .inr ⟨rfl, by simpa [toJson, isFinite, hn] using h⟩
  | _ => exact .inl ⟨rfl, rfl⟩

end Double

end Conformance
