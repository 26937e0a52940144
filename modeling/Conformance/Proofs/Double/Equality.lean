import Conformance.Value.Json

/-!
# Equality of numbers

Numbers are compared by their size, and a size is the size of one magnitude (`units_injective`). So
numbers that are equal are the same, or they are the two zeros, and what does not tell the two zeros
apart does not tell equal numbers apart (`congr_of_eq`).
-/

namespace Conformance

attribute [local instance (high)] instPowNat

/-- One digit more, and the exponent one less. -/
theorem two_pow_carry (k : Nat) :
    2 ^ (52 : Nat) * 2 ^ (k + 1) = 2 ^ (53 : Nat) * 2 ^ k := by
  rw [← Nat.pow_add, ← Nat.pow_add]
  congr 1
  omega

namespace Magnitude

variable {x y : Magnitude}

/-- A greater exponent comes with a full significand, and so with more units. -/
theorem units_lt_of_exponent_lt (h : x.exponent < y.exponent) : x.units < y.units := by
  have hfull : 2 ^ (52 : Nat) ≤ y.significand := by
    rcases y.full with hzero | hfull
    · omega
    · exact hfull
  calc x.units < 2 ^ (53 : Nat) * 2 ^ x.exponent :=
        Nat.mul_lt_mul_of_pos_right x.significand_lt (Nat.two_pow_pos _)
    _ = 2 ^ (52 : Nat) * 2 ^ (x.exponent + 1) := (two_pow_carry _).symm
    _ ≤ y.significand * 2 ^ y.exponent :=
        Nat.mul_le_mul hfull (Nat.pow_le_pow_right (by decide) h)

theorem units_injective (h : x.units = y.units) : x = y := by
  rcases Nat.lt_trichotomy x.exponent y.exponent with hlt | heq | hlt
  · have := units_lt_of_exponent_lt hlt
    omega
  · have hs : x.significand = y.significand := by
      unfold units at h
      rw [heq] at h
      exact Nat.eq_of_mul_eq_mul_right (Nat.two_pow_pos _) h
    cases x
    cases y
    cases hs
    cases heq
    rfl
  · have := units_lt_of_exponent_lt hlt
    omega

theorem units_zero : zero.units = 0 := rfl

theorem units_eq_zero_iff : x.units = 0 ↔ x = zero :=
  ⟨fun h => units_injective (h.trans units_zero.symm), fun h => h ▸ units_zero⟩

end Magnitude

namespace Double

variable {x y z : Double}

def IsZero (x : Double) : Prop := ∃ negative, x = finite negative .zero

theorem signedUnits_zero (negative : Bool) : signedUnits negative .zero = 0 := by
  cases negative <;> rfl

theorem signedUnits_eq_iff {s t : Bool} {m n : Magnitude} :
    signedUnits s m = signedUnits t n ↔ s = t ∧ m = n ∨ m = .zero ∧ n = .zero := by
  constructor
  · intro h
    unfold signedUnits at h
    by_cases hst : s = t
    · subst hst
      refine .inl ⟨rfl, Magnitude.units_injective ?_⟩
      split at h <;> omega
    · refine .inr ⟨Magnitude.units_eq_zero_iff.1 ?_, Magnitude.units_eq_zero_iff.1 ?_⟩ <;>
        cases s <;> cases t <;> simp at h hst <;> omega
  · rintro (⟨rfl, rfl⟩ | ⟨rfl, rfl⟩)
    · rfl
    · rw [signedUnits_zero, signedUnits_zero]

theorem eq_iff : x.eq y ↔ x = y ∧ x ≠ nan ∨ x.IsZero ∧ y.IsZero := by
  cases x with
  | nan => cases y <;> simp [eq, IsZero]
  | infinite s => cases y <;> simp [eq, IsZero]
  | finite s m =>
    cases y with
    | finite t n =>
      simp only [eq, beq_iff_eq, signedUnits_eq_iff, IsZero, finite.injEq, ne_eq, reduceCtorEq,
        not_false_eq_true, and_true, exists_eq_left']
    | _ => simp [eq, IsZero]

theorem eq_self_iff : x.eq x ↔ x ≠ nan := by
  rw [eq_iff]
  constructor
  · rintro (⟨-, h⟩ | ⟨⟨s, rfl⟩, -⟩)
    · exact h
    · nofun
  · exact fun h => .inl ⟨rfl, h⟩

theorem eq_symm (h : x.eq y) : y.eq x := by
  rw [eq_iff] at h ⊢
  rcases h with ⟨rfl, h⟩ | ⟨hx, hy⟩
  · exact .inl ⟨rfl, h⟩
  · exact .inr ⟨hy, hx⟩

theorem eq_trans (h : x.eq y) (h' : y.eq z) : x.eq z := by
  rcases eq_iff.1 h with ⟨rfl, -⟩ | ⟨hx, hy⟩
  · exact h'
  · rcases eq_iff.1 h' with ⟨rfl, -⟩ | ⟨-, hz⟩
    · exact h
    · exact eq_iff.2 (.inr ⟨hx, hz⟩)

theorem congr_of_eq {α : Type} {f : Double → α}
    (hzero : f (finite true .zero) = f (finite false .zero)) (h : x.eq y) : f x = f y := by
  have hf : ∀ x : Double, x.IsZero → f x = f (finite false .zero) := by
    rintro _ ⟨_ | _, rfl⟩
    · rfl
    · exact hzero
  rcases eq_iff.1 h with ⟨rfl, -⟩ | ⟨hx, hy⟩
  · rfl
  · rw [hf x hx, hf y hy]

/-! ## The two zeros -/

theorem isIntegral_zero (negative : Bool) : (finite negative .zero).isIntegral := by
  simp [isIntegral, isMultipleOf, Magnitude.units_zero]

theorem toInt?_zero (negative : Bool) : (finite negative .zero).toInt? = some 0 := by
  have hwhole : (Magnitude.zero.units : Int) / unitsPerOne = 0 := by
    rw [Magnitude.units_zero]
    exact Int.zero_ediv _
  simp only [toInt?, hwhole, Int.neg_zero, ite_self]

theorem toJson_zero (negative : Bool) : (finite negative .zero).toJson = .int 0 := by
  simp [toJson, isFinite, toInt?_zero, isIntegral_zero]

theorem toJson_eq_of_eq (h : x.eq y) : x.toJson = y.toJson :=
  congr_of_eq (by rw [toJson_zero, toJson_zero]) h

theorem isIntegral_eq_of_eq (h : x.eq y) : x.isIntegral = y.isIntegral :=
  congr_of_eq (by rw [isIntegral_zero, isIntegral_zero]) h

theorem isNonnegative_eq_of_eq (h : x.eq y) : x.isNonnegative = y.isNonnegative :=
  congr_of_eq rfl h

end Double

end Conformance
