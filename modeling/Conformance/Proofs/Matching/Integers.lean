import Conformance.Proofs.Double.Nearest
import Conformance.Proofs.Matching.Level

/-!
# Integers as values

The number that stands for a machine integer is the nearest double, and a whole number of the same
sign, whatever rounding does to it. So it belongs to the types of its integer, and it is told from
an integer in JSON exactly where doubles no longer tell it from its neighbours (`ofInt_survives`).
-/

namespace Conformance

open Matching

attribute [local instance (high)] instPowNat

namespace Registry

variable {settings : Settings} {v : Value}

theorem assess_builtin (b : Builtin) :
    (withSettings settings).assess (.type (.named b.name false)) v = .ok .conforms ↔
      b.accepts v := by
  have hnone : (withSettings settings).get? b.name = none := rfl
  have hlookup : (withSettings settings).lookup b.name = some (.builtin b) := by
    simp only [lookup, hnone, Builtin.ofName?_name]
  have hwaives : ¬ Waives (.named b.name false) v := by rintro ⟨⟨⟩, -⟩
  show matchLevel _ _ _ _ _ = _ ↔ _
  rw [matchLevel_builtin hlookup hwaives, Except.ok.injEq, rootCheck_eq_conforms_iff]

theorem assess_kind {k : Kind} (hk : Builtin.ofName? k.name = none) :
    (withSettings settings).assess (.type (.named k.name false)) v = .ok .conforms ↔
      v.kind = k := by
  have hnone : (withSettings settings).get? k.name = none := rfl
  have hlookup : (withSettings settings).lookup k.name = some (.primitive k) := by
    simp only [lookup, hnone, hk, Kind.ofName?_name, Option.map_some]
  have hwaives : ¬ Waives (.named k.name false) v := by rintro ⟨⟨⟩, -⟩
  show matchLevel _ _ _ _ _ = _ ↔ _
  rw [matchLevel_primitive hlookup hwaives, Except.ok.injEq, rootCheck_eq_conforms_iff, beq_iff_eq]

end Registry

namespace Double

/-- An integer of 64 bits, with a sign or without, becomes the nearest double, with an even last
digit if two are as near. Where no type is registered it is an `int`, a `number`, and a `posInt`
exactly if it is not negative. Its JSON form is the integer itself up to `2 ^ 53 - 1`, and beyond
that the double. No number at all has an integer for its JSON form that it is not equal to, or that
a signed integer of 64 bits cannot hold. -/
theorem ofInt_survives {n : Int} (hlow : Int64.minValue.toInt ≤ n) (hhigh : n < UInt64.size) :
    (∃ x, ofInt n = finite (n < 0) x ∧ x.IsNearest (n.natAbs * unitsPerOne)) ∧
      (∀ settings, let r := Registry.withSettings settings
        r.assess (.type (.named "int" false)) (.number (ofInt n)) = .ok .conforms ∧
        r.assess (.type (.named "number" false)) (.number (ofInt n)) = .ok .conforms ∧
        (r.assess (.type (.named "posInt" false)) (.number (ofInt n)) = .ok .conforms ↔ 0 ≤ n)) ∧
      (n.natAbs ≤ 2 ^ (53 : Nat) - 1 → (Value.number (ofInt n)).toJson = some (.int n)) ∧
      (2 ^ (53 : Nat) - 1 < n.natAbs →
        (Value.number (ofInt n)).toJson = some (.double (ofInt n))) ∧
      ∀ (y : Double) (m : Int), y.toJson = .int m →
        (∃ negative x, y = finite negative x ∧ signedUnits negative x = m * unitsPerOne) ∧
          Int64.minValue.toInt ≤ m ∧ m ≤ Int64.maxValue.toInt := by
  have hmin : Int64.minValue.toInt = -9223372036854775808 := rfl
  have hmax : Int64.maxValue.toInt = 9223372036854775807 := rfl
  have hsize : UInt64.size = 18446744073709551616 := rfl
  obtain ⟨x, w, hx, hnearest, hw⟩ := exists_ofInt_isNearest (n := n) (by omega)
  have hintegral : (ofInt n).isIntegral := hx ▸ isIntegral_of_units hw
  refine ⟨⟨x, hx, hnearest⟩, fun settings => ⟨?_, ?_, ?_⟩, fun hsafe => ?_, fun hunsafe => ?_,
    fun y m hm => ?_⟩
  · exact (Registry.assess_builtin .int).2 hintegral
  · exact (Registry.assess_kind (k := .number) rfl).2 rfl
  · have haccepts : Builtin.posInt.accepts (.number (ofInt n)) = (ofInt n).isNonnegative := by
      show ((ofInt n).isIntegral && (ofInt n).isNonnegative) = _
      rw [hintegral, Bool.true_and]
    rw [← isNonnegative_ofInt hx hnearest, ← haccepts]
    exact Registry.assess_builtin .posInt
  · exact congrArg some (toJson_ofInt hsafe)
  · refine congrArg some ?_
    have hlarge : ¬ w ≤ maxSafeInteger :=
      Nat.not_le.2 (maxSafeInteger_lt_of_isNearest hunsafe hnearest hw)
    rw [hx, toJson_of_units hw, if_neg hlarge]
  · obtain ⟨negative, z, hy, hunits, hbound⟩ := units_of_toJson_eq_int hm
    have hsafe : maxSafeInteger = 9007199254740991 := rfl
    exact ⟨⟨negative, z, hy, hunits⟩, by omega, by omega⟩

/-- The least integer that is not a double lies half-way between two, and goes to the even one. -/
theorem ofInt_survives_tie :
    (Registry.withSettings {}).assess (.type (.named "posInt" false))
        (.number (ofInt 9007199254740993)) = .ok .conforms ∧
      (Value.number (ofInt 9007199254740993)).toJson =
        some (.double (ofInt 9007199254740993)) ∧
      ofInt 9007199254740993 = ofInt 9007199254740992 := by
  have hlow : Int64.minValue.toInt ≤ 9007199254740993 := by decide
  obtain ⟨-, hconforms, -, hlarge, -⟩ := ofInt_survives hlow (by decide)
  exact ⟨(hconforms {}).2.2.2 (by decide), hlarge (by decide), by decide +kernel⟩

end Double

end Conformance
