import Conformance.Proofs.Matching.Bounds
import Conformance.Proofs.Matching.Reach
import Conformance.Proofs.Value.Equality

/-!
# Equal values are not told apart

Equality of values is no more than a partial equivalence, since a number that is none differs from
itself. But what is equal is equal for all purposes: in the JSON form and the text, for the built-in
types, and in every match that puts no predicate to it (`eq_indiscernible`).
-/

namespace Conformance

open Matched

section Options

variable {α β : Type} {R : α → β → Prop}

theorem rel_filter {a : Option α} {b : Option β} {p : α → Bool} {q : β → Bool}
    (h : Option.Rel R a b) (hp : ∀ x y, R x y → p x = q y) :
    Option.Rel R (a.filter p) (b.filter q) := by
  cases h with
  | none => exact .none
  | @some x y hxy =>
    simp only [Option.filter, hp x y hxy]
    cases q y with
    | true => exact .some hxy
    | false => exact .none

theorem rel_lookup {xs : List (String × α)} {ys : List (String × β)}
    (h : List.Forall₂ (fun x y => x.1 = y.1 ∧ R x.2 y.2) xs ys) (name : String) :
    Option.Rel R (xs.lookup name) (ys.lookup name) := by
  induction h with
  | nil => exact .none
  | @cons x y xs ys hxy _ ih =>
    obtain ⟨hkey, hvalue⟩ := hxy
    rw [Entries.lookup_cons name x.1, Entries.lookup_cons name y.1, hkey]
    split
    · exact .some hvalue
    · exact ih

end Options

namespace Value

variable {v w : Value}

theorem looksLike_of_eq (h : v.eq w) : LooksLike (fun v w => v.eq w) v w where
  kind := kind_eq_of_eq h
  builtin := Builtin.accepts_eq_of_eq h
  items := by
    cases eq_iff.1 h with
    | array hitems => exact .some hitems
    | _ => exact .none
  present name := by
    refine rel_filter ?_ fun x y hxy => by
      rw [isUndefined_eq_kind, isUndefined_eq_kind, kind_eq_of_eq hxy]
    cases eq_iff.1 h with
    | object _ hfields => exact rel_lookup hfields name
    | _ => exact .none

theorem isInstanceOf_eq_of_eq (h : v.eq w) (c : Class) : v.isInstanceOf c = w.isInstanceOf c := by
  rw [isInstanceOf, isInstanceOf, class?_eq_of_eq h]

end Value

namespace Registry

variable {r : Registry} {q : Requirement}

theorem likeness_of_untested (h : r.Untested q) :
    Likeness (r.Reaches q) Eq fun v w => v.eq w where
  looks := Value.looksLike_of_eq
  maker _ hvw := Value.isInstanceOf_eq_of_eq hvw _
  test {p _ _ _} hp htest := by
    rw [h p hp] at htest
    cases htest
  fails {v w} kind text hvw := by
    rw [Failure.ofValue, Failure.ofValue, Value.pretty_eq_of_eq hvw]

theorem assess_eq_of_eq (h : r.Untested q) {v w : Value} (hvw : v.eq w) :
    r.assess q v = r.assess q w :=
  assess_of_likeness eq_congruence (likeness_of_untested h) (fun _ => rfl) hvw

end Registry

/-- Equality of values is symmetric and transitive, and reflexive but for the number that is none.
It compares functions, classes and dates as what they are, and takes the two zeros for one number.
No part of a check tells equal values apart, unless it asks a predicate. -/
theorem Value.eq_indiscernible :
    (∀ v w : Value, v.eq w → w.eq v) ∧ (∀ u v w : Value, u.eq v → v.eq w → u.eq w) ∧
      (∀ v : Value, v.eq v ↔ ¬ PartOf (.number .nan) v) ∧
      (∀ s t, (number (.finite s .zero)).eq (.number (.finite t .zero))) ∧
      (∀ f g, (function f).eq (.function g) ↔ f = g) ∧
      (∀ c d fields fields', (object c fields).eq (.object d fields') ↔
        c = d ∧ (object none fields).eq (.object none fields')) ∧
      (∀ s t, (date s).eq (.date t) ↔ s = t) ∧
      ∀ v w : Value, v.eq w → v.toJson = w.toJson ∧ v.pretty = w.pretty ∧
        (∀ b : Builtin, b.accepts v = b.accepts w) ∧
        ∀ (r : Registry) (q : Requirement), r.Untested q → r.assess q v = r.assess q w := by
  refine ⟨fun _ _ => eq_symm, fun _ _ _ => eq_trans, fun _ => eq_self_iff, fun s t => ?_,
    fun f g => ?_, fun c d fields fields' => ?_, fun s t => ?_, fun v w h => ?_⟩
  · exact Double.eq_iff.2 (.inr ⟨⟨s, rfl⟩, t, rfl⟩)
  · rw [Value.eq, decide_eq_true_eq]
  · simp [Value.eq]
  · rw [Value.eq, decide_eq_true_eq]
  · exact ⟨toJson_eq_of_eq h, pretty_eq_of_eq h, Builtin.accepts_eq_of_eq h,
      fun r q hq => Registry.assess_eq_of_eq hq h⟩

/-- Two trees that differ in the sign of a zero have the same wrong label, to the letter. -/
theorem Value.eq_indiscernible_zeros :
    let tree : Requirement := .type (.named "tree" false)
    let v : Value := .object none [("label", .number (.finite true .zero))]
    let w : Value := .object none [("label", .number (.finite false .zero))]
    v ≠ w ∧ v.eq w ∧ w.eq v ∧ v.toJson = w.toJson ∧ v.pretty = w.pretty ∧
      Registry.treeTypes.assess tree v = .ok (.fails ⟨.wrongPrimitiveKind .string .number,
        (Value.number (.finite false .zero)).pretty,
        (Requirement.type (.named "string" false)).display, [.field "label"]⟩) ∧
      ¬ (Value.array [w, .number .nan]).eq (.array [w, .number .nan]) := by
  intro tree v w
  obtain ⟨hsymm, -, hself, -, -, -, -, hsame⟩ := eq_indiscernible
  have hvw : v.eq w := rfl
  have hfree : Registry.treeTypes.Untested tree := Registry.untested_of_predicateFree rfl rfl
  obtain ⟨hjson, hpretty, -, hassess⟩ := hsame v w hvw
  have hwrong : Registry.treeTypes.assess tree w = .ok (.fails ⟨.wrongPrimitiveKind .string .number,
    (Value.number (.finite false .zero)).pretty,
    (Requirement.type (.named "string" false)).display, [.field "label"]⟩) := rfl
  refine ⟨by simp [v, w], hvw, hsymm v w hvw, hjson, hpretty,
    (hassess Registry.treeTypes tree hfree).trans hwrong, fun h => ?_⟩
  exact (hself _).1 h (.item (by simp) .self)

end Conformance
