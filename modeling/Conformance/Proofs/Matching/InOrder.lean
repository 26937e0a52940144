import Conformance.Proofs.Matching.Bounds

/-!
# Level by level, in order

The result for a container is made of the results that its parts have on their own, with one level
less to go: the first part that does not conform decides, whatever comes after it
(`assess_decidedInOrder`).
-/

namespace Conformance

open Matched Matching

namespace Matched

/-- The result, with another limit in the report that a value is nested too deep. -/
def withLimit (limit : Nat) : Matched → Matched
  | .error (.nestingExceeded _) => .error (.nestingExceeded limit)
  | result => result

theorem withLimit_of_not_withheld (limit : Nat) {a : Matched} (h : a.withheld = false) :
    a.withLimit limit = a := by
  rcases a with e | o
  · cases e with
    | nestingExceeded n => cases h
    | _ => rfl
  · rfl

theorem withLimit_congruence (limit : Nat) : Congruence fun a b => b = a.withLimit limit where
  same h := (withLimit_of_not_withheld limit h).symm
  within s {a b} h := by
    subst h
    rcases a with e | o
    · cases e <;> rfl
    · rfl
  andThen {a b a' b'} h h' := by
    subst h h'
    rcases a with e | _ | f
    · cases e <;> rfl
    · rfl
    · rfl

/-- All parts conform and so does the whole, or the first part that does not is what the whole
comes to. -/
structure DecidedInOrder (whole : Matched) (parts : List Matched) : Prop where
  conforms : whole = .ok .conforms ↔ ∀ part ∈ parts, part = .ok .conforms
  problem {i : Nat} (hi : i < parts.length) (hp : parts[i] ≠ .ok .conforms)
    (before : ∀ j, (hj : j < i) → parts[j] = .ok .conforms) : whole = parts[i]

theorem first_decidedInOrder (parts : List Matched) : DecidedInOrder (first parts) parts where
  conforms := first_eq_conforms_iff
  problem {i} hi hp before := by
    have hbefore : ∀ part ∈ parts.take i, part = .ok .conforms := by
      intro part hpart
      obtain ⟨j, hj, rfl⟩ := List.mem_take_iff_getElem.1 hpart
      exact before j (by omega)
    calc first parts = first (parts.take i ++ parts[i] :: parts.drop (i + 1)) := by
          rw [List.getElem_cons_drop, List.take_append_drop]
      _ = parts[i] := first_append hbefore hp

end Matched

namespace Matching

variable {r : Registry}

theorem matchWithin_withBounds (depth limit limit' nesting : Nat) (q : Requirement) (v : Value) :
    matchWithin (r.withBounds depth limit') nesting q v =
      (matchWithin (r.withBounds depth limit) nesting q v).withLimit limit' := by
  have htypes : (r.withBounds depth limit').types = (r.withBounds depth limit).types := rfl
  have hsame := Registry.agreesOn_of_types htypes
  exact matchWithin_congr (withLimit_congruence limit') hsame.extendsOn
    (withLimit_congruence limit').likeness 0 0 rfl (fun _ _ _ => rfl) (fun _ _ _ _ => rfl)
    (fun _ _ => rfl) nesting trivial rfl

/-- What a part yields on its own, with one level less to go. -/
def partResult (r : Registry) (depth nesting : Nat) (q : Requirement) (v : Value) : Matched :=
  ((r.withBounds depth nesting).assess q v).withLimit (nesting + 1)

theorem matchWithin_eq_partResult (depth nesting : Nat) :
    matchWithin (r.withBounds depth (nesting + 1)) (nesting + 1) = partResult r depth nesting := by
  funext q v
  exact matchWithin_withBounds depth nesting (nesting + 1) (nesting + 1) q v

end Matching

/-- Items and fields are matched on their own, with one level less to go, and the first of them that
does not conform decides. -/
theorem Registry.assess_decidedInOrder (r : Registry) (depth nesting : Nat) :
    (∀ element optional items,
      (∀ name marker, element = .named name marker → r.knows name) →
      DecidedInOrder
        ((r.withBounds depth (nesting + 1)).assess (.type (.array element optional)) (.array items))
        (items.mapIdx fun i item =>
          (partResult r depth nesting (.type element) item).within (.index i))) ∧
    (∀ fields v, v ≠ .null → v.kind = .object →
      DecidedInOrder ((r.withBounds depth (nesting + 1)).assess (.shape fields) v)
        (fields.map (fieldResult (partResult r depth nesting)
          (admitsAbsence (r.withBounds depth (nesting + 1)) (depth + 1)) (.shape fields) v))) := by
  constructor
  · intro element optional items hk
    have hk' : Resolvable (r.withBounds depth (nesting + 1)) element := hk
    have hassess : (r.withBounds depth (nesting + 1)).assess (.type (.array element optional))
        (.array items) = _ := matchLevel_array (by rintro ⟨_, h⟩; cases h) _ depth
    rw [hassess, matchArray_eq_first hk', ← matchWithin_eq_partResult]
    exact first_decidedInOrder _
  · intro fields v hnull hkind
    have hassess : (r.withBounds depth (nesting + 1)).assess (.shape fields) v = _ :=
      matchShape_eq_first ⟨hnull, hkind⟩ _ _ fields
    rw [hassess, ← matchWithin_eq_partResult]
    exact first_decidedInOrder _

/-- Of two items that are no trees the first decides, and a missing label is not come to. -/
theorem Registry.assess_decidedInOrder_treeTypes :
    let r := treeTypes.withBounds 1 3
    let trees : TypeExpr := .array (.named "tree" false) false
    let fields : Shape := [("children", .type trees), ("label", .type (.named "string" false))]
    let leaf : Value := .object none [("label", .string "leaf")]
    let f : Failure :=
      .ofValue .nullValue .null (Requirement.shape
        [("children", .type (.named "forest" true)), ("label", .type (.named "string" false))]).display
    r.assess (.type trees) (.array [leaf, .null, .bool true]) = .ok (.fails (f.within (.index 1))) ∧
      r.assess (.shape fields) (.object none [("children", .array [.null])]) =
        .ok (.fails ((f.within (.index 0)).within (.field "children"))) := by
  intro r trees fields leaf f
  have hknown : ∀ name marker, TypeExpr.named "tree" false = .named name marker →
      treeTypes.knows name := by
    intro name marker h
    cases h
    rfl
  obtain ⟨hitems, hfields⟩ := assess_decidedInOrder treeTypes 1 2
  constructor
  · have hpart : (partResult treeTypes 1 2 (.type (.named "tree" false)) .null).within (.index 1) =
        .ok (.fails (f.within (.index 1))) := rfl
    refine ((hitems _ false [leaf, .null, .bool true] hknown).problem (i := 1) (by decide) ?_
      ?_).trans hpart
    · intro h
      cases hpart.symm.trans h
    · intro j hj
      obtain rfl : j = 0 := by omega
      rfl
  · have hpart : (partResult treeTypes 1 2 (.type trees) (.array [.null])).within
        (.field "children") = .ok (.fails ((f.within (.index 0)).within (.field "children"))) := rfl
    have hv : Value.object none [("children", .array [.null])] ≠ .null := nofun
    refine ((hfields fields _ hv rfl).problem (i := 0) (by decide) ?_ ?_).trans hpart
    · intro h
      cases hpart.symm.trans h
    · intro j hj
      omega

end Conformance
