import Conformance.Proofs.Matching.Cycles

/-!
# Fields that a shape does not declare

A shape looks at the fields that it declares and at nothing else in an object. Two objects that
agree on these fields, as present values, are told apart by no match against the shape
(`assess_shape_of_agreeing`): whatever the other fields hold, and however deep, shows in nothing but
the text of the whole object, which a failure at the root has in it.
-/

namespace Conformance

open Matched Matching

/-- The failures have the same reason and place, and below the root they are the same, with the text
of the value. -/
structure Failure.SameBelowRoot (f g : Failure) : Prop where
  kind : f.kind = g.kind
  requirement : f.requirement = g.requirement
  path : f.path = g.path
  below : f.path ≠ [] → f = g

theorem Failure.SameBelowRoot.refl (f : Failure) : f.SameBelowRoot f := ⟨rfl, rfl, rfl, fun _ => rfl⟩

theorem Failure.sameBelowRoot_ofValue (kind : FailureKind) (v w : Value) (requirement : String) :
    (ofValue kind v requirement).SameBelowRoot (ofValue kind w requirement) :=
  ⟨rfl, rfl, rfl, fun h => absurd rfl h⟩

theorem Matched.eq_of_sameBelowRoot {f : Failure} {b : Matched}
    (h : AlikeBy Failure.SameBelowRoot (.ok (.fails f)) b) (hpath : f.path ≠ []) :
    b = .ok (.fails f) := by
  cases h with
  | fails h => rw [h.below hpath]

namespace Matching

variable {r : Registry} {fields declared : Shape} {v w : Value} {name : String}

/-- A field that is present is matched as it is, and one that is absent fails at the root. -/
theorem fieldAtRoot_alike (h : v.present? name = w.present? name) (required : Requirement) :
    AlikeBy Failure.SameBelowRoot (fieldAtRoot r declared v (name, required))
      (fieldAtRoot r declared w (name, required)) := by
  unfold fieldAtRoot
  cases hw : w.present? name with
  | some x =>
    rw [fieldResult_of_present (h.trans hw), fieldResult_of_present hw]
    exact .refl .refl _
  | none =>
    rw [fieldResult_of_absent (h.trans hw), fieldResult_of_absent hw, absenceResult, absenceResult]
    rcases admitsAbsence r (r.settings.maxDepth + 1) required with e | _ | _
    · exact .error
    · exact .fails (Failure.sameBelowRoot_ofValue _ v w _)
    · exact .conforms

end Matching

/-- Objects that agree on the declared fields are matched alike: they conform, or they fail for the
same reason at the same place, or the match stops at the same error; and a failure below the root is
the same to the letter. A field that holds `undefined` counts as missing. -/
theorem Registry.assess_shape_of_agreeing (r : Registry) (fields : Shape) (maker : Option Class)
    {xs ys : List (String × Value)}
    (h : ∀ name ∈ fields.names,
      (Value.object maker xs).present? name = (Value.object maker ys).present? name) :
    AlikeBy Failure.SameBelowRoot (r.assess (.shape fields) (.object maker xs))
      (r.assess (.shape fields) (.object maker ys)) := by
  rw [assess_shape_eq_first (structured_object maker xs),
    assess_shape_eq_first (structured_object maker ys)]
  refine first_rel .conforms .andThen ?_
  rw [List.forall₂_map_left_iff, List.forall₂_map_right_iff]
  refine List.forall₂_same.2 fun (name, required) hfield => fieldAtRoot_alike (h name ?_) required
  exact List.mem_map_of_mem hfield

/-- The declared children are the same in both trees, and the failure in them is. What stands in the
other fields, a note or a list, is not looked at. Without its label a tree fails at the root, where
its text is shown with all its fields. -/
theorem Registry.assess_shape_of_agreeing_treeTypes :
    let label : Requirement := .predicate ⟨some "text", fun v => .ofBool (v.kind == .string)⟩
    let tree : Shape := [("children", .type (.named "forest" true)), ("label", label)]
    let maker : Option Class := some (.root 0 "Tree")
    let children : Value := .array [.null]
    let v : Value := .object maker [("children", children), ("label", .null), ("note", .undefined)]
    let w : Value := .object maker [("children", children), ("label", .null), ("list", children)]
    let bare : Value := .object none [("label", .undefined), ("note", .null)]
    (∀ name ∈ tree.names, v.present? name = w.present? name) ∧
      (∃ f, f.path = [.field "children", .index 0] ∧
        treeTypes.assess (.shape tree) v = .ok (.fails f) ∧
        treeTypes.assess (.shape tree) w = .ok (.fails f)) ∧
      (∃ f, f.kind = .missingField "label" ∧ f.path = [] ∧
        treeTypes.assess (.shape tree) bare = .ok (.fails f)) ∧
      AlikeBy Failure.SameBelowRoot (treeTypes.assess (.shape tree) bare)
        (treeTypes.assess (.shape tree) (.object none [])) := by
  intro label tree maker children v w bare
  have hagree : ∀ name ∈ tree.names, v.present? name = w.present? name := by
    intro name hname
    rcases List.mem_pair.1 hname with rfl | rfl <;> rfl
  have hbare : ∀ name ∈ tree.names, bare.present? name = (Value.object none []).present? name := by
    intro name hname
    rcases List.mem_pair.1 hname with rfl | rfl <;> rfl
  have halike := assess_shape_of_agreeing treeTypes tree maker hagree
  exact ⟨hagree, ⟨_, rfl, rfl, eq_of_sameBelowRoot halike nofun⟩, ⟨_, rfl, rfl, rfl⟩,
    assess_shape_of_agreeing treeTypes tree none hbare⟩

end Conformance
