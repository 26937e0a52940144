import Conformance.Proofs.Matching.Bounds

/-!
# New definitions

A registry is extended by definitions of names that stood for nothing in it. They may be come upon
from old definitions, as names are resolved when a value is matched, but only where the match would
have ended for want of them. So a value that conforms still conforms, and every other answer stands
too unless it is one that may rest on an unknown name (`assess_of_extendsTo`).
-/

namespace Conformance

open Matched Matching

namespace Matched

variable {a b : Matched}

theorem Provisional.within (h : a.Provisional) (s : PathSegment) : (a.within s).Provisional := by
  cases h with
  | unknownType kind => exact .unknownType kind
  | missingField kind => exact .missingField kind
  | unknownElement => exact .unknownElement

theorem not_provisional_conforms : ¬ Provisional (.ok .conforms) := nofun

def Stands (a b : Matched) : Prop := a.Provisional ∨ b = a

theorem stands_congruence : Congruence Stands :=
  eq_congruence.flip.unless (fun h => by rw [h]) not_provisional_conforms fun s _ h => h.within s

theorem frees_stands : Frees Stands := fun _ _ h => .inl h

theorem Stands.eq (h : Stands a b) (ha : ¬ a.Provisional) : b = a := h.resolve_left ha

end Matched

namespace Registry

/-- `r'` has the definitions of `r` and, beside them, only definitions of names that stand for
nothing in `r`. The bounds are the same. -/
structure ExtendsTo (r r' : Registry) : Prop where
  maxDepth : r'.settings.maxDepth = r.settings.maxDepth
  maxNesting : r'.settings.maxNesting = r.settings.maxNesting
  kept {name : String} {q : Requirement} : r.get? name = some q → r'.get? name = some q
  added {name : String} {q : Requirement} :
    r'.get? name = some q → r.get? name = some q ∨ r.lookup name = none

variable {r r' : Registry}

theorem ExtendsTo.lookup_eq (h : r.ExtendsTo r') {name : String} (hl : r.lookup name ≠ none) :
    r'.lookup name = r.lookup name := by
  refine lookup_eq_of_get?_eq (Option.ext fun q => ⟨fun hq => ?_, h.kept⟩)
  exact (h.added hq).resolve_right hl

theorem ExtendsTo.extendsOn (h : r.ExtendsTo r') {R : Matched → Matched → Prop} (hR : Frees R) :
    r.ExtendsOn r' (fun _ => True) R where
  element _ := trivial
  field _ _ := trivial
  definition _ _ := trivial
  lookup {name _} _ := by
    by_cases hl : r.lookup name = none
    · exact .inr ⟨hl, hR⟩
    · exact .inl (h.lookup_eq hl)

theorem extendsTo_insert {name : String} (h : r.lookup name = none) (q : Requirement) :
    r.ExtendsTo (r.insert name q) where
  maxDepth := rfl
  maxNesting := rfl
  kept {n d} hn := by
    have hne : n ≠ name := by
      rintro rfl
      cases h.symm.trans (lookup_eq_user_iff.2 hn)
    rw [get?_insert, if_neg hne, hn]
  added {n d} hn := by
    rw [get?_insert] at hn
    split at hn
    · next heq => exact .inr (heq ▸ h)
    · exact .inl hn

/-- New definitions never break a check that passes, and they change no other answer than a failure
for want of a type or of a field and an error about an unknown element type. -/
theorem assess_of_extendsTo (h : r.ExtendsTo r') (q : Requirement) (v : Value) :
    (r.assess q v = .ok .conforms → r'.assess q v = .ok .conforms) ∧
      (¬ (r.assess q v).Provisional → r'.assess q v = r.assess q v) := by
  have hstands : Stands (r.assess q v) (r'.assess q v) :=
    (h.extendsOn frees_stands).assess stands_congruence stands_congruence.likeness
      (fun _ => .inr rfl) h.maxDepth h.maxNesting trivial rfl
  refine ⟨fun hconforms => ?_, hstands.eq⟩
  rw [hconforms] at hstands
  exact hstands.eq not_provisional_conforms

/-- With a definition of `twig` an empty list of twigs still conforms and a label is still wrong,
while a list of twigs can be checked at last, and a twig may be absent. -/
theorem assess_of_extendsTo_twigs :
    let r := treeTypes.insert "twig" (.type (.named "tree" true))
    let twigs : Requirement := .shape [("label", .type (.named "string" false)),
      ("twigs", .type (.array (.named "twig" false) false))]
    let bare : Value := .object none [("label", .string "oak"), ("twigs", .array [])]
    let wrong : Value := .object none [("label", .null), ("twigs", .array [.null])]
    let grown : Value := .object none [("label", .string "oak"), ("twigs", .array [bare])]
    r.assess twigs bare = .ok .conforms ∧ r.assess twigs wrong = treeTypes.assess twigs wrong ∧
      Provisional (treeTypes.assess twigs grown) ∧ r.assess twigs grown = .ok .conforms ∧
      Provisional (treeTypes.assess (.shape [("twig", .type (.named "twig" false))]) bare) ∧
      r.assess (.shape [("twig", .type (.named "twig" false))]) bare = .ok .conforms := by
  intro r twigs bare wrong grown
  have hextends : treeTypes.ExtendsTo r := extendsTo_insert rfl _
  have hbare : treeTypes.assess twigs bare = .ok .conforms := rfl
  have hwrong : treeTypes.assess twigs wrong = .ok (.fails ⟨.wrongPrimitiveKind .string .object,
    Value.null.pretty, (Requirement.type (.named "string" false)).display, [.field "label"]⟩) := rfl
  refine ⟨(assess_of_extendsTo hextends twigs bare).1 hbare,
    (assess_of_extendsTo hextends twigs wrong).2 ?_, .unknownElement, rfl, .missingField rfl, rfl⟩
  rw [hwrong]
  intro h
  cases h with
  | unknownType kind => cases kind
  | missingField kind => cases kind

end Registry

end Conformance
