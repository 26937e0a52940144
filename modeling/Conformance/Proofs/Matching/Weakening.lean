import Conformance.Proofs.Matching.Bounds
import Conformance.Proofs.Matching.Loosening

/-!
# Weaker requirements

A requirement is weakened by markers on types in it and by leaving declared fields out, and a
registry by weakening its definitions. Weakening is a loosening: what conforms then still conforms,
within the same bounds (`assess_of_weakensTo`).
-/

namespace Conformance

open Matched Matching

/-- The same type, perhaps with further markers on it or inside it. -/
inductive TypeExpr.WeakensTo : TypeExpr → TypeExpr → Prop
  | named {name : String} {optional optional' : Bool} (marker : optional → optional') :
    WeakensTo (.named name optional) (.named name optional')
  | array {e e' : TypeExpr} {optional optional' : Bool} (element : WeakensTo e e')
    (marker : optional → optional') : WeakensTo (.array e optional) (.array e' optional')

mutual

/-- The requirement with further markers on its types and without some of its declared fields. -/
inductive Requirement.WeakensTo : Requirement → Requirement → Prop
  | predicate {p : Predicate} : Requirement.WeakensTo (.predicate p) (.predicate p)
  | instanceOf {c : Class} {fallback : Option Predicate} :
    Requirement.WeakensTo (.instanceOf c fallback) (.instanceOf c fallback)
  | type {e e' : TypeExpr} (h : e.WeakensTo e') : Requirement.WeakensTo (.type e) (.type e')
  | shape {fields fields' : Shape} (h : Shape.WeakensTo fields fields') :
    Requirement.WeakensTo (.shape fields) (.shape fields')

/-- Each declared field is weakened or left out. -/
inductive Shape.WeakensTo : Shape → Shape → Prop
  | nil : Shape.WeakensTo [] []
  | drop {fields fields' : Shape} {name : String} {q : Requirement}
    (rest : Shape.WeakensTo fields fields') : Shape.WeakensTo ((name, q) :: fields) fields'
  | keep {fields fields' : Shape} {name : String} {q q' : Requirement}
    (head : Requirement.WeakensTo q q') (rest : Shape.WeakensTo fields fields') :
    Shape.WeakensTo ((name, q) :: fields) ((name, q') :: fields')

end

/-- Each definition of `r` is weakened in `r'`. The bounds are the same. -/
structure Registry.WeakensTo (r r' : Registry) : Prop where
  maxDepth : r'.settings.maxDepth = r.settings.maxDepth
  maxNesting : r'.settings.maxNesting = r.settings.maxNesting
  types (name : String) : Option.Rel Requirement.WeakensTo (r.get? name) (r'.get? name)

/-! ## Requirements -/

theorem Shape.WeakensTo.exists_mem {fields fields' : Shape} (h : fields.WeakensTo fields')
    {name : String} {q' : Requirement} (hf : (name, q') ∈ fields') :
    ∃ q, (name, q) ∈ fields ∧ q.WeakensTo q' := by
  induction fields generalizing fields' with
  | nil =>
    cases h
    cases hf
  | cons field fields ih =>
    cases h with
    | drop rest =>
      obtain ⟨q, hq, hweak⟩ := ih rest hf
      exact ⟨q, List.mem_cons_of_mem _ hq, hweak⟩
    | @keep _ fields' _ q _ head rest =>
      rcases List.mem_cons.1 hf with heq | hf
      · cases heq
        exact ⟨q, List.mem_cons_self, head⟩
      · obtain ⟨q, hq, hweak⟩ := ih rest hf
        exact ⟨q, List.mem_cons_of_mem _ hq, hweak⟩

/-- A weaker type is looked into only where the stronger one is, and a weaker shape asks for fewer
fields. -/
theorem Requirement.WeakensTo.looserBy {q q' : Requirement} (h : q.WeakensTo q') :
    q.LooserBy Requirement.WeakensTo q' := by
  cases h with
  | predicate => exact .predicate
  | instanceOf => exact .instanceOf
  | type h =>
    cases h with
    | named marker => exact .named marker
    | array element marker => exact .array (.type element) marker
  | shape h => exact .shape fun _ _ => h.exists_mem

namespace Registry

variable {r r' : Registry}

theorem WeakensTo.pointwise (h : r.WeakensTo r') : Pointwise Requirement.WeakensTo r r' :=
  ⟨h.maxDepth, h.maxNesting, h.types⟩

theorem WeakensTo.loosening (h : r.WeakensTo r') : Loosening Requirement.WeakensTo r r' :=
  ⟨h.pointwise, Requirement.WeakensTo.looserBy⟩

theorem WeakensTo.insert (h : r.WeakensTo r') (name : String) {q q' : Requirement}
    (hq : q.WeakensTo q') : (r.insert name q).WeakensTo (r'.insert name q') where
  maxDepth := h.maxDepth
  maxNesting := h.maxNesting
  types := (h.pointwise.insert name hq).types

theorem weakensTo_withSettings (settings : Settings) :
    (withSettings settings).WeakensTo (withSettings settings) :=
  ⟨rfl, rfl, fun _ => .none⟩

end Registry

theorem Matching.matchWithin_of_weakensTo {r r' : Registry} (hr : r.WeakensTo r') {nesting : Nat}
    {q q' : Requirement} (hq : q.WeakensTo q') {v : Value}
    (h : matchWithin r nesting q v = .ok .conforms) :
    matchWithin r' nesting q' v = .ok .conforms :=
  matchWithin_of_loosening hr.loosening hq h

/-- Weakening the requirement and the registered definitions never rejects more. -/
theorem Registry.assess_of_weakensTo {r r' : Registry} (hr : r.WeakensTo r') {q q' : Requirement}
    (hq : q.WeakensTo q') {v : Value} (h : r.assess q v = .ok .conforms) :
    r'.assess q' v = .ok .conforms := by
  rw [assess, hr.maxNesting]
  exact matchWithin_of_weakensTo hr hq h

/-- A grove without an owner: its trees need no label, and in a forest a tree may be undefined. -/
theorem Registry.assess_of_weakensTo_groves :
    let weak := ((withSettings {}).insert "forest"
      (.type (.array (.named "tree" true) false))).insert "tree"
        (.shape [("children", .type (.named "forest" true))])
    let grove : Requirement := .shape [("owner", .type (.named "string" false)),
      ("trees", .type (.named "forest" false))]
    let weakGrove : Requirement := .shape [("trees", .type (.named "forest" true))]
    let tree : Value := .object none [("label", .string "oak"), ("children", .array [])]
    let v : Value := .object none [("owner", .string "the parish"), ("trees", .array [tree, tree])]
    let bare : Value := .object none [("trees", .array [.undefined, .object none []])]
    weak.assess weakGrove v = .ok .conforms ∧ weak.assess weakGrove bare = .ok .conforms ∧
      treeTypes.assess grove bare =
        .ok (.fails ⟨.missingField "owner", bare.pretty, grove.display, []⟩) := by
  intro weak grove weakGrove tree v bare
  have hforest : Requirement.WeakensTo (.type (.array (.named "tree" false) false))
      (.type (.array (.named "tree" true) false)) := .type (.array (.named nofun) id)
  have htree : Requirement.WeakensTo
      (.shape [("children", .type (.named "forest" true)),
        ("label", .type (.named "string" false))])
      (.shape [("children", .type (.named "forest" true))]) :=
    .shape (.keep (.type (.named id)) (.drop .nil))
  have hweak : treeTypes.WeakensTo weak :=
    ((weakensTo_withSettings {}).insert "forest" hforest).insert "tree" htree
  have hgrove : grove.WeakensTo weakGrove := .shape (.drop (.keep (.type (.named nofun)) .nil))
  exact ⟨assess_of_weakensTo hweak hgrove rfl, rfl, rfl⟩

end Conformance
