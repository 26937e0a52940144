import Conformance.Proofs.Matching.Bounds

/-!
# What a failure rests on

A failure names a place in the value, and shows the part found there with the requirement that the
part does not meet. `Blame` tells how one level comes to a failure. Following the path of a failure
leads to a part that the same registry finds wrong on its own, for the same reason
(`failure_reproducible`).
-/

namespace Conformance

open Matched Matching

/-! ## Places -/

namespace Value

def step? (v : Value) : PathSegment → Option Value
  | .index i => v.items?.bind (·[i]?)
  | .field name => v.present? name

/-- The part of a value that a path leads to. -/
def follow? (v : Value) : List PathSegment → Option Value
  | [] => some v
  | s :: rest => (v.step? s).bind (·.follow? rest)

theorem follow?_cons {v w : Value} {s : PathSegment} (h : v.step? s = some w)
    (path : List PathSegment) : v.follow? (s :: path) = w.follow? path := by
  simp only [follow?, h, Option.bind_some]

end Value

/-! ## Requirements that a match comes upon -/

/-- The requirement is `q`, or one of an item or a field that `q` demands. -/
inductive Requirement.OccursIn (p : Requirement) : Requirement → Prop
  | self : OccursIn p p
  | element {e : TypeExpr} {optional : Bool} (h : OccursIn p (.type e)) :
    OccursIn p (.type (.array e optional))
  | field {fields : Shape} {name : String} {q : Requirement} (declared : (name, q) ∈ fields)
    (h : OccursIn p q) : OccursIn p (.shape fields)

theorem Requirement.OccursIn.trans {p q s : Requirement} (h : p.OccursIn q) (h' : q.OccursIn s) :
    p.OccursIn s := by
  induction h' with
  | self => exact h
  | element _ ih => exact .element ih
  | field declared _ ih => exact .field declared ih

def Registry.Mentions (r : Registry) (q p : Requirement) : Prop :=
  p.OccursIn q ∨ ∃ name d, r.get? name = some d ∧ p.OccursIn d

theorem Registry.Mentions.mono {r : Registry} {q q' p : Requirement} (h : r.Mentions q p)
    (hq : p.OccursIn q → p.OccursIn q') : r.Mentions q' p := by
  rcases h with h | h
  · exact .inl (hq h)
  · exact .inr h

theorem Registry.Mentions.part {r : Registry} {q s p : Requirement} (h : r.Mentions q s)
    (hp : p.OccursIn s) : r.Mentions q p := by
  rcases h with h | ⟨name, d, hd, h⟩
  · exact .inl (hp.trans h)
  · exact .inr ⟨name, d, hd, hp.trans h⟩

theorem Registry.Mentions.of_definition {r : Registry} {name : String} {d p : Requirement}
    (hd : r.get? name = some d) (h : r.Mentions d p) (q : Requirement) : r.Mentions q p := by
  rcases h with h | h
  · exact .inr ⟨name, d, hd, h⟩
  · exact .inr h

namespace Matching

variable {r : Registry} {deeper : Deeper} {q : Requirement} {v : Value} {f : Failure}

/-! ## One level -/

/-- How a level comes to a failure: at the value itself, by the definition of a name, or in an item
or a field. -/
inductive Blame (r : Registry) (deeper : Deeper) :
    Nat → Requirement → Value → Failure → Prop
  | root {steps : Nat} {q : Requirement} {v : Value} (kind : FailureKind) :
    Blame r deeper steps q v (.ofValue kind v q.display)
  | definition {steps : Nat} {name : String} {optional : Bool} {d : Requirement} {v : Value}
    {f : Failure} (resolved : r.get? name = some d)
    (fails : matchLevel r deeper steps d v = .ok (.fails f)) :
    Blame r deeper (steps + 1) (.type (.named name optional)) v f
  | part {steps : Nat} {q q' : Requirement} {v w : Value} {s : PathSegment} {f : Failure}
    (occurs : ∀ p : Requirement, p.OccursIn q' → p.OccursIn q) (place : v.step? s = some w)
    (fails : deeper q' w = .ok (.fails f)) : Blame r deeper steps q v (f.within s)

theorem exists_kind_of_testedBy {p : Predicate} (h : testedBy q p v = .fails f) :
    ∃ kind, f = .ofValue kind v q.display := by
  unfold testedBy at h
  cases ht : p.test v with
  | pass => rw [ht] at h; cases h
  | fail => rw [ht] at h; cases h; exact ⟨_, rfl⟩
  | error text => rw [ht] at h; cases h; exact ⟨_, rfl⟩

theorem exists_kind_of_matchInstance {c : Class} {fallback : Option Predicate}
    (h : matchInstance c fallback v = .fails f) :
    ∃ kind, f = .ofValue kind v (Requirement.instanceOf c fallback).display := by
  unfold matchInstance at h
  cases hv : v.isInstanceOf c with
  | true => simp only [hv, ↓reduceIte] at h; cases h
  | false =>
    simp only [hv, Bool.false_eq_true, ↓reduceIte] at h
    cases fallback with
    | none => cases h; exact ⟨_, rfl⟩
    | some p => exact exists_kind_of_testedBy h

theorem eq_of_rootCheck {accepted : Bool} {kind : FailureKind}
    (h : rootCheck accepted kind q v = .fails f) : f = .ofValue kind v q.display := by
  unfold rootCheck at h
  cases accepted with
  | true => cases h
  | false => cases h; rfl

theorem blame_of_matchArray {steps : Nat} {element : TypeExpr} {optional : Bool}
    (h : matchArray r deeper element optional v = .ok (.fails f)) :
    Blame r deeper steps (.type (.array element optional)) v f := by
  cases v with
  | array items =>
    by_cases hk : Resolvable r element
    · rw [matchArray_eq_first hk] at h
      obtain ⟨i, hi, hpart⟩ := List.mem_mapIdx.1 (mem_of_first_eq h nofun)
      obtain ⟨g, hg, rfl⟩ := within_eq_fails_iff.1 hpart
      exact .part (fun p hp => .element hp) (List.getElem?_eq_getElem hi) hg
    · cases items with
      | nil => cases h
      | cons w rest =>
        rw [matchArray_of_not_resolvable hk _ _ (List.cons_ne_nil _ _)] at h
        cases h
  | _ =>
    rw [matchArray_of_not_array rfl] at h
    cases h
    exact .root _

theorem blame_of_matchShape {steps : Nat} {fields : Shape}
    {absent : Requirement → Except ConfigurationError Bool}
    (h : matchShape deeper absent fields v = .ok (.fails f)) :
    Blame r deeper steps (.shape fields) v f := by
  by_cases hv : Structured v
  · rw [matchShape_eq_first hv] at h
    obtain ⟨⟨name, required⟩, hf, hpart⟩ := List.mem_map.1 (mem_of_first_eq h nofun)
    cases hp : v.present? name with
    | some w =>
      rw [fieldResult_of_present hp] at hpart
      obtain ⟨g, hg, rfl⟩ := within_eq_fails_iff.1 hpart
      exact .part (fun p hocc => .field hf hocc) hp hg
    | none =>
      rw [fieldResult_of_absent hp, absenceResult] at hpart
      rcases ha : absent required with e | _ | _
      · rw [ha] at hpart; cases hpart
      · rw [ha] at hpart; cases hpart; exact .root _
      · rw [ha] at hpart; cases hpart
  · obtain ⟨kind, hkind⟩ := matchShape_of_not_structured hv
    rw [hkind] at h
    cases h
    exact .root _

theorem blame_of_matchLevel {steps : Nat}
    (h : matchLevel r deeper steps q v = .ok (.fails f)) : Blame r deeper steps q v f := by
  cases steps with
  | zero => cases h
  | succ steps =>
    cases q with
    | predicate p =>
      obtain ⟨kind, rfl⟩ := exists_kind_of_testedBy (Except.ok.inj h)
      exact .root kind
    | instanceOf c fallback =>
      obtain ⟨kind, rfl⟩ := exists_kind_of_matchInstance (Except.ok.inj h)
      exact .root kind
    | shape fields => exact blame_of_matchShape h
    | type e =>
      by_cases hw : Waives e v
      · rw [matchLevel_of_waives hw] at h
        cases h
      · cases e with
        | array element optional =>
          rw [matchLevel_array hw] at h
          exact blame_of_matchArray h
        | named name optional =>
          cases hl : r.lookup name with
          | none =>
            rw [matchLevel_unknown hl hw] at h
            cases h
            exact .root _
          | some target =>
            cases target with
            | user d =>
              rw [matchLevel_user hl hw] at h
              exact .definition (Registry.lookup_eq_user_iff.1 hl) h
            | builtin b =>
              rw [matchLevel_builtin hl hw] at h
              rw [eq_of_rootCheck (Except.ok.inj h)]
              exact .root _
            | primitive k =>
              rw [matchLevel_primitive hl hw] at h
              rw [eq_of_rootCheck (Except.ok.inj h)]
              exact .root _

/-! ## All levels -/

/-- The path of the failure leads to a part that, matched on its own against a requirement at hand,
fails in the same way. -/
def Reproducible (r : Registry) (q : Requirement) (v : Value) (f : Failure) : Prop :=
  ∃ w p, v.follow? f.path = some w ∧ f.value = w.pretty ∧ r.Mentions q p ∧
    f.requirement = p.display ∧ r.assess p w = .ok (.fails { f with path := [] })

theorem Reproducible.root {kind : FailureKind}
    (h : r.assess q v = .ok (.fails (.ofValue kind v q.display))) :
    Reproducible r q v (.ofValue kind v q.display) :=
  ⟨v, q, rfl, rfl, .inl .self, rfl, h⟩

theorem Reproducible.definition {name : String} {d : Requirement} (hd : r.get? name = some d)
    (h : Reproducible r d v f) (q : Requirement) : Reproducible r q v f := by
  obtain ⟨w, p, hw, hvalue, hp, hrest⟩ := h
  exact ⟨w, p, hw, hvalue, hp.of_definition hd q, hrest⟩

theorem Reproducible.within {q' : Requirement} {w : Value} {s : PathSegment}
    (h : Reproducible r q' w f) (hs : v.step? s = some w)
    (hq : ∀ p : Requirement, p.OccursIn q' → p.OccursIn q) : Reproducible r q v (f.within s) := by
  obtain ⟨u, p, hu, hvalue, hp, hrest⟩ := h
  refine ⟨u, p, ?_, hvalue, hp.mono (hq p), hrest⟩
  show v.follow? (s :: f.path) = some u
  rw [Value.follow?_cons hs, hu]

/-- A failure at the value itself is found again with all the bounds of the registry. -/
theorem assess_eq_of_matchLevel {steps nesting : Nat} (hn : nesting ≤ r.settings.maxNesting)
    (hs : steps ≤ r.settings.maxDepth + 1)
    (h : matchLevel r (matchWithin r nesting) steps q v = .ok (.fails f)) :
    r.assess q v = .ok (.fails f) := by
  have hsettles := settles_matchLevel rfl (Nat.le_refl r.settings.maxDepth) hn hs q v
  exact (hsettles.eq (by rw [h]; rfl)).trans h

theorem reproducible_of_matchLevel {steps nesting : Nat} (hn : nesting ≤ r.settings.maxNesting)
    (hdeep : ∀ q v f, matchWithin r nesting q v = .ok (.fails f) → Reproducible r q v f)
    (hs : steps ≤ r.settings.maxDepth + 1)
    (h : matchLevel r (matchWithin r nesting) steps q v = .ok (.fails f)) :
    Reproducible r q v f := by
  induction steps generalizing q with
  | zero => cases h
  | succ steps ih =>
    cases blame_of_matchLevel h with
    | root kind => exact .root (assess_eq_of_matchLevel hn hs h)
    | definition resolved fails => exact (ih (by omega) fails).definition resolved _
    | part occurs place fails => exact (hdeep _ _ _ fails).within place occurs

theorem reproducible_of_matchWithin {nesting : Nat} (hn : nesting ≤ r.settings.maxNesting + 1)
    (h : matchWithin r nesting q v = .ok (.fails f)) : Reproducible r q v f := by
  induction nesting generalizing q v f with
  | zero => cases h
  | succ nesting ih =>
    refine reproducible_of_matchLevel (by omega) (fun q v f => ?_) (Nat.le_refl _) h
    exact ih (by omega)

end Matching

/-- Following the path of a failure leads to a part that fails on its own in the same way, with the
texts of that part and of a requirement at hand. -/
theorem Registry.failure_reproducible {r : Registry} {q : Requirement} {v : Value} {f : Failure}
    (h : r.assess q v = .ok (.fails f)) :
    ∃ w p, v.follow? f.path = some w ∧ f.value = w.pretty ∧ r.Mentions q p ∧
      f.requirement = p.display ∧ r.assess p w = .ok (.fails { f with path := [] }) :=
  reproducible_of_matchWithin (Nat.le_refl _) h

theorem Registry.failure_reproducible_treeTypes :
    let q : Requirement := .type (.named "tree" false)
    let v : Value := .object none
      [("children", .array [.object none [("label", .string "left")],
          .object none [("label", .null)]]),
        ("label", .string "root")]
    let f : Failure := ⟨.wrongPrimitiveKind .string .object, Value.null.pretty,
      (Requirement.type (.named "string" false)).display,
      [.field "children", .index 1, .field "label"]⟩
    treeTypes.assess q v = .ok (.fails f) ∧
      ∃ w p, v.follow? f.path = some w ∧ f.value = w.pretty ∧ treeTypes.Mentions q p ∧
        f.requirement = p.display ∧ treeTypes.assess p w = .ok (.fails { f with path := [] }) := by
  intro q v f
  have h : treeTypes.assess q v = .ok (.fails f) := rfl
  exact ⟨h, failure_reproducible h⟩

end Conformance
