import Conformance.Proofs.Matching.Walk

/-!
# Errors and their reasons

A match gives an error instead of an outcome for one of three reasons: the value is nested deeper
than the bound, the walk came to a non-empty array whose element type stands for nothing, or it
resolved more names in a row than the bound allows (`assess_error_justified`).
-/

namespace Conformance

open Matched Matching

/-- No part of the value lies more than `n` items and fields below it. -/
def Value.NestedWithin (v : Value) (n : Nat) : Prop :=
  ∀ path w, v.follow? path = some w → path.length ≤ n

namespace Registry

variable {r : Registry} {q : Requirement} {v : Value} {e : ConfigurationError}

/-- The reason for an error, by its sort. The names of the last one are those that the walk resolved
since its last step into the value, those for an absent field after those that led to its shape. -/
inductive Justified (r : Registry) (q : Requirement) (v : Value) : ConfigurationError → Prop
  | nesting {path : List PathSegment} {w : Value} (place : v.follow? path = some w)
    (deep : r.settings.maxNesting < path.length) :
    Justified r q v (.nestingExceeded r.settings.maxNesting)
  | element {t : Trail} {name : String} {marker optional : Bool} {items : List Value} {d : Depth}
    (reached : Walk r (start q v) t (.array (.named name marker) optional (.array items) d))
    (place : v.follow? t.path = some (.array items)) (nonempty : items ≠ [])
    (unknown : r.lookup name = none) :
    Justified r q v (.unknownElementType name (.array (.named name marker) optional))
  | depth {t : Trail} {c : Call} (reached : Walk r (start q v) t c)
    (many : r.settings.maxDepth < t.names.length)
    (registered : ∀ name ∈ t.names, (r.get? name).isSome) :
    Justified r q v (.depthExceeded r.settings.maxDepth)

/-- Every error has its reason, and a value that is nested within the bound is never reported to be
nested too deep. -/
theorem assess_error_justified (h : r.assess q v = .error e) :
    r.Justified q v e ∧
      (v.NestedWithin r.settings.maxNesting → ∀ limit, e ≠ .nestingExceeded limit) := by
  obtain ⟨t, c, hwalk, horigin⟩ := assess_eq_error_iff.1 h
  obtain ⟨w, hplace, habout⟩ := hwalk.exists_follow?_eq
  have hdepth := hwalk.depth_eq
  cases horigin with
  | depth spent =>
    rw [hdepth] at spent
    exact ⟨.depth hwalk spent hwalk.isSome_get?, fun _ _ => nofun⟩
  | nesting steps spent =>
    rw [hdepth] at spent
    exact ⟨.nesting hplace spent, fun hv => absurd (hv _ _ hplace) (Nat.not_le.2 spent)⟩
  | element unknown nonempty =>
    obtain rfl : _ = w := habout
    exact ⟨.element hwalk hplace nonempty unknown, fun _ _ => nofun⟩

/-- The tree is in order, and the walk comes to twigs, which nothing is known about. -/
theorem assess_error_justified_treeTypes :
    let twigs : TypeExpr := .array (.named "twig" false) true
    let q : Requirement := .shape [("tree", .type (.named "tree" false)), ("twigs", .type twigs)]
    let v : Value := .object none
      [("tree", .object none [("label", .string "oak")]), ("twigs", .array [.null])]
    treeTypes.assess q v = .error (.unknownElementType "twig" twigs) ∧
      treeTypes.lookup "twig" = none ∧ ∃ t items d,
        Walk treeTypes (start q v) t (.array (.named "twig" false) true (.array items) d) ∧
        v.follow? t.path = some (.array items) ∧ items ≠ [] := by
  intro twigs q v
  have h : treeTypes.assess q v = .error (.unknownElementType "twig" twigs) := rfl
  obtain ⟨hjustified, -⟩ := assess_error_justified h
  dsimp only [twigs] at hjustified
  cases hjustified with
  | element reached place nonempty unknown =>
    exact ⟨h, unknown, _, _, _, reached, place, nonempty⟩

end Registry

end Conformance
