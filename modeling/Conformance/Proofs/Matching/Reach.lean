import Conformance.Proofs.Matching.Congruence

/-!
# Requirements within reach

From a requirement a match may come to the element types and fields in it, and to the definitions
of names, whatever the value is. A relation between values that these requirements do not see
through relates the results as well (`assess_of_likeness`). Most of what a match asks of a value
is fixed; only a predicate is free to look at all of it, so the requirements of interest are those
from which none is within reach (`Registry.Untested`).
-/

namespace Conformance

open Matched

namespace Requirement

mutual

def predicateFree : Requirement → Bool
  | predicate _ => false
  | instanceOf _ fallback => fallback.isNone
  | type _ => true
  | shape fields => predicateFreeIn fields

def predicateFreeIn : List (String × Requirement) → Bool
  | [] => true
  | (_, q) :: rest => q.predicateFree && predicateFreeIn rest

end

theorem predicate?_eq_none {q : Requirement} (h : q.predicateFree) : q.predicate? = none := by
  cases q with
  | predicate p => cases h
  | instanceOf c fallback => exact Option.isNone_iff_eq_none.1 h
  | _ => rfl

theorem predicateFree_of_mem {fields : Shape} (h : (shape fields).predicateFree) {name : String}
    {q : Requirement} (hf : (name, q) ∈ fields) : q.predicateFree := by
  rw [predicateFree] at h
  induction fields with
  | nil => cases hf
  | cons field rest ih =>
    rw [predicateFreeIn, Bool.and_eq_true] at h
    rcases List.mem_cons.1 hf with rfl | hf
    · exact h.1
    · exact ih h.2 hf

end Requirement

namespace Registry

/-- The requirements that a match against `q` may come to. -/
inductive Reaches (r : Registry) (q : Requirement) : Requirement → Prop
  | self : Reaches r q q
  | element {e : TypeExpr} {optional : Bool} (h : Reaches r q (.type (.array e optional))) :
    Reaches r q (.type e)
  | field {fields : Shape} {name : String} {p : Requirement} (h : Reaches r q (.shape fields))
    (declared : (name, p) ∈ fields) : Reaches r q p
  | definition {p d : Requirement} (h : Reaches r q p) (resolved : r.definition? p = some d) :
    Reaches r q d

def Untested (r : Registry) (q : Requirement) : Prop :=
  ∀ p, r.Reaches q p → p.predicate? = none

variable {r : Registry} {q p : Requirement} {S : Requirement → Prop}

theorem agreesOn_reaches (r : Registry) (q : Requirement) : r.AgreesOn r (r.Reaches q) where
  element := .element
  field := .field
  definition := .definition
  lookup _ := rfl

theorem Reaches.closed (h : r.Reaches q p) (hS : r.AgreesOn r S) (hq : S q) : S p := by
  induction h with
  | self => exact hq
  | element _ ih => exact hS.element ih
  | field _ declared ih => exact hS.field ih declared
  | definition _ resolved ih => exact hS.definition ih resolved

theorem untested_of_predicateFree (hq : q.predicateFree)
    (hr : r.types.all fun entry => entry.2.predicateFree) : r.Untested q := by
  have hclosed : r.AgreesOn r fun p => p.predicateFree :=
    { element := fun _ => rfl
      field := fun hq hf => Requirement.predicateFree_of_mem hq hf
      definition := fun _ hd => by
        obtain ⟨name, optional, rfl, hd⟩ := definition?_eq_some_iff.1 hd
        obtain ⟨before, after, htypes, -⟩ := List.lookup_eq_some_iff.1 hd
        exact List.all_eq_true.1 hr (name, _) (by rw [htypes]; simp)
      lookup := fun _ => rfl }
  exact fun p hp => Requirement.predicate?_eq_none (hp.closed hclosed hq)

/-- Values that the requirements within reach do not tell apart have related results. -/
theorem assess_of_likeness {R : Matched → Matched → Prop} {V : Value → Value → Prop}
    (hR : Congruence R) (hV : Likeness (r.Reaches q) R V)
    (herror : ∀ e : ConfigurationError, R (.error e) (.error e)) {v w : Value} (h : V v w) :
    R (r.assess q v) (r.assess q w) :=
  (agreesOn_reaches r q).extendsOn.assess hR hV herror rfl rfl .self h

end Registry

end Conformance
