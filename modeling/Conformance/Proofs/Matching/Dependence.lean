import Conformance.Proofs.Matching.Bounds
import Conformance.Proofs.Registry.History

/-!
# What a match depends on

A match looks up the names that are written in its requirement, and those that are written in the
definitions of names that it may look up. `Registry.Depends` has all of them, whether a value leads
the match there or not. Two registries that resolve these names alike match alike, so operations
that touch other names only (`Registry.Spares`) do not show (`assess_eq_of_depends`).
-/

namespace Conformance

open Matched Matching

/-! ## Names -/

namespace Requirement

mutual

def typeNames : Requirement → List String
  | predicate _ => []
  | instanceOf _ _ => []
  | type e => [e.baseName]
  | shape fields => typeNamesIn fields

def typeNamesIn : List (String × Requirement) → List String
  | [] => []
  | (_, q) :: rest => q.typeNames ++ typeNamesIn rest

end

theorem typeNames_subset_typeNamesIn {fields : Shape} {name : String} {q : Requirement}
    (h : (name, q) ∈ fields) : q.typeNames ⊆ typeNamesIn fields := by
  induction fields with
  | nil => cases h
  | cons field rest ih =>
    rw [typeNamesIn]
    rcases List.mem_cons.1 h with rfl | h
    · exact List.subset_append_left _ _
    · exact List.Subset.trans (ih h) (List.subset_append_right _ _)

end Requirement

/-- The names that are written in `q`, and those that are written in the definitions of such
names. -/
inductive Registry.Depends (r : Registry) (q : Requirement) : String → Prop
  | written {name : String} (mem : name ∈ q.typeNames) : Depends r q name
  | definition {name other : String} {d : Requirement} (reached : Depends r q name)
    (defined : r.get? name = some d) (mem : other ∈ d.typeNames) : Depends r q other

/-! ## Operations elsewhere -/

/-- The names whose definitions the operation may change. -/
def Operation.touched (r : Registry) : Operation → List String
  | register name _ => [name]
  | registerAll entries => entries.map (·.1)
  | clear => r.names
  | allowOverwriting => []

namespace Registry

variable {r r' : Registry} {P : String → Prop} {q : Requirement} {name : String}

/-- None of the operations touches a name with the property, when they are applied one after the
other. -/
def Spares (P : String → Prop) : Registry → List Operation → Prop
  | _, [] => True
  | r, op :: rest => (∀ name ∈ op.touched r, ¬ P name) ∧ Spares P (r.after [op]) rest

theorem Effect.get?_eq {op : Operation} {run : Run} (h : r.Effect op run)
    (hname : name ∉ op.touched r) : run.registry.get? name = r.get? name := by
  cases h with
  | fails => rfl
  | @defines n =>
    have hne : name ≠ n := fun hn => hname (List.mem_singleton.2 hn)
    rw [get?_insert, if_neg hne]
  | batch ends =>
    exact get?_run_registrations_of_forall_ne ends fun entry hentry hn =>
      hname (List.mem_map.2 ⟨entry, hentry, hn⟩)
  | clears =>
    rw [get?_eq_none_of_not_mem_names hname]
    rfl
  | allows => rfl

theorem Spares.get?_after {operations : List Operation} (h : r.Spares P operations)
    (hname : P name) : (r.after operations).get? name = r.get? name := by
  induction operations generalizing r with
  | nil => rfl
  | cons op rest ih =>
    obtain ⟨hop, hrest⟩ := h
    have hstep : (r.after [op]).get? name = r.get? name :=
      (r.effect_apply op).get?_eq fun htouched => hop name htouched hname
    exact (ih hrest).trans hstep

/-! ## Matches -/

theorem agreesOn_of_depends (h : ∀ name, r.Depends q name → r'.lookup name = r.lookup name) :
    r.AgreesOn r' fun p => ∀ name ∈ p.typeNames, r.Depends q name where
  element hp := hp
  field hp hf name hname := hp name (Requirement.typeNames_subset_typeNamesIn hf hname)
  definition hp hd name hname := by
    obtain ⟨n, optional, rfl, hd⟩ := definition?_eq_some_iff.1 hd
    exact .definition (hp n List.mem_cons_self) hd hname
  lookup hp := h _ (hp _ List.mem_cons_self)

theorem assess_eq_of_lookup_eq (hdepth : r'.settings.maxDepth = r.settings.maxDepth)
    (hnesting : r'.settings.maxNesting = r.settings.maxNesting)
    (h : ∀ name, r.Depends q name → r'.lookup name = r.lookup name) (v : Value) :
    r'.assess q v = r.assess q v := by
  have hagrees := (agreesOn_of_depends h).extendsOn (R := fun a b => a = b)
  exact (hagrees.assess eq_congruence eq_congruence.likeness (fun _ => rfl) hdepth hnesting
    (fun _ => .written) rfl).symm

/-- A match depends on its bounds and on what the names it may look up stand for, and on nothing
else. Operations that touch none of these names leave it as it is. -/
theorem assess_eq_of_depends (r : Registry) (q : Requirement) :
    (∀ r' : Registry, r'.settings.maxDepth = r.settings.maxDepth →
      r'.settings.maxNesting = r.settings.maxNesting →
      (∀ name, r.Depends q name → r'.lookup name = r.lookup name) →
      ∀ v, r'.assess q v = r.assess q v) ∧
      ∀ operations, r.Spares (r.Depends q) operations →
        ∀ v, (r.after operations).assess q v = r.assess q v := by
  refine ⟨fun r' hdepth hnesting h v => assess_eq_of_lookup_eq hdepth hnesting h v,
    fun operations h v => ?_⟩
  have hsettings := continues_after r operations
  exact assess_eq_of_lookup_eq hsettings.maxDepth hsettings.maxNesting
    (fun name hname => lookup_eq_of_get?_eq (h.get?_after hname)) v

theorem Depends.mem_typeNames (h : r.Depends q name)
    (hq : ∀ n ∈ q.typeNames, r.get? n = none) : name ∈ q.typeNames := by
  induction h with
  | written mem => exact mem
  | definition reached defined mem ih => cases (hq _ ih).symm.trans defined

theorem mem_of_treeTypes_depends (h : treeTypes.Depends (.type (.named "tree" false)) name) :
    name ∈ ["tree", "forest", "string"] := by
  have htree : treeTypes.get? "tree" = some (.shape
    [("children", .type (.named "forest" true)), ("label", .type (.named "string" false))]) := rfl
  have hforest : treeTypes.get? "forest" =
    some (.type (.array (.named "tree" false) false)) := rfl
  have hstring : treeTypes.get? "string" = none := rfl
  induction h with
  | written mem =>
    rw [List.mem_singleton.1 mem]
    exact List.mem_cons_self
  | @definition n other d reached defined mem ih =>
    have hn : n = "tree" ∨ n = "forest" ∨ n = "string" := by simpa using ih
    rcases hn with rfl | rfl | rfl
    · obtain rfl := Option.some.inj (htree.symm.trans defined)
      exact List.mem_cons_of_mem _ mem
    · obtain rfl := Option.some.inj (hforest.symm.trans defined)
      rw [List.mem_singleton.1 mem]
      exact List.mem_cons_self
    · cases hstring.symm.trans defined

/-- Trees are not affected by a type of twigs and another meaning of `int`, and strings not by a
`clear`. -/
theorem assess_eq_of_depends_treeTypes :
    let tree : Requirement := .type (.named "tree" false)
    let string : Requirement := .type (.named "string" false)
    let operations : List Operation := [.register "twig" (.built tree), .allowOverwriting,
      .registerAll [("int", .built tree), ("twig", .built (.shape []))]]
    (∀ v, (treeTypes.insert "int" tree).assess tree v = treeTypes.assess tree v) ∧
      (∀ v, (treeTypes.after operations).assess tree v = treeTypes.assess tree v) ∧
      ∀ v, (treeTypes.after [.clear]).assess string v = treeTypes.assess string v := by
  intro tree string operations
  obtain ⟨hsame, hspares⟩ := assess_eq_of_depends treeTypes tree
  have hint : ¬ treeTypes.Depends tree "int" :=
    fun h => absurd (mem_of_treeTypes_depends h) (by decide)
  have htwig : ¬ treeTypes.Depends tree "twig" :=
    fun h => absurd (mem_of_treeTypes_depends h) (by decide)
  refine ⟨hsame _ rfl rfl fun name hname => lookup_eq_of_get?_eq ?_, hspares operations ?_,
    (assess_eq_of_depends treeTypes string).2 [.clear] ?_⟩
  · have hne : name ≠ "int" := by
      rintro rfl
      exact hint hname
    rw [get?_insert, if_neg hne]
  · exact ⟨by simpa [Operation.touched] using htwig, nofun,
      by simp [Operation.touched, hint, htwig], trivial⟩
  · refine ⟨fun name hname hdepends => ?_, trivial⟩
    have hmem : name ∈ string.typeNames := hdepends.mem_typeNames fun n hn => by
      rw [List.mem_singleton.1 hn]
      rfl
    rw [List.mem_singleton.1 hmem] at hname
    exact absurd hname (by decide)

end Registry

end Conformance
