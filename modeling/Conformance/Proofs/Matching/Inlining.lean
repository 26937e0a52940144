import Conformance.Proofs.Matching.Aliases
import Conformance.Proofs.Registry.History

/-!
# Names and definitions

A registered name means its definition. Where a requirement is such a name, or a shape requires it
of a field, the definition may be written in its place (`Registry.Inlines`): what a match yields is
the same, except that the text of a shape in its failures has changed (`Alike`). The definition
takes one name less to resolve, so the match by name may meet the bound on names in a row where the
other does not (`UpToDepth`).
-/

namespace Conformance

open Matched Matching

/-- A registered name in `q` is replaced by its definition, at the root or in a field, perhaps of a
shape in a shape. -/
inductive Registry.Inlines (r : Registry) : Requirement → Requirement → Prop
  | name {m : String} {d : Requirement} (defined : r.get? m = some d) :
    Inlines r (.type (.named m false)) d
  | field {before after : Shape} {name : String} {q q' : Requirement} (inlines : Inlines r q q') :
    Inlines r (.shape (before ++ (name, q) :: after)) (.shape (before ++ (name, q') :: after))

namespace Matched

/-- The same conformance, or failures of the same kind with the same value and path, or the same
error. -/
inductive Alike : Matched → Matched → Prop
  | conforms : Alike (.ok .conforms) (.ok .conforms)
  | fails {f g : Failure} (kind : f.kind = g.kind) (value : f.value = g.value)
    (path : f.path = g.path) : Alike (.ok (.fails f)) (.ok (.fails g))
  | error {e : ConfigurationError} : Alike (.error e) (.error e)

theorem Alike.refl : ∀ a : Matched, Alike a a
  | .ok .conforms => .conforms
  | .ok (.fails _) => .fails rfl rfl rfl
  | .error _ => .error

theorem Alike.conforms_iff {a b : Matched} (h : Alike a b) :
    a = .ok .conforms ↔ b = .ok .conforms := by
  cases h <;> simp

theorem alike_eq_alikeBy :
    Alike = AlikeBy fun f g => f.kind = g.kind ∧ f.value = g.value ∧ f.path = g.path := by
  ext a b
  constructor
  · rintro (_ | ⟨kind, value, path⟩ | _)
    exacts [.conforms, .fails ⟨kind, value, path⟩, .error]
  · rintro (_ | ⟨kind, value, path⟩ | _)
    exacts [.conforms, .fails kind value path, .error]

theorem alike_congruence : Congruence Alike := by
  rw [alike_eq_alikeBy]
  exact alikeBy_congruence (fun _ => ⟨rfl, rfl, rfl⟩) fun s _ _ ⟨kind, value, path⟩ =>
    ⟨kind, value, congrArg (s :: ·) path⟩

/-- The results are related, unless the first is that the bound on names in a row was met. -/
def UpToDepth (limit : Nat) (R : Matched → Matched → Prop) (a b : Matched) : Prop :=
  a = .error (.depthExceeded limit) ∨ R a b

variable {a b c : Matched} {R : Matched → Matched → Prop} {limit : Nat}

theorem Congruence.upToDepth (hR : Congruence R)
    (hconforms : ∀ {a b : Matched}, R a b → (a = .ok .conforms ↔ b = .ok .conforms)) :
    Congruence (UpToDepth limit R) :=
  hR.unless hconforms nofun fun s _ h => by rw [h, within_error]

theorem eq_congruence_upToDepth : Congruence (UpToDepth limit Eq) :=
  eq_congruence.upToDepth fun h => by rw [h]

theorem UpToDepth.alike (h : UpToDepth limit Eq a b) (h' : Alike b c) :
    UpToDepth limit Alike a c := by
  rcases h with h | rfl
  · exact .inl h
  · exact .inr h'

end Matched

namespace Matching

variable {r : Registry} {m : String} {d q q' : Requirement}

/-! ## One name less -/

theorem matchLevel_of_get? (hd : r.get? m = some d) (deeper : Deeper) (steps : Nat) (v : Value) :
    UpToDepth r.settings.maxDepth Eq
      (matchLevel r deeper (steps + 1) (.type (.named m false)) v)
      (matchLevel r deeper (steps + 1) d v) := by
  have hmarker : ¬ Waives (.named m false) v := fun h => nomatch h.1
  rw [matchLevel_user (Registry.lookup_eq_user_iff.2 hd) hmarker]
  -- What remains is the definition against itself, with one more name to resolve on the right.
  refine matchLevel_congr eq_congruence_upToDepth (Registry.agreesOn_of_types rfl).extendsOn
    eq_congruence_upToDepth.likeness ?_ (fun _ _ => .inl rfl) (fun _ _ _ _ => .inl rfl) steps
    trivial rfl
  rintro q v _ - rfl
  exact .inr rfl

theorem absenceResult_of_get? (hd : r.get? m = some d) (steps : Nat) (s : Requirement) (v : Value)
    (name : String) :
    UpToDepth r.settings.maxDepth Eq
      (absenceResult (admitsAbsence r (steps + 1)) s v name (.type (.named m false)))
      (absenceResult (admitsAbsence r (steps + 1)) s v name d) := by
  have hname : admitsAbsence r (steps + 1) (.type (.named m false)) = admitsAbsence r steps d := by
    rw [admitsAbsence_succ]
    simp only [Registry.definition?, hd]
    rfl
  have hstep : absenceResult (admitsAbsence r (steps + 1)) s v name (.type (.named m false)) =
      absenceResult (admitsAbsence r steps) s v name d := by
    unfold absenceResult
    rw [hname]
  rw [hstep]
  exact absenceResult_congr eq_congruence_upToDepth (Registry.agreesOn_of_types rfl).extendsOn
    eq_congruence_upToDepth.likeness rfl (fun _ => .inl rfl) steps trivial

/-! ## In a shape -/

theorem absenceResult_alike (absent : Requirement → Except ConfigurationError Bool)
    (s s' : Requirement) (v : Value) (name : String) (required : Requirement) :
    Alike (absenceResult absent s v name required) (absenceResult absent s' v name required) := by
  unfold absenceResult
  rcases absent required with e | _ | _
  · exact .error
  · exact .fails rfl rfl rfl
  · exact .conforms

theorem fieldResult_alike (deeper : Deeper) (absent : Requirement → Except ConfigurationError Bool)
    (s s' : Requirement) (v : Value) (field : String × Requirement) :
    Alike (fieldResult deeper absent s v field) (fieldResult deeper absent s' v field) := by
  obtain ⟨name, required⟩ := field
  cases hp : v.present? name with
  | some w =>
    rw [fieldResult_of_present hp, fieldResult_of_present hp]
    exact .refl _
  | none =>
    rw [fieldResult_of_absent hp, fieldResult_of_absent hp]
    exact absenceResult_alike absent s s' v name required

theorem absenceResult_of_inlines (h : r.Inlines q q') (steps : Nat) (s s' : Requirement) (v : Value)
    (name : String) :
    UpToDepth r.settings.maxDepth Alike (absenceResult (admitsAbsence r (steps + 1)) s v name q)
      (absenceResult (admitsAbsence r (steps + 1)) s' v name q') := by
  cases h with
  | name defined =>
    exact (absenceResult_of_get? defined steps s v name).alike
      (absenceResult_alike _ s s' v name q')
  | field =>
    -- Neither shape may be absent.
    exact .inr (.fails rfl rfl rfl)

theorem matchWithin_of_inlines (h : r.Inlines q q') (nesting : Nat) (v : Value) :
    UpToDepth r.settings.maxDepth Alike (matchWithin r nesting q v)
      (matchWithin r nesting q' v) := by
  have hR : Congruence (UpToDepth r.settings.maxDepth Alike) :=
    alike_congruence.upToDepth Alike.conforms_iff
  induction h generalizing nesting v with
  | name defined =>
    cases nesting with
    | zero => exact .inr .error
    | succ nesting => exact (matchLevel_of_get? defined _ _ v).alike (.refl _)
  | @field before after name q q' inlines ih =>
    cases nesting with
    | zero => exact .inr .error
    | succ nesting =>
      -- The fields around the one at hand.
      have hother (fields : Shape) (s s' : Requirement) : List.Forall₂
          (fun field field' => UpToDepth r.settings.maxDepth Alike
            (fieldResult (matchWithin r nesting) (admitsAbsence r (r.settings.maxDepth + 1)) s v
              field)
            (fieldResult (matchWithin r nesting) (admitsAbsence r (r.settings.maxDepth + 1)) s' v
              field')) fields fields :=
        List.forall₂_same.2 fun field _ => .inr (fieldResult_alike _ _ s s' v field)
      refine matchShape_congr hR v.looksLike_refl (fun kind => .inr (.fails rfl rfl rfl))
        (List.rel_append (hother before _ _) (.cons ?_ (hother after _ _)))
      cases hp : v.present? name with
      | some w =>
        rw [fieldResult_of_present hp, fieldResult_of_present hp]
        exact hR.within _ (ih nesting w)
      | none =>
        rw [fieldResult_of_absent hp, fieldResult_of_absent hp]
        exact absenceResult_of_inlines inlines _ _ _ v name

end Matching

namespace Registry

variable {r : Registry} {m : String} {d : Requirement}

theorem WellKept.parse_eq_ok (h : r.WellKept) (hd : r.get? m = some d) :
    Requirement.parse m = .ok (.type (.named m false)) := by
  have hm : m ∈ r.names := mem_names_iff.2 (by rw [hd]; rfl)
  rw [Requirement.parse, TypeExpr.parse_of_isTypeName (h.typeName m hm)]

/-- A registered name, which as a text is read as the type of that name, means its definition: by
itself up to the bound on names in a row, and in a shape also up to the text of the shape. -/
theorem assess_definition (r : Registry) :
    (∀ m d, r.get? m = some d →
      (r.WellKept → Requirement.parse m = .ok (.type (.named m false))) ∧
      ∀ v, r.assess (.type (.named m false)) v = .error (.depthExceeded r.settings.maxDepth) ∨
        r.assess (.type (.named m false)) v = r.assess d v) ∧
      ∀ q q', r.Inlines q q' → ∀ v,
        r.assess q v = .error (.depthExceeded r.settings.maxDepth) ∨
          Alike (r.assess q v) (r.assess q' v) := by
  refine ⟨fun m d hd => ⟨fun hr => hr.parse_eq_ok hd, fun v => ?_⟩, fun q q' h v => ?_⟩
  · exact matchLevel_of_get? hd _ _ v
  · exact matchWithin_of_inlines h _ v

/-- The head of a list of nodes, required by name and in place, is wrong, missing and undefined. The
last two lines are the exception: with room for two names the name of a link meets the bound. -/
theorem assess_definition_linkTypes :
    let node : Requirement := .type (.named "node" false)
    let body : Requirement := .shape [("next", .type (.named "link" false))]
    let empty : Value := .object none []
    let wrong : Value := .object none [("head", .object none [("next", .null)])]
    let unset : Value := .object none [("head", .undefined)]
    Requirement.parse "node" = .ok node ∧
      linkTypes.assess node empty = linkTypes.assess body empty ∧
      (∀ v ∈ [wrong, empty, unset], Alike (linkTypes.assess (.shape [("head", node)]) v)
        (linkTypes.assess (.shape [("head", body)]) v)) ∧
      (linkTypes.withBounds 2 10).assess (.type (.named "link" false)) empty =
        .error (.depthExceeded 2) ∧
      (linkTypes.withBounds 2 10).assess (.type (.named "node" true)) empty = .ok .conforms := by
  intro node body empty wrong unset
  obtain ⟨hname, hinlines⟩ := assess_definition linkTypes
  have hkept : linkTypes.WellKept := (wellKept_withSettings {}).after
    [.register "node" (.built body), .register "link" (.built (.type (.named "node" true)))]
  obtain ⟨hparse, hsame⟩ := hname "node" body rfl
  have hhead : linkTypes.Inlines (.shape [("head", node)]) (.shape [("head", body)]) :=
    @Inlines.field _ [] [] _ _ _ (.name rfl)
  refine ⟨hparse hkept, (hsame empty).resolve_left nofun, ?_, rfl, rfl⟩
  simp only [List.forall_mem_cons, List.not_mem_nil]
  exact ⟨(hinlines _ _ hhead wrong).resolve_left nofun,
    (hinlines _ _ hhead empty).resolve_left nofun,
    (hinlines _ _ hhead unset).resolve_left nofun, nofun⟩

end Registry

end Conformance
