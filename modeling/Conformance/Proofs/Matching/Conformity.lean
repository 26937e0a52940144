import Conformance.Proofs.Matching.Bounds

/-!
# Conformity without bounds

`Registry.Conforms` says what it means for a value to be as a requirement demands, in a registry
whose names may refer to each other and to themselves; it knows no bounds. A match that finds a
value conforming is right, a match that finds a problem other than a bound is right, and a value
that conforms is found to do so once the bounds are wide enough (`assess_sound_complete`).
-/

namespace Conformance

open Matched Matching

namespace Registry

/-- A field with this requirement may be absent: the requirement carries the marker, or is a name
whose definition allows it. -/
inductive Omissible (r : Registry) : Requirement → Prop
  | marked {q : Requirement} (marker : q.optional) : Omissible r q
  | definition {q d : Requirement} (defined : r.definition? q = some d) (body : Omissible r d) :
    Omissible r q

/-- The value is as the requirement demands: one rule for each form of requirement, no bounds. -/
inductive Conforms (r : Registry) : Requirement → Value → Prop
  | predicate {p : Predicate} {v : Value} (passes : p.test v = .pass) : Conforms r (.predicate p) v
  | descendant {c d : Class} {fallback : Option Predicate} {fields : List (String × Value)}
    (ancestor : c ∈ d.lineage) : Conforms r (.instanceOf c fallback) (.object (some d) fields)
  | fallback {c : Class} {p : Predicate} {v : Value} (passes : p.test v = .pass) :
    Conforms r (.instanceOf c (some p)) v
  | undefined {e : TypeExpr} (marker : e.optional) : Conforms r (.type e) .undefined
  | definition {name : String} {optional : Bool} {q : Requirement} {v : Value}
    (resolved : r.lookup name = some (.user q)) (body : Conforms r q v) :
    Conforms r (.type (.named name optional)) v
  | builtin {name : String} {optional : Bool} {b : Builtin} {v : Value}
    (resolved : r.lookup name = some (.builtin b)) (accepted : b.accepts v) :
    Conforms r (.type (.named name optional)) v
  | primitive {name : String} {optional : Bool} {v : Value}
    (resolved : r.lookup name = some (.primitive v.kind)) :
    Conforms r (.type (.named name optional)) v
  | empty {element : TypeExpr} {optional : Bool} :
    Conforms r (.type (.array element optional)) (.array [])
  | items {element : TypeExpr} {optional : Bool} {items : List Value}
    (known : ∀ name marker, element = .named name marker → r.knows name)
    (each : ∀ v ∈ items, Conforms r (.type element) v) :
    Conforms r (.type (.array element optional)) (.array items)
  | shape {fields : Shape} {v : Value} (notNull : v ≠ .null) (kind : v.kind = .object)
    (present : ∀ name q w, (name, q) ∈ fields → v.present? name = some w → Conforms r q w)
    (absent : ∀ name q, (name, q) ∈ fields → v.present? name = none → Omissible r q) :
    Conforms r (.shape fields) v

end Registry

namespace Matching

variable {r : Registry}

/-! ## What a match finds conforming conforms -/

theorem omissible_of_admitsAbsence {steps : Nat} {q : Requirement}
    (h : admitsAbsence r steps q = .ok true) : r.Omissible q := by
  induction steps generalizing q with
  | zero => cases h
  | succ steps ih =>
    rw [admitsAbsence_succ] at h
    by_cases ho : q.optional
    · exact .marked ho
    · simp only [ho, Bool.false_eq_true, ↓reduceIte] at h
      cases hd : r.definition? q with
      | none => rw [hd] at h; cases h
      | some d => rw [hd] at h; exact .definition hd (ih h)

theorem matchArray_sound {deeper : Deeper} {element : TypeExpr} {optional : Bool} {v : Value}
    (hdeep : ∀ q v, deeper q v = .ok .conforms → r.Conforms q v)
    (h : matchArray r deeper element optional v = .ok .conforms) :
    r.Conforms (.type (.array element optional)) v := by
  obtain ⟨items, rfl, rfl | hk, hitems⟩ := matchArray_eq_conforms_iff.1 h
  · exact .empty
  · exact .items hk fun w hw => hdeep _ _ (hitems w hw)

theorem matchShape_sound {deeper : Deeper} {steps : Nat} {fields : Shape} {v : Value}
    (hdeep : ∀ q v, deeper q v = .ok .conforms → r.Conforms q v)
    (h : matchShape deeper (admitsAbsence r steps) fields v = .ok .conforms) :
    r.Conforms (.shape fields) v := by
  obtain ⟨hv, hfields⟩ := matchShape_eq_conforms_iff.1 h
  refine .shape hv.1 hv.2 (fun name q w hf hp => ?_) (fun name q hf hp => ?_)
  · exact hdeep _ _ ((fieldResult_eq_conforms_iff.1 (hfields _ hf)).1 w hp)
  · exact omissible_of_admitsAbsence ((fieldResult_eq_conforms_iff.1 (hfields _ hf)).2 hp)

theorem matchLevel_sound {deeper : Deeper} {steps : Nat} {q : Requirement} {v : Value}
    (hdeep : ∀ q v, deeper q v = .ok .conforms → r.Conforms q v)
    (h : matchLevel r deeper steps q v = .ok .conforms) : r.Conforms q v := by
  induction steps generalizing q with
  | zero => cases h
  | succ steps ih =>
    cases q with
    | predicate p =>
      rw [matchLevel, Except.ok.injEq, testedBy_eq_conforms_iff] at h
      exact .predicate h
    | instanceOf c fallback =>
      rw [matchLevel, Except.ok.injEq, matchInstance_eq_conforms_iff] at h
      rcases h with h | ⟨p, rfl, hp⟩
      · obtain ⟨d, fields, rfl, hd⟩ := isInstanceOf_iff.1 h
        exact .descendant hd
      · exact .fallback hp
    | shape fields => exact matchShape_sound hdeep h
    | type e =>
      by_cases hw : Waives e v
      · obtain ⟨ho, rfl⟩ := hw
        exact .undefined ho
      · cases e with
        | array element optional =>
          rw [matchLevel_array hw] at h
          exact matchArray_sound hdeep h
        | named name optional =>
          rcases (matchLevel_named_eq_conforms_iff hw).1 h with ⟨d, hl, hd⟩ | ⟨b, hl, hb⟩ | hl
          · exact .definition hl (ih hd)
          · exact .builtin hl hb
          · exact .primitive hl

theorem matchWithin_sound {nesting : Nat} {q : Requirement} {v : Value}
    (h : matchWithin r nesting q v = .ok .conforms) : r.Conforms q v := by
  induction nesting generalizing q v with
  | zero => cases h
  | succ nesting ih => exact matchLevel_sound (fun q v => ih) h

/-! ## What conforms is found to conform -/

def Found (r : Registry) (depth nesting : Nat) (q : Requirement) (v : Value) : Prop :=
  (r.withBounds depth nesting).assess q v = .ok .conforms

theorem Found.mono {depth depth' nesting nesting' : Nat} {q : Requirement} {v : Value}
    (h : Found r depth nesting q v) (hd : depth ≤ depth') (hn : nesting ≤ nesting') :
    Found r depth' nesting' q v :=
  (Registry.settles_assess hd hn q v).conforms h

theorem exists_bounds_of_forall {α : Type} (P : Nat → Nat → α → Prop)
    (hP : ∀ {d d' n n' : Nat} {a : α}, P d n a → d ≤ d' → n ≤ n' → P d' n' a) {l : List α}
    (h : ∀ a ∈ l, ∃ d n, P d n a) : ∃ d n, ∀ a ∈ l, P d n a := by
  induction l with
  | nil => exact ⟨0, 0, by simp⟩
  | cons a l ih =>
    obtain ⟨ha, hl⟩ := List.forall_mem_cons.1 h
    obtain ⟨d, n, ha⟩ := ha
    obtain ⟨d', n', hl⟩ := ih hl
    refine ⟨max d d', max n n', List.forall_mem_cons.2 ⟨?_, fun b hb => ?_⟩⟩
    · exact hP ha (by omega) (by omega)
    · exact hP (hl b hb) (by omega) (by omega)

theorem Found.deeper {depth nesting : Nat} {q : Requirement} {v : Value}
    (h : Found r depth nesting q v) :
    matchWithin (r.withBounds depth (nesting + 1)) (nesting + 1) q v = .ok .conforms := by
  have htypes : (r.withBounds depth (nesting + 1)).types = (r.withBounds depth nesting).types := rfl
  exact (settles_matchWithin htypes (Nat.le_refl depth) (Nat.le_refl (nesting + 1)) q v).conforms h

theorem found_of_not_waives {depth nesting : Nat} {e : TypeExpr} {v : Value}
    (h : ¬ Waives e v → Found r depth nesting (.type e) v) : Found r depth nesting (.type e) v := by
  by_cases hw : Waives e v
  · exact matchLevel_of_waives hw _ _
  · exact h hw

theorem Found.definition {depth nesting : Nat} {name : String} {optional : Bool} {q : Requirement}
    {v : Value} (h : Found r depth nesting q v) (hl : r.lookup name = some (.user q)) :
    Found r (depth + 1) nesting (.type (.named name optional)) v := by
  refine found_of_not_waives fun hw => ?_
  have htypes : (r.withBounds (depth + 1) nesting).types = (r.withBounds depth nesting).types := rfl
  have hl' : (r.withBounds (depth + 1) nesting).lookup name = some (.user q) := hl
  show matchLevel _ _ (depth + 1 + 1) _ v = _
  rw [matchLevel_user hl' hw]
  exact (settles_matchLevel htypes (Nat.le_succ depth) (Nat.le_refl nesting)
    (Nat.le_refl (depth + 1)) q v).conforms h

theorem Found.items {depth nesting : Nat} {element : TypeExpr} {optional : Bool}
    {items : List Value} (hk : Resolvable r element)
    (h : ∀ v ∈ items, Found r depth nesting (.type element) v) :
    Found r depth (nesting + 1) (.type (.array element optional)) (.array items) := by
  have hk' : Resolvable (r.withBounds depth (nesting + 1)) element := hk
  show matchLevel _ _ _ _ _ = _
  rw [matchLevel_array (by rintro ⟨_, h⟩; cases h), matchArray_eq_conforms_iff]
  exact ⟨items, rfl, .inr hk', fun w hw => (h w hw).deeper⟩

/-- Bounds within which a field conforms, or is found to be one that may be absent. -/
structure FieldFound (r : Registry) (v : Value) (depth nesting : Nat)
    (field : String × Requirement) : Prop where
  present : ∀ w, v.present? field.1 = some w → Found r depth nesting field.2 w
  absent : v.present? field.1 = none → ∀ d n steps, depth ≤ steps →
    admitsAbsence (r.withBounds d n) steps field.2 = .ok true

theorem FieldFound.mono {v : Value} {depth depth' nesting nesting' : Nat}
    {field : String × Requirement} (h : FieldFound r v depth nesting field) (hd : depth ≤ depth')
    (hn : nesting ≤ nesting') : FieldFound r v depth' nesting' field where
  present w hw := (h.present w hw).mono hd hn
  absent ha d n steps hs := h.absent ha d n steps (Nat.le_trans hd hs)

theorem FieldFound.shape {v : Value} {depth nesting : Nat} {fields : Shape} (hv : Structured v)
    (h : ∀ field ∈ fields, FieldFound r v depth nesting field) :
    Found r depth (nesting + 1) (.shape fields) v := by
  show matchShape _ _ fields v = _
  refine matchShape_eq_conforms_iff.2 ⟨hv, fun (name, q) hf => fieldResult_eq_conforms_iff.2 ?_⟩
  exact ⟨fun w hp => ((h _ hf).present w hp).deeper,
    fun hp => (h _ hf).absent hp _ _ _ (Nat.le_succ depth)⟩

theorem exists_steps_of_omissible {q : Requirement} (h : r.Omissible q) :
    ∃ depth, ∀ d n steps, depth ≤ steps →
      admitsAbsence (r.withBounds d n) steps q = .ok true := by
  induction h with
  | marked marker =>
    refine ⟨1, fun d n steps hs => ?_⟩
    obtain ⟨extra, rfl⟩ := Nat.exists_eq_add_of_le' hs
    rw [admitsAbsence_succ, if_pos marker]
  | @definition q body defined _ ih =>
    obtain ⟨depth, ih⟩ := ih
    refine ⟨depth + 1, fun d n steps hs => ?_⟩
    obtain ⟨extra, rfl⟩ := Nat.exists_eq_add_of_le' hs
    have hd : (r.withBounds d n).definition? q = some body := defined
    rw [← Nat.add_assoc, admitsAbsence_succ, hd]
    by_cases ho : q.optional
    · rw [if_pos ho]
    · rw [if_neg ho]
      exact ih d n _ (Nat.le_add_left depth extra)

theorem exists_fieldFound {v : Value} {field : String × Requirement}
    (hpresent : ∀ w, v.present? field.1 = some w → ∃ depth nesting, Found r depth nesting field.2 w)
    (habsent : v.present? field.1 = none → r.Omissible field.2) :
    ∃ depth nesting, FieldFound r v depth nesting field := by
  cases hp : v.present? field.1 with
  | some w =>
    obtain ⟨depth, nesting, hfound⟩ := hpresent w hp
    refine ⟨depth, nesting, fun w' hw' => ?_, fun hn => ?_⟩
    · cases hp.symm.trans hw'
      exact hfound
    · cases hp.symm.trans hn
  | none =>
    obtain ⟨depth, hsteps⟩ := exists_steps_of_omissible (habsent hp)
    refine ⟨depth, 0, fun w hw => ?_, fun _ => hsteps⟩
    cases hp.symm.trans hw

theorem found_of_conforms {q : Requirement} {v : Value} (h : r.Conforms q v) :
    ∃ depth nesting, Found r depth nesting q v := by
  induction h with
  | predicate passes => exact ⟨0, 0, congrArg Except.ok (testedBy_eq_conforms_iff.2 passes)⟩
  | descendant ancestor =>
    exact ⟨0, 0, congrArg Except.ok (matchInstance_eq_conforms_iff.2
      (.inl (isInstanceOf_iff.2 ⟨_, _, rfl, ancestor⟩)))⟩
  | fallback passes =>
    exact ⟨0, 0, congrArg Except.ok (matchInstance_eq_conforms_iff.2 (.inr ⟨_, rfl, passes⟩))⟩
  | undefined marker => exact ⟨0, 0, matchLevel_of_waives ⟨marker, rfl⟩ _ _⟩
  | definition resolved _ ih =>
    obtain ⟨depth, nesting, ih⟩ := ih
    exact ⟨depth + 1, nesting, ih.definition resolved⟩
  | @builtin name optional b v resolved accepted =>
    have hl : (r.withBounds 0 0).lookup name = some (.builtin b) := resolved
    refine ⟨0, 0, found_of_not_waives fun hw => (matchLevel_builtin hl hw _ _).trans ?_⟩
    rw [rootCheck_eq_conforms_iff.2 accepted]
  | @primitive name optional v resolved =>
    have hl : (r.withBounds 0 0).lookup name = some (.primitive v.kind) := resolved
    refine ⟨0, 0, found_of_not_waives fun hw => (matchLevel_primitive hl hw _ _).trans ?_⟩
    rw [rootCheck_eq_conforms_iff.2 (beq_self_eq_true _)]
  | empty => exact ⟨0, 0, found_of_not_waives fun hw => matchLevel_array hw _ 0⟩
  | items known _ ih =>
    obtain ⟨depth, nesting, ih⟩ := exists_bounds_of_forall (fun d n v => Found r d n _ v) Found.mono ih
    exact ⟨depth, nesting + 1, Found.items known ih⟩
  | shape notNull kind _ absent ih =>
    have hfields := exists_bounds_of_forall (FieldFound r _) FieldFound.mono fun field hf =>
      exists_fieldFound (ih field.1 field.2 · hf) (absent field.1 field.2 hf)
    obtain ⟨depth, nesting, hfields⟩ := hfields
    exact ⟨depth, nesting + 1, FieldFound.shape ⟨notNull, kind⟩ hfields⟩

/-- A problem that is no bound would be found within wider bounds too. -/
theorem not_conforms_of_assess {q : Requirement} {v : Value} {problem : Matched}
    (h : r.assess q v = problem) (hanswer : problem.withheld = false)
    (hp : problem ≠ .ok .conforms) : ¬ r.Conforms q v := by
  intro hconforms
  obtain ⟨depth, nesting, hfound⟩ := found_of_conforms hconforms
  have hwide := hfound.mono (Nat.le_max_right r.settings.maxDepth depth)
    (Nat.le_max_right r.settings.maxNesting nesting)
  have hsettles := Registry.settles_assess (r := r) (Nat.le_max_left r.settings.maxDepth depth)
    (Nat.le_max_left r.settings.maxNesting nesting) q v
  subst h
  exact hp ((hsettles.eq hanswer).symm.trans hwide)

end Matching

namespace Registry

/-- Conforming is found to be conforming, and every problem that is no bound is a problem. -/
theorem assess_sound_complete (r : Registry) (q : Requirement) (v : Value) :
    (r.assess q v = .ok .conforms → r.Conforms q v) ∧
    ((∃ f, r.assess q v = .ok (.fails f)) ∨
      (∃ name e, r.assess q v = .error (.unknownElementType name e)) → ¬ r.Conforms q v) ∧
    (r.Conforms q v → ∃ depth nesting, ∀ d n, depth ≤ d → nesting ≤ n →
      (r.withBounds d n).assess q v = .ok .conforms) := by
  refine ⟨matchWithin_sound, ?_, fun h => ?_⟩
  · rintro (⟨f, hf⟩ | ⟨name, e, he⟩)
    · exact not_conforms_of_assess hf rfl nofun
    · exact not_conforms_of_assess he rfl nofun
  · obtain ⟨depth, nesting, hfound⟩ := found_of_conforms h
    exact ⟨depth, nesting, fun d n hd hn => hfound.mono hd hn⟩

/-- Trees are told from what is no tree, within narrow bounds. -/
theorem assess_sound_complete_treeTypes :
    let r := treeTypes.withBounds 1 2
    let q : Requirement := .type (.named "tree" false)
    let leaf : Value := .object none [("label", .string "leaf")]
    r.Conforms q leaf ∧ ¬ r.Conforms q (.object none [("children", .null)]) ∧
      ∃ depth nesting, ∀ d n, depth ≤ d → nesting ≤ n →
        (r.withBounds d n).assess q leaf = .ok .conforms := by
  intro r q leaf
  have hleaf : r.Conforms q leaf := (assess_sound_complete r q leaf).1 rfl
  refine ⟨hleaf, ?_, (assess_sound_complete r q leaf).2.2 hleaf⟩
  exact (assess_sound_complete r q _).2.1 (.inl ⟨_, rfl⟩)

end Registry

end Conformance
