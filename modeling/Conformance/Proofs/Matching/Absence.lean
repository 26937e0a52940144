import Conformance.Proofs.Matching.Calls

/-!
# Absent fields and `undefined`

Whether a field may be absent is asked of its requirement alone, by following names to a marker;
`undefined` is matched like any other value. The two agree (`absence_agrees`): they stop at the same
bounds, and what may be absent may be `undefined`. The converse holds too, unless the names lead to a
test that `undefined` passes (`Registry.TakesUndefined`).
-/

namespace Conformance

open Matching

/-- Following the names of registered types leads to a test that `undefined` passes: the tag of its
own kind, a predicate, or an instance test by way of its fallback. -/
inductive Registry.TakesUndefined (r : Registry) : Requirement → Prop
  | tag {name : String} {optional : Bool} (resolved : r.lookup name = some (.primitive .undefined)) :
    TakesUndefined r (.type (.named name optional))
  | predicate {p : Predicate} (passes : p.test .undefined = .pass) : TakesUndefined r (.predicate p)
  | fallback {c : Class} {p : Predicate} (passes : p.test .undefined = .pass) :
    TakesUndefined r (.instanceOf c (some p))
  | definition {q d : Requirement} (defined : r.definition? q = some d) (body : TakesUndefined r d) :
    TakesUndefined r q

namespace Matching

variable {r : Registry} {deeper : Deeper} {steps : Nat} {q d : Requirement}

theorem takesUndefined_iff_of_definition (h : r.definition? q = some d) :
    r.TakesUndefined q ↔ r.TakesUndefined d := by
  constructor
  · intro hq
    cases hq with
    | tag resolved => cases resolved.symm.trans (Registry.lookup_eq_user_iff.2 h)
    | predicate passes => cases h
    | fallback passes => cases h
    | definition defined body =>
      obtain rfl : d = _ := Option.some.inj (h.symm.trans defined)
      exact body
  · exact .definition h

theorem exists_matchLevel_undefined (hd : r.definition? q = none) (ho : q.optional = false) :
    ∃ o, matchLevel r deeper (steps + 1) q .undefined = .ok o ∧
      (o = .conforms ↔ r.TakesUndefined q) := by
  cases q with
  | predicate p =>
    refine ⟨_, rfl, testedBy_eq_conforms_iff.trans ⟨.predicate, fun h => ?_⟩⟩
    cases h with
    | predicate passes => exact passes
    | definition defined body => cases defined
  | instanceOf c fallback =>
    refine ⟨_, rfl, matchInstance_eq_conforms_iff.trans ⟨?_, fun h => ?_⟩⟩
    · rintro (h | ⟨p, rfl, hp⟩)
      · cases h
      · exact .fallback hp
    · cases h with
      | fallback passes => exact .inr ⟨_, rfl, passes⟩
      | definition defined body => cases defined
  | shape fields =>
    refine ⟨_, rfl, nofun, fun h => ?_⟩
    cases h with
    | definition defined body => cases defined
  | type e =>
    have hw : ¬ Waives e .undefined := fun hw => Bool.false_ne_true (ho.symm.trans hw.1)
    cases e with
    | array element optional =>
      rw [matchLevel_array hw, matchArray_of_not_array rfl]
      refine ⟨_, rfl, nofun, fun h => ?_⟩
      cases h with
      | definition defined body => cases defined
    | named name optional =>
      have htakes : r.TakesUndefined (.type (.named name optional)) ↔
          r.lookup name = some (.primitive .undefined) := by
        refine ⟨fun h => ?_, .tag⟩
        cases h with
        | tag resolved => exact resolved
        | definition defined body => cases hd.symm.trans defined
      rw [htakes]
      cases hl : r.lookup name with
      | none =>
        rw [matchLevel_unknown hl hw]
        exact ⟨_, rfl, nofun, nofun⟩
      | some target =>
        cases target with
        | user d => cases hd.symm.trans (Registry.lookup_eq_user_iff.1 hl)
        | builtin b =>
          rw [matchLevel_builtin hl hw]
          refine ⟨_, rfl, rootCheck_eq_conforms_iff.trans ⟨fun h => ?_, nofun⟩⟩
          cases b <;> cases h
        | primitive k =>
          rw [matchLevel_primitive hl hw]
          refine ⟨_, rfl, rootCheck_eq_conforms_iff.trans ?_⟩
          rw [beq_iff_eq, Option.some.injEq, Target.primitive.injEq]
          exact eq_comm

theorem exists_entering_eq_error {depth : Depth} (h : ¬ depth.Within r.settings) :
    ∃ e, ∀ {α : Type} (rest : Except ConfigurationError α), entering r depth rest = .error e := by
  unfold entering
  by_cases hs : r.settings.maxDepth < depth.steps
  · exact ⟨_, fun rest => if_pos hs⟩
  · have hn : r.settings.maxNesting < depth.nesting :=
      Nat.not_le.1 fun hn => h ⟨Nat.not_lt.1 hs, hn⟩
    exact ⟨_, fun rest => by rw [if_neg hs, if_pos hn]⟩

/-- With the same number of names left, both run out of names, or the check decides for absence and
`undefined` conforms, or it decides against it and a test of `undefined` decides. -/
theorem absence_cases (r : Registry) (deeper : Deeper) (steps : Nat) (q : Requirement) :
    (admitsAbsence r steps q = .error (.depthExceeded r.settings.maxDepth) ∧
      matchLevel r deeper steps q .undefined = .error (.depthExceeded r.settings.maxDepth)) ∨
    (admitsAbsence r steps q = .ok true ∧
      matchLevel r deeper steps q .undefined = .ok .conforms) ∨
    (admitsAbsence r steps q = .ok false ∧
      ∃ o, matchLevel r deeper steps q .undefined = .ok o ∧
        (o = .conforms ↔ r.TakesUndefined q)) := by
  induction steps generalizing q with
  | zero => exact .inl ⟨rfl, rfl⟩
  | succ steps ih =>
    rw [admitsAbsence_succ]
    by_cases ho : q.optional
    · -- only types carry the marker
      cases q with
      | type e =>
        rw [if_pos ho, matchLevel_of_waives ⟨ho, rfl⟩]
        exact .inr (.inl ⟨rfl, rfl⟩)
      | _ => cases ho
    · rw [if_neg ho]
      cases hd : r.definition? q with
      | none =>
        exact .inr (.inr ⟨rfl, exists_matchLevel_undefined hd (Bool.eq_false_iff.2 ho)⟩)
      | some d =>
        obtain ⟨name, optional, rfl, hget⟩ := Registry.definition?_eq_some_iff.1 hd
        have hw : ¬ Waives (.named name optional) .undefined := fun hw => ho hw.1
        rw [matchLevel_user (Registry.lookup_eq_user_iff.2 hget) hw,
          takesUndefined_iff_of_definition hd]
        exact ih d

end Matching

/-- At every depth, the check for an absent field and the match of `undefined` stop at the same bound
or at none, and `undefined` conforms to what may be absent. What may not be absent `undefined`
conforms to exactly if the names lead to a test that it passes. -/
theorem Registry.absence_agrees (r : Registry) (q : Requirement) (d : Depth) :
    let absent : Except ConfigurationError Bool := answer r (.absence q d)
    let matched : Matched := answer r (.requirement q .undefined d)
    (∀ e, absent = .error e ↔ matched = .error e) ∧
      (absent = .ok true → matched = .ok .conforms) ∧
      (absent = .ok false → (matched = .ok .conforms ↔ r.TakesUndefined q)) := by
  intro absent matched
  by_cases hd : d.Within r.settings
  · have habsent : absent = admitsAbsence r (r.settings.maxDepth - d.steps + 1) q :=
      answer_absence_of_within hd q
    have hmatched : matched = matchLevel r _ (r.settings.maxDepth - d.steps + 1) q .undefined :=
      resume_of_within hd q .undefined
    rw [habsent, hmatched]
    rcases absence_cases r (matchWithin r (r.settings.maxNesting - d.nesting))
      (r.settings.maxDepth - d.steps + 1) q with ⟨ha, hm⟩ | ⟨ha, hm⟩ | ⟨ha, o, hm, ho⟩
    · simp [ha, hm]
    · simp [ha, hm]
    · simp [ha, hm, ho]
  · obtain ⟨e, he⟩ := exists_entering_eq_error hd
    have habsent : absent = .error e := he _
    have hmatched : matched = .error e := he _
    simp [habsent, hmatched]

/-- The two differ for a name of the tag of `undefined`. -/
example :
    let r := (Registry.withSettings {}).insert "nothing" (.type (.named "undefined" false))
    let q : Requirement := .type (.named "nothing" false)
    admitsAbsence r 3 q = .ok false ∧ r.assess q .undefined = .ok .conforms := ⟨rfl, rfl⟩

end Conformance
