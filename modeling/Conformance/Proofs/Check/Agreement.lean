import Conformance.Check.Basic

/-!
# Checks agree

A value can be asked whether it conforms, asserted to conform and asserted not to. Each of the
three goes its own way from the requirement as it is given to its answer, and they differ in what
they make of one that cannot be used. All the same they agree on every requirement, and report what
there is to report (`assertions_agree`), since what matching yields (`outcome`) decides them all.
-/

namespace Conformance

def CheckError.withMessage (text : String) : CheckError → CheckError
  | validation _ failure => validation text failure
  | configuration e => configuration e

namespace Check

variable {c : Check} {source : Source} {message : Option String} {q : Requirement} {o : Outcome}
  {f : Failure} {e : ConfigurationError}

/-! ## The outcome -/

theorem outcome_cases (c : Check) (source : Source) :
    (∃ q, c.outcome source = .ok (q, .conforms)) ∨
      (∃ q f, c.outcome source = .ok (q, .fails f)) ∨ ∃ e, c.outcome source = .error e := by
  cases c.outcome source with
  | error e => exact .inr (.inr ⟨e, rfl⟩)
  | ok found =>
    obtain ⟨q, _ | f⟩ := found
    · exact .inl ⟨q, rfl⟩
    · exact .inr (.inl ⟨q, f, rfl⟩)

theorem outcome_of_error (hq : source.toRequirement = .error e) : c.outcome source = .error e := by
  rw [outcome, hq]
  rfl

theorem outcome_of_ok (hq : source.toRequirement = .ok q) :
    c.outcome source = (c.registry.assess q c.value).map (q, ·) := by
  rw [outcome, hq]
  rfl

theorem outcome_eq_ok_iff :
    c.outcome source = .ok (q, o) ↔
      source.toRequirement = .ok q ∧ c.registry.assess q c.value = .ok o := by
  constructor
  · intro h
    cases hq : source.toRequirement with
    | error e => cases (outcome_of_error hq).symm.trans h
    | ok q' =>
      rw [outcome_of_ok hq] at h
      cases ho : c.registry.assess q' c.value with
      | error e =>
        rw [ho] at h
        cases h
      | ok o' =>
        rw [ho] at h
        cases h
        exact ⟨rfl, ho⟩
  · rintro ⟨hq, ho⟩
    rw [outcome_of_ok hq, ho]
    rfl

theorem outcome_eq_error_iff :
    c.outcome source = .error e ↔
      source.toRequirement = .error e ∨
        ∃ q, source.toRequirement = .ok q ∧ c.registry.assess q c.value = .error e := by
  constructor
  · intro h
    cases hq : source.toRequirement with
    | error e' =>
      cases (outcome_of_error hq).symm.trans h
      exact .inl rfl
    | ok q =>
      rw [outcome_of_ok hq] at h
      cases ho : c.registry.assess q c.value with
      | error e' =>
        rw [ho] at h
        cases h
        exact .inr ⟨q, rfl, ho⟩
      | ok o =>
        rw [ho] at h
        cases h
  · rintro (hq | ⟨q, hq, ho⟩)
    · exact outcome_of_error hq
    · rw [outcome_of_ok hq, ho]
      rfl

/-! ## What it decides -/

theorem conforms_of_ok (h : c.outcome source = .ok (q, o)) :
    c.conforms source = .ok o.isConforming := by
  obtain ⟨hq, ho⟩ := outcome_eq_ok_iff.1 h
  simp only [conforms, hq, ho, bind, Except.bind]

theorem conforms_of_error (h : c.outcome source = .error e) : c.conforms source = .error e := by
  obtain hq | ⟨q, hq, ho⟩ := outcome_eq_error_iff.1 h
  · simp only [conforms, hq, bind, Except.bind]
  · simp only [conforms, hq, ho, bind, Except.bind]

theorem assertIs_of_conforms (h : c.outcome source = .ok (q, .conforms)) :
    c.assertIs source message = (.ok (), []) := by
  obtain ⟨hq, ho⟩ := outcome_eq_ok_iff.1 h
  simp only [assertIs, hq, ho]

theorem assertIs_of_fails (h : c.outcome source = .ok (q, .fails f)) :
    c.assertIs source message =
      (.error (.validation (message.getD (c.value.pretty ++ " is NOT " ++ q.display)) (some f)),
        [.checkFailed f]) := by
  obtain ⟨hq, ho⟩ := outcome_eq_ok_iff.1 h
  simp only [assertIs, hq, ho]

theorem assertIs_of_error (h : c.outcome source = .error e) :
    c.assertIs source message = (.error (.configuration e), []) := by
  obtain hq | ⟨q, hq, ho⟩ := outcome_eq_error_iff.1 h
  · simp only [assertIs, hq]
  · simp only [assertIs, hq, ho]

theorem assertIsNot_of_conforms (h : c.outcome source = .ok (q, .conforms)) :
    c.assertIsNot source message =
      (.error (.validation (message.getD (c.value.pretty ++ " IS " ++ q.display)) none), []) := by
  simp only [assertIsNot, h]

theorem assertIsNot_of_fails (h : c.outcome source = .ok (q, .fails f)) :
    c.assertIsNot source message = (.ok (), []) := by
  simp only [assertIsNot, h]

theorem assertIsNot_of_error (h : c.outcome source = .error e) :
    c.assertIsNot source message = (.ok (), [.unusableRequirement e]) := by
  simp only [assertIsNot, h]

/-! ## Agreement -/

/-- The verdicts are one verdict: the value conforms, it does not for the reason that the matcher
gives, or the requirement cannot be used, which is an error for all but the negative assertion. -/
structure VerdictsAgree (c : Check) (source : Source) (message : Option String) : Prop where
  conforms_iff_is : c.conforms source = .ok true ↔ (c.assertIs source message).1 = .ok ()
  conforms_iff_isNot : c.conforms source = .ok true ↔
    ∃ text, (c.assertIsNot source message).1 = .error (.validation text none)
  fails_iff_is : c.conforms source = .ok false ↔
    ∃ text q f, (c.assertIs source message).1 = .error (.validation text (some f)) ∧
      c.outcome source = .ok (q, .fails f)
  failure_of_is (text : String) (failure : Option Failure) :
    (c.assertIs source message).1 = .error (.validation text failure) →
      ∃ q f, failure = some f ∧ c.outcome source = .ok (q, .fails f)
  isNot_of_fails : c.conforms source = .ok false → (c.assertIsNot source message).1 = .ok ()
  unusable_iff (e : ConfigurationError) : c.conforms source = .error e ↔
    source.toRequirement = .error e ∨
      ∃ q, source.toRequirement = .ok q ∧ c.registry.assess q c.value = .error e
  unusable_iff_is (e : ConfigurationError) :
    c.conforms source = .error e ↔ (c.assertIs source message).1 = .error (.configuration e)
  isNot_of_unusable (e : ConfigurationError) :
    c.conforms source = .error e → (c.assertIsNot source message).1 = .ok ()
  exactly_one :
    (c.assertIs source message).1 = .ok () ↔ (c.assertIsNot source message).1 ≠ .ok ()

/-- The events are one for each value that is not as asserted because it does not conform, and one
for each requirement that the negative assertion cannot use. -/
structure EventsReported (c : Check) (source : Source) (message : Option String) : Prop where
  warns (text : String) (failure : Option Failure) :
    (c.assertIs source message).1 = .error (.validation text failure) →
      ∃ event f, failure = some f ∧ (c.assertIs source message).2 = [event] ∧ event.level = .warn ∧
        [("value", f.value), ("path", f.pointer), ("requirement", f.requirement)] ⊆ event.fields
  silent : (∀ text failure, (c.assertIs source message).1 ≠ .error (.validation text failure)) →
    (c.assertIs source message).2 = []
  notes (e : ConfigurationError) : c.conforms source = .error e →
    ∃ event, (c.assertIsNot source message).2 = [event] ∧ event.level = .debug
  silent_not : (∀ e, c.conforms source ≠ .error e) → (c.assertIsNot source message).2 = []

/-- A message takes the place of the one that a validation error has without it, and changes
nothing else. -/
structure MessageReplaced (c : Check) (source : Source) (text : String) : Prop where
  is : c.assertIs source (some text) =
    ((c.assertIs source none).1.mapError (·.withMessage text), (c.assertIs source none).2)
  isNot : c.assertIsNot source (some text) =
    ((c.assertIsNot source none).1.mapError (·.withMessage text), (c.assertIsNot source none).2)

theorem verdictsAgree (c : Check) (source : Source) (message : Option String) :
    c.VerdictsAgree source message := by
  -- An outcome fixes all three answers, and with them each field.
  obtain ⟨q, h⟩ | ⟨q, f, h⟩ | ⟨e, h⟩ := outcome_cases c source
  · constructor <;>
      simp [← outcome_eq_error_iff, h, conforms_of_ok h, assertIs_of_conforms h,
        assertIsNot_of_conforms h, Outcome.isConforming]
  · constructor <;>
      simp [← outcome_eq_error_iff, h, conforms_of_ok h, assertIs_of_fails h,
        assertIsNot_of_fails h, Outcome.isConforming]
  · constructor <;>
      simp [← outcome_eq_error_iff, h, conforms_of_error h, assertIs_of_error h,
        assertIsNot_of_error h]

theorem eventsReported (c : Check) (source : Source) (message : Option String) :
    c.EventsReported source message := by
  obtain ⟨q, h⟩ | ⟨q, f, h⟩ | ⟨e, h⟩ := outcome_cases c source
  · constructor <;> simp [conforms_of_ok h, assertIs_of_conforms h, assertIsNot_of_conforms h]
  · constructor <;> simp [conforms_of_ok h, assertIs_of_fails h, assertIsNot_of_fails h,
      Event.level, Event.fields]
  · constructor <;> simp [conforms_of_error h, assertIs_of_error h, assertIsNot_of_error h,
      Event.level]

theorem messageReplaced (c : Check) (source : Source) (text : String) :
    c.MessageReplaced source text := by
  obtain ⟨q, h⟩ | ⟨q, f, h⟩ | ⟨e, h⟩ := outcome_cases c source
  · constructor
    · rw [assertIs_of_conforms h, assertIs_of_conforms h]
      rfl
    · rw [assertIsNot_of_conforms h, assertIsNot_of_conforms h]
      rfl
  · constructor
    · rw [assertIs_of_fails h, assertIs_of_fails h]
      rfl
    · rw [assertIsNot_of_fails h, assertIsNot_of_fails h]
      rfl
  · constructor
    · rw [assertIs_of_error h, assertIs_of_error h]
      rfl
    · rw [assertIsNot_of_error h, assertIsNot_of_error h]
      rfl

/-- Whatever the requirement, and whether it can be used or not: the answer and the two assertions
agree, the events are those of the verdict, and a message of one's own changes no more than the
message. -/
theorem assertions_agree (c : Check) (source : Source) (message : Option String) :
    c.VerdictsAgree source message ∧ c.EventsReported source message ∧
      ∀ text, c.MessageReplaced source text :=
  ⟨c.verdictsAgree source message, c.eventsReported source message, c.messageReplaced source⟩

end Check

end Conformance
