import Conformance.Registry.Basic

/-!
# Registering a type

When a registration takes place and what it changes. `Admits` says which names may be defined;
`run` takes operations one by one, and a list of entries is registered entry by entry by the run of
its `registrations`.
-/

namespace Conformance

namespace Run

variable {run : Run} {next : Registry → Run} {e : ConfigurationError}

theorem eq_of_end (h : run.error = none) : run = ⟨run.registry, run.events, none⟩ := by
  rw [← h]

theorem andThen_of_end (h : run.error = none) :
    run.andThen next = { next run.registry with
      events := run.events ++ (next run.registry).events } := by
  rw [andThen, h]

theorem andThen_of_error (h : run.error = some e) : run.andThen next = run := by
  rw [andThen, h]

theorem error_andThen_eq_none_iff :
    (run.andThen next).error = none ↔ run.error = none ∧ (next run.registry).error = none := by
  cases h : run.error with
  | none => simp [andThen_of_end h]
  | some e => simp [andThen_of_error h, h]

end Run

namespace Registry

/-! ## Definitions of names -/

theorem mem_names_iff {r : Registry} {name : String} :
    name ∈ r.names ↔ (r.get? name).isSome := by
  rw [get?, List.lookup_isSome_iff, names, List.mem_map]
  simp only [beq_iff_eq, @eq_comm _ name]

theorem isTaken_insert (r : Registry) (name : String) (q : Requirement) (n : String) :
    (r.insert name q).isTaken n = (n == name || r.isTaken n) := by
  unfold isTaken
  rw [get?_insert]
  by_cases h : n = name
  · simp [h]
  · simp [h]

/-- The name may be defined: it is a type name, and stands for nothing yet unless names that are
taken may be defined again. -/
def Admits (r : Registry) (name : String) : Prop :=
  IsTypeName name.toList ∧ (r.settings.allowOverwrite = false → r.knows name = false)

theorem vet_of_isTypeName {name : String} (h : IsTypeName name.toList) (r : Registry) :
    r.vet name =
      if !r.settings.allowOverwrite && r.isTaken name then .error (.duplicateName name)
      else .ok () := by
  unfold vet
  rw [NameFlaw.ofName?_eq_none_iff.2 h]

/-- What is no type name is refused with the same error everywhere. -/
theorem exists_flaw_of_not_isTypeName {name : String} (h : ¬ IsTypeName name.toList) :
    ∃ flaw, ∀ r : Registry, r.vet name = .error (.invalidTypeName name flaw) := by
  have hflaw : NameFlaw.ofName? name.toList ≠ none := mt NameFlaw.ofName?_eq_none_iff.1 h
  obtain ⟨flaw, hflaw⟩ := Option.ne_none_iff_exists'.1 hflaw
  refine ⟨flaw, fun r => ?_⟩
  unfold vet
  rw [hflaw]

theorem vet_eq_ok_iff {r : Registry} {name : String} : r.vet name = .ok () ↔ r.Admits name := by
  unfold Admits
  by_cases h : IsTypeName name.toList
  · rw [vet_of_isTypeName h, isTaken_eq_knows]
    cases r.settings.allowOverwrite <;> cases r.knows name <;> simp [h]
  · obtain ⟨flaw, hvet⟩ := exists_flaw_of_not_isTypeName h
    simp [hvet, h]

/-! ## One operation -/

section Operations

variable {r : Registry} {name : String} {source : Source} {q : Requirement} {e : ConfigurationError}

theorem register_of_error (h : source.toRequirement = .error e) (r : Registry) (name : String) :
    r.register name source = ⟨r, [], some e⟩ := by
  rw [register, h]

theorem register_of_vet_ok (hq : source.toRequirement = .ok q) (h : r.vet name = .ok ()) :
    r.register name source =
      ⟨r.insert name q, [.registered name (r.get? name).isSome], none⟩ := by
  rw [register, hq, h]

theorem register_of_vet_error (hq : source.toRequirement = .ok q) (h : r.vet name = .error e) :
    r.register name source = ⟨r, [], some e⟩ := by
  rw [register, hq, h]

/-- A registration fails and changes nothing, or the requirement can be converted, the name may be
defined, and the registration takes place. -/
theorem register_cases (r : Registry) (name : String) (source : Source) :
    (∃ e, r.register name source = ⟨r, [], some e⟩) ∨
      ∃ q, source.toRequirement = .ok q ∧ r.Admits name ∧
        r.register name source =
          ⟨r.insert name q, [.registered name (r.get? name).isSome], none⟩ := by
  cases hq : source.toRequirement with
  | error e => exact .inl ⟨e, register_of_error hq r name⟩
  | ok q =>
    cases hvet : r.vet name with
    | error e => exact .inl ⟨e, register_of_vet_error hq hvet⟩
    | ok _ => exact .inr ⟨q, rfl, vet_eq_ok_iff.1 hvet, register_of_vet_ok hq hvet⟩

theorem exists_of_register (h : (r.register name source).error = none) :
    ∃ q, source.toRequirement = .ok q ∧ r.Admits name ∧
      r.register name source =
        ⟨r.insert name q, [.registered name (r.get? name).isSome], none⟩ := by
  obtain ⟨e, hfails⟩ | hends := register_cases r name source
  · rw [hfails] at h
    cases h
  · exact hends

end Operations

/-! ## Runs -/

theorem run_singleton (r : Registry) (op : Operation) : r.run [op] = r.apply op := by
  rw [run]
  cases h : (r.apply op).error with
  | none =>
    rw [Run.andThen_of_end h, Run.eq_of_end h]
    simp only [run, List.append_nil]
  | some e => exact Run.andThen_of_error h

def registrations (entries : List (String × Source)) : List Operation :=
  entries.map fun entry => .register entry.1 entry.2

theorem run_registrations_cons (r : Registry) (name : String) (source : Source)
    (rest : List (String × Source)) :
    r.run (registrations ((name, source) :: rest)) =
      (r.register name source).andThen fun next => next.run (registrations rest) := rfl

/-- A run of registrations that comes to its end has defined its first entry. -/
theorem exists_of_run_registrations {r : Registry} {name : String} {source : Source}
    {rest : List (String × Source)}
    (h : (r.run (registrations ((name, source) :: rest))).error = none) :
    ∃ q, source.toRequirement = .ok q ∧ r.Admits name ∧
      r.run (registrations ((name, source) :: rest)) =
        { (r.insert name q).run (registrations rest) with
          events := .registered name (r.get? name).isSome ::
            ((r.insert name q).run (registrations rest)).events } ∧
      ((r.insert name q).run (registrations rest)).error = none := by
  rw [run_registrations_cons] at h ⊢
  obtain ⟨hfirst, hrest⟩ := Run.error_andThen_eq_none_iff.1 h
  obtain ⟨q, hq, hadmits, hregister⟩ := exists_of_register hfirst
  rw [hregister] at hrest ⊢
  exact ⟨q, hq, hadmits, rfl, hrest⟩

theorem get?_run_registrations_of_forall_ne {r : Registry} {entries : List (String × Source)}
    (h : (r.run (registrations entries)).error = none) {n : String}
    (hn : ∀ entry ∈ entries, entry.1 ≠ n) :
    (r.run (registrations entries)).registry.get? n = r.get? n := by
  induction entries generalizing r with
  | nil => rfl
  | cons entry rest ih =>
    obtain ⟨name, source⟩ := entry
    obtain ⟨hname, hrest⟩ := List.forall_mem_cons.1 hn
    obtain ⟨q, -, -, hrun, herror⟩ := exists_of_run_registrations h
    rw [hrun, ih herror hrest, get?_insert, if_neg (Ne.symm hname)]

theorem get?_run_registrations_of_last {r : Registry} {before after : List (String × Source)}
    {name : String} {source : Source}
    (h : (r.run (registrations (before ++ (name, source) :: after))).error = none)
    (hlast : ∀ entry ∈ after, entry.1 ≠ name) :
    ∃ q, source.toRequirement = .ok q ∧
      (r.run (registrations (before ++ (name, source) :: after))).registry.get? name = some q := by
  induction before generalizing r with
  | nil =>
    obtain ⟨q, hq, -, hrun, herror⟩ := exists_of_run_registrations h
    refine ⟨q, hq, ?_⟩
    rw [List.nil_append, hrun, get?_run_registrations_of_forall_ne herror hlast,
      get?_insert, if_pos rfl]
  | cons entry before ih =>
    obtain ⟨n, s⟩ := entry
    rw [List.cons_append] at h ⊢
    obtain ⟨d, -, -, hrun, herror⟩ := exists_of_run_registrations h
    rw [hrun]
    exact ih herror

end Registry

end Conformance
