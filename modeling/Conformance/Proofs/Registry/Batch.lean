import Conformance.Proofs.Registry.Registration

/-!
# Batches

A batch looks at all its entries before it defines any of them: at each name in the registry as it
was, and among the names that came before it in the batch. This comes to the same as registering
the entries one by one in the registry as it grows, save that nothing is left of a batch that fails
(`registerAll_transactional`). With that, `Effect` lists all that any operation can do, and what an
operation keeps is shown by cases on it.
-/

namespace Conformance

namespace Registry

def vetAfter (r : Registry) (seen : List String) (name : String) :
    Except ConfigurationError Unit := do
  r.vet name
  if !r.settings.allowOverwrite && seen.contains name then .error (.duplicateName name) else .ok ()

theorem stage_cons (r : Registry) (seen : List String) (name : String) (source : Source)
    (rest : List (String × Source)) :
    r.stage seen ((name, source) :: rest) = (do
      let q ← source.toRequirement
      r.vetAfter seen name
      let staged ← r.stage (name :: seen) rest
      .ok ((name, q) :: staged)) := by
  rw [stage, vetAfter]
  cases source.toRequirement with
  | error e => rfl
  | ok q =>
    cases r.vet name with
    | error e => rfl
    | ok _ => cases !r.settings.allowOverwrite && seen.contains name <;> rfl

/-- `grown` is `r` with definitions of the names `seen`, so far as a name has to be vetted. -/
structure GrownBy (r : Registry) (seen : List String) (grown : Registry) : Prop where
  settings : grown.settings = r.settings
  taken (n : String) : grown.isTaken n = (seen.contains n || r.isTaken n)

namespace GrownBy

variable {r grown : Registry} {seen : List String}

theorem refl (r : Registry) : r.GrownBy [] r := ⟨rfl, fun _ => rfl⟩

theorem insert (h : r.GrownBy seen grown) (name : String) (q : Requirement) :
    r.GrownBy (name :: seen) (grown.insert name q) where
  settings := h.settings
  taken n := by rw [isTaken_insert, h.taken, List.contains_cons, Bool.or_assoc]

theorem vet_eq (h : r.GrownBy seen grown) (name : String) :
    grown.vet name = r.vetAfter seen name := by
  by_cases hname : IsTypeName name.toList
  · rw [vetAfter, vet_of_isTypeName hname, vet_of_isTypeName hname, h.settings, h.taken]
    cases r.settings.allowOverwrite <;> cases r.isTaken name <;> cases seen.contains name <;> rfl
  · obtain ⟨flaw, hvet⟩ := exists_flaw_of_not_isTypeName hname
    rw [vetAfter, hvet, hvet]
    rfl

/-- The batch comes as far as the registrations one by one, and to the same end. -/
theorem run_registrations (h : r.GrownBy seen grown) (entries : List (String × Source)) :
    match r.stage seen entries with
    | .ok staged => grown.run (registrations entries) = .ended (grown.insertAll staged)
    | .error e => (grown.run (registrations entries)).error = some e := by
  -- An entry that is defined here joins the names seen there, and the two stay in step.
  induction entries generalizing seen grown with
  | nil => rfl
  | cons entry rest ih =>
    obtain ⟨name, source⟩ := entry
    rw [stage_cons, run_registrations_cons]
    cases hq : source.toRequirement with
    | error e =>
      rw [register_of_error hq]
      rfl
    | ok q =>
      have hvet := h.vet_eq name
      cases hafter : r.vetAfter seen name with
      | error e =>
        rw [register_of_vet_error hq (hvet.trans hafter)]
        rfl
      | ok _ =>
        have hrest := ih (h.insert name q)
        rw [register_of_vet_ok hq (hvet.trans hafter)]
        cases hs : r.stage (name :: seen) rest with
        | error e =>
          rw [hs] at hrest
          exact hrest
        | ok staged =>
          rw [hs] at hrest
          dsimp only at hrest ⊢
          rw [Run.andThen_of_end rfl, hrest]
          rfl

end GrownBy

/-- A batch is the run of its registrations if that comes to its end, and fails with the error of
that run otherwise. -/
theorem registerAll_eq (r : Registry) (entries : List (String × Source)) :
    r.registerAll entries =
      if (r.run (registrations entries)).error.isNone then r.run (registrations entries)
      else ⟨r, [], (r.run (registrations entries)).error⟩ := by
  have hcourse := (GrownBy.refl r).run_registrations entries
  rw [registerAll]
  cases hs : r.stage [] entries with
  | error e =>
    have herror : (r.run (registrations entries)).error = some e := by
      simpa only [hs] using hcourse
    rw [herror]
    rfl
  | ok staged =>
    have hrun : r.run (registrations entries) = .ended (r.insertAll staged) := by
      simpa only [hs] using hcourse
    rw [hrun]
    rfl

theorem error_registerAll (r : Registry) (entries : List (String × Source)) :
    (r.registerAll entries).error = (r.run (registrations entries)).error := by
  rw [registerAll_eq]
  split <;> rfl

theorem registerAll_of_end {r : Registry} {entries : List (String × Source)}
    (h : (r.registerAll entries).error = none) :
    r.registerAll entries = r.run (registrations entries) ∧
      (r.run (registrations entries)).error = none := by
  rw [error_registerAll] at h
  rw [registerAll_eq, h, Option.isNone_none, if_pos rfl]
  exact ⟨rfl, rfl⟩

/-! ## All that an operation does -/

/-- What an operation can do to `r`: fail and change nothing, define a name, do what its
registrations do one by one, forget all names, or allow overwriting. -/
inductive Effect (r : Registry) : Operation → Run → Prop
  | fails (op : Operation) (e : ConfigurationError) : Effect r op ⟨r, [], some e⟩
  | defines {name : String} {source : Source} {q : Requirement}
    (converts : source.toRequirement = .ok q) (admits : r.Admits name) :
    Effect r (.register name source)
      ⟨r.insert name q, [.registered name (r.get? name).isSome], none⟩
  | batch {entries : List (String × Source)}
    (ends : (r.run (registrations entries)).error = none) :
    Effect r (.registerAll entries) (r.run (registrations entries))
  | clears : Effect r .clear ⟨withSettings r.settings, [.cleared r.size], none⟩
  | allows : Effect r .allowOverwriting (.ended r.allowOverwriting)

theorem effect_apply (r : Registry) (op : Operation) : r.Effect op (r.apply op) := by
  cases op with
  | register name source =>
    obtain ⟨e, hfails⟩ | ⟨q, hq, hadmits, hends⟩ := register_cases r name source
    · rw [apply, hfails]
      exact .fails _ e
    · rw [apply, hends]
      exact .defines hq hadmits
  | registerAll entries =>
    rw [apply, registerAll_eq]
    cases herror : (r.run (registrations entries)).error with
    | none =>
      rw [Option.isNone_none, if_pos rfl]
      exact .batch herror
    | some e =>
      rw [Option.isNone_some, if_neg Bool.false_ne_true]
      exact .fails _ e
  | clear => exact .clears
  | allowOverwriting => exact .allows

theorem Effect.eq_of_error {r : Registry} {op : Operation} {run : Run} {e : ConfigurationError}
    (h : r.Effect op run) (herror : run.error = some e) : run = ⟨r, [], some e⟩ := by
  cases h with
  | fails op d =>
    cases herror
    rfl
  | batch ends => cases ends.symm.trans herror
  | defines | clears | allows => cases herror

/-- An operation that fails leaves the registry as it was, and reports no event. -/
theorem apply_of_error {r : Registry} {op : Operation} {e : ConfigurationError}
    (h : (r.apply op).error = some e) : r.apply op = ⟨r, [], some e⟩ :=
  (r.effect_apply op).eq_of_error h

/-! ## Batches as transactions -/

/-- A batch is a transaction. If its entries can be registered one by one, it leaves the registry
that they leave, in which each name stands for what its last entry says; otherwise it fails as the
first of them that fails, and the registry stays as it is. -/
theorem registerAll_transactional (r : Registry) (entries : List (String × Source)) :
    let each := r.run (registrations entries)
    r.registerAll entries = (if each.error.isNone then each else ⟨r, [], each.error⟩) ∧
      r.run [.registerAll entries] = r.registerAll entries ∧
      ∀ result events, r.registerAll entries = ⟨result, events, none⟩ →
        ∀ before name source after, entries = before ++ (name, source) :: after →
          (∀ entry ∈ after, entry.1 ≠ name) →
          ∃ q, source.toRequirement = .ok q ∧ result.get? name = some q := by
  intro each
  refine ⟨registerAll_eq r entries, run_singleton r _, ?_⟩
  rintro result events hok before name source after rfl hlast
  obtain ⟨heach, herror⟩ := registerAll_of_end (congrArg Run.error hok)
  have hresult : each.registry = result := congrArg Run.registry (heach.symm.trans hok)
  rw [← hresult]
  exact get?_run_registrations_of_last herror hlast

/-- With overwriting the second of two entries of one name counts; without it the batch fails, with
the error of the second registration. -/
theorem registerAll_transactional_repeated :
    (∃ result events, (withSettings { allowOverwrite := true }).registerAll
        [("id", .built (.type (.named "int" false))), ("id", .built (.shape []))] =
          ⟨result, events, none⟩ ∧ result.get? "id" = some (.shape [])) ∧
      (withSettings {}).run [.registerAll
        [("id", .built (.type (.named "int" false))), ("id", .built (.shape []))]] =
          ⟨withSettings {}, [], some (.duplicateName "id")⟩ := by
  constructor
  · obtain ⟨hall, -, hlast⟩ := registerAll_transactional (withSettings { allowOverwrite := true })
      [("id", .built (.type (.named "int" false))), ("id", .built (.shape []))]
    obtain ⟨q, hq, hget⟩ := hlast _ _ hall [("id", .built (.type (.named "int" false)))] "id"
      (.built (.shape [])) [] rfl nofun
    cases hq
    exact ⟨_, _, hall, hget⟩
  · obtain ⟨hall, hrun, -⟩ := registerAll_transactional (withSettings {})
      [("id", .built (.type (.named "int" false))), ("id", .built (.shape []))]
    exact hrun.trans hall

end Registry

end Conformance
