import Conformance.Proofs.Entries
import Conformance.Proofs.Matching.Level
import Conformance.Proofs.Registry.Batch

/-!
# Batches in another order

Whether a batch is accepted says nothing of the order of its entries
(`registerAll_error_eq_none_iff`): each has to be one that could be registered alone, and without
overwriting no two may have one name. Where the names are all different, each then stands for its
own entry, and a registry is known by what its names stand for (`eq_of_get?_eq`). So a batch in
another order leaves the same registry (`registerAll_perm`).
-/

namespace Conformance

namespace Registry

variable {r r' : Registry} {entries : List (String × Source)}

theorem eq_of_get?_eq (hsettings : r.settings = r'.settings)
    (h : ∀ name, r.get? name = r'.get? name) : r = r' := by
  have htypes : r.types = r'.types := Entries.eq_of_lookup_eq r.ordered r'.ordered h
  cases r
  cases r'
  cases hsettings
  cases htypes
  rfl

/-! ## Which batches are accepted -/

theorem admits_insert {name n : String} {q : Requirement} :
    (r.insert name q).Admits n ↔
      r.Admits n ∧ (r.settings.allowOverwrite = false → n ≠ name) := by
  unfold Admits
  rw [← isTaken_eq_knows, ← isTaken_eq_knows, isTaken_insert]
  show _ ∧ (r.settings.allowOverwrite = false → _) ↔ _
  rw [Bool.or_eq_false_iff, beq_eq_false_iff_ne, imp_and, and_assoc,
    and_comm (a := (r.settings.allowOverwrite = false → n ≠ name))]

/-- Each of the entries could be registered alone, and without overwriting their names differ. -/
structure Accepts (r : Registry) (entries : List (String × Source)) : Prop where
  converts : ∀ entry ∈ entries, ∃ q, entry.2.toRequirement = .ok q
  admits : ∀ entry ∈ entries, r.Admits entry.1
  distinct : r.settings.allowOverwrite = false → (entries.map (·.1)).Nodup

theorem accepts_cons {name : String} {source : Source} {rest : List (String × Source)} :
    r.Accepts ((name, source) :: rest) ↔
      ∃ q, source.toRequirement = .ok q ∧ r.Admits name ∧ (r.insert name q).Accepts rest := by
  constructor
  · rintro ⟨hconverts, hadmits, hdistinct⟩
    obtain ⟨⟨q, hq⟩, hconverts⟩ := List.forall_mem_cons.1 hconverts
    obtain ⟨hname, hadmits⟩ := List.forall_mem_cons.1 hadmits
    refine ⟨q, hq, hname, hconverts, fun entry hentry => ?_, fun hoff => ?_⟩
    · refine admits_insert.2 ⟨hadmits entry hentry, fun hoff hsame => ?_⟩
      exact (List.nodup_cons.1 (hdistinct hoff)).1 (List.mem_map.2 ⟨entry, hentry, hsame⟩)
    · exact (List.nodup_cons.1 (hdistinct hoff)).2
  · rintro ⟨q, hq, hname, hconverts, hadmits, hdistinct⟩
    refine ⟨List.forall_mem_cons.2 ⟨⟨q, hq⟩, hconverts⟩, List.forall_mem_cons.2 ⟨hname, ?_⟩,
      fun hoff => List.nodup_cons.2 ⟨fun hmem => ?_, hdistinct hoff⟩⟩
    · exact fun entry hentry => (admits_insert.1 (hadmits entry hentry)).1
    · obtain ⟨entry, hentry, hsame⟩ := List.mem_map.1 hmem
      exact (admits_insert.1 (hadmits entry hentry)).2 hoff hsame

/-- Entries are accepted one after the other exactly if they are accepted together. -/
theorem run_registrations_error_eq_none_iff :
    (r.run (registrations entries)).error = none ↔ r.Accepts entries := by
  induction entries generalizing r with
  | nil => exact ⟨fun _ => ⟨nofun, nofun, fun _ => .nil⟩, fun _ => rfl⟩
  | cons entry rest ih =>
    obtain ⟨name, source⟩ := entry
    rw [accepts_cons]
    constructor
    · intro h
      obtain ⟨q, hq, hname, -, hrest⟩ := exists_of_run_registrations h
      exact ⟨q, hq, hname, ih.1 hrest⟩
    · rintro ⟨q, hq, hname, hrest⟩
      have hregister := register_of_vet_ok hq (vet_eq_ok_iff.2 hname)
      rw [run_registrations_cons, hregister]
      exact ih.2 hrest

theorem registerAll_error_eq_none_iff :
    (r.registerAll entries).error = none ↔ r.Accepts entries := by
  rw [error_registerAll, run_registrations_error_eq_none_iff]

theorem Accepts.perm {entries' : List (String × Source)} (h : r.Accepts entries)
    (hperm : entries'.Perm entries) : r.Accepts entries' where
  converts entry hentry := h.converts entry (hperm.mem_iff.1 hentry)
  admits entry hentry := h.admits entry (hperm.mem_iff.1 hentry)
  distinct hoff := (hperm.map _).nodup_iff.2 (h.distinct hoff)

/-! ## What they leave -/

theorem settings_run_registrations (r : Registry) (entries : List (String × Source)) :
    (r.run (registrations entries)).registry.settings = r.settings := by
  induction entries generalizing r with
  | nil => rfl
  | cons entry rest ih =>
    obtain ⟨name, source⟩ := entry
    rw [run_registrations_cons]
    obtain ⟨e, hfails⟩ | ⟨q, -, -, hends⟩ := register_cases r name source
    · rw [hfails]
      rfl
    · rw [hends]
      exact ih (r.insert name q)

/-- `r'` is `r` with each of the entries defined. -/
structure DefinedBy (r : Registry) (entries : List (String × Source)) (r' : Registry) : Prop where
  settings : r'.settings = r.settings
  own : ∀ name source, (name, source) ∈ entries →
    ∃ q, source.toRequirement = .ok q ∧ r'.get? name = some q
  other : ∀ name, (∀ entry ∈ entries, entry.1 ≠ name) → r'.get? name = r.get? name

theorem definedBy_of_registerAll {events : List Event} (hdistinct : (entries.map (·.1)).Nodup)
    (h : r.registerAll entries = ⟨r', events, none⟩) : r.DefinedBy entries r' := by
  obtain ⟨heach, herror⟩ := registerAll_of_end (congrArg Run.error h)
  obtain rfl : (r.run (registrations entries)).registry = r' :=
    congrArg Run.registry (heach.symm.trans h)
  refine ⟨settings_run_registrations r entries, fun name source hentry => ?_, fun name =>
    get?_run_registrations_of_forall_ne herror⟩
  obtain ⟨before, after, rfl⟩ := List.append_of_mem hentry
  refine get?_run_registrations_of_last herror fun entry hafter hsame => ?_
  rw [List.map_append, List.map_cons, List.nodup_append] at hdistinct
  exact (List.nodup_cons.1 hdistinct.2.1).1 (List.mem_map.2 ⟨entry, hafter, hsame⟩)

theorem DefinedBy.unique {r'' : Registry} (h : r.DefinedBy entries r')
    (h' : r.DefinedBy entries r'') : r' = r'' := by
  refine eq_of_get?_eq (h.settings.trans h'.settings.symm) fun name => ?_
  by_cases hname : ∃ source, (name, source) ∈ entries
  · obtain ⟨source, hentry⟩ := hname
    obtain ⟨q, hq, hget⟩ := h.own name source hentry
    obtain ⟨q', hq', hget'⟩ := h'.own name source hentry
    obtain rfl : q = q' := Except.ok.inj (hq.symm.trans hq')
    rw [hget, hget']
  · have hother : ∀ entry ∈ entries, entry.1 ≠ name := by
      rintro ⟨n, source⟩ hentry rfl
      exact hname ⟨source, hentry⟩
    rw [h.other name hother, h'.other name hother]

theorem DefinedBy.perm {entries' : List (String × Source)} (h : r.DefinedBy entries r')
    (hperm : entries'.Perm entries) : r.DefinedBy entries' r' where
  settings := h.settings
  own name source hentry := h.own name source (hperm.mem_iff.1 hentry)
  other name hother := h.other name fun entry hentry => hother entry (hperm.mem_iff.2 hentry)

/-- The order of a batch does not matter, if names that are taken may not be defined again or the
names of the batch differ: one order is accepted exactly if every other is, and all that are
accepted leave one registry. In it each name of the batch stands for the requirement of its entry,
whatever comes before or after it. -/
theorem registerAll_perm (r : Registry) (entries : List (String × Source))
    (h : r.settings.allowOverwrite = false ∨ (entries.map (·.1)).Nodup) :
    (∀ entries', entries'.Perm entries →
      ((r.registerAll entries').error = none ↔ (r.registerAll entries).error = none)) ∧
      ∀ entries₁ entries₂, entries₁.Perm entries → entries₂.Perm entries →
        ∀ r₁ events₁ r₂ events₂, r.registerAll entries₁ = ⟨r₁, events₁, none⟩ →
          r.registerAll entries₂ = ⟨r₂, events₂, none⟩ →
          r₁ = r₂ ∧ (∀ q v, r₁.assess q v = r₂.assess q v) ∧
            ∀ name source, (name, source) ∈ entries →
              ∃ q, source.toRequirement = .ok q ∧ r₁.lookup name = some (.user q) := by
  refine ⟨fun entries' hperm => ?_,
    fun entries₁ entries₂ hperm₁ hperm₂ r₁ events₁ r₂ events₂ h₁ h₂ => ?_⟩
  · rw [registerAll_error_eq_none_iff, registerAll_error_eq_none_iff]
    exact ⟨fun haccepts => haccepts.perm hperm.symm, fun haccepts => haccepts.perm hperm⟩
  · have haccepts : r.Accepts entries :=
      (registerAll_error_eq_none_iff.1 (congrArg Run.error h₁)).perm hperm₁.symm
    have hdistinct : (entries.map (·.1)).Nodup := h.elim haccepts.distinct id
    have hdefined (entries' : List (String × Source)) (hperm : entries'.Perm entries)
        (r' : Registry) (events : List Event) (hok : r.registerAll entries' = ⟨r', events, none⟩) :
        r.DefinedBy entries r' :=
      (definedBy_of_registerAll ((hperm.map _).nodup_iff.2 hdistinct) hok).perm hperm.symm
    have hdefined₁ := hdefined entries₁ hperm₁ r₁ events₁ h₁
    obtain rfl := hdefined₁.unique (hdefined entries₂ hperm₂ r₂ events₂ h₂)
    refine ⟨rfl, fun _ _ => rfl, fun name source hentry => ?_⟩
    obtain ⟨q, hq, hget⟩ := hdefined₁.own name source hentry
    exact ⟨q, hq, lookup_eq_user_iff.2 hget⟩

/-- The first entry refers to the second: the batch and its reverse leave one registry, in which the
reference is resolved. -/
theorem registerAll_perm_reference :
    let leaf : Requirement := .type (.named "int" false)
    let tree : Requirement := .shape [("left", .type (.named "leaf" false))]
    ∃ result events events',
      (withSettings {}).registerAll [("tree", .built tree), ("leaf", .built leaf)] =
          ⟨result, events, none⟩ ∧
        (withSettings {}).registerAll [("leaf", .built leaf), ("tree", .built tree)] =
          ⟨result, events', none⟩ ∧
        result.lookup "tree" = some (.user tree) ∧ result.lookup "leaf" = some (.user leaf) := by
  intro leaf tree
  obtain ⟨haccepted, hsame⟩ := registerAll_perm (withSettings {})
    [("tree", .built tree), ("leaf", .built leaf)] (.inl rfl)
  have hswap : [("leaf", Source.built leaf), ("tree", .built tree)].Perm
      [("tree", .built tree), ("leaf", .built leaf)] := .swap _ _ _
  obtain ⟨r₁, events, h₁⟩ : ∃ r₁ events, (withSettings {}).registerAll
      [("tree", .built tree), ("leaf", .built leaf)] = ⟨r₁, events, none⟩ := ⟨_, _, rfl⟩
  obtain ⟨r₂, events', h₂⟩ : ∃ r₂ events', (withSettings {}).registerAll
      [("leaf", .built leaf), ("tree", .built tree)] = ⟨r₂, events', none⟩ :=
    ⟨_, _, Run.eq_of_end ((haccepted _ hswap).2 (congrArg Run.error h₁))⟩
  obtain ⟨rfl, -, hlookup⟩ := hsame _ _ (.refl _) hswap _ _ _ _ h₁ h₂
  obtain ⟨q, hq, htree⟩ := hlookup "tree" (.built tree) (by simp)
  obtain ⟨q', hq', hleaf⟩ := hlookup "leaf" (.built leaf) (by simp)
  cases hq
  cases hq'
  exact ⟨r₁, events, events', h₁, h₂, htree, hleaf⟩

end Registry

end Conformance
