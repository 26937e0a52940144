import Conformance.Proofs.Registry.Batch
import Conformance.Proofs.TypeExpr.RoundTrip

/-!
# What holds of a registry throughout

`r.after operations` is the registry after operations of which some may have failed. Whatever they
were, a registry that began without registered types is well kept (`WellKept`): its names are type
names, and without overwriting none of them is reserved. Between two times without a `clear` the
registry only grows (`Grows`), and without overwriting a definition stands. `invariant_after` says
all of it.
-/

namespace Conformance

/-- The bounds are the same, and overwriting is not turned off. -/
structure Settings.Continues (s later : Settings) : Prop where
  maxDepth : later.maxDepth = s.maxDepth
  maxNesting : later.maxNesting = s.maxNesting
  allowOverwrite : s.allowOverwrite → later.allowOverwrite

theorem Settings.Continues.refl (s : Settings) : s.Continues s := ⟨rfl, rfl, id⟩

theorem Settings.Continues.trans {s₁ s₂ s₃ : Settings} (h : s₁.Continues s₂)
    (h' : s₂.Continues s₃) : s₁.Continues s₃ where
  maxDepth := h'.maxDepth.trans h.maxDepth
  maxNesting := h'.maxNesting.trans h.maxNesting
  allowOverwrite ho := h'.allowOverwrite (h.allowOverwrite ho)

namespace Registry

/-- The registry after the operations, one after the other, whether they take place or fail. -/
def after (r : Registry) (operations : List Operation) : Registry :=
  operations.foldl (fun r op => (r.apply op).registry) r

variable {r r' : Registry}

/-! ## Growth -/

/-- From `r` on, names were defined that could be, and perhaps overwriting was allowed. -/
inductive Grows (r : Registry) : Registry → Prop
  | refl : Grows r r
  | define {r' : Registry} {name : String} (grows : Grows r r') (admits : r'.Admits name)
    (q : Requirement) : Grows r (r'.insert name q)
  | allow {r' : Registry} (grows : Grows r r') : Grows r r'.allowOverwriting.1

theorem Grows.trans {r'' : Registry} (h : r.Grows r') (h' : r'.Grows r'') : r.Grows r'' := by
  induction h' with
  | refl => exact h
  | define _ admits q ih => exact .define ih admits q
  | allow _ ih => exact .allow ih

theorem Grows.continues (h : r.Grows r') : r.settings.Continues r'.settings := by
  induction h with
  | refl => exact .refl _
  | define _ _ _ ih => exact ih
  | allow _ ih => exact ih.trans ⟨rfl, rfl, fun _ => rfl⟩

theorem Grows.get?_eq_some (h : r.Grows r') (hoff : r'.settings.allowOverwrite = false)
    {name : String} {q : Requirement} (hq : r.get? name = some q) : r'.get? name = some q := by
  induction h with
  | refl => exact hq
  | @define s n _ admits d ih =>
    have hs := ih hoff
    have hunknown : s.isTaken n = false := by
      rw [isTaken_eq_knows]
      exact admits.2 hoff
    have hne : name ≠ n := by
      rintro rfl
      simp [isTaken, hs] at hunknown
    rw [get?_insert, if_neg hne, hs]
  | allow _ _ => cases hoff

theorem grows_run_registrations {entries : List (String × Source)}
    (h : (r.run (registrations entries)).error = none) :
    r.Grows (r.run (registrations entries)).registry := by
  induction entries generalizing r with
  | nil => exact .refl
  | cons entry rest ih =>
    obtain ⟨name, source⟩ := entry
    obtain ⟨q, -, hadmits, hrun, herror⟩ := exists_of_run_registrations h
    rw [hrun]
    exact Grows.trans (.define .refl hadmits q) (ih herror)

theorem Effect.grows {op : Operation} {run : Run} (h : r.Effect op run) (hop : op ≠ .clear) :
    r.Grows run.registry := by
  cases h with
  | fails => exact .refl
  | defines _ admits => exact .define .refl admits _
  | batch ends => exact grows_run_registrations ends
  | clears => exact absurd rfl hop
  | allows => exact .allow .refl

theorem apply_clear (r : Registry) : (r.apply .clear).registry = withSettings r.settings := rfl

theorem grows_after {operations : List Operation} (h : .clear ∉ operations) :
    r.Grows (r.after operations) := by
  induction operations generalizing r with
  | nil => exact .refl
  | cons op rest ih =>
    have hop : op ≠ .clear := fun he => h (he ▸ List.mem_cons_self)
    have hrest : .clear ∉ rest := fun hr => h (List.mem_cons_of_mem _ hr)
    exact ((r.effect_apply op).grows hop).trans (ih hrest)

/-- What growth keeps, and what is true again of a registry that was cleared, is true throughout. -/
theorem after_induction {P : Registry → Prop}
    (hgrows : ∀ {s s' : Registry}, s.Grows s' → P s → P s')
    (hclear : ∀ s : Registry, P s → P (withSettings s.settings)) (h : P r)
    (operations : List Operation) : P (r.after operations) := by
  induction operations generalizing r with
  | nil => exact h
  | cons op rest ih =>
    have hop : P (r.apply op).registry := by
      by_cases hop : op = .clear
      · rw [hop, apply_clear]
        exact hclear r h
      · exact hgrows ((r.effect_apply op).grows hop) h
    exact ih hop

theorem continues_after (r : Registry) (operations : List Operation) :
    r.settings.Continues (r.after operations).settings :=
  after_induction (P := fun s => r.settings.Continues s.settings)
    (fun hgrows h => h.trans hgrows.continues) (fun _ h => h) (.refl _) operations

/-! ## Well-kept registries -/

theorem mem_names_insert {name n : String} {q : Requirement} (h : n ∈ (r.insert name q).names) :
    n = name ∨ n ∈ r.names := by
  obtain ⟨entry, hentry, rfl⟩ := List.mem_map.1 h
  rcases Entries.mem_insert hentry with rfl | hentry
  · exact .inl rfl
  · exact .inr (List.mem_map_of_mem hentry)

theorem get?_eq_none_of_not_mem_names {name : String} (h : name ∉ r.names) :
    r.get? name = none :=
  Option.not_isSome_iff_eq_none.1 (mt mem_names_iff.2 h)

def Unreserved (name : String) : Prop := Builtin.ofName? name = none ∧ Kind.ofName? name = none

theorem unreserved_of_not_knows {name : String} (h : r.knows name = false) : Unreserved name := by
  rw [← isTaken_eq_knows] at h
  simp only [isTaken, Bool.or_eq_false_iff, Option.isSome_eq_false_iff, Option.isNone_iff_eq_none]
    at h
  exact ⟨h.1.2, h.2⟩

/-- The registered names are type names, and without overwriting none of them is reserved. -/
structure WellKept (r : Registry) : Prop where
  typeName : ∀ name ∈ r.names, IsTypeName name.toList
  unreserved : r.settings.allowOverwrite = false → ∀ name ∈ r.names, Unreserved name

theorem wellKept_withSettings (settings : Settings) : (withSettings settings).WellKept where
  typeName _ h := nomatch h
  unreserved _ _ h := nomatch h

theorem Grows.wellKept (h : r.Grows r') (hr : r.WellKept) : r'.WellKept := by
  induction h with
  | refl => exact hr
  | define _ admits q ih =>
    constructor
    · intro n hn
      rcases mem_names_insert hn with rfl | hn
      · exact admits.1
      · exact ih.typeName n hn
    · intro hoff n hn
      rcases mem_names_insert hn with rfl | hn
      · exact unreserved_of_not_knows (admits.2 hoff)
      · exact ih.unreserved hoff n hn
  | allow _ ih => exact ⟨ih.typeName, nofun⟩

theorem WellKept.after (h : r.WellKept) (operations : List Operation) :
    (r.after operations).WellKept :=
  after_induction Grows.wellKept (fun s _ => wellKept_withSettings s.settings) h operations

theorem WellKept.lookup_builtin (h : r.WellKept) (hoff : r.settings.allowOverwrite = false)
    (b : Builtin) : r.lookup b.name = some (.builtin b) := by
  have hb : Builtin.ofName? b.name = some b := Builtin.ofName?_name b
  have hmem : b.name ∉ r.names := by
    intro hmem
    cases hb.symm.trans (h.unreserved hoff _ hmem).1
  simp only [lookup, get?_eq_none_of_not_mem_names hmem, hb]

theorem WellKept.lookup_primitive (h : r.WellKept) (hoff : r.settings.allowOverwrite = false)
    {k : Kind} (hk : Builtin.ofName? k.name = none) : r.lookup k.name = some (.primitive k) := by
  have hkind : Kind.ofName? k.name = some k := Kind.ofName?_name k
  have hmem : k.name ∉ r.names := by
    intro hmem
    cases hkind.symm.trans (h.unreserved hoff _ hmem).2
  simp only [lookup, get?_eq_none_of_not_mem_names hmem, hk, hkind, Option.map_some]

theorem register_eq_error_iff {name : String} {source : Source} {q : Requirement}
    (hname : IsTypeName name.toList) (hq : source.toRequirement = .ok q) :
    (∃ e, (r.register name source).error = some e) ↔
      r.settings.allowOverwrite = false ∧ r.knows name = true := by
  simp only [register, hq, vet_of_isTypeName hname, isTaken_eq_knows]
  cases r.settings.allowOverwrite <;> cases r.knows name <;> simp

/-- What holds after any operations, taking place or failing, in a registry that began without
registered types: of its names, of the reserved names while overwriting is off (`object` is a
built-in type before it is a kind), of its settings from the beginning and from now on, of its
definitions until they are cleared, of operations that fail, and of registrations that could take
place. -/
theorem invariant_after (settings : Settings) (operations : List Operation) :
    let r := (withSettings settings).after operations
    (∀ name ∈ r.names, IsTypeName name.toList ∧ TypeExpr.parse name = .ok (.named name false)) ∧
      (r.settings.allowOverwrite = false →
        (∀ name ∈ r.names, Builtin.ofName? name = none ∧ Kind.ofName? name = none) ∧
        (∀ b : Builtin, r.lookup b.name = some (.builtin b)) ∧
        ∀ k : Kind, Builtin.ofName? k.name = none → r.lookup k.name = some (.primitive k)) ∧
      settings.Continues r.settings ∧
      (∀ later, r.settings.Continues (r.after later).settings) ∧
      (∀ later name q, .clear ∉ later → (r.after later).settings.allowOverwrite = false →
        r.get? name = some q → (r.after later).get? name = some q) ∧
      (∀ op e, (r.apply op).error = some e → (r.apply op).registry = r ∧ r.after [op] = r) ∧
      ∀ name source q, IsTypeName name.toList → source.toRequirement = .ok q →
        ((∃ e, (r.register name source).error = some e) ↔
          r.settings.allowOverwrite = false ∧ r.knows name = true) := by
  intro r
  have hr : r.WellKept := (wellKept_withSettings settings).after operations
  refine ⟨fun name hname => ?_, fun hoff => ⟨hr.unreserved hoff, hr.lookup_builtin hoff, ?_⟩,
    continues_after (withSettings settings) operations, continues_after r, ?_, ?_, ?_⟩
  · have htype := hr.typeName name hname
    exact ⟨htype, TypeExpr.parse_of_isTypeName htype⟩
  · exact fun k hk => hr.lookup_primitive hoff hk
  · exact fun later name q hclear hoff hq => (grows_after hclear).get?_eq_some hoff hq
  · intro op e herror
    have hsame : (r.apply op).registry = r := congrArg Run.registry (apply_of_error herror)
    exact ⟨hsame, hsame⟩
  · exact fun name source q hname hq => register_eq_error_iff hname hq

/-- An attempt to take the name of a built-in type and a batch with a name that is taken fail, and
so does a second definition. -/
theorem invariant_after_refusals :
    let int : Requirement := .type (.named "int" false)
    let text : Requirement := .type (.named "string" false)
    let r := (withSettings {}).after [.register "id" (.built int), .register "int" (.built text),
      .registerAll [("name", .built text), ("id", .built text)]]
    r.names = ["id"] ∧ TypeExpr.parse "id" = .ok (.named "id" false) ∧
      r.lookup "int" = some (.builtin .int) ∧ r.lookup "string" = some (.primitive .string) ∧
      (r.after [.register "id" (.built text), .register "name" (.built text)]).get? "id" =
        some int ∧
      ∃ e, (r.register "id" (.built text)).error = some e := by
  intro int text r
  obtain ⟨hnames, hreserved, -, -, hkept, -, hrefused⟩ := invariant_after {} [.register "id"
    (.built int), .register "int" (.built text),
    .registerAll [("name", .built text), ("id", .built text)]]
  have hid : r.names = ["id"] := rfl
  have hmem : "id" ∈ r.names := hid ▸ List.mem_cons_self
  obtain ⟨htype, hparse⟩ := hnames "id" hmem
  obtain ⟨-, hbuiltin, hprimitive⟩ := hreserved rfl
  exact ⟨hid, hparse, hbuiltin .int, hprimitive .string rfl,
    hkept _ "id" int (by simp) rfl rfl, (hrefused "id" (.built text) text htype rfl).2 ⟨rfl, rfl⟩⟩

end Registry

end Conformance
