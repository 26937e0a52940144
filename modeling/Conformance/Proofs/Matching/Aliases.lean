import Conformance.Proofs.Matching.Walk
import Conformance.Proofs.Registry.Registration
import Mathlib.Data.List.Chain
import Mathlib.Data.List.Perm.Subperm

/-!
# Aliases and the bound on names

A registered type is an alias if it is defined as another registered type, with or without the
marker. The names that a walk resolves in a row are a chain of aliases, or two such chains: one that
leads to a shape, and one that is followed for a field that the shape misses. Without a cycle of
aliases a chain is no longer than there are registered types, and so the bound on names in a row is
met for an absent field only (`depthExceeded_of_acyclic`).
-/

namespace Conformance

open Matched Matching

namespace Registry

/-- The type `n` is defined as the registered type `m`. -/
def Alias (r : Registry) (n m : String) : Prop :=
  (∃ optional, r.get? n = some (.type (.named m optional))) ∧ (r.get? m).isSome

def Acyclic (r : Registry) : Prop := ∀ n, ¬ Relation.TransGen r.Alias n n

/-- Resolving the names one after the other leads from `q` to `p`. -/
inductive Unfolds (r : Registry) (q : Requirement) : List String → Requirement → Prop
  | refl : Unfolds r q [] q
  | snoc {names : List String} {name : String} {optional : Bool} {p : Requirement}
    (unfolds : Unfolds r q names (.type (.named name optional))) (resolved : r.get? name = some p) :
    Unfolds r q (names ++ [name]) p

variable {r : Registry} {q p : Requirement} {names : List String}

theorem Unfolds.get?_getLast? (h : r.Unfolds q names p) :
    ∀ name ∈ names.getLast?, r.get? name = some p := by
  cases h with
  | refl => exact nofun
  | snoc _ resolved =>
    intro name hname
    rw [List.getLast?_concat, Option.mem_some] at hname
    rw [← hname, resolved]

theorem Unfolds.isSome_get? (h : r.Unfolds q names p) :
    ∀ name ∈ names, (r.get? name).isSome := by
  induction h with
  | refl => exact nofun
  | snoc _ resolved ih =>
    refine List.forall_mem_append.2 ⟨ih, ?_⟩
    rw [List.forall_mem_singleton, resolved]
    rfl

theorem Unfolds.isChain (h : r.Unfolds q names p) : names.IsChain r.Alias := by
  induction h with
  | refl => exact .nil
  | @snoc names name optional p unfolds resolved ih =>
    refine ih.append (.singleton name) fun n hn m hm => ?_
    obtain rfl : name = m := Option.some.inj hm
    exact ⟨⟨optional, unfolds.get?_getLast? n hn⟩, by rw [resolved]; rfl⟩

theorem Unfolds.length_le_size (h : r.Unfolds q names p) (hacyclic : r.Acyclic) :
    names.length ≤ r.size := by
  have hpairs : names.Pairwise (Relation.TransGen r.Alias) :=
    (h.isChain.imp fun _ _ => .single).pairwise
  have hnodup : names.Nodup := by
    refine hpairs.imp fun {n m} hnm heq => ?_
    subst heq
    exact hacyclic n hnm
  have hsubset : names ⊆ r.names := fun name hname => mem_names_iff.2 (h.isSome_get? name hname)
  exact (hnodup.subperm hsubset).length_le.trans_eq (List.length_map ..)

end Registry

namespace Matching

variable (r : Registry)

/-- The walk comes to a shape at a value that misses a declared field, which is required to be
`required`. -/
inductive Misses (c₀ : Call) : Trail → Requirement → Prop
  | intro {t : Trail} {fields : Shape} {v : Value} {d : Depth} {name : String}
    {required : Requirement} (walk : Walk r c₀ t (.shape fields v d))
    (declared : (name, required) ∈ fields) (absent : v.present? name = none) : Misses c₀ t required

/-- What the names that were resolved in a row lead to: the requirement at hand or, for an absent
field, first the shape that declares it and then, from what is required of it, the requirement at
hand. -/
def Unfolded (c₀ : Call) (t : Trail) : Call → Prop
  | .absence p _ => ∃ lead tail required, t.names = lead ++ tail ∧
    Misses r c₀ ⟨t.path, lead⟩ required ∧ r.Unfolds required tail p
  | c => ∃ q, r.Unfolds q t.names c.subject

variable {r} {c : Call} {t : Trail} {q p : Requirement} {v : Value}

theorem Walk.unfolded (h : Walk r (start q v) t c) : Unfolded r (start q v) t c := by
  induction h with
  | refl => exact ⟨q, .refl⟩
  | @step t c c' m walk makes ih =>
    cases makes with
    | type | shape | named | array => exact ih
    | definition resolved =>
      obtain ⟨p, hp⟩ := ih
      exact ⟨p, hp.snoc resolved⟩
    | item | field => exact ⟨_, .refl⟩
    | absent structured order conform absent =>
      exact ⟨t.names, [], _, (List.append_nil _).symm,
        .intro walk (order ▸ List.mem_append_cons_self) absent, .refl⟩
    | @absentDefinition name definition d within resolved =>
      obtain ⟨lead, tail, required, hnames, hmisses, htail⟩ := ih
      refine ⟨lead, tail ++ [name], required, ?_, hmisses, htail.snoc resolved⟩
      simp only [Trail.after, hnames, List.append_assoc]

theorem Misses.length_le_size (h : Misses r (start q v) t p) (hacyclic : r.Acyclic) :
    t.names.length ≤ r.size := by
  obtain ⟨walk, -, -⟩ := h
  obtain ⟨p, hp⟩ := walk.unfolded
  exact hp.length_le_size hacyclic

theorem Walk.length_le_size_or_absence (h : Walk r (start q v) t c) (hacyclic : r.Acyclic) :
    t.names.length ≤ r.size ∨
      ∃ lead tail required p d, c = .absence p d ∧ t.names = lead ++ tail ∧
        Misses r (start q v) ⟨t.path, lead⟩ required ∧ r.Unfolds required tail p := by
  have hunfolded := h.unfolded
  cases c with
  | absence p d =>
    obtain ⟨lead, tail, required, hrest⟩ := hunfolded
    exact .inr ⟨lead, tail, required, p, d, rfl, hrest⟩
  | _ =>
    obtain ⟨p, hp⟩ := hunfolded
    exact .inl (hp.length_le_size hacyclic)

/-- The names that led to a shape and those that were followed for a field that it misses are too
many together, though neither are more than there are registered types. -/
structure SpentOnAbsence (r : Registry) (q : Requirement) (v : Value) (lead tail : List String) :
    Prop where
  reached : ∃ path required p d, Walk r (start q v) ⟨path, lead ++ tail⟩ (.absence p d) ∧
    Misses r (start q v) ⟨path, lead⟩ required ∧ r.Unfolds required tail p
  lead_le : lead.length ≤ r.size
  tail_le : tail.length ≤ r.size
  spent : r.settings.maxDepth < lead.length + tail.length

end Matching

/-- With room for as many names as there are registered types, it takes two chains of aliases to meet
the bound. -/
theorem Registry.assess_eq_depthExceeded_iff {r : Registry} (hacyclic : r.Acyclic)
    (hsize : r.size ≤ r.settings.maxDepth) {q : Requirement} {v : Value} {limit : Nat} :
    r.assess q v = .error (.depthExceeded limit) ↔
      limit = r.settings.maxDepth ∧ ∃ lead tail, SpentOnAbsence r q v lead tail := by
  rw [assess_eq_error_iff]
  constructor
  · rintro ⟨⟨path, names⟩, c, hwalk, horigin⟩
    obtain ⟨spent⟩ := horigin
    rw [hwalk.depth_eq] at spent
    have spent : r.settings.maxDepth < names.length := spent
    rcases hwalk.length_le_size_or_absence hacyclic with hle | habsence
    · exact absurd spent (Nat.not_lt.2 (hle.trans hsize))
    · obtain ⟨lead, tail, required, p, d, rfl, rfl, hmisses, htail⟩ := habsence
      exact ⟨rfl, lead, tail, ⟨path, required, p, d, hwalk, hmisses, htail⟩,
        hmisses.length_le_size hacyclic, htail.length_le_size hacyclic,
        spent.trans_eq List.length_append⟩
  · rintro ⟨rfl, lead, tail, ⟨path, required, p, d, hwalk, -, -⟩, -, -, spent⟩
    refine ⟨_, _, hwalk, .depth ?_⟩
    rw [hwalk.depth_eq]
    exact spent.trans_eq List.length_append.symm

/-- Without a cycle of aliases, and with no more registered types than names may be resolved in a
row, that bound is met for an absent field only: exactly if the names that lead to its shape and
those that are followed for the field are too many together. With half as many types it is never
met. -/
theorem Registry.depthExceeded_of_acyclic {r : Registry} (hacyclic : r.Acyclic) :
    (r.size ≤ r.settings.maxDepth → ∀ q v limit, r.assess q v = .error (.depthExceeded limit) ↔
      limit = r.settings.maxDepth ∧ ∃ lead tail, SpentOnAbsence r q v lead tail) ∧
      (2 * r.size ≤ r.settings.maxDepth → ∀ q v limit,
        r.assess q v ≠ .error (.depthExceeded limit)) := by
  refine ⟨fun hsize q v limit => assess_eq_depthExceeded_iff hacyclic hsize, ?_⟩
  intro hsize q v limit h
  have hsize' : r.size ≤ r.settings.maxDepth := by omega
  obtain ⟨-, lead, tail, habsence⟩ := (assess_eq_depthExceeded_iff hacyclic hsize').1 h
  have hlead := habsence.lead_le
  have htail := habsence.tail_le
  have hspent := habsence.spent
  omega

/-- A chain of nodes, by way of a second name: a node may lack its link, as the link may be absent. -/
def Registry.linkTypes : Registry :=
  ((withSettings {}).insert "node" (.shape [("next", .type (.named "link" false))])).insert "link"
    (.type (.named "node" true))

theorem Registry.linkTypes_alias {n m : String} (h : linkTypes.Alias n m) :
    n = "link" ∧ m = "node" := by
  obtain ⟨⟨optional, hn⟩, -⟩ := h
  have hget : linkTypes.get? n = if n = "link" then some (.type (.named "node" true))
      else if n = "node" then some (.shape [("next", .type (.named "link" false))]) else none := by
    rw [linkTypes, get?_insert, get?_insert]
    rfl
  rw [hget] at hn
  split at hn
  · next hlink =>
    cases hn
    exact ⟨hlink, rfl⟩
  · split at hn <;> cases hn

theorem Registry.acyclic_linkTypes (depth nesting : Nat) :
    (linkTypes.withBounds depth nesting).Acyclic := by
  intro n hcycle
  obtain ⟨m, hfirst, -⟩ := Relation.TransGen.head'_iff.1 hcycle
  obtain ⟨k, -, hlast⟩ := Relation.TransGen.tail'_iff.1 hcycle
  have hn : n = "link" := (linkTypes_alias hfirst).1
  have hn' : n = "node" := (linkTypes_alias hlast).2
  exact absurd (hn'.symm.trans hn) (by decide)

/-- Two names lead to the shape of a node, and a third is resolved for the link that it lacks. With
room for three names the node is found to be as it should. -/
theorem Registry.depthExceeded_absentLink :
    let r := linkTypes.withBounds 2 10
    let q : Requirement := .type (.named "link" false)
    let node : Value := .object none []
    r.Acyclic ∧ r.size ≤ r.settings.maxDepth ∧ r.assess q node = .error (.depthExceeded 2) ∧
      (linkTypes.withBounds 3 10).assess q node = .ok .conforms :=
  ⟨acyclic_linkTypes 2 10, Nat.le_refl 2, rfl, rfl⟩

/-- With room for two names the bound is met for a link that is absent, with room for four never. -/
theorem Registry.depthExceeded_of_acyclic_linkTypes :
    let r := linkTypes.withBounds 2 10
    let q : Requirement := .type (.named "link" false)
    let node : Value := .object none []
    (∃ lead tail, SpentOnAbsence r q node lead tail) ∧
      ∀ q v limit, (linkTypes.withBounds 4 10).assess q v ≠ .error (.depthExceeded limit) := by
  intro r q node
  obtain ⟨hexact, -⟩ := depthExceeded_of_acyclic (acyclic_linkTypes 2 10)
  obtain ⟨-, hnever⟩ := depthExceeded_of_acyclic (acyclic_linkTypes 4 10)
  exact ⟨((hexact (Nat.le_refl 2) q node 2).1 rfl).2, hnever (Nat.le_refl 4)⟩

end Conformance
