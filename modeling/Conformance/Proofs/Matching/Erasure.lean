import Conformance.Proofs.Entries
import Conformance.Proofs.Matching.Blame
import Conformance.Proofs.Matching.Reach
import Conformance.Proofs.Value.Equality

/-!
# Instances as plain objects

`Value.erase` forgets which classes made the objects in a value. Kinds, fields, built-in types, the
JSON form, the depth and so the text of a value are as before, and every match comes to the same
result, to the letter, unless it asks for a maker or puts a predicate to a value
(`erase_unnoticed`).
-/

namespace Conformance

open Matched

namespace Value

mutual

/-- The value with plain objects in place of instances, at every depth. -/
def erase : Value → Value
  | array items => array (eraseItems items)
  | object _ fields => object none (eraseFields fields)
  | v => v

def eraseItems : List Value → List Value
  | [] => []
  | v :: rest => v.erase :: eraseItems rest

def eraseFields : List (String × Value) → List (String × Value)
  | [] => []
  | (name, v) :: rest => (name, v.erase) :: eraseFields rest

end

variable {v : Value} {maker : Option Class} {fields : List (String × Value)}

theorem eraseItems_eq_map (items : List Value) : eraseItems items = items.map erase := by
  induction items with
  | nil => rfl
  | cons v rest ih => rw [eraseItems, ih, List.map_cons]

theorem eraseFields_eq_map (fields : List (String × Value)) :
    eraseFields fields = fields.map fun field => (field.1, field.2.erase) := by
  induction fields with
  | nil => rfl
  | cons field rest ih => rw [eraseFields, ih, List.map_cons]

theorem maker_of_partOf_erase (h : PartOf (.object maker fields) v.erase) : maker = none := by
  induction v using Value.induction with
  | array items ih =>
    rw [erase, eraseItems_eq_map] at h
    cases h with
    | item mem hpart =>
      obtain ⟨x, hx, rfl⟩ := List.mem_map.1 mem
      exact ih x hx hpart
  | object maker' fields' ih =>
    rw [erase, eraseFields_eq_map] at h
    cases h with
    | self => rfl
    | field mem hpart =>
      obtain ⟨field, hfield, heq⟩ := List.mem_map.1 mem
      obtain ⟨-, rfl⟩ := Prod.mk.inj heq
      exact ih field hfield hpart
  | _ => cases h

theorem erase_eq_self (h : ∀ maker fields, PartOf (.object maker fields) v → maker = none) :
    v.erase = v := by
  induction v using Value.induction with
  | array items ih =>
    rw [erase, eraseItems_eq_map]
    refine congrArg array ((List.map_congr_left fun v hv => ?_).trans (List.map_id items))
    exact ih v hv fun maker fields hpart => h maker fields (.item hv hpart)
  | object maker fields ih =>
    obtain rfl := h maker fields .self
    rw [erase, eraseFields_eq_map]
    refine congrArg (object none) ((List.map_congr_left fun f hf => ?_).trans (List.map_id fields))
    exact congrArg (Prod.mk f.1)
      (ih f hf fun maker' fields' hpart => h maker' fields' (.field hf hpart))
  | _ => rfl

/-! ## What stays -/

theorem kind_erase (v : Value) : v.erase.kind = v.kind := by
  cases v <;> rfl

theorem isUndefined_erase (v : Value) : v.erase.isUndefined = v.isUndefined := by
  cases v <;> rfl

theorem accepts_erase (b : Builtin) (v : Value) : b.accepts v.erase = b.accepts v := by
  cases v <;> cases b <;> rfl

theorem present?_erase (v : Value) (name : String) :
    v.erase.present? name = (v.present? name).map erase := by
  cases v with
  | object maker fields =>
    simp only [erase, present?, field?, fields?, Option.bind_some, eraseFields_eq_map,
      Entries.lookup_map, Option.filter_map, Function.comp_def, isUndefined_erase]
  | _ => rfl

theorem looksLike_erase (v : Value) : LooksLike (fun v w => w = v.erase) v v.erase where
  kind := (kind_erase v).symm
  builtin b := (accepts_erase b v).symm
  items := by
    cases v with
    | array items =>
      rw [erase, eraseItems_eq_map]
      exact .some (List.forall₂_map_right_iff.2 (List.forall₂_same.2 fun _ _ => rfl))
    | _ => exact .none
  present name := by
    rw [present?_erase]
    cases v.present? name with
    | none => exact .none
    | some w => exact .some rfl

theorem jsonWith_erase (v : Value) (encode : List UInt8 → Json) :
    v.erase.jsonWith encode = v.jsonWith encode := by
  induction v using Value.induction with
  | array items ih =>
    have hitems : itemsWith encode (eraseItems items) = itemsWith encode items := by
      rw [eraseItems_eq_map]
      exact itemsWith_congr (List.forall₂_map_left_iff.2 (List.forall₂_same.2 ih))
    rw [erase, jsonWith, jsonWith, hitems]
  | object maker fields ih =>
    have hfields : fieldsWith encode (eraseFields fields) = fieldsWith encode fields := by
      rw [eraseFields_eq_map]
      refine fieldsWith_congr (List.forall₂_map_left_iff.2 (List.forall₂_same.2 fun f hf => ?_))
      exact ⟨rfl, ih f hf⟩
    rw [erase, jsonWith, jsonWith, hfields]
  | _ => rfl

theorem exceedsDepth_erase (v : Value) (budget : Nat) :
    v.erase.exceedsDepth budget = v.exceedsDepth budget := by
  induction v using Value.induction generalizing budget with
  | array items ih =>
    rw [erase, exceedsDepth, exceedsDepth, eraseItems_eq_map]
    exact itemsExceed_congr (List.forall₂_map_left_iff.2 (List.forall₂_same.2 ih)) budget
  | object maker fields ih =>
    rw [erase, exceedsDepth, exceedsDepth, eraseFields_eq_map]
    exact fieldsExceed_congr (List.forall₂_map_left_iff.2 (List.forall₂_same.2 ih)) budget
  | _ => rfl

theorem pretty_erase (v : Value) : v.erase.pretty = v.pretty := by
  rw [pretty, pretty, exceedsDepth_erase, toJson, jsonWith_erase]

end Value

/-! ## Requirements that judge by structure -/

theorem Requirement.OccursIn.eq_type {p : Requirement} {e : TypeExpr}
    (h : p.OccursIn (.type e)) : ∃ e', p = .type e' := by
  generalize hq : Requirement.type e = q at h
  induction h generalizing e with
  | self => exact ⟨e, hq.symm⟩
  | element _ ih => exact ih rfl
  | field => cases hq

namespace Registry

variable {r : Registry} {q p : Requirement}

/-- Neither a class nor a predicate is within reach. -/
structure Structural (r : Registry) (q : Requirement) : Prop where
  predicate (p : Predicate) : ¬ r.Reaches q (.predicate p)
  instanceOf (c : Class) (fallback : Option Predicate) : ¬ r.Reaches q (.instanceOf c fallback)

theorem Reaches.mentions (h : r.Reaches q p) : r.Mentions q p := by
  induction h with
  | self => exact .inl .self
  | element _ ih => exact ih.part (.element .self)
  | field _ declared ih => exact ih.part (.field declared .self)
  | definition _ resolved _ =>
    obtain ⟨name, optional, rfl, hd⟩ := definition?_eq_some_iff.1 resolved
    exact .inr ⟨name, _, hd, .self⟩

theorem structural_of_mentions
    (h : ∀ p, r.Mentions q p → (∃ e, p = .type e) ∨ ∃ fields, p = .shape fields) :
    r.Structural q where
  predicate _ hp := by rcases h _ hp.mentions with ⟨_, ⟨⟩⟩ | ⟨_, ⟨⟩⟩
  instanceOf _ _ hp := by rcases h _ hp.mentions with ⟨_, ⟨⟩⟩ | ⟨_, ⟨⟩⟩

theorem structural_treeTypes (e : TypeExpr) : treeTypes.Structural (.type e) := by
  refine structural_of_mentions fun p hp => ?_
  rcases hp with hp | ⟨name, d, hd, hp⟩
  · exact .inl hp.eq_type
  · rw [treeTypes, get?_insert, get?_insert] at hd
    split at hd
    · cases hd
      cases hp with
      | self => exact .inr ⟨_, rfl⟩
      | field declared hp =>
        simp only [List.mem_cons, Prod.mk.injEq, List.not_mem_nil, or_false] at declared
        rcases declared with ⟨-, rfl⟩ | ⟨-, rfl⟩ <;> exact .inl hp.eq_type
    · split at hd
      · cases hd
        exact .inl hp.eq_type
      · cases hd

theorem Structural.untested (h : r.Structural q) : r.Untested q := by
  intro p hp
  cases p with
  | predicate p => exact absurd hp (h.predicate p)
  | instanceOf c fallback => exact absurd hp (h.instanceOf c fallback)
  | _ => rfl

theorem likeness_erase (h : r.Structural q) :
    Likeness (r.Reaches q) Eq fun v w => w = v.erase where
  looks := by
    rintro v _ rfl
    exact v.looksLike_erase
  maker hq _ := absurd hq (h.instanceOf _ _)
  test {p _ _ _} hp htest := by
    rw [h.untested p hp] at htest
    cases htest
  fails := by
    rintro v _ kind text rfl
    rw [Failure.ofValue, Failure.ofValue, v.pretty_erase]

theorem assess_erase (h : r.Structural q) (v : Value) : r.assess q v = r.assess q v.erase :=
  assess_of_likeness eq_congruence (likeness_erase h) (fun _ => rfl) rfl

end Registry

/-- An instance is judged by its structure. In its place the plain object with the same fields has
the same text and the same JSON form, and comes to the same result in every match that asks for no
class and puts no predicate to a value: the same failure, texts and all, or the same error. -/
theorem Value.erase_unnoticed (v : Value) :
    (∀ maker fields, PartOf (.object maker fields) v.erase → maker = none) ∧
      ((∀ maker fields, PartOf (.object maker fields) v → maker = none) → v.erase = v) ∧
      v.erase.toJson = v.toJson ∧ v.erase.pretty = v.pretty ∧
      ∀ (r : Registry) (q : Requirement), r.Structural q → r.assess q v = r.assess q v.erase :=
  ⟨fun _ _ => maker_of_partOf_erase, erase_eq_self, jsonWith_erase v bufferJson, pretty_erase v,
    fun _ _ hq => Registry.assess_erase hq v⟩

/-- A tree of instances, of which one has no label. The failure shows it as if it were plain; that
it is an instance makes a difference to a requirement that asks for its class. -/
theorem Value.erase_unnoticed_treeTypes :
    let tree : Requirement := .type (.named "tree" false)
    let c : Class := .root 0 "Tree"
    let v : Value := .object (some c)
      [("children", .array [.object (some c) [("children", .array [])]]), ("label", .string "root")]
    let w : Value := .object none
      [("children", .array [.object none [("children", .array [])]]), ("label", .string "root")]
    let result : Matched := .ok (.fails ⟨.missingField "label",
      (Value.object none [("children", .array [])]).pretty,
      (Requirement.shape [("children", .type (.named "forest" true)),
        ("label", .type (.named "string" false))]).display, [.field "children", .index 0]⟩)
    v.erase = w ∧ Registry.treeTypes.Structural tree ∧
      Registry.treeTypes.assess tree v = result ∧ Registry.treeTypes.assess tree w = result ∧
      Registry.treeTypes.assess (.instanceOf c none) v ≠
        Registry.treeTypes.assess (.instanceOf c none) w := by
  intro tree c v w result
  obtain ⟨-, -, -, -, hassess⟩ := erase_unnoticed v
  have herase : v.erase = w := rfl
  have hstructural := Registry.structural_treeTypes (.named "tree" false)
  have hw : Registry.treeTypes.assess tree w = result := rfl
  refine ⟨herase, hstructural, ?_, hw, ?_⟩
  · rw [hassess _ _ hstructural, herase, hw]
  · intro h
    cases h

end Conformance
