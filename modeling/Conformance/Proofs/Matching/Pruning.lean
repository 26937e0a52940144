import Conformance.Proofs.Entries
import Conformance.Proofs.Matching.Bounds
import Conformance.Proofs.Matching.Reach
import Conformance.Proofs.Value.Parts

/-!
# Fields that hold `undefined`

A field that holds `undefined` might as well be missing. `Value.prune` takes such fields out of
all the objects in a value; the pruned value has the same JSON form, and every match that puts no
predicate to it comes to the same result, except for the text of the value in a failure
(`prune_unnoticed`): how deep a value is nested, and so whether it is shown at all, depends on all
of its fields.
-/

namespace Conformance

open Matched

namespace Value

mutual

/-- The value without the fields that hold `undefined`, at every depth. Items keep their places. -/
def prune : Value → Value
  | array items => array (pruneItems items)
  | object maker fields => object maker (pruneFields fields)
  | v => v

def pruneItems : List Value → List Value
  | [] => []
  | v :: rest => v.prune :: pruneItems rest

def pruneFields : List (String × Value) → List (String × Value)
  | [] => []
  | (name, v) :: rest =>
    if v.isUndefined then pruneFields rest else (name, v.prune) :: pruneFields rest

end

/-- The objects in it have their fields in the order of their names, each name once, as all objects
have that are built from entries. -/
structure Normal (v : Value) : Prop where
  ordered_of_partOf {maker : Option Class} {fields : List (String × Value)} :
    PartOf (.object maker fields) v → Ordered fields

variable {v w : Value} {maker : Option Class} {items : List Value} {fields : List (String × Value)}
  {name : String}

/-! ## Normal values -/

theorem normal_leaf (hitems : v.items? = none) (hfields : v.fields? = none) : v.Normal where
  ordered_of_partOf hpart := by
    cases hpart with
    | self => cases hfields
    | item => cases hitems
    | field => cases hfields

theorem normal_array_iff : (array items).Normal ↔ ∀ v ∈ items, v.Normal := by
  refine ⟨fun h v hv => ⟨fun hpart => h.ordered_of_partOf (.item hv hpart)⟩, fun h => ⟨?_⟩⟩
  intro maker fields hpart
  cases hpart with
  | item mem hpart => exact (h _ mem).ordered_of_partOf hpart

theorem normal_object_iff :
    (object maker fields).Normal ↔ Ordered fields ∧ ∀ field ∈ fields, field.2.Normal := by
  constructor
  · exact fun h => ⟨h.ordered_of_partOf .self, fun field hfield =>
      ⟨fun hpart => h.ordered_of_partOf (.field hfield hpart)⟩⟩
  · rintro ⟨hordered, h⟩
    refine ⟨fun hpart => ?_⟩
    cases hpart with
    | self => exact hordered
    | field mem hpart => exact (h _ mem).ordered_of_partOf hpart

theorem normal_object_ofList (h : ∀ field ∈ fields, field.2.Normal) :
    (object maker (Entries.ofList fields)).Normal :=
  normal_object_iff.2 ⟨Entries.ordered_ofList fields, fun field hfield =>
    h field (Entries.mem_of_mem_ofList hfield)⟩

/-! ## What is left of a value -/

theorem pruneItems_eq_map (items : List Value) : pruneItems items = items.map prune := by
  induction items with
  | nil => rfl
  | cons v rest ih => rw [pruneItems, ih, List.map_cons]

theorem mem_pruneFields {field : String × Value} (h : field ∈ pruneFields fields) :
    ∃ x, (field.1, x) ∈ fields ∧ x.isUndefined = false ∧ field.2 = x.prune := by
  induction fields with
  | nil => cases h
  | cons head rest ih =>
    obtain ⟨k, x⟩ := head
    rw [pruneFields] at h
    split at h
    · obtain ⟨y, hy, hrest⟩ := ih h
      exact ⟨y, List.mem_cons_of_mem _ hy, hrest⟩
    · next hx =>
      rcases List.mem_cons.1 h with rfl | h
      · exact ⟨x, List.mem_cons_self, Bool.eq_false_iff.2 hx, rfl⟩
      · obtain ⟨y, hy, hrest⟩ := ih h
        exact ⟨y, List.mem_cons_of_mem _ hy, hrest⟩

theorem kind_prune (v : Value) : v.prune.kind = v.kind := by
  cases v <;> rfl

theorem isUndefined_prune (v : Value) : v.prune.isUndefined = v.isUndefined := by
  cases v <;> rfl

theorem accepts_prune (b : Builtin) (v : Value) : b.accepts v.prune = b.accepts v := by
  cases v <;> cases b <;> rfl

theorem isInstanceOf_prune (v : Value) (c : Class) : v.prune.isInstanceOf c = v.isInstanceOf c := by
  cases v <;> rfl

theorem isUndefined_of_partOf_prune (h : PartOf (.object maker fields) v.prune)
    (hw : (name, w) ∈ fields) : w.isUndefined = false := by
  induction v using Value.induction with
  | array items ih =>
    rw [prune, pruneItems_eq_map] at h
    cases h with
    | item mem hpart =>
      obtain ⟨x, hx, rfl⟩ := List.mem_map.1 mem
      exact ih x hx hpart
  | object maker' fields' ih =>
    rw [prune] at h
    cases h with
    | self =>
      obtain ⟨x, -, hx, rfl⟩ := mem_pruneFields hw
      rw [isUndefined_prune, hx]
    | field mem hpart =>
      obtain ⟨x, hx, -, rfl⟩ := mem_pruneFields mem
      exact ih _ hx hpart
  | _ => cases h

theorem jsonWith_prune (v : Value) (encode : List UInt8 → Json) :
    v.prune.jsonWith encode = v.jsonWith encode := by
  induction v using Value.induction with
  | array items ih =>
    have hitems : itemsWith encode (pruneItems items) = itemsWith encode items := by
      rw [pruneItems_eq_map]
      exact itemsWith_congr (List.forall₂_map_left_iff.2 (List.forall₂_same.2 ih))
    rw [prune, jsonWith, jsonWith, hitems]
  | object maker fields ih =>
    have hfields : fieldsWith encode (pruneFields fields) = fieldsWith encode fields := by
      induction fields with
      | nil => rfl
      | cons field rest ihrest =>
        obtain ⟨hfield, hrest⟩ := List.forall_mem_cons.1 ih
        obtain ⟨name, x⟩ := field
        rw [pruneFields, fieldsWith, ← ihrest hrest]
        split
        · next hx =>
          rw [Matching.isUndefined_iff.1 hx]
          rfl
        · rw [fieldsWith, hfield]
    rw [prune, jsonWith, jsonWith, hfields]
  | _ => rfl

/-- A field that holds `undefined` is not found any more. That no field has its name twice is needed
here: the next of that name would come to light. -/
theorem lookup_pruneFields (h : Ordered fields) (name : String) :
    (pruneFields fields).lookup name =
      ((fields.lookup name).filter (!·.isUndefined)).map prune := by
  induction fields with
  | nil => rfl
  | cons field rest ih =>
    obtain ⟨k, x⟩ := field
    obtain ⟨hhead, hrest⟩ := List.pairwise_cons.1 h
    rw [pruneFields, Entries.lookup_cons]
    by_cases hname : name = k
    · subst hname
      cases hx : x.isUndefined with
      | true =>
        have hnone : rest.lookup name = none :=
          List.lookup_eq_none_iff.2 fun field hfield =>
            bne_iff_ne.2 (String.ne_of_lt (hhead field hfield))
        simp [ih hrest, hnone, Option.filter, hx]
      | false => simp [Option.filter, hx]
    · cases hx : x.isUndefined with
      | true => simp [ih hrest, hname]
      | false => simp [Entries.lookup_cons, ih hrest, hname]

theorem present?_prune (h : v.Normal) (name : String) :
    v.prune.present? name = (v.present? name).map prune := by
  cases v with
  | object maker fields =>
    have hlookup := lookup_pruneFields (normal_object_iff.1 h).1 name
    simp only [prune, present?, field?, fields?, Option.bind_some, hlookup]
    cases fields.lookup name with
    | none => rfl
    | some x => cases hx : x.isUndefined <;> simp [Option.filter, hx, isUndefined_prune]
  | _ => rfl

theorem Normal.present (h : v.Normal) (hw : v.present? name = some w) : w.Normal := by
  cases v with
  | object maker fields =>
    obtain ⟨hlookup, -⟩ := Option.filter_eq_some_iff.1 hw
    obtain ⟨before, after, hfields, -⟩ := List.lookup_eq_some_iff.1 hlookup
    exact (normal_object_iff.1 h).2 (name, w) (by rw [hfields]; simp)
  | _ => cases hw

theorem looksLike_prune (h : v.Normal) :
    LooksLike (fun v w => v.Normal ∧ w = v.prune) v v.prune where
  kind := (kind_prune v).symm
  builtin b := (accepts_prune b v).symm
  items := by
    cases v with
    | array items =>
      rw [prune, pruneItems_eq_map]
      refine .some (List.forall₂_map_right_iff.2 (List.forall₂_same.2 fun x hx => ?_))
      exact ⟨normal_array_iff.1 h x hx, rfl⟩
    | _ => exact .none
  present name := by
    rw [present?_prune h]
    cases hw : v.present? name with
    | none => exact .none
    | some w => exact .some ⟨h.present hw, rfl⟩

end Value

namespace Matched

/-- The same conformance, or failures that differ in the text of the value at most, or the same
error. -/
def AlikeUpToValue : Matched → Matched → Prop :=
  AlikeBy fun f g => f.kind = g.kind ∧ f.requirement = g.requirement ∧ f.path = g.path

theorem alikeUpToValue_congruence : Congruence AlikeUpToValue :=
  alikeBy_congruence (fun _ => ⟨rfl, rfl, rfl⟩) fun s _ _ ⟨kind, requirement, path⟩ =>
    ⟨kind, requirement, congrArg (s :: ·) path⟩

end Matched

namespace Registry

variable {r : Registry} {q : Requirement} {v : Value}

theorem likeness_prune (h : r.Untested q) :
    Likeness (r.Reaches q) AlikeUpToValue fun v w => v.Normal ∧ w = v.prune where
  looks := by
    rintro v _ ⟨hv, rfl⟩
    exact Value.looksLike_prune hv
  maker := by
    rintro c fallback v _ - ⟨-, rfl⟩
    exact (v.isInstanceOf_prune c).symm
  test {p _ _ _} hp htest := by
    rw [h p hp] at htest
    cases htest
  fails := by
    rintro v _ kind text ⟨-, rfl⟩
    exact .fails ⟨rfl, rfl, rfl⟩

theorem assess_prune (h : r.Untested q) (hv : v.Normal) :
    AlikeUpToValue (r.assess q v) (r.assess q v.prune) :=
  assess_of_likeness alikeUpToValue_congruence (likeness_prune h) (fun _ => .error) ⟨hv, rfl⟩

end Registry

/-- A field that holds `undefined` is as good as missing. Without such fields a value has the JSON
form that it has with them, and each match without predicates comes to the same: it conforms, or
it fails for the same reason at the same place, or it stops at the same error. -/
theorem Value.prune_unnoticed (v : Value) :
    (∀ maker fields, PartOf (.object maker fields) v.prune →
      ∀ field ∈ fields, field.2.isUndefined = false) ∧
      v.prune.toJson = v.toJson ∧
      (v.Normal → ∀ (r : Registry) (q : Requirement), r.Untested q →
        AlikeUpToValue (r.assess q v) (r.assess q v.prune)) :=
  ⟨fun _ _ hpart _ hfield => isUndefined_of_partOf_prune hpart hfield,
    jsonWith_prune v bufferJson, fun hv _ _ hq => Registry.assess_prune hq hv⟩

/-- The second child has a label that is `undefined`. With that field and without it the label is
missing. The first has children that are `undefined`, and the marker allows for that as it does
for none. -/
theorem Value.prune_unnoticed_treeTypes :
    let tree : Requirement := .type (.named "tree" false)
    let v : Value := .ofFields
      [("label", .string "root"),
        ("children", .array [.ofFields [("label", .string "left"), ("children", .undefined)],
          .ofFields [("label", .undefined)]])]
    let w : Value := .object none
      [("children", .array [.object none [("label", .string "left")], .object none []]),
        ("label", .string "root")]
    v.Normal ∧ v.prune = w ∧ w.toJson = v.toJson ∧
      (∃ f, Registry.treeTypes.assess tree v = .ok (.fails f) ∧ f.kind = .missingField "label" ∧
        f.path = [.field "children", .index 1]) ∧
      AlikeUpToValue (Registry.treeTypes.assess tree v) (Registry.treeTypes.assess tree w) := by
  intro tree v w
  have hundefined : undefined.Normal := normal_leaf rfl rfl
  have hstring (s : String) : (string s).Normal := normal_leaf rfl rfl
  have hv : v.Normal := by
    simp [v, ofFields, normal_object_ofList, normal_array_iff, hundefined, hstring]
  have hprune : v.prune = w := rfl
  have hfree : Registry.treeTypes.Untested tree := Registry.untested_of_predicateFree rfl rfl
  obtain ⟨-, hjson, hassess⟩ := prune_unnoticed v
  have halike := hassess hv _ _ hfree
  rw [hprune] at hjson halike
  exact ⟨hv, hprune, hjson, ⟨_, rfl, rfl, rfl⟩, halike⟩

end Conformance
