import Conformance.Value.Json
import Mathlib.Data.List.Forall2

/-!
# The parts of values and of JSON

A value is built from its items and fields, so a property that carries over from the parts of a
value to the whole holds of all values (`Value.induction`); the same goes for JSON
(`Json.induction`). What a function does with the items or fields of a container is told here in
terms of the lists.
-/

namespace Conformance

section Lists

variable {α β γ : Type} {R S : α → β → Prop} {as : List α} {bs : List β}

theorem forall₂_imp_mem (h : ∀ a ∈ as, ∀ b, R a b → S a b) (hR : List.Forall₂ R as bs) :
    List.Forall₂ S as bs :=
  ((List.forall₂_and_left as bs).2 ⟨h, hR⟩).imp fun _ b hab => hab.1 b hab.2

theorem map_eq_map_of_forall₂ {f : α → γ} {g : β → γ}
    (h : List.Forall₂ (fun a b => f a = g b) as bs) : as.map f = bs.map g := by
  rw [← List.forall₂_eq_eq_eq, List.forall₂_map_left_iff, List.forall₂_map_right_iff]
  exact h

end Lists

namespace Json

/-- A property holds of all JSON if it carries over from items and entries to the whole. -/
@[elab_as_elim]
theorem induction {P : Json → Prop} (null : P .null) (bool : ∀ b, P (.bool b))
    (int : ∀ n, P (.int n)) (double : ∀ x, P (.double x)) (string : ∀ s, P (.string s))
    (array : ∀ items, (∀ j ∈ items, P j) → P (.array items))
    (object : ∀ entries, (∀ entry ∈ entries, P entry.2) → P (.object entries)) (j : Json) : P j :=
  @Json.rec P (fun items => ∀ j ∈ items, P j) (fun entries => ∀ entry ∈ entries, P entry.2)
    (fun entry => P entry.2) null bool int double string array object
    (List.forall_mem_nil _) (fun _ _ hhead htail => List.forall_mem_cons.2 ⟨hhead, htail⟩)
    (List.forall_mem_nil _) (fun _ _ hhead htail => List.forall_mem_cons.2 ⟨hhead, htail⟩)
    (fun _ _ h => h) j

theorem normalEntries_iff {entries : List (String × Json)} :
    NormalEntries entries ↔ ∀ entry ∈ entries, entry.2.Normal := by
  induction entries with
  | nil => simp [NormalEntries]
  | cons entry rest ih => simp [NormalEntries, ih]

end Json

namespace Value

/-- A property holds of all values if it carries over from items and fields to the whole. -/
@[elab_as_elim]
theorem induction {P : Value → Prop} (undefined : P .undefined) (null : P .null)
    (bool : ∀ b, P (.bool b)) (number : ∀ x, P (.number x)) (string : ∀ s, P (.string s))
    (array : ∀ items, (∀ v ∈ items, P v) → P (.array items))
    (object : ∀ maker fields, (∀ field ∈ fields, P field.2) → P (.object maker fields))
    (date : ∀ t, P (.date t)) (buffer : ∀ bytes, P (.buffer bytes))
    (function : ∀ f, P (.function f)) (v : Value) : P v :=
  @Value.rec P (fun items => ∀ v ∈ items, P v) (fun fields => ∀ field ∈ fields, P field.2)
    (fun field => P field.2) undefined null bool number string array object date buffer function
    (List.forall_mem_nil _) (fun _ _ hhead htail => List.forall_mem_cons.2 ⟨hhead, htail⟩)
    (List.forall_mem_nil _) (fun _ _ hhead htail => List.forall_mem_cons.2 ⟨hhead, htail⟩)
    (fun _ _ h => h) v

/-- The value is `v`, or it lies among the items and fields inside `v`, however deep. -/
inductive PartOf (w : Value) : Value → Prop
  | self : PartOf w w
  | item {items : List Value} {v : Value} (mem : v ∈ items) (h : PartOf w v) :
    PartOf w (.array items)
  | field {maker : Option Class} {fields : List (String × Value)} {name : String} {v : Value}
    (mem : (name, v) ∈ fields) (h : PartOf w v) : PartOf w (.object maker fields)

/-! ## Containers -/

theorem itemsWith_eq_map (buffer : List UInt8 → Json) (items : List Value) :
    itemsWith buffer items = items.map fun v => (v.jsonWith buffer).getD .null := by
  induction items with
  | nil => rfl
  | cons v rest ih => rw [itemsWith, ih, List.map_cons]

theorem fieldsWith_eq_filterMap (buffer : List UInt8 → Json) (fields : List (String × Value)) :
    fieldsWith buffer fields =
      fields.filterMap fun field => (field.2.jsonWith buffer).map (field.1, ·) := by
  induction fields with
  | nil => rfl
  | cons field rest ih =>
    obtain ⟨name, v⟩ := field
    rw [fieldsWith, ih, List.filterMap_cons]
    cases v.jsonWith buffer <;> rfl

theorem itemsWith_congr {encode : List UInt8 → Json} {xs ys : List Value}
    (h : List.Forall₂ (fun x y => x.jsonWith encode = y.jsonWith encode) xs ys) :
    itemsWith encode xs = itemsWith encode ys := by
  induction h with
  | nil => rfl
  | cons hxy _ ih => rw [itemsWith, itemsWith, hxy, ih]

theorem fieldsWith_congr {encode : List UInt8 → Json} {xs ys : List (String × Value)}
    (h : List.Forall₂ (fun x y => x.1 = y.1 ∧ x.2.jsonWith encode = y.2.jsonWith encode) xs ys) :
    fieldsWith encode xs = fieldsWith encode ys := by
  rw [fieldsWith_eq_filterMap, fieldsWith_eq_filterMap]
  induction h with
  | nil => rfl
  | cons hxy _ ih => rw [List.filterMap_cons, List.filterMap_cons, hxy.1, hxy.2, ih]

theorem ofJsonItems_eq_map (items : List Json) : ofJsonItems items = items.map ofJson := by
  induction items with
  | nil => rfl
  | cons j rest ih => rw [ofJsonItems, ih, List.map_cons]

theorem ofJsonEntries_eq_map (entries : List (String × Json)) :
    ofJsonEntries entries = entries.map fun entry => (entry.1, ofJson entry.2) := by
  induction entries with
  | nil => rfl
  | cons entry rest ih => rw [ofJsonEntries, ih, List.map_cons]

theorem fieldsExceed_eq_itemsExceed (fields : List (String × Value)) (budget : Nat) :
    fieldsExceed fields budget = itemsExceed (fields.map (·.2)) budget := by
  induction fields with
  | nil => cases budget <;> rfl
  | cons field rest ih =>
    cases budget with
    | zero => rfl
    | succ budget => rw [fieldsExceed, ih, List.map_cons, itemsExceed]

theorem itemsExceed_congr {xs ys : List Value}
    (h : List.Forall₂ (fun x y => ∀ budget, x.exceedsDepth budget = y.exceedsDepth budget) xs ys)
    (budget : Nat) : itemsExceed xs budget = itemsExceed ys budget := by
  induction h with
  | nil => rfl
  | cons hxy _ ih =>
    cases budget with
    | zero => rfl
    | succ budget => rw [itemsExceed, itemsExceed, hxy budget, ih]

theorem fieldsExceed_congr {xs ys : List (String × Value)}
    (h : List.Forall₂ (fun x y => ∀ budget, x.2.exceedsDepth budget = y.2.exceedsDepth budget) xs ys)
    (budget : Nat) : fieldsExceed xs budget = fieldsExceed ys budget := by
  rw [fieldsExceed_eq_itemsExceed, fieldsExceed_eq_itemsExceed]
  refine itemsExceed_congr ?_ budget
  exact List.forall₂_map_left_iff.2 (List.forall₂_map_right_iff.2 h)

theorem eqItems_iff {xs ys : List Value} :
    eqItems xs ys ↔ List.Forall₂ (fun x y => x.eq y) xs ys := by
  induction xs generalizing ys with
  | nil => cases ys <;> simp [eqItems]
  | cons x xs ih => cases ys <;> simp [eqItems, ih]

theorem eqFields_iff {xs ys : List (String × Value)} :
    eqFields xs ys ↔ List.Forall₂ (fun x y => x.1 = y.1 ∧ x.2.eq y.2) xs ys := by
  induction xs generalizing ys with
  | nil => cases ys <;> simp [eqFields]
  | cons x xs ih => cases ys <;> simp [eqFields, ih]

end Value

end Conformance
