import Conformance.Proofs.Matching.Bounds
import Conformance.Proofs.Matching.Loosening
import Mathlib.Data.List.Forall2

/-!
# The order of declared fields

The fields of a shape are matched in the order in which they are declared, and the first with a
problem ends the match. So the order decides which failure or which error is reported; but what
conforms has to do with every field, and is the same in any order, for shapes inside shapes and in
the registered definitions too (`assess_eq_conforms_iff_of_reordersTo`).
-/

namespace Conformance

open Matched Matching

mutual

/-- The same requirement but for the order in which its shapes declare their fields. -/
inductive Requirement.ReordersTo : Requirement → Requirement → Prop
  | predicate {p : Predicate} : Requirement.ReordersTo (.predicate p) (.predicate p)
  | instanceOf {c : Class} {fallback : Option Predicate} :
    Requirement.ReordersTo (.instanceOf c fallback) (.instanceOf c fallback)
  | type {e : TypeExpr} : Requirement.ReordersTo (.type e) (.type e)
  | shape {fields fields' : Shape} (h : Shape.ReordersTo fields fields') :
    Requirement.ReordersTo (.shape fields) (.shape fields')

/-- Each declared field has a place somewhere in the other shape, and no two have the same. -/
inductive Shape.ReordersTo : Shape → Shape → Prop
  | nil : Shape.ReordersTo [] []
  | field {fields before after : Shape} {name : String} {q q' : Requirement}
    (head : Requirement.ReordersTo q q') (rest : Shape.ReordersTo fields (before ++ after)) :
    Shape.ReordersTo ((name, q) :: fields) (before ++ (name, q') :: after)

end

theorem exists_mem_of_forall₂ {α β : Type} {R : α → β → Prop} {as : List α} {bs : List β}
    (h : List.Forall₂ R as bs) {b : β} (hb : b ∈ bs) : ∃ a ∈ as, R a b := by
  induction h with
  | nil => cases hb
  | @cons a b' _ _ hab _ ih =>
    rcases List.mem_cons.1 hb with rfl | hb
    · exact ⟨a, List.mem_cons_self, hab⟩
    · obtain ⟨a, ha, hab⟩ := ih hb
      exact ⟨a, List.mem_cons_of_mem _ ha, hab⟩

/-! ## Requirements -/

namespace Shape

variable {fields fields' : Shape}

theorem reordersTo_iff : fields.ReordersTo fields' ↔
    ∃ declared, List.Forall₂ (fun f g => f.1 = g.1 ∧ f.2.ReordersTo g.2) fields declared ∧
      declared.Perm fields' := by
  constructor
  · intro h
    induction fields generalizing fields' with
    | nil =>
      cases h
      exact ⟨[], .nil, .refl []⟩
    | cons field fields ih =>
      cases h with
      | @field _ before after name q q' head rest =>
        obtain ⟨declared, hfields, hperm⟩ := ih rest
        exact ⟨(name, q') :: declared, .cons ⟨rfl, head⟩ hfields,
          (hperm.cons _).trans List.perm_middle.symm⟩
  · rintro ⟨declared, hfields, hperm⟩
    induction hfields generalizing fields' with
    | nil =>
      obtain rfl := hperm.nil_eq
      exact .nil
    | @cons f g _ _ hfg _ ih =>
      obtain ⟨before, after, rfl⟩ := List.append_of_mem (hperm.mem_iff.1 List.mem_cons_self)
      obtain ⟨name, q⟩ := f
      obtain ⟨_, q'⟩ := g
      obtain ⟨rfl, head⟩ := hfg
      exact .field head (ih (hperm.trans List.perm_middle).cons_inv)

variable {name : String} {q q' : Requirement}

theorem ReordersTo.exists_mem (h : fields.ReordersTo fields') (hf : (name, q') ∈ fields') :
    ∃ q, (name, q) ∈ fields ∧ q.ReordersTo q' := by
  obtain ⟨declared, hfields, hperm⟩ := reordersTo_iff.1 h
  obtain ⟨⟨_, q⟩, hq, rfl, hreorders⟩ := exists_mem_of_forall₂ hfields (hperm.mem_iff.2 hf)
  exact ⟨q, hq, hreorders⟩

theorem ReordersTo.exists_mem_reordered (h : fields.ReordersTo fields')
    (hf : (name, q) ∈ fields) : ∃ q', (name, q') ∈ fields' ∧ q.ReordersTo q' := by
  obtain ⟨declared, hfields, hperm⟩ := reordersTo_iff.1 h
  obtain ⟨⟨_, q'⟩, hq', rfl, hreorders⟩ := exists_mem_of_forall₂ hfields.flip hf
  exact ⟨q', hperm.mem_iff.1 hq', hreorders⟩

end Shape

theorem Requirement.ReordersTo.looserBy {q q' : Requirement} (h : q.ReordersTo q') :
    q.LooserBy ReordersTo q' ∧ q'.LooserBy (fun p p' => p'.ReordersTo p) q := by
  cases h with
  | predicate => exact ⟨.predicate, .predicate⟩
  | instanceOf => exact ⟨.instanceOf, .instanceOf⟩
  | @type e =>
    cases e with
    | named name optional => exact ⟨.named id, .named id⟩
    | array e optional => exact ⟨.array .type id, .array .type id⟩
  | shape h => exact ⟨.shape fun _ _ => h.exists_mem, .shape fun _ _ => h.exists_mem_reordered⟩

theorem Requirement.ReordersTo.swap {name₁ name₂ : String} {q₁ q₂ q₁' q₂' : Requirement}
    (h₁ : q₁.ReordersTo q₁') (h₂ : q₂.ReordersTo q₂') :
    ReordersTo (.shape [(name₁, q₁), (name₂, q₂)]) (.shape [(name₂, q₂'), (name₁, q₁')]) :=
  .shape (Shape.reordersTo_iff.2
    ⟨[(name₁, q₁'), (name₂, q₂')], .cons ⟨rfl, h₁⟩ (.cons ⟨rfl, h₂⟩ .nil), .swap ..⟩)

/-- In which order the fields of shapes are declared, in the requirement or in the registered
definitions, does not decide whether a value conforms. -/
theorem Registry.assess_eq_conforms_iff_of_reordersTo {r r' : Registry}
    (hr : Pointwise Requirement.ReordersTo r r') {q q' : Requirement} (hq : q.ReordersTo q')
    (v : Value) : r.assess q v = .ok .conforms ↔ r'.assess q' v = .ok .conforms := by
  have hloosening : Loosening Requirement.ReordersTo r r' := ⟨hr, fun h => h.looserBy.1⟩
  have hback : Loosening (fun p p' => p'.ReordersTo p) r' r := ⟨hr.flip, fun h => h.looserBy.2⟩
  exact ⟨hloosening.assess hq, hback.assess hq⟩

/-- Two orders of the fields of groves, of their owners and of trees. A grove that conforms in the one
order conforms in the other. Of an owner with two problems each order reports the one that it comes
to first. -/
theorem Registry.assess_eq_conforms_iff_of_reordersTo_groves :
    let string : Requirement := .type (.named "string" false)
    let boolean : Requirement := .type (.named "boolean" false)
    let forest : Requirement := .type (.named "forest" true)
    let r := ((withSettings {}).insert "forest" (.type (.array (.named "tree" false) false))).insert
      "tree" (.shape [("label", string), ("children", forest)])
    let grove : Requirement :=
      .shape [("owner", .shape [("name", string), ("resident", boolean)]), ("trees", forest)]
    let grove' : Requirement :=
      .shape [("trees", forest), ("owner", .shape [("resident", boolean), ("name", string)])]
    let owner : Value := .object none [("name", .string "the parish"), ("resident", .bool true)]
    let nameless : Value := .object none [("resident", .null)]
    let trees : Value := .array [.object none [("label", .string "oak")]]
    let v : Value := .object none [("owner", owner), ("trees", trees)]
    let w : Value := .object none [("owner", nameless), ("trees", trees)]
    Pointwise Requirement.ReordersTo treeTypes r ∧ grove.ReordersTo grove' ∧
      r.assess grove' v = .ok .conforms ∧
      (∃ f, treeTypes.assess grove w = .ok (.fails f) ∧ f.kind = .missingField "name") ∧
      ∃ f, r.assess grove' w = .ok (.fails f) ∧ f.kind = .wrongPrimitiveKind .boolean .object := by
  intro string boolean forest r grove grove' owner nameless trees v w
  have htypes : Pointwise Requirement.ReordersTo treeTypes r :=
    ((pointwise_withSettings _ {}).insert "forest" .type).insert "tree" (.swap .type .type)
  have hgrove : grove.ReordersTo grove' := .swap (.swap .type .type) .type
  exact ⟨htypes, hgrove, (assess_eq_conforms_iff_of_reordersTo htypes hgrove v).1 rfl,
    ⟨_, rfl, rfl⟩, _, rfl, rfl⟩

end Conformance
