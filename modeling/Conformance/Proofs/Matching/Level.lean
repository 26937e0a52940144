import Conformance.Proofs.Matching.Sequence

/-!
# One level of a match

What a level does with each sort of requirement: items and fields are decided in order
(`matchItems_eq_first`, `matchFields_eq_first`), an array after a look at its element type, a shape
after a look at the value itself, and a name of a registered type by its definition
(`Registry.definition?`), which is also where the marker of an absent field is looked for.
-/

namespace Conformance

open Matched

/-- The definition behind a requirement that is the name of a registered type. -/
def Registry.definition? (r : Registry) : Requirement → Option Requirement
  | .type (.named name _) => r.get? name
  | _ => none

theorem Registry.definition?_eq_some_iff {r : Registry} {q definition : Requirement} :
    r.definition? q = some definition ↔
      ∃ name optional, q = .type (.named name optional) ∧ r.get? name = some definition := by
  constructor
  · intro h
    cases q with
    | type t =>
      cases t with
      | named name optional => exact ⟨name, optional, rfl, h⟩
      | array element optional => cases h
    | _ => cases h
  · rintro ⟨name, optional, rfl, h⟩
    exact h

theorem Registry.lookup_eq_user_iff {r : Registry} {name : String} {q : Requirement} :
    r.lookup name = some (.user q) ↔ r.get? name = some q := by
  unfold lookup
  cases r.get? name with
  | some d => simp
  | none =>
    cases Builtin.ofName? name with
    | some b => simp
    | none => cases Kind.ofName? name <;> simp

theorem Registry.get?_eq_of_lookup_eq {r r' : Registry} {name : String}
    (h : r'.lookup name = r.lookup name) : r'.get? name = r.get? name := by
  refine Option.ext fun q => ?_
  rw [← lookup_eq_user_iff, ← lookup_eq_user_iff, h]

theorem Registry.lookup_eq_of_get?_eq {r r' : Registry} {name : String}
    (h : r'.get? name = r.get? name) : r'.lookup name = r.lookup name := by
  simp only [lookup, h]

namespace Matching

/-! ## Items and fields -/

theorem matchItems_eq_first (deeper : Value → Matched) (i : Nat) (items : List Value) :
    matchItems deeper i items =
      first (items.mapIdx fun j v => (deeper v).within (.index (i + j))) := by
  induction items generalizing i with
  | nil => rfl
  | cons v rest ih =>
    rw [List.mapIdx_cons, first_cons, matchItems]
    rcases deeper v with e | _ | f
    · rfl
    · rw [ih (i + 1)]
      simp only [Nat.add_assoc, Nat.add_comm 1, within_conforms, andThen_conforms]
    · rfl

theorem first_items_eq_conforms_iff {deeper : Value → Matched} {items : List Value} :
    first (items.mapIdx fun i v => (deeper v).within (.index i)) = .ok .conforms ↔
      ∀ v ∈ items, deeper v = .ok .conforms := by
  rw [first_eq_conforms_iff]
  constructor
  · intro h v hv
    obtain ⟨i, hi, rfl⟩ := List.mem_iff_getElem.1 hv
    exact within_eq_conforms_iff.1 (h _ (List.mem_mapIdx.2 ⟨i, hi, rfl⟩))
  · intro h result hresult
    obtain ⟨i, hi, rfl⟩ := List.mem_mapIdx.1 hresult
    exact within_eq_conforms_iff.2 (h _ (List.getElem_mem hi))

theorem first_items_cases (deeper : Value → Matched) (items : List Value) :
    (first (items.mapIdx fun i v => (deeper v).within (.index i)) = .ok .conforms ∧
      ∀ v ∈ items, deeper v = .ok .conforms) ∨
    ∃ before v after, items = before ++ v :: after ∧ (∀ u ∈ before, deeper u = .ok .conforms) ∧
      deeper v ≠ .ok .conforms ∧
      first (items.mapIdx fun i v => (deeper v).within (.index i)) =
        (deeper v).within (.index before.length) := by
  by_cases h : first (items.mapIdx fun i v => (deeper v).within (.index i)) = .ok .conforms
  · exact .inl ⟨h, first_items_eq_conforms_iff.1 h⟩
  · obtain ⟨results, later, hsplit, hconform⟩ := exists_of_first_eq rfl h
    obtain ⟨before, rest, rfl, rfl, hrest⟩ := List.mapIdx_eq_append_iff.1 hsplit
    obtain ⟨v, after, rfl, hv, -⟩ := List.mapIdx_eq_cons_iff.1 hrest
    rw [Nat.zero_add] at hv
    refine .inr ⟨before, v, after, rfl, fun u hu => ?_, fun hv' => h ?_, hv.symm⟩
    · obtain ⟨i, hi, rfl⟩ := List.mem_iff_getElem.1 hu
      exact within_eq_conforms_iff.1 (hconform _ (List.mem_mapIdx.2 ⟨i, hi, rfl⟩))
    · rw [← hv, hv', within_conforms]

def absenceResult (absent : Requirement → Except ConfigurationError Bool) (q : Requirement)
    (v : Value) (name : String) (required : Requirement) : Matched :=
  match absent required with
  | .ok true => .ok .conforms
  | .ok false => .ok (.fails (.ofValue (.missingField name) v q.display))
  | .error e => .error e

def fieldResult (deeper : Deeper) (absent : Requirement → Except ConfigurationError Bool)
    (q : Requirement) (v : Value) (field : String × Requirement) : Matched :=
  match v.present? field.1 with
  | some w => (deeper field.2 w).within (.field field.1)
  | none => absenceResult absent q v field.1 field.2

theorem fieldResult_of_present {deeper : Deeper}
    {absent : Requirement → Except ConfigurationError Bool} {q : Requirement} {v w : Value}
    {name : String} (h : v.present? name = some w) (required : Requirement) :
    fieldResult deeper absent q v (name, required) = (deeper required w).within (.field name) := by
  simp only [fieldResult, h]

theorem fieldResult_of_absent {deeper : Deeper}
    {absent : Requirement → Except ConfigurationError Bool} {q : Requirement} {v : Value}
    {name : String} (h : v.present? name = none) (required : Requirement) :
    fieldResult deeper absent q v (name, required) = absenceResult absent q v name required := by
  simp only [fieldResult, h]

theorem matchFields_eq_first (deeper : Deeper)
    (absent : Requirement → Except ConfigurationError Bool) (q : Requirement) (v : Value)
    (fields : Shape) :
    matchFields deeper absent q v fields = first (fields.map (fieldResult deeper absent q v)) := by
  induction fields with
  | nil => rfl
  | cons field rest ih =>
    obtain ⟨name, required⟩ := field
    rw [List.map_cons, first_cons, matchFields, ih]
    cases h : v.present? name with
    | some w =>
      rw [fieldResult_of_present h]
      dsimp only
      rcases deeper required w with e | _ | f <;> rfl
    | none =>
      rw [fieldResult_of_absent h, absenceResult]
      dsimp only
      rcases absent required with e | _ | _ <;> rfl

/-! ## Absence -/

theorem admitsAbsence_succ (r : Registry) (steps : Nat) (q : Requirement) :
    admitsAbsence r (steps + 1) q =
      if q.optional then .ok true
      else match r.definition? q with
        | some definition => admitsAbsence r steps definition
        | none => .ok false := by
  cases q with
  | predicate p => rfl
  | instanceOf c fallback => rfl
  | shape fields => rfl
  | type e =>
    cases e with
    | array element optional => rfl
    | named name optional =>
      rw [admitsAbsence]
      simp only [Registry.definition?]
      cases h : r.get? name with
      | some d => rw [Registry.lookup_eq_user_iff.2 h]
      | none =>
        rcases hl : r.lookup name with _ | d | b | k
        · rfl
        · rw [Registry.lookup_eq_user_iff, h] at hl
          cases hl
        · rfl
        · rfl

/-! ## Arrays and shapes -/

/-- May the items of an array with this element type be looked at? -/
def Resolvable (r : Registry) (element : TypeExpr) : Prop :=
  ∀ name marker, element = .named name marker → r.knows name

theorem not_resolvable_iff {r : Registry} {element : TypeExpr} :
    ¬ Resolvable r element ↔ ∃ name marker, element = .named name marker ∧ r.lookup name = none := by
  simp only [Resolvable, Registry.knows, Classical.not_forall, exists_prop, Bool.not_eq_true,
    Option.isSome_eq_false_iff, Option.isNone_iff_eq_none]

theorem elementKnown_of_resolvable {r : Registry} {element : TypeExpr} (h : Resolvable r element)
    (optional : Bool) : elementKnown r (.array element optional) = .ok () := by
  cases element with
  | named name marker => simp only [elementKnown, h name marker rfl, ↓reduceIte]
  | array e o => rfl

theorem elementKnown_of_not_resolvable {r : Registry} {element : TypeExpr}
    (h : ¬ Resolvable r element) (optional : Bool) :
    elementKnown r (.array element optional) =
      .error (.unknownElementType element.baseName (.array element optional)) := by
  cases element with
  | named name marker =>
    have hk : ¬ r.knows name := fun hk => h fun n m e => by cases e; exact hk
    simp only [elementKnown, hk, TypeExpr.baseName]
    rfl
  | array e o => exact absurd (fun n m he => by cases he) h

theorem matchArray_eq_first {r : Registry} {element : TypeExpr} (h : Resolvable r element)
    (deeper : Deeper) (optional : Bool) (items : List Value) :
    matchArray r deeper element optional (.array items) =
      first (items.mapIdx fun i v => (deeper (.type element) v).within (.index i)) := by
  cases items with
  | nil => rfl
  | cons v rest =>
    unfold matchArray
    simp only [Value.items?, elementKnown_of_resolvable h]
    show matchItems (deeper (.type element)) 0 (v :: rest) = _
    rw [matchItems_eq_first]
    simp only [Nat.zero_add]

theorem matchArray_of_not_resolvable {r : Registry} {element : TypeExpr}
    (h : ¬ Resolvable r element) (deeper : Deeper) (optional : Bool) {items : List Value}
    (hi : items ≠ []) :
    matchArray r deeper element optional (.array items) =
      .error (.unknownElementType element.baseName (.array element optional)) := by
  cases items with
  | nil => exact absurd rfl hi
  | cons v rest =>
    unfold matchArray
    simp only [Value.items?, elementKnown_of_not_resolvable h]
    rfl

theorem matchArray_of_not_array {v : Value} (h : v.items? = none) (r : Registry) (deeper : Deeper)
    (element : TypeExpr) (optional : Bool) :
    matchArray r deeper element optional v = .ok (.fails
      (.ofValue .notSequence v (Requirement.type (.array element optional)).display)) := by
  simp only [matchArray, h]

def Structured (v : Value) : Prop := v ≠ .null ∧ v.kind = .object

theorem structured_object (maker : Option Class) (fields : List (String × Value)) :
    Structured (.object maker fields) :=
  ⟨nofun, rfl⟩

theorem structured_of_present? {v w : Value} {name : String} (h : v.present? name = some w) :
    Structured v := by
  cases v with
  | object maker fields => exact structured_object maker fields
  | _ => cases h

theorem isNull_iff {v : Value} : v.isNull ↔ v = .null := by
  cases v <;> simp [Value.isNull]

theorem isUndefined_iff {v : Value} : v.isUndefined ↔ v = .undefined := by
  cases v <;> simp [Value.isUndefined]

theorem matchShape_eq_first {v : Value} (h : Structured v) (deeper : Deeper)
    (absent : Requirement → Except ConfigurationError Bool) (fields : Shape) :
    matchShape deeper absent fields v =
      first (fields.map (fieldResult deeper absent (.shape fields) v)) := by
  have hn : ¬ v.isNull := fun hn => h.1 (isNull_iff.1 hn)
  unfold matchShape
  rw [if_neg hn, if_neg (fun hk => hk h.2), matchFields_eq_first]

theorem matchShape_of_not_structured {v : Value} (h : ¬ Structured v) :
    ∃ kind, ∀ deeper absent fields, matchShape deeper absent fields v =
      .ok (.fails (.ofValue kind v (Requirement.shape fields).display)) := by
  by_cases hn : v.isNull
  · refine ⟨.nullValue, fun deeper absent fields => ?_⟩
    unfold matchShape
    rw [if_pos hn]
  · have hk : v.kind ≠ .object := fun hk => h ⟨fun he => hn (isNull_iff.2 he), hk⟩
    refine ⟨.notObject v.kind, fun deeper absent fields => ?_⟩
    unfold matchShape
    rw [if_neg hn, if_pos hk]

/-! ## Types -/

def Waives (e : TypeExpr) (v : Value) : Prop := e.optional ∧ v = .undefined

theorem not_waives_iff {e : TypeExpr} {v : Value} :
    ¬ Waives e v ↔ (e.optional && v.isUndefined) = false := by
  unfold Waives
  cases e.optional <;> cases v <;> simp [Value.isUndefined]

theorem test_of_waives {e : TypeExpr} {v : Value} (h : Waives e v) :
    (e.optional && v.isUndefined) = true := by
  obtain ⟨ho, rfl⟩ := h
  rw [ho]
  rfl

section Types

variable {r : Registry} {v : Value} {name : String} {optional : Bool}

theorem matchLevel_of_waives {e : TypeExpr} (h : Waives e v) (deeper : Deeper) (steps : Nat) :
    matchLevel r deeper (steps + 1) (.type e) v = .ok .conforms := by
  obtain ⟨ho, rfl⟩ := h
  cases e with
  | named name optional =>
    cases ho
    rfl
  | array element optional =>
    cases ho
    rfl

theorem matchLevel_array {element : TypeExpr} (h : ¬ Waives (.array element optional) v)
    (deeper : Deeper) (steps : Nat) :
    matchLevel r deeper (steps + 1) (.type (.array element optional)) v =
      matchArray r deeper element optional v := by
  have hw : (optional && v.isUndefined) = false := not_waives_iff.1 h
  simp only [matchLevel, hw, Bool.false_eq_true, ↓reduceIte]

theorem matchLevel_named (h : ¬ Waives (.named name optional) v) (deeper : Deeper) (steps : Nat) :
    matchLevel r deeper (steps + 1) (.type (.named name optional)) v =
      match r.lookup name with
      | some (.user d) => matchLevel r deeper steps d v
      | some (.builtin b) =>
        .ok (rootCheck (b.accepts v) (.builtinRejected b) (.type (.named name optional)) v)
      | some (.primitive k) =>
        .ok (rootCheck (v.kind == k) (.wrongPrimitiveKind k v.kind)
          (.type (.named name optional)) v)
      | none => .ok (.fails (.ofValue (.unknownTypeName name) v
          (Requirement.type (.named name optional)).display)) := by
  have hw : (optional && v.isUndefined) = false := not_waives_iff.1 h
  show (if optional && v.isUndefined then _ else _) = _
  exact if_neg (ne_true_of_eq_false hw)

theorem matchLevel_user {d : Requirement} (hl : r.lookup name = some (.user d))
    (h : ¬ Waives (.named name optional) v) (deeper : Deeper) (steps : Nat) :
    matchLevel r deeper (steps + 1) (.type (.named name optional)) v =
      matchLevel r deeper steps d v := by
  rw [matchLevel_named h, hl]

theorem matchLevel_builtin {b : Builtin} (hl : r.lookup name = some (.builtin b))
    (h : ¬ Waives (.named name optional) v) (deeper : Deeper) (steps : Nat) :
    matchLevel r deeper (steps + 1) (.type (.named name optional)) v =
      .ok (rootCheck (b.accepts v) (.builtinRejected b) (.type (.named name optional)) v) := by
  rw [matchLevel_named h, hl]

theorem matchLevel_primitive {k : Kind} (hl : r.lookup name = some (.primitive k))
    (h : ¬ Waives (.named name optional) v) (deeper : Deeper) (steps : Nat) :
    matchLevel r deeper (steps + 1) (.type (.named name optional)) v =
      .ok (rootCheck (v.kind == k) (.wrongPrimitiveKind k v.kind)
        (.type (.named name optional)) v) := by
  rw [matchLevel_named h, hl]

theorem matchLevel_unknown (hl : r.lookup name = none)
    (h : ¬ Waives (.named name optional) v) (deeper : Deeper) (steps : Nat) :
    matchLevel r deeper (steps + 1) (.type (.named name optional)) v =
      .ok (.fails (.ofValue (.unknownTypeName name) v
        (Requirement.type (.named name optional)).display)) := by
  rw [matchLevel_named h, hl]

end Types

/-! ## What conforms on a level -/

theorem testedBy_eq_conforms_iff {q : Requirement} {p : Predicate} {v : Value} :
    testedBy q p v = .conforms ↔ p.test v = .pass := by
  unfold testedBy
  cases p.test v <;> simp

theorem rootCheck_eq_conforms_iff {accepted : Bool} {kind : FailureKind} {q : Requirement}
    {v : Value} : rootCheck accepted kind q v = .conforms ↔ accepted := by
  unfold rootCheck
  cases accepted <;> simp

theorem isInstanceOf_iff {v : Value} {c : Class} :
    v.isInstanceOf c ↔ ∃ d fields, v = .object (some d) fields ∧ c ∈ d.lineage := by
  cases v with
  | object maker fields =>
    cases maker with
    | none => simp [Value.isInstanceOf, Value.class?]
    | some d => simp [Value.isInstanceOf, Value.class?, Class.descendsFrom]
  | _ => simp [Value.isInstanceOf, Value.class?]

theorem matchInstance_eq_conforms_iff {c : Class} {fallback : Option Predicate} {v : Value} :
    matchInstance c fallback v = .conforms ↔
      v.isInstanceOf c ∨ ∃ p, fallback = some p ∧ p.test v = .pass := by
  unfold matchInstance
  cases hv : v.isInstanceOf c with
  | true => simp
  | false =>
    cases fallback with
    | none => simp
    | some p => simp [testedBy_eq_conforms_iff]

theorem absenceResult_eq_conforms_iff {absent : Requirement → Except ConfigurationError Bool}
    {q required : Requirement} {v : Value} {name : String} :
    absenceResult absent q v name required = .ok .conforms ↔ absent required = .ok true := by
  unfold absenceResult
  rcases absent required with e | _ | _ <;> simp

theorem matchArray_eq_conforms_iff {r : Registry} {deeper : Deeper} {element : TypeExpr}
    {optional : Bool} {v : Value} :
    matchArray r deeper element optional v = .ok .conforms ↔
      ∃ items, v = .array items ∧ (items = [] ∨ Resolvable r element) ∧
        ∀ w ∈ items, deeper (.type element) w = .ok .conforms := by
  cases v with
  | array items =>
    by_cases hk : Resolvable r element
    · rw [matchArray_eq_first hk, first_items_eq_conforms_iff]
      simp [hk]
    · cases items with
      | nil => simp [matchArray, Value.items?]
      | cons w rest => simp [matchArray_of_not_resolvable hk _ _ (List.cons_ne_nil _ _), hk]
  | _ => simp [matchArray, Value.items?]

theorem matchShape_eq_conforms_iff {deeper : Deeper}
    {absent : Requirement → Except ConfigurationError Bool} {fields : Shape} {v : Value} :
    matchShape deeper absent fields v = .ok .conforms ↔ Structured v ∧
      ∀ field ∈ fields, fieldResult deeper absent (.shape fields) v field = .ok .conforms := by
  by_cases hv : Structured v
  · rw [matchShape_eq_first hv, first_eq_conforms_iff, List.forall_mem_map]
    simp only [hv, true_and]
  · obtain ⟨kind, hkind⟩ := matchShape_of_not_structured hv
    simp [hkind, hv]

theorem fieldResult_eq_conforms_iff {deeper : Deeper}
    {absent : Requirement → Except ConfigurationError Bool} {q required : Requirement} {v : Value}
    {name : String} :
    fieldResult deeper absent q v (name, required) = .ok .conforms ↔
      (∀ w, v.present? name = some w → deeper required w = .ok .conforms) ∧
        (v.present? name = none → absent required = .ok true) := by
  cases hp : v.present? name with
  | some w => simp [fieldResult_of_present hp, within_eq_conforms_iff]
  | none => simp [fieldResult_of_absent hp, absenceResult_eq_conforms_iff]

theorem matchLevel_named_eq_conforms_iff {r : Registry} {deeper : Deeper} {steps : Nat}
    {name : String} {optional : Bool} {v : Value} (h : ¬ Waives (.named name optional) v) :
    matchLevel r deeper (steps + 1) (.type (.named name optional)) v = .ok .conforms ↔
      (∃ d, r.lookup name = some (.user d) ∧ matchLevel r deeper steps d v = .ok .conforms) ∨
      (∃ b : Builtin, r.lookup name = some (.builtin b) ∧ b.accepts v) ∨
      r.lookup name = some (.primitive v.kind) := by
  cases hl : r.lookup name with
  | none => simp [matchLevel_unknown hl h]
  | some target =>
    cases target with
    | user d => simp [matchLevel_user hl h]
    | builtin b => simp [matchLevel_builtin hl h, rootCheck_eq_conforms_iff]
    | primitive k =>
      rw [matchLevel_primitive hl h, Except.ok.injEq, rootCheck_eq_conforms_iff, beq_iff_eq,
        @eq_comm _ v.kind k]
      simp

end Matching

end Conformance
