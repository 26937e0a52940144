import Conformance.Proofs.Matching.Conformity

/-!
# Arrays over names that lead nowhere

Whether the element type of an array stands for something is asked of its name alone; what the name
is defined as is looked at in the items. So an array over a name that stands for nothing cannot be
checked, while an array over an alias of such a name can: its items are not of that type, except for
those that a marker on the way accepts (`assess_array_of_dangles`).
-/

namespace Conformance

open Matched Matching

/-- From `e` on, the definitions of `names` are types that name a type, and in the end there is
`last`, the name of no type. `marked` tells whether one of these types carries the marker. -/
inductive Registry.Dangles (r : Registry) : TypeExpr → List String → Bool → TypeExpr → Prop
  | unknown {name : String} {marker : Bool} (unknown : r.lookup name = none) :
    Dangles r (.named name marker) [] marker (.named name marker)
  | definition {name : String} {marker marked : Bool} {e last : TypeExpr} {names : List String}
    (resolved : r.get? name = some (.type e)) (rest : Dangles r e names marked last) :
    Dangles r (.named name marker) (name :: names) (marker || marked) last

namespace Matching

variable {r : Registry} {e last : TypeExpr} {names : List String} {marked : Bool}

/-- What is found about a value of such a type: a marker accepts it, or its type is unknown. -/
def danglingOutcome (marked : Bool) (last : TypeExpr) (w : Value) : Outcome :=
  rootCheck (marked && w.isUndefined) (.unknownTypeName last.baseName) (.type last) w

theorem danglingOutcome_eq_conforms_iff {w : Value} :
    danglingOutcome marked last w = .conforms ↔ marked ∧ w = .undefined := by
  rw [danglingOutcome, rootCheck_eq_conforms_iff, Bool.and_eq_true, isUndefined_iff]

theorem danglingOutcome_of_not_accepted {w : Value} (h : ¬ (marked ∧ w = .undefined)) :
    danglingOutcome marked last w = .fails
      (.ofValue (.unknownTypeName last.baseName) w (Requirement.type last).display) := by
  have htest : (marked && w.isUndefined) = false := by
    rw [← isUndefined_iff, ← Bool.and_eq_true] at h
    exact eq_false_of_ne_true h
  rw [danglingOutcome, htest]
  rfl

theorem matchLevel_of_dangles (h : r.Dangles e names marked last) (deeper : Deeper) (steps : Nat)
    (w : Value) :
    matchLevel r deeper steps (.type e) w = .ok (danglingOutcome marked last w) ∨
      steps ≤ names.length ∧
        matchLevel r deeper steps (.type e) w = .error (.depthExceeded r.settings.maxDepth) := by
  induction h generalizing steps with
  | @unknown name marker unknown =>
    cases steps with
    | zero => exact .inr ⟨Nat.zero_le _, rfl⟩
    | succ steps =>
      left
      by_cases hw : Waives (.named name marker) w
      · have htest : (marker && w.isUndefined) = true := test_of_waives hw
        rw [matchLevel_of_waives hw, danglingOutcome, htest]
        rfl
      · have htest : (marker && w.isUndefined) = false := not_waives_iff.1 hw
        rw [matchLevel_unknown unknown hw, danglingOutcome, htest]
        rfl
  | @definition name marker marked e last names resolved rest ih =>
    cases steps with
    | zero => exact .inr ⟨Nat.zero_le _, rfl⟩
    | succ steps =>
      by_cases hw : Waives (.named name marker) w
      · have htest : (marker && w.isUndefined) = true := test_of_waives hw
        rw [matchLevel_of_waives hw, danglingOutcome, Bool.and_or_distrib_right, htest]
        exact .inl rfl
      · have htest : (marker && w.isUndefined) = false := not_waives_iff.1 hw
        rw [matchLevel_user (Registry.lookup_eq_user_iff.2 resolved) hw, danglingOutcome,
          Bool.and_or_distrib_right, htest, Bool.false_or]
        exact (ih steps).imp_right (.imp_left Nat.succ_le_succ)

theorem matchWithin_of_dangles (h : r.Dangles e names marked last) (nesting : Nat) (w : Value) :
    matchWithin r nesting (.type e) w = .ok (danglingOutcome marked last w) ∨
      r.settings.maxDepth < names.length ∧
        matchWithin r nesting (.type e) w = .error (.depthExceeded r.settings.maxDepth) ∨
      nesting = 0 ∧
        matchWithin r nesting (.type e) w = .error (.nestingExceeded r.settings.maxNesting) := by
  cases nesting with
  | zero => exact .inr (.inr ⟨rfl, rfl⟩)
  | succ nesting => exact (matchLevel_of_dangles h _ _ w).imp_right .inl

theorem accepted_of_dangles (h : r.Dangles e names marked last) {nesting : Nat} {w : Value}
    (hw : matchWithin r nesting (.type e) w = .ok .conforms) : marked ∧ w = .undefined := by
  rcases matchWithin_of_dangles h nesting w with ho | ⟨-, ho⟩ | ⟨-, ho⟩
  · exact danglingOutcome_eq_conforms_iff.1 (Except.ok.inj (ho.symm.trans hw))
  · cases ho.symm.trans hw
  · cases ho.symm.trans hw

theorem resolvable_of_dangles (h : r.Dangles e names marked last) (hnames : names ≠ []) :
    Resolvable r e := by
  cases h with
  | unknown _ => exact absurd rfl hnames
  | definition resolved _ =>
    intro name marker he
    cases he
    rw [Registry.knows, Registry.lookup_eq_user_iff.2 resolved]
    rfl

theorem not_resolvable_of_dangles (h : r.Dangles e [] marked last) : ¬ Resolvable r e := by
  obtain ⟨unknown⟩ := h
  exact not_resolvable_iff.2 ⟨_, _, rfl, unknown⟩

end Matching

/-- A non-empty array over a name from which one comes, by way of the definitions of `names`, to a
name that stands for nothing. If it is that name itself the array cannot be checked. If it is the
name of a registered type the items decide, unless a bound is met: those that are `undefined` conform
if there is a marker on the way, and the first other one is of an unknown type. -/
theorem Registry.assess_array_of_dangles {r : Registry} {e last : TypeExpr} {names : List String}
    {marked : Bool} (h : r.Dangles e names marked last) (optional : Bool) {items : List Value}
    (hitems : items ≠ []) :
    let result := r.assess (.type (.array e optional)) (.array items)
    (names = [] → result = .error (.unknownElementType e.baseName (.array e optional))) ∧
      (names ≠ [] →
        (result = .ok .conforms ∧ ∀ w ∈ items, marked ∧ w = .undefined) ∨
        (∃ before w after, items = before ++ w :: after ∧
          (∀ u ∈ before, marked ∧ u = .undefined) ∧ ¬ (marked ∧ w = .undefined) ∧
          result = .ok (.fails ⟨.unknownTypeName last.baseName, w.pretty,
            (Requirement.type last).display, [.index before.length]⟩)) ∨
        (r.settings.maxDepth < names.length ∧
          result = .error (.depthExceeded r.settings.maxDepth)) ∨
        (r.settings.maxNesting = 0 ∧
          result = .error (.nestingExceeded r.settings.maxNesting))) := by
  intro result
  have hresult : result = matchArray r (matchWithin r r.settings.maxNesting) e optional
      (.array items) := matchLevel_array (by rintro ⟨-, hv⟩; cases hv) _ r.settings.maxDepth
  constructor
  · rintro rfl
    rw [hresult, matchArray_of_not_resolvable (not_resolvable_of_dangles h) _ _ hitems]
  · intro hnames
    rw [hresult, matchArray_eq_first (resolvable_of_dangles h hnames)]
    rcases first_items_cases (matchWithin r r.settings.maxNesting (.type e)) items with
      ⟨hwhole, hall⟩ | ⟨before, w, after, hsplit, hconform, hw, hwhole⟩
    · exact .inl ⟨hwhole, fun w hw => accepted_of_dangles h (hall w hw)⟩
    · rw [hwhole]
      rcases matchWithin_of_dangles h r.settings.maxNesting w with ho | ⟨hd, ho⟩ | ⟨hn, ho⟩
      · have hrejected : ¬ (marked ∧ w = .undefined) := by
          intro hw'
          rw [ho, danglingOutcome_eq_conforms_iff.2 hw'] at hw
          exact hw rfl
        rw [ho, danglingOutcome_of_not_accepted hrejected]
        exact .inr (.inl ⟨before, w, after, hsplit,
          fun u hu => accepted_of_dangles h (hconform u hu), hrejected, rfl⟩)
      · rw [ho]
        exact .inr (.inr (.inl ⟨hd, rfl⟩))
      · rw [ho]
        exact .inr (.inr (.inr ⟨hn, rfl⟩))

/-- The name `id` stands for something, and so the first item is blamed for `key`, which does not. -/
theorem Registry.assess_array_blames_item :
    let r := (withSettings {}).insert "id" (.type (.named "key" false))
    let result := r.assess (.type (.array (.named "id" false) false)) (.array [.null])
    r.Dangles (.named "id" false) ["id"] false (.named "key" false) ∧
      result = .ok (.fails ⟨.unknownTypeName "key", Value.null.pretty,
        (Requirement.type (.named "key" false)).display, [.index 0]⟩) ∧
      ∀ name found, result ≠ .error (.unknownElementType name found) := by
  intro r result
  have hresult : result = .ok (.fails ⟨.unknownTypeName "key", Value.null.pretty,
    (Requirement.type (.named "key" false)).display, [.index 0]⟩) := rfl
  refine ⟨.definition rfl (.unknown rfl), hresult, fun name found h => ?_⟩
  cases hresult.symm.trans h

/-- With a marker on the way from `id` to `key` the first item is accepted, and the second blamed. -/
theorem Registry.assess_array_of_dangles_marked :
    let r := (withSettings {}).insert "id" (.type (.named "key" true))
    let items : List Value := [.undefined, .null]
    (∃ before w after, items = before ++ w :: after ∧ (∀ u ∈ before, u = .undefined) ∧
      w ≠ .undefined ∧
      r.assess (.type (.array (.named "id" false) false)) (.array items) =
        .ok (.fails ⟨.unknownTypeName "key", w.pretty,
          (Requirement.type (.named "key" true)).display, [.index before.length]⟩)) ∧
      r.assess (.type (.array (.named "key" true) false)) (.array items) =
        .error (.unknownElementType "key" (.array (.named "key" true) false)) := by
  intro r items
  have hitems : items ≠ [] := List.cons_ne_nil _ _
  have hkey : r.Dangles (.named "key" true) [] true (.named "key" true) := .unknown rfl
  have hid : r.Dangles (.named "id" false) ["id"] true (.named "key" true) := .definition rfl hkey
  constructor
  · rcases (assess_array_of_dangles hid false hitems).2 (List.cons_ne_nil _ _) with
      ⟨-, hall⟩ | ⟨before, w, after, hsplit, hbefore, hw, hresult⟩ | ⟨hdepth, -⟩ | ⟨hnesting, -⟩
    · cases (hall .null (List.mem_cons_of_mem _ List.mem_cons_self)).2
    · exact ⟨before, w, after, hsplit, fun u hu => (hbefore u hu).2, fun h => hw ⟨rfl, h⟩, hresult⟩
    · exact absurd hdepth (by decide)
    · exact absurd hnesting (by decide)
  · exact (assess_array_of_dangles hkey false hitems).1 rfl

end Conformance
