import Conformance.Proofs.Matching.Level
import Mathlib.Data.List.Forall2

/-!
# Congruences of results

A relation between results that `within` and `andThen` keep is a `Congruence`: it carries over
from the parts of a value to the whole. A relation between failures gives rise to one (`AlikeBy`).
`AgreesOn r r' S` says that `r'` knows the names that a match within the requirements `S` comes
upon just as `r` does. `ExtendsOn` lets `r'` also define names that stand for nothing in `r`, for a
congruence that does not hold on to the answers which such names lead to. A `Likeness` relates
values in which a match within `S` finds the same on each level.

Two such registries match such values alike, up to a congruence that relates their results where the
one of them comes to a bound (`matchWithin_congr`).
-/

namespace Conformance

open Matched Matching

def ConfigurationError.isBound : ConfigurationError → Bool
  | depthExceeded _ | nestingExceeded _ => true
  | _ => false

def Matched.withheld : Matched → Bool
  | .ok _ => false
  | .error e => e.isBound

/-- A relation between results that carries over from parts to the whole. Answers are related to
themselves; where a bound was met the relation is free. -/
structure Matched.Congruence (R : Matched → Matched → Prop) : Prop where
  same {a : Matched} : a.withheld = false → R a a
  within (s : PathSegment) {a b : Matched} : R a b → R (a.within s) (b.within s)
  andThen {a b a' b' : Matched} : R a b → R a' b' → R (a.andThen a') (b.andThen b')

namespace Matched

theorem eq_congruence : Congruence fun a b => a = b where
  same _ := rfl
  within _ _ _ h := by rw [h]
  andThen h h' := by rw [h, h']

theorem Congruence.flip {R : Matched → Matched → Prop} (h : Congruence R) :
    Congruence fun a b => R b a where
  same := h.same
  within s _ _ hab := h.within s hab
  andThen hab hab' := h.andThen hab hab'

/-- A congruence remains one if it is given up where the first of the two results has a problem of a
certain sort. -/
theorem Congruence.unless {R : Matched → Matched → Prop} {P : Matched → Prop} (hR : Congruence R)
    (hconforms : ∀ {a b : Matched}, R a b → (a = .ok .conforms ↔ b = .ok .conforms))
    (hproblem : ¬ P (.ok .conforms)) (hwithin : ∀ s {a : Matched}, P a → P (a.within s)) :
    Congruence fun a b => P a ∨ R a b where
  same h := .inr (hR.same h)
  within s _ _ h := h.imp (hwithin s) (hR.within s)
  andThen {a b a' b'} h h' := by
    rcases h with h | h
    · have ha : a ≠ .ok .conforms := fun ha => hproblem (ha ▸ h)
      rw [andThen_eq_self ha]
      exact .inl h
    · by_cases ha : a = .ok .conforms
      · rw [ha, (hconforms h).1 ha, andThen_conforms, andThen_conforms]
        exact h'
      · rw [andThen_eq_self ha, andThen_eq_self (mt (hconforms h).2 ha)]
        exact .inr h

/-- The same conformance, or failures that `F` relates, or the same error. -/
inductive AlikeBy (F : Failure → Failure → Prop) : Matched → Matched → Prop
  | conforms : AlikeBy F (.ok .conforms) (.ok .conforms)
  | fails {f g : Failure} (h : F f g) : AlikeBy F (.ok (.fails f)) (.ok (.fails g))
  | error {e : ConfigurationError} : AlikeBy F (.error e) (.error e)

theorem AlikeBy.refl {F : Failure → Failure → Prop} (hrefl : ∀ f, F f f) :
    ∀ a : Matched, AlikeBy F a a
  | .ok .conforms => .conforms
  | .ok (.fails f) => .fails (hrefl f)
  | .error _ => .error

theorem AlikeBy.andThen {F : Failure → Failure → Prop} {a b a' b' : Matched} (h : AlikeBy F a b)
    (h' : AlikeBy F a' b') : AlikeBy F (a.andThen a') (b.andThen b') := by
  cases h with
  | conforms => exact h'
  | fails h => exact .fails h
  | error => exact .error

theorem alikeBy_congruence {F : Failure → Failure → Prop} (hrefl : ∀ f, F f f)
    (hwithin : ∀ s {f g : Failure}, F f g → F (f.within s) (g.within s)) :
    Congruence (AlikeBy F) where
  same {a} _ := .refl hrefl a
  within s _ _ h := by
    cases h with
    | conforms => exact .conforms
    | fails h => exact .fails (hwithin s h)
    | error => exact .error
  andThen := .andThen

end Matched

/-- An answer that may rest on a name which stands for nothing: a definition of it might turn the
match to another answer. -/
inductive Matched.Provisional : Matched → Prop
  | unknownType {f : Failure} {name : String} (kind : f.kind = .unknownTypeName name) :
    Provisional (.ok (.fails f))
  | missingField {f : Failure} {name : String} (kind : f.kind = .missingField name) :
    Provisional (.ok (.fails f))
  | unknownElement {name : String} {e : TypeExpr} :
    Provisional (.error (.unknownElementType name e))

def Matched.Frees (R : Matched → Matched → Prop) : Prop := ∀ a b : Matched, a.Provisional → R a b

/-- `S` is closed under what a match in `r` comes upon, and `r'` resolves its names as `r` does. -/
structure Registry.AgreesOn (r r' : Registry) (S : Requirement → Prop) : Prop where
  element {e : TypeExpr} {optional : Bool} : S (.type (.array e optional)) → S (.type e)
  field {fields : Shape} {name : String} {q : Requirement} :
    S (.shape fields) → (name, q) ∈ fields → S q
  definition {q d : Requirement} : S q → r.definition? q = some d → S d
  lookup {name : String} {optional : Bool} :
    S (.type (.named name optional)) → r'.lookup name = r.lookup name

namespace Registry

theorem agreesOn_of_types {r r' : Registry} (h : r'.types = r.types) :
    r.AgreesOn r' fun _ => True where
  element _ := trivial
  field _ _ := trivial
  definition _ _ := trivial
  lookup _ := by simp only [lookup, get?, h]

/-- `S` is closed under what a match in `r` comes upon, and `r'` resolves its names as `r` does, but
for names that stand for nothing in `r`, if `R` lets go of what they lead to. -/
structure ExtendsOn (r r' : Registry) (S : Requirement → Prop) (R : Matched → Matched → Prop) :
    Prop where
  element {e : TypeExpr} {optional : Bool} : S (.type (.array e optional)) → S (.type e)
  field {fields : Shape} {name : String} {q : Requirement} :
    S (.shape fields) → (name, q) ∈ fields → S q
  definition {q d : Requirement} : S q → r.definition? q = some d → S d
  lookup {name : String} {optional : Bool} : S (.type (.named name optional)) →
    r'.lookup name = r.lookup name ∨ r.lookup name = none ∧ Frees R

variable {r r' : Registry} {S : Requirement → Prop} {R : Matched → Matched → Prop}

theorem AgreesOn.extendsOn (h : r.AgreesOn r' S) : r.ExtendsOn r' S R where
  element := h.element
  field := h.field
  definition := h.definition
  lookup hq := .inl (h.lookup hq)

theorem get?_eq_none_of_lookup_eq_none {name : String} (h : r.lookup name = none) :
    r.get? name = none := by
  refine Option.eq_none_iff_forall_ne_some.2 fun q hq => ?_
  cases h.symm.trans (lookup_eq_user_iff.2 hq)

theorem ExtendsOn.definition?_eq (h : r.ExtendsOn r' S R) {q : Requirement} (hq : S q) :
    r'.definition? q = r.definition? q ∨ r.definition? q = none ∧ Frees R := by
  cases q with
  | type e =>
    cases e with
    | named name optional =>
      rcases h.lookup hq with hl | ⟨hl, hfree⟩
      · exact .inl (get?_eq_of_lookup_eq hl)
      · exact .inr ⟨get?_eq_none_of_lookup_eq_none hl, hfree⟩
    | array element optional => exact .inl rfl
  | _ => exact .inl rfl

theorem ExtendsOn.resolvable_iff (h : r.ExtendsOn r' S R) {element : TypeExpr}
    (hq : S (.type element)) :
    (Matching.Resolvable r' element ↔ Matching.Resolvable r element) ∨
      ¬ Matching.Resolvable r element ∧ Frees R := by
  cases element with
  | named name marker =>
    rcases h.lookup hq with hl | ⟨hl, hfree⟩
    · exact .inl (by simp [Matching.Resolvable, knows, hl])
    · exact .inr ⟨Matching.not_resolvable_iff.2 ⟨name, marker, rfl, hl⟩, hfree⟩
  | array e o => exact .inl (by simp [Matching.Resolvable])

end Registry

/-- The predicate that the requirement puts to the value itself: its own, or its fallback. -/
def Requirement.predicate? : Requirement → Option Predicate
  | predicate p => some p
  | instanceOf _ fallback => fallback
  | _ => none

/-- On one level the two values are the same, if those are that `V` relates: the items and the
fields that are present. -/
structure Value.LooksLike (V : Value → Value → Prop) (v w : Value) : Prop where
  kind : v.kind = w.kind
  builtin (b : Builtin) : b.accepts v = b.accepts w
  items : Option.Rel (List.Forall₂ V) v.items? w.items?
  present (name : String) : Option.Rel V (v.present? name) (w.present? name)

/-- Values that `V` relates look alike down to all levels, the requirements `S` do not tell them
apart in another way, and failures of the one and the other are related. -/
structure Matched.Likeness (S : Requirement → Prop) (R : Matched → Matched → Prop)
    (V : Value → Value → Prop) : Prop where
  looks {v w : Value} : V v w → Value.LooksLike V v w
  maker {c : Class} {fallback : Option Predicate} {v w : Value} :
    S (.instanceOf c fallback) → V v w → v.isInstanceOf c = w.isInstanceOf c
  test {q : Requirement} {p : Predicate} {v w : Value} :
    S q → q.predicate? = some p → V v w → p.test v = p.test w
  fails {v w : Value} (kind : FailureKind) (text : String) : V v w →
    R (.ok (.fails (.ofValue kind v text))) (.ok (.fails (.ofValue kind w text)))

theorem none_or_some_of_rel {α β : Type} {R : α → β → Prop} {a : Option α} {b : Option β}
    (h : Option.Rel R a b) : a = none ∧ b = none ∨ ∃ x y, a = some x ∧ b = some y ∧ R x y := by
  cases h with
  | none => exact .inl ⟨rfl, rfl⟩
  | some h => exact .inr ⟨_, _, rfl, rfl, h⟩

namespace Value

variable {V : Value → Value → Prop} {v w : Value}

theorem looksLike_refl (v : Value) : LooksLike Eq v v where
  kind := rfl
  builtin _ := rfl
  items := by
    cases v.items? with
    | none => exact .none
    | some items => exact .some (List.forall₂_same.2 fun _ _ => rfl)
  present name := by
    cases v.present? name with
    | none => exact .none
    | some field => exact .some rfl

theorem items?_eq_some_iff {items : List Value} : v.items? = some items ↔ v = .array items := by
  cases v <;> simp [items?]

theorem isUndefined_eq_kind (v : Value) : v.isUndefined = (v.kind == .undefined) := by
  cases v <;> rfl

theorem isNull_eq_accepts (v : Value) : v.isNull = Builtin.null.accepts v := by
  cases v <;> rfl

theorem LooksLike.isUndefined (h : LooksLike V v w) : v.isUndefined = w.isUndefined := by
  rw [isUndefined_eq_kind, isUndefined_eq_kind, h.kind]

theorem LooksLike.isNull (h : LooksLike V v w) : v.isNull = w.isNull := by
  rw [isNull_eq_accepts, isNull_eq_accepts, h.builtin]

end Value

theorem Matched.Congruence.likeness {R : Matched → Matched → Prop} {S : Requirement → Prop}
    (hR : Congruence R) : Likeness S R Eq where
  looks := by
    rintro v _ rfl
    exact v.looksLike_refl
  maker := by
    rintro c fallback v _ - rfl
    rfl
  test := by
    rintro q p v _ - - rfl
    rfl
  fails := by
    rintro v _ kind text rfl
    exact hR.same rfl

namespace Matching

variable {R : Matched → Matched → Prop} {S : Requirement → Prop} {V : Value → Value → Prop}
  {r r' : Registry} {deeper deeper' : Deeper} {v w : Value}

/-- A relation that `andThen` keeps carries over from results to the first of them, also if it is
not kept by `within`. -/
theorem first_rel (hconforms : R (.ok .conforms) (.ok .conforms))
    (handThen : ∀ {a b a' b'}, R a b → R a' b' → R (a.andThen a') (b.andThen b'))
    {as bs : List Matched} (h : List.Forall₂ R as bs) : R (first as) (first bs) := by
  induction h with
  | nil => exact hconforms
  | cons hab _ ih => exact handThen hab ih

theorem first_congr (hR : Congruence R) {as bs : List Matched} (h : List.Forall₂ R as bs) :
    R (first as) (first bs) :=
  first_rel (hR.same rfl) hR.andThen h

theorem mapIdx_congr (hR : Congruence R) {match₁ match₂ : Value → Matched} {xs ys : List Value}
    (h : List.Forall₂ (fun x y => R (match₁ x) (match₂ y)) xs ys) :
    R (first (xs.mapIdx fun i v => (match₁ v).within (.index i)))
      (first (ys.mapIdx fun i v => (match₂ v).within (.index i))) := by
  obtain ⟨hlength, hget⟩ := List.forall₂_iff_get.1 h
  refine first_congr hR (List.forall₂_iff_get.2 ⟨by simpa using hlength, fun i hi hi' => ?_⟩)
  rw [List.length_mapIdx] at hi hi'
  simp only [List.get_eq_getElem, List.getElem_mapIdx]
  exact hR.within _ (hget i hi hi')

/-! ## One level

`r'` may resolve `extra` more names in a row than `r`. -/

variable {extra : Nat}

theorem testedBy_congr (hR : Congruence R) (hV : Likeness S R V) {q : Requirement} (hq : S q)
    {p : Predicate} (hp : q.predicate? = some p) (h : V v w) :
    R (.ok (testedBy q p v)) (.ok (testedBy q p w)) := by
  unfold testedBy
  rw [hV.test hq hp h]
  cases p.test w with
  | pass => exact hR.same rfl
  | fail => exact hV.fails _ _ h
  | error text => exact hV.fails _ _ h

theorem matchInstance_congr (hR : Congruence R) (hV : Likeness S R V) {c : Class}
    {fallback : Option Predicate} (hq : S (.instanceOf c fallback)) (h : V v w) :
    R (.ok (matchInstance c fallback v)) (.ok (matchInstance c fallback w)) := by
  unfold matchInstance
  rw [hV.maker hq h]
  cases w.isInstanceOf c with
  | true => exact hR.same rfl
  | false =>
    cases fallback with
    | none => exact hV.fails _ _ h
    | some p => exact testedBy_congr hR hV hq rfl h

theorem rootCheck_congr (hR : Congruence R) (hV : Likeness S R V) (accepted : Bool)
    (kind : FailureKind) (q : Requirement) (h : V v w) :
    R (.ok (rootCheck accepted kind q v)) (.ok (rootCheck accepted kind q w)) := by
  cases accepted with
  | true => exact hR.same rfl
  | false => exact hV.fails _ _ h

theorem absenceResult_congr (hR : Congruence R) (hS : r.ExtendsOn r' S R) (hV : Likeness S R V)
    (h : V v w) {q : Requirement} {name : String}
    (hend : ∀ required, R (.error (.depthExceeded r.settings.maxDepth))
      (absenceResult (admitsAbsence r' extra) q w name required))
    (steps : Nat) {required : Requirement} (hq : S required) :
    R (absenceResult (admitsAbsence r steps) q v name required)
      (absenceResult (admitsAbsence r' (steps + extra)) q w name required) := by
  induction steps generalizing required with
  | zero =>
    rw [Nat.zero_add]
    exact hend required
  | succ steps ih =>
    rw [Nat.add_right_comm]
    unfold absenceResult
    rw [admitsAbsence_succ, admitsAbsence_succ]
    by_cases ho : required.optional
    · simp only [ho, ↓reduceIte]
      exact hR.same rfl
    · simp only [ho]
      rcases hS.definition?_eq hq with hd | ⟨hd, hfree⟩
      · rw [hd]
        cases hd : r.definition? required with
        | none => exact hV.fails _ _ h
        | some definition => exact ih (hS.definition hq hd)
      · rw [hd]
        exact hfree _ _ (.missingField rfl)

theorem matchArray_congr (hR : Congruence R) (hS : r.ExtendsOn r' S R) (hV : Likeness S R V)
    (hdeep : ∀ q v w, S q → V v w → R (deeper q v) (deeper' q w))
    {element : TypeExpr} {optional : Bool} (hq : S (.type (.array element optional))) (h : V v w) :
    R (matchArray r deeper element optional v) (matchArray r' deeper' element optional w) := by
  have he := hS.element hq
  rcases none_or_some_of_rel (hV.looks h).items with ⟨hv, hw⟩ | ⟨xs, ys, hv, hw, hitems⟩
  · rw [matchArray_of_not_array hv, matchArray_of_not_array hw]
    exact hV.fails _ _ h
  · rw [Value.items?_eq_some_iff.1 hv, Value.items?_eq_some_iff.1 hw]
    cases hitems with
    | nil => exact hR.same rfl
    | @cons x y xs ys hxy hrest =>
      rcases hS.resolvable_iff he with hiff | ⟨hk, hfree⟩
      · by_cases hk : Resolvable r element
        · rw [matchArray_eq_first hk, matchArray_eq_first (hiff.2 hk)]
          exact mapIdx_congr hR ((List.Forall₂.cons hxy hrest).imp fun v w => hdeep _ v w he)
        · rw [matchArray_of_not_resolvable hk _ _ (List.cons_ne_nil x xs),
            matchArray_of_not_resolvable (mt hiff.1 hk) _ _ (List.cons_ne_nil y ys)]
          exact hR.same rfl
      · rw [matchArray_of_not_resolvable hk _ _ (List.cons_ne_nil x xs)]
        exact hfree _ _ .unknownElement

theorem structured_or_rejected (h : Value.LooksLike V v w) :
    (Structured v ∧ Structured w) ∨ ∃ kind, ∀ deeper absent fields,
      matchShape deeper absent fields v =
          .ok (.fails (.ofValue kind v (Requirement.shape fields).display)) ∧
        matchShape deeper absent fields w =
          .ok (.fails (.ofValue kind w (Requirement.shape fields).display)) := by
  by_cases hn : v.isNull
  · refine .inr ⟨.nullValue, fun deeper absent fields => ?_⟩
    unfold matchShape
    rw [if_pos hn, if_pos (h.isNull ▸ hn)]
    exact ⟨rfl, rfl⟩
  · have hn' : ¬ w.isNull := h.isNull ▸ hn
    by_cases hk : v.kind = .object
    · exact .inl ⟨⟨fun hv => hn (isNull_iff.2 hv), hk⟩,
        fun hw => hn' (isNull_iff.2 hw), h.kind ▸ hk⟩
    · refine .inr ⟨.notObject v.kind, fun deeper absent fields => ?_⟩
      unfold matchShape
      rw [if_neg hn, if_neg hn', if_pos hk, ← h.kind, if_pos hk]
      exact ⟨rfl, rfl⟩

theorem matchShape_congr (hR : Congruence R)
    {absent absent' : Requirement → Except ConfigurationError Bool} {fields fields' : Shape}
    (hvw : Value.LooksLike V v w)
    (hroot : ∀ kind, R (.ok (.fails (.ofValue kind v (Requirement.shape fields).display)))
      (.ok (.fails (.ofValue kind w (Requirement.shape fields').display))))
    (h : List.Forall₂ (fun field field' => R (fieldResult deeper absent (.shape fields) v field)
      (fieldResult deeper' absent' (.shape fields') w field')) fields fields') :
    R (matchShape deeper absent fields v) (matchShape deeper' absent' fields' w) := by
  rcases structured_or_rejected hvw with ⟨hv, hw⟩ | ⟨kind, hkind⟩
  · rw [matchShape_eq_first hv, matchShape_eq_first hw]
    refine first_congr hR ?_
    rw [List.forall₂_map_left_iff, List.forall₂_map_right_iff]
    exact h
  · rw [(hkind _ _ _).1, (hkind _ _ _).2]
    exact hroot kind

theorem fieldResult_congr (hR : Congruence R)
    (hdeep : ∀ q v w, S q → V v w → R (deeper q v) (deeper' q w))
    {absent absent' : Requirement → Except ConfigurationError Bool} {q required : Requirement}
    {name : String} (hvw : Value.LooksLike V v w) (hq : S required)
    (habsent : R (absenceResult absent q v name required) (absenceResult absent' q w name required)) :
    R (fieldResult deeper absent q v (name, required))
      (fieldResult deeper' absent' q w (name, required)) := by
  rcases none_or_some_of_rel (hvw.present name) with ⟨hv, hw⟩ | ⟨x, y, hv, hw, hxy⟩
  · rw [fieldResult_of_absent hv, fieldResult_of_absent hw]
    exact habsent
  · rw [fieldResult_of_present hv, fieldResult_of_present hw]
    exact hR.within _ (hdeep required x y hq hxy)

theorem matchLevel_congr (hR : Congruence R) (hS : r.ExtendsOn r' S R) (hV : Likeness S R V)
    (hdeep : ∀ q v w, S q → V v w → R (deeper q v) (deeper' q w))
    (hend : ∀ q w, R (.error (.depthExceeded r.settings.maxDepth))
      (matchLevel r' deeper' extra q w))
    (habsent : ∀ q w name required, R (.error (.depthExceeded r.settings.maxDepth))
      (absenceResult (admitsAbsence r' extra) q w name required))
    (steps : Nat) {q : Requirement} (hq : S q) (h : V v w) :
    R (matchLevel r deeper steps q v) (matchLevel r' deeper' (steps + extra) q w) := by
  have hvw := hV.looks h
  induction steps generalizing q with
  | zero =>
    rw [Nat.zero_add]
    exact hend q w
  | succ steps ih =>
    rw [Nat.add_right_comm]
    cases q with
    | predicate p => exact testedBy_congr hR hV hq rfl h
    | instanceOf c fallback => exact matchInstance_congr hR hV hq h
    | shape fields =>
      refine matchShape_congr hR hvw (fun kind => hV.fails kind _ h)
        (List.forall₂_same.2 fun (name, required) hf => ?_)
      have hreq := hS.field hq hf
      refine fieldResult_congr hR hdeep hvw hreq ?_
      rw [← Nat.add_right_comm]
      exact absenceResult_congr hR hS hV h (habsent _ _ _) (steps + 1) hreq
    | type e =>
      cases e with
      | array element optional =>
        unfold matchLevel
        rw [hvw.isUndefined]
        split
        · exact hR.same rfl
        · exact matchArray_congr hR hS hV hdeep hq h
      | named name optional =>
        unfold matchLevel
        rw [hvw.isUndefined]
        split
        · exact hR.same rfl
        · rcases hS.lookup hq with hl | ⟨hl, hfree⟩
          · rw [hl]
            cases hl : r.lookup name with
            | none => exact hV.fails _ _ h
            | some target =>
              cases target with
              | builtin b =>
                dsimp only
                rw [hvw.builtin b]
                exact rootCheck_congr hR hV _ _ _ h
              | primitive k =>
                dsimp only
                rw [hvw.kind]
                exact rootCheck_congr hR hV _ _ _ h
              | user d => exact ih (hS.definition hq (Registry.lookup_eq_user_iff.1 hl))
          · rw [hl]
            exact hfree _ _ (.unknownType rfl)

/-! ## All levels

`r'` may also enter `more` further levels. -/

theorem matchWithin_congr (hR : Congruence R) (hS : r.ExtendsOn r' S R) (hV : Likeness S R V)
    (extra more : Nat) (hdepth : r'.settings.maxDepth = r.settings.maxDepth + extra)
    (hend : ∀ deeper q w,
      R (.error (.depthExceeded r.settings.maxDepth)) (matchLevel r' deeper extra q w))
    (habsent : ∀ q w name required, R (.error (.depthExceeded r.settings.maxDepth))
      (absenceResult (admitsAbsence r' extra) q w name required))
    (hmore : ∀ q w, R (.error (.nestingExceeded r.settings.maxNesting)) (matchWithin r' more q w))
    (nesting : Nat) {q : Requirement} (hq : S q) (h : V v w) :
    R (matchWithin r nesting q v) (matchWithin r' (nesting + more) q w) := by
  induction nesting generalizing q v w with
  | zero =>
    rw [Nat.zero_add]
    exact hmore q w
  | succ nesting ih =>
    rw [Nat.add_right_comm, matchWithin, matchWithin, hdepth, Nat.add_right_comm]
    refine matchLevel_congr hR hS hV (fun q v w hq h => ?_) (hend _) habsent _ hq h
    exact ih hq h

end Matching

theorem Registry.ExtendsOn.assess {r r' : Registry} {S : Requirement → Prop}
    {R : Matched → Matched → Prop} {V : Value → Value → Prop} (hS : r.ExtendsOn r' S R)
    (hR : Congruence R) (hV : Likeness S R V)
    (hsame : ∀ e : ConfigurationError, R (.error e) (.error e))
    (hdepth : r'.settings.maxDepth = r.settings.maxDepth)
    (hnesting : r'.settings.maxNesting = r.settings.maxNesting) {q : Requirement} (hq : S q)
    {v w : Value} (h : V v w) : R (r.assess q v) (r'.assess q w) := by
  have hassess : r'.assess q w = matchWithin r' (r.settings.maxNesting + 1 + 0) q w := by
    rw [Registry.assess, hnesting, Nat.add_zero]
  rw [hassess]
  refine matchWithin_congr hR hS hV 0 0 hdepth ?_ ?_ ?_ _ hq h
  · intro deeper q w
    rw [matchLevel, hdepth]
    exact hsame _
  · intro q w name required
    rw [absenceResult, admitsAbsence, hdepth]
    exact hsame _
  · intro q w
    rw [matchWithin, hnesting]
    exact hsame _

end Conformance
