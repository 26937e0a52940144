import Conformance.Proofs.Matching.Congruence

/-!
# Requirements that ask no more

One requirement asks no more of a value than another if it only has further markers and if, for
each field that it declares, the other asks no less. `LooserBy` says so for one level, and a
relation between requirements that says so for all levels, and relates the definitions in two
registries (`Registry.Pointwise`), is a `Loosening`. What conforms then still conforms, within the
same bounds: a marker only ends the match earlier, and what is followed otherwise are the same names
in the same order (`matchWithin_of_loosening`).
-/

namespace Conformance

open Matched Matching

/-- `q'` asks no more of a value than `q` on this level, and `W` relates what they ask further
in. -/
inductive Requirement.LooserBy (W : Requirement → Requirement → Prop) :
    Requirement → Requirement → Prop
  | predicate {p : Predicate} : LooserBy W (.predicate p) (.predicate p)
  | instanceOf {c : Class} {fallback : Option Predicate} :
    LooserBy W (.instanceOf c fallback) (.instanceOf c fallback)
  | named {name : String} {optional optional' : Bool} (marker : optional → optional') :
    LooserBy W (.type (.named name optional)) (.type (.named name optional'))
  | array {e e' : TypeExpr} {optional optional' : Bool} (element : W (.type e) (.type e'))
    (marker : optional → optional') :
    LooserBy W (.type (.array e optional)) (.type (.array e' optional'))
  | shape {fields fields' : Shape}
    (field : ∀ name q', (name, q') ∈ fields' → ∃ q, (name, q) ∈ fields ∧ W q q') :
    LooserBy W (.shape fields) (.shape fields')

/-- `W` relates the definitions of a name in `r` and in `r'`. The bounds are the same. -/
structure Registry.Pointwise (W : Requirement → Requirement → Prop) (r r' : Registry) : Prop where
  maxDepth : r'.settings.maxDepth = r.settings.maxDepth
  maxNesting : r'.settings.maxNesting = r.settings.maxNesting
  types (name : String) : Option.Rel W (r.get? name) (r'.get? name)

/-- What `W` relates asks no more in `r'` than it does in `r`, and so do the definitions. -/
structure Registry.Loosening (W : Requirement → Requirement → Prop) (r r' : Registry) : Prop
    extends Pointwise W r r' where
  looser {q q' : Requirement} : W q q' → q.LooserBy W q'

variable {W : Requirement → Requirement → Prop}

theorem Requirement.LooserBy.optional {q q' : Requirement} (h : q.LooserBy W q') :
    q.optional → q'.optional := by
  cases h with
  | named marker => exact marker
  | array element marker => exact marker
  | _ => exact id

namespace Registry

variable {r r' : Registry} {name : String}

namespace Pointwise

theorem flip (h : Pointwise W r r') : Pointwise (fun q q' => W q' q) r' r where
  maxDepth := h.maxDepth.symm
  maxNesting := h.maxNesting.symm
  types name := by
    rcases none_or_some_of_rel (h.types name) with ⟨hn, hn'⟩ | ⟨d, d', hd, hd', hrel⟩
    · rw [hn, hn']
      exact .none
    · rw [hd, hd']
      exact .some hrel

theorem exists_get? (h : Pointwise W r r') {d : Requirement} (hd : r.get? name = some d) :
    ∃ d', r'.get? name = some d' ∧ W d d' := by
  rcases none_or_some_of_rel (h.types name) with ⟨hn, -⟩ | ⟨_, d', hd', hdef, hrel⟩
  · cases hn.symm.trans hd
  · cases hd'.symm.trans hd
    exact ⟨d', hdef, hrel⟩

theorem lookup_eq (h : Pointwise W r r') (hn : r.get? name = none) :
    r'.lookup name = r.lookup name := by
  rcases none_or_some_of_rel (h.types name) with ⟨-, hn'⟩ | ⟨_, _, hd, -, -⟩
  · exact lookup_eq_of_get?_eq (hn'.trans hn.symm)
  · cases hn.symm.trans hd

theorem knows (h : Pointwise W r r') (hk : r.knows name) : r'.knows name := by
  rw [Registry.knows]
  cases hd : r.get? name with
  | some d =>
    obtain ⟨d', hd', -⟩ := h.exists_get? hd
    rw [lookup_eq_user_iff.2 hd']
    rfl
  | none =>
    rw [h.lookup_eq hd]
    exact hk

theorem insert (h : Pointwise W r r') (name : String) {q q' : Requirement} (hq : W q q') :
    Pointwise W (r.insert name q) (r'.insert name q') where
  maxDepth := h.maxDepth
  maxNesting := h.maxNesting
  types n := by
    rw [get?_insert, get?_insert]
    split
    · exact .some hq
    · exact h.types n

end Pointwise

theorem pointwise_withSettings (W : Requirement → Requirement → Prop) (settings : Settings) :
    Pointwise W (withSettings settings) (withSettings settings) :=
  ⟨rfl, rfl, fun _ => .none⟩

namespace Loosening

theorem definition? (h : Loosening W r r') {q q' d : Requirement} (hq : W q q')
    (hd : r.definition? q = some d) : ∃ d', r'.definition? q' = some d' ∧ W d d' := by
  obtain ⟨n, optional, rfl, hd⟩ := definition?_eq_some_iff.1 hd
  cases h.looser hq with
  | named marker => exact h.exists_get? hd

theorem resolvable (h : Loosening W r r') {e e' : TypeExpr} (he : W (.type e) (.type e'))
    (hk : Resolvable r e) : Resolvable r' e' := by
  rintro name marker rfl
  cases h.looser he with
  | named _ => exact h.knows (hk name _ rfl)

end Loosening

end Registry

/-! ## Matches -/

namespace Matching

variable {r r' : Registry} {deeper deeper' : Deeper} {q q' : Requirement}

theorem admitsAbsence_of_loosening (hr : Registry.Loosening W r r') {steps : Nat} (hq : W q q')
    (h : admitsAbsence r steps q = .ok true) : admitsAbsence r' steps q' = .ok true := by
  induction steps generalizing q q' with
  | zero => cases h
  | succ steps ih =>
    rw [admitsAbsence_succ] at h ⊢
    by_cases ho' : q'.optional
    · rw [if_pos ho']
    · rw [if_neg (mt (hr.looser hq).optional ho')] at h
      rw [if_neg ho']
      cases hd : r.definition? q with
      | none =>
        rw [hd] at h
        cases h
      | some d =>
        rw [hd] at h
        obtain ⟨d', hd', hweak⟩ := hr.definition? hq hd
        rw [hd']
        exact ih hweak h

theorem matchShape_of_loosening (hr : Registry.Loosening W r r')
    (hdeep : ∀ q q' v, W q q' → deeper q v = .ok .conforms → deeper' q' v = .ok .conforms)
    {steps : Nat} {fields fields' : Shape}
    (hfields : ∀ name q', (name, q') ∈ fields' → ∃ q, (name, q) ∈ fields ∧ W q q') {v : Value}
    (h : matchShape deeper (admitsAbsence r steps) fields v = .ok .conforms) :
    matchShape deeper' (admitsAbsence r' steps) fields' v = .ok .conforms := by
  obtain ⟨hv, hparts⟩ := matchShape_eq_conforms_iff.1 h
  refine matchShape_eq_conforms_iff.2 ⟨hv, fun (name, q') hf' => ?_⟩
  obtain ⟨q, hf, hq⟩ := hfields name q' hf'
  obtain ⟨hpresent, habsent⟩ := fieldResult_eq_conforms_iff.1 (hparts _ hf)
  exact fieldResult_eq_conforms_iff.2 ⟨fun w hw => hdeep _ _ w hq (hpresent w hw),
    fun hn => admitsAbsence_of_loosening hr hq (habsent hn)⟩

theorem matchLevel_of_loosening (hr : Registry.Loosening W r r')
    (hdeep : ∀ q q' v, W q q' → deeper q v = .ok .conforms → deeper' q' v = .ok .conforms)
    {steps : Nat} (hq : W q q') {v : Value} (h : matchLevel r deeper steps q v = .ok .conforms) :
    matchLevel r' deeper' steps q' v = .ok .conforms := by
  induction steps generalizing q q' with
  | zero => cases h
  | succ steps ih =>
    cases hr.looser hq with
    | predicate => exact h
    | instanceOf => exact h
    | shape hfields => exact matchShape_of_loosening hr hdeep hfields h
    | @array e e' optional optional' he marker =>
      by_cases hw' : Waives (.array e' optional') v
      · exact matchLevel_of_waives hw' deeper' steps
      · -- Neither marker accepts the value, so both types are looked into.
        have hw : ¬ Waives (.array e optional) v := fun hw => hw' ⟨marker hw.1, hw.2⟩
        rw [matchLevel_array hw] at h
        rw [matchLevel_array hw']
        obtain ⟨items, rfl, hk, hitems⟩ := matchArray_eq_conforms_iff.1 h
        exact matchArray_eq_conforms_iff.2 ⟨items, rfl, hk.imp_right (hr.resolvable he),
          fun w hmem => hdeep _ _ w he (hitems w hmem)⟩
    | @named name optional optional' marker =>
      by_cases hw' : Waives (.named name optional') v
      · exact matchLevel_of_waives hw' deeper' steps
      · have hw : ¬ Waives (.named name optional) v := fun hw => hw' ⟨marker hw.1, hw.2⟩
        cases hd : r.get? name with
        | some d =>
          obtain ⟨d', hd', hweak⟩ := hr.exists_get? hd
          rw [matchLevel_user (Registry.lookup_eq_user_iff.2 hd) hw] at h
          rw [matchLevel_user (Registry.lookup_eq_user_iff.2 hd') hw']
          exact ih hweak h
        | none =>
          rw [matchLevel_named_eq_conforms_iff hw] at h
          rw [matchLevel_named_eq_conforms_iff hw', hr.lookup_eq hd]
          rcases h with ⟨d, hl, -⟩ | h
          · cases hd.symm.trans (Registry.lookup_eq_user_iff.1 hl)
          · exact .inr h

theorem matchWithin_of_loosening (hr : Registry.Loosening W r r') {nesting : Nat} (hq : W q q')
    {v : Value} (h : matchWithin r nesting q v = .ok .conforms) :
    matchWithin r' nesting q' v = .ok .conforms := by
  induction nesting generalizing q q' v with
  | zero => cases h
  | succ nesting ih =>
    rw [matchWithin] at h ⊢
    rw [hr.maxDepth]
    refine matchLevel_of_loosening hr (fun q q' v hq h => ?_) hq h
    exact ih hq h

end Matching

theorem Registry.Loosening.assess {r r' : Registry} (hr : Loosening W r r')
    {q q' : Requirement} (hq : W q q') {v : Value} (h : r.assess q v = .ok .conforms) :
    r'.assess q' v = .ok .conforms := by
  rw [Registry.assess, hr.maxNesting]
  exact matchWithin_of_loosening hr hq h

end Conformance
