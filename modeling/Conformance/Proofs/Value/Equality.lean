import Conformance.Proofs.Double.Equality
import Conformance.Proofs.Value.Parts

/-!
# Equality of values

Values are compared part by part (`Compared`). The comparison is symmetric and transitive, and a
value is equal to itself unless it holds the number that is none (`eq_self_iff`). Equal values
have the same JSON form, the same text and the same built-in types.
-/

namespace Conformance

section Lists

variable {α : Type} {R : α → α → Prop} {as bs cs : List α}

theorem forall₂_symm (hR : ∀ a ∈ as, ∀ b, R a b → R b a) (h : List.Forall₂ R as bs) :
    List.Forall₂ R bs as :=
  (forall₂_imp_mem hR h).flip

theorem forall₂_trans (hR : ∀ a ∈ as, ∀ b c, R a b → R b c → R a c) (h : List.Forall₂ R as bs)
    (h' : List.Forall₂ R bs cs) : List.Forall₂ R as cs := by
  induction h generalizing cs with
  | nil => exact h'
  | cons hab _ ih =>
    cases h' with
    | cons hbc hrest =>
      obtain ⟨hhead, htail⟩ := List.forall_mem_cons.1 hR
      exact .cons (hhead _ _ hab hbc) (ih htail hrest)

end Lists

namespace Value

/-- The same value but for its numbers, which are equal, and for its parts, which `E` relates. -/
inductive Compared (E : Value → Value → Prop) : Value → Value → Prop
  | undefined : Compared E .undefined .undefined
  | null : Compared E .null .null
  | bool (b : Bool) : Compared E (.bool b) (.bool b)
  | number {x y : Double} (h : x.eq y) : Compared E (.number x) (.number y)
  | string (s : String) : Compared E (.string s) (.string s)
  | array {xs ys : List Value} (h : List.Forall₂ E xs ys) : Compared E (.array xs) (.array ys)
  | object (maker : Option Class) {xs ys : List (String × Value)}
    (h : List.Forall₂ (fun x y => x.1 = y.1 ∧ E x.2 y.2) xs ys) :
    Compared E (.object maker xs) (.object maker ys)
  | date (t : Instant) : Compared E (.date t) (.date t)
  | buffer (bytes : List UInt8) : Compared E (.buffer bytes) (.buffer bytes)
  | function (f : Function) : Compared E (.function f) (.function f)

theorem eq_iff {v w : Value} : v.eq w ↔ Compared (fun v w => v.eq w) v w := by
  constructor
  · intro h
    fun_cases Value.eq v w with
    | case1 => exact .undefined
    | case2 => exact .null
    | case3 =>
      obtain rfl := beq_iff_eq.1 h
      exact .bool _
    | case4 => exact .number h
    | case5 =>
      obtain rfl := beq_iff_eq.1 h
      exact .string _
    | case6 => exact .array (eqItems_iff.1 h)
    | case7 c xs d ys =>
      obtain ⟨hc, hfields⟩ := Bool.and_eq_true_iff.1 h
      obtain rfl := of_decide_eq_true hc
      exact .object c (eqFields_iff.1 hfields)
    | case8 =>
      obtain rfl := of_decide_eq_true h
      exact .date _
    | case9 =>
      obtain rfl := beq_iff_eq.1 h
      exact .buffer _
    | case10 =>
      obtain rfl := of_decide_eq_true h
      exact .function _
    | case11 => simp_all [Value.eq]
  · intro h
    cases h with
    | number h => exact h
    | array h => exact eqItems_iff.2 h
    | object maker h => simpa [Value.eq] using eqFields_iff.2 h
    | _ => simp [Value.eq]

/-! ## An equivalence, but for `nan` -/

theorem eq_symm {v w : Value} (h : v.eq w) : w.eq v := by
  induction v using Value.induction generalizing w with
  | array items ih =>
    cases eq_iff.1 h with
    | array hitems => exact eq_iff.2 (.array (forall₂_symm (fun v hv w => ih v hv) hitems))
  | object maker fields ih =>
    cases eq_iff.1 h with
    | object _ hfields =>
      refine eq_iff.2 (.object maker (forall₂_symm (fun field hf other hother => ?_) hfields))
      exact ⟨hother.1.symm, ih field hf hother.2⟩
  | number x =>
    cases eq_iff.1 h with
    | number hx => exact eq_iff.2 (.number (Double.eq_symm hx))
  | _ => cases eq_iff.1 h; exact h

theorem eq_trans {u v w : Value} (h : u.eq v) (h' : v.eq w) : u.eq w := by
  induction u using Value.induction generalizing v w with
  | array items ih =>
    cases eq_iff.1 h with
    | array hitems =>
      cases eq_iff.1 h' with
      | array hitems' =>
        exact eq_iff.2 (.array (forall₂_trans (fun u hu v w => ih u hu) hitems hitems'))
  | object maker fields ih =>
    cases eq_iff.1 h with
    | object _ hfields =>
      cases eq_iff.1 h' with
      | object _ hfields' =>
        refine eq_iff.2 (.object maker (forall₂_trans (fun field hf x y hx hy => ?_) hfields hfields'))
        exact ⟨hx.1.trans hy.1, ih field hf hx.2 hy.2⟩
  | number x =>
    cases eq_iff.1 h with
    | number hx =>
      cases eq_iff.1 h' with
      | number hy => exact eq_iff.2 (.number (Double.eq_trans hx hy))
  | _ => cases eq_iff.1 h; exact h'

theorem eq_self_iff {v : Value} : v.eq v ↔ ¬ PartOf (.number .nan) v := by
  induction v using Value.induction with
  | array items ih =>
    rw [Value.eq, eqItems_iff, List.forall₂_same]
    constructor
    · intro h hnan
      cases hnan with
      | item mem hpart => exact (ih _ mem).1 (h _ mem) hpart
    · exact fun h v hv => (ih v hv).2 fun hpart => h (.item hv hpart)
  | object maker fields ih =>
    have hmaker : (Value.object maker fields).eq (.object maker fields) ↔ eqFields fields fields := by
      simp [Value.eq]
    rw [hmaker, eqFields_iff, List.forall₂_same]
    constructor
    · intro h hnan
      cases hnan with
      | field mem hpart => exact (ih _ mem).1 (h _ mem).2 hpart
    · exact fun h field hf => ⟨rfl, (ih field hf).2 fun hpart => h (.field hf hpart)⟩
  | number x =>
    rw [Value.eq, Double.eq_self_iff]
    constructor
    · intro h hnan
      cases hnan
      exact h rfl
    · rintro h rfl
      exact h .self
  | _ =>
    refine iff_of_true (by simp [Value.eq]) fun hnan => ?_
    cases hnan

/-! ## What equal values have in common -/

theorem jsonWith_eq_of_eq {v w : Value} (h : v.eq w) (encode : List UInt8 → Json) :
    v.jsonWith encode = w.jsonWith encode := by
  induction v using Value.induction generalizing w with
  | array items ih =>
    cases eq_iff.1 h with
    | array hitems =>
      rw [jsonWith, jsonWith,
        itemsWith_congr (forall₂_imp_mem (fun v hv w hvw => ih v hv hvw) hitems)]
  | object maker fields ih =>
    cases eq_iff.1 h with
    | object _ hfields =>
      rw [jsonWith, jsonWith,
        fieldsWith_congr (forall₂_imp_mem (fun x hx y hxy => ⟨hxy.1, ih x hx hxy.2⟩) hfields)]
  | number x =>
    cases eq_iff.1 h with
    | number hx => rw [jsonWith, jsonWith, Double.toJson_eq_of_eq hx]
  | _ => cases eq_iff.1 h; rfl

theorem toJson_eq_of_eq {v w : Value} (h : v.eq w) : v.toJson = w.toJson :=
  jsonWith_eq_of_eq h bufferJson

theorem exceedsDepth_eq_of_eq {v w : Value} (h : v.eq w) (budget : Nat) :
    v.exceedsDepth budget = w.exceedsDepth budget := by
  induction v using Value.induction generalizing w budget with
  | array items ih =>
    cases eq_iff.1 h with
    | array hitems =>
      exact itemsExceed_congr (forall₂_imp_mem (fun v hv w => ih v hv) hitems) budget
  | object maker fields ih =>
    cases eq_iff.1 h with
    | object _ hfields =>
      exact fieldsExceed_congr (forall₂_imp_mem (fun x hx y hxy => ih x hx hxy.2) hfields) budget
  | _ => cases eq_iff.1 h; rfl

theorem pretty_eq_of_eq {v w : Value} (h : v.eq w) : v.pretty = w.pretty := by
  rw [pretty, pretty, exceedsDepth_eq_of_eq h, toJson_eq_of_eq h]

theorem kind_eq_of_eq {v w : Value} (h : v.eq w) : v.kind = w.kind := by
  cases eq_iff.1 h <;> rfl

theorem class?_eq_of_eq {v w : Value} (h : v.eq w) : v.class? = w.class? := by
  cases eq_iff.1 h <;> rfl

end Value

theorem Builtin.accepts_eq_of_eq {v w : Value} (h : v.eq w) (b : Builtin) :
    b.accepts v = b.accepts w := by
  cases Value.eq_iff.1 h with
  | number hx =>
    cases b with
    | posInt =>
      rw [accepts, accepts, Double.isIntegral_eq_of_eq hx, Double.isNonnegative_eq_of_eq hx]
    | int => exact Double.isIntegral_eq_of_eq hx
    | _ => rfl
  | _ => cases b <;> rfl

end Conformance
