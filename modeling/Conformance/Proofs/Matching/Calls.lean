import Conformance.Proofs.Matching.Congruence

/-!
# The calls of a match

A match works by calls: on a requirement, on a type, on the name or the array that it is, on a
shape, and on a requirement whose field is absent. Each call stands at a `Depth`, which counts up
from the root. `activation` is the work on one call when the answers to further calls are given,
`Calls` says which further calls there may be, and `answer` is what the matcher finds with the
budgets that are left at that depth. An activation asks for nothing but the calls in `Calls`
(`activation_congr`), and gives the matcher's answer if it is given the matcher's answers
(`activation_answer`).
-/

namespace Conformance

open Matched

namespace Matching

/-- How many names were resolved since the last step into the value, and how many items and fields
were entered. -/
structure Depth where
  steps : Nat
  nesting : Nat

namespace Depth

def root : Depth := ⟨0, 0⟩

def resolve (d : Depth) : Depth := { d with steps := d.steps + 1 }

def descend (d : Depth) : Depth := ⟨0, d.nesting + 1⟩

def Within (d : Depth) (s : Settings) : Prop := d.steps ≤ s.maxDepth ∧ d.nesting ≤ s.maxNesting

end Depth

/-- A call: what a value is matched against, or for which requirement a field is absent. -/
inductive Call where
  | requirement (q : Requirement) (v : Value) (d : Depth)
  | type (e : TypeExpr) (v : Value) (d : Depth)
  | named (name : String) (optional : Bool) (v : Value) (d : Depth)
  | array (element : TypeExpr) (optional : Bool) (v : Value) (d : Depth)
  | shape (fields : Shape) (v : Value) (d : Depth)
  | absence (q : Requirement) (d : Depth)

namespace Call

def depth : Call → Depth
  | requirement _ _ d | type _ _ d | named _ _ _ d | array _ _ _ d | shape _ _ d | absence _ d => d

def subject : Call → Requirement
  | requirement q _ _ | absence q _ => q
  | type e _ _ => .type e
  | named name optional _ _ => .type (.named name optional)
  | array element optional _ _ => .type (.array element optional)
  | shape fields _ _ => .shape fields

abbrev Answer : Call → Type
  | absence _ _ => Except ConfigurationError Bool
  | _ => Matched

end Call

variable (r : Registry)

/-- Go on if the depth is within the bounds; the names in a row are looked at first. -/
def entering {α : Type} (d : Depth) (rest : Except ConfigurationError α) :
    Except ConfigurationError α :=
  if r.settings.maxDepth < d.steps then .error (.depthExceeded r.settings.maxDepth)
  else if r.settings.maxNesting < d.nesting then .error (.nestingExceeded r.settings.maxNesting)
  else rest

/-- The work on one call, with `call` for the answers to further calls. -/
def activation (call : (c : Call) → c.Answer) : (c : Call) → c.Answer
  | .requirement q v d => entering r d <|
    match q with
    | .predicate p => .ok (testedBy (.predicate p) p v)
    | .instanceOf c fallback => .ok (matchInstance c fallback v)
    | .type e => call (.type e v d)
    | .shape fields => call (.shape fields v d)
  | .type e v d => entering r d <|
    if e.optional && v.isUndefined then .ok .conforms
    else match e with
      | .named name optional => call (.named name optional v d)
      | .array element optional => call (.array element optional v d)
  | .named name optional v d =>
    match r.lookup name with
    | some (.user q) => call (.requirement q v d.resolve)
    | some (.builtin b) =>
      .ok (rootCheck (b.accepts v) (.builtinRejected b) (.type (.named name optional)) v)
    | some (.primitive k) =>
      .ok (rootCheck (v.kind == k) (.wrongPrimitiveKind k v.kind) (.type (.named name optional)) v)
    | none => .ok (.fails
        (.ofValue (.unknownTypeName name) v (Requirement.type (.named name optional)).display))
  | .array element optional v d =>
    matchArray r (fun _ w => call (.type element w d.descend)) element optional v
  | .shape fields v d =>
    matchShape (fun q w => call (.requirement q w d.descend)) (fun q => call (.absence q d))
      fields v
  | .absence q d => entering r d <|
    if q.optional then .ok true
    else match r.definition? q with
      | some definition => call (.absence definition d.resolve)
      | none => .ok false

/-- The calls that the work on a call may come to. Every item of an array and every field of a
shape is among them, although a problem with an earlier one ends the walk. -/
inductive Calls : Call → Call → Prop
  | type {e : TypeExpr} {v : Value} {d : Depth} (within : d.Within r.settings) :
    Calls (.requirement (.type e) v d) (.type e v d)
  | shape {fields : Shape} {v : Value} {d : Depth} (within : d.Within r.settings) :
    Calls (.requirement (.shape fields) v d) (.shape fields v d)
  | named {name : String} {optional : Bool} {v : Value} {d : Depth} (within : d.Within r.settings)
    (demanded : ¬ Waives (.named name optional) v) :
    Calls (.type (.named name optional) v d) (.named name optional v d)
  | array {element : TypeExpr} {optional : Bool} {v : Value} {d : Depth}
    (within : d.Within r.settings) (demanded : ¬ Waives (.array element optional) v) :
    Calls (.type (.array element optional) v d) (.array element optional v d)
  | definition {name : String} {optional : Bool} {v : Value} {d : Depth} {q : Requirement}
    (resolved : r.lookup name = some (.user q)) :
    Calls (.named name optional v d) (.requirement q v d.resolve)
  | item {element : TypeExpr} {optional : Bool} {items : List Value} {v : Value} {d : Depth}
    (resolvable : Resolvable r element) (mem : v ∈ items) :
    Calls (.array element optional (.array items) d) (.type element v d.descend)
  | field {fields : Shape} {v w : Value} {d : Depth} {name : String} {q : Requirement}
    (structured : Structured v) (mem : (name, q) ∈ fields) (present : v.present? name = some w) :
    Calls (.shape fields v d) (.requirement q w d.descend)
  | absent {fields : Shape} {v : Value} {d : Depth} {name : String} {q : Requirement}
    (structured : Structured v) (mem : (name, q) ∈ fields) (absent : v.present? name = none) :
    Calls (.shape fields v d) (.absence q d)
  | absentDefinition {q definition : Requirement} {d : Depth} (within : d.Within r.settings)
    (demanded : ¬ q.optional) (resolved : r.definition? q = some definition) :
    Calls (.absence q d) (.absence definition d.resolve)

def resume (q : Requirement) (v : Value) (d : Depth) : Matched :=
  entering r d <|
    matchLevel r (matchWithin r (r.settings.maxNesting - d.nesting))
      (r.settings.maxDepth + 1 - d.steps) q v

def answer : (c : Call) → c.Answer
  | .requirement q v d => resume r q v d
  | .type e v d => resume r (.type e) v d
  | .named name optional v d => resume r (.type (.named name optional)) v d
  | .array element optional v d => resume r (.type (.array element optional)) v d
  | .shape fields v d => resume r (.shape fields) v d
  | .absence q d => entering r d (admitsAbsence r (r.settings.maxDepth + 1 - d.steps) q)

def start (q : Requirement) (v : Value) : Call := .requirement q v .root

theorem assess_eq_answer (q : Requirement) (v : Value) :
    r.assess q v = answer r (start q v) := rfl

variable {r} {d : Depth}

theorem entering_of_within (h : d.Within r.settings) {α : Type}
    (rest : Except ConfigurationError α) : entering r d rest = rest := by
  unfold entering
  rw [if_neg (Nat.not_lt.2 h.1), if_neg (Nat.not_lt.2 h.2)]

theorem entering_of_not_within (h : ¬ d.Within r.settings) {α : Type}
    (rest rest' : Except ConfigurationError α) : entering r d rest = entering r d rest' := by
  unfold entering
  by_cases hs : r.settings.maxDepth < d.steps
  · rw [if_pos hs, if_pos hs]
  · have hn : r.settings.maxNesting < d.nesting :=
      Nat.not_le.1 fun hn => h ⟨Nat.not_lt.1 hs, hn⟩
    rw [if_neg hs, if_neg hs, if_pos hn, if_pos hn]

theorem entering_congr {α : Type} {rest rest' : Except ConfigurationError α}
    (h : d.Within r.settings → rest = rest') : entering r d rest = entering r d rest' := by
  by_cases hd : d.Within r.settings
  · rw [h hd]
  · exact entering_of_not_within hd rest rest'

/-! ## An activation asks for its calls only -/

theorem matchArray_local {f g : Value → Matched} {element : TypeExpr} {optional : Bool} {v : Value}
    (h : ∀ items, v = .array items → Resolvable r element → ∀ w ∈ items, f w = g w) :
    matchArray r (fun _ => f) element optional v =
      matchArray r (fun _ => g) element optional v := by
  cases v with
  | array items =>
    by_cases hk : Resolvable r element
    · rw [matchArray_eq_first hk, matchArray_eq_first hk]
      exact mapIdx_congr eq_congruence (List.forall₂_same.2 (h items rfl hk))
    · cases items with
      | nil => rfl
      | cons w rest =>
        rw [matchArray_of_not_resolvable hk _ _ (List.cons_ne_nil _ _),
          matchArray_of_not_resolvable hk _ _ (List.cons_ne_nil _ _)]
  | _ => rw [matchArray_of_not_array rfl, matchArray_of_not_array rfl]

theorem matchShape_local {f g : Deeper}
    {absent absent' : Requirement → Except ConfigurationError Bool} {fields : Shape} {v : Value}
    (h : Structured v → ∀ field ∈ fields,
      (∀ w, v.present? field.1 = some w → f field.2 w = g field.2 w) ∧
      (v.present? field.1 = none → absent field.2 = absent' field.2)) :
    matchShape f absent fields v = matchShape g absent' fields v := by
  by_cases hv : Structured v
  · refine matchShape_congr eq_congruence v.looksLike_refl (fun _ => rfl)
      (List.forall₂_same.2 fun (name, q) hf => ?_)
    obtain ⟨hpresent, habsent⟩ := h hv _ hf
    cases hp : v.present? name with
    | some w => rw [fieldResult_of_present hp, fieldResult_of_present hp, hpresent w hp]
    | none =>
      rw [fieldResult_of_absent hp, fieldResult_of_absent hp, absenceResult, absenceResult,
        habsent hp]
  · obtain ⟨kind, hkind⟩ := matchShape_of_not_structured hv
    rw [hkind, hkind]

theorem activation_congr {f g : (c : Call) → c.Answer} {c : Call}
    (h : ∀ c', Calls r c c' → f c' = g c') : activation r f c = activation r g c := by
  cases c with
  | requirement q v d =>
    refine entering_congr fun hd => ?_
    cases q with
    | predicate p => rfl
    | instanceOf c fallback => rfl
    | type e => exact h _ (.type hd)
    | shape fields => exact h _ (.shape hd)
  | type e v d =>
    refine entering_congr fun hd => ?_
    by_cases hw : Waives e v
    · simp only [test_of_waives hw, ↓reduceIte]
    · simp only [not_waives_iff.1 hw, Bool.false_eq_true, ↓reduceIte]
      cases e with
      | named name optional => exact h _ (.named hd hw)
      | array element optional => exact h _ (.array hd hw)
  | named name optional v d =>
    dsimp only [activation]
    cases hl : r.lookup name with
    | none => rfl
    | some target =>
      cases target with
      | user q => exact h _ (.definition hl)
      | builtin b => rfl
      | primitive k => rfl
  | array element optional v d =>
    refine matchArray_local fun items hv hk w hw => ?_
    subst hv
    exact h _ (.item hk hw)
  | shape fields v d =>
    refine matchShape_local fun hv field hf => ⟨fun w hp => ?_, fun hp => ?_⟩
    · exact h _ (.field hv hf hp)
    · exact h _ (.absent hv hf hp)
  | absence q d =>
    refine entering_congr fun hd => ?_
    by_cases ho : q.optional
    · simp only [ho, ↓reduceIte]
    · simp only [ho, Bool.false_eq_true, ↓reduceIte]
      cases hq : r.definition? q with
      | none => rfl
      | some definition => exact h _ (.absentDefinition hd ho hq)

/-! ## The matcher answers as its activations do -/

/-- What runs out of steps exactly when the names in a row do needs no look at the bounds. -/
theorem entering_resolve {α : Type} {f : Nat → Except ConfigurationError α}
    (hzero : f 0 = .error (.depthExceeded r.settings.maxDepth)) (h : d.Within r.settings) :
    entering r d.resolve (f (r.settings.maxDepth + 1 - d.resolve.steps)) =
      f (r.settings.maxDepth - d.steps) := by
  have hsteps : d.resolve.steps = d.steps + 1 := rfl
  have hbudget : r.settings.maxDepth + 1 - d.resolve.steps = r.settings.maxDepth - d.steps := by
    omega
  rw [hbudget]
  by_cases hd : d.steps + 1 ≤ r.settings.maxDepth
  · have hwithin : d.resolve.Within r.settings := ⟨hd, h.2⟩
    exact entering_of_within hwithin _
  · have hspent : r.settings.maxDepth - d.steps = 0 := by omega
    rw [hspent, hzero, entering, if_pos (by omega)]

theorem resume_of_within (h : d.Within r.settings) (q : Requirement) (v : Value) :
    resume r q v d = matchLevel r (matchWithin r (r.settings.maxNesting - d.nesting))
      (r.settings.maxDepth - d.steps + 1) q v := by
  rw [resume, entering_of_within h, Nat.succ_sub h.1]

theorem resume_resolve (h : d.Within r.settings) (q : Requirement) (v : Value) :
    resume r q v d.resolve = matchLevel r (matchWithin r (r.settings.maxNesting - d.nesting))
      (r.settings.maxDepth - d.steps) q v :=
  entering_resolve (f := fun steps => matchLevel r _ steps q v) rfl h

theorem resume_descend (d : Depth) (q : Requirement) (v : Value) :
    resume r q v d.descend = matchWithin r (r.settings.maxNesting - d.nesting) q v := by
  by_cases hd : d.nesting + 1 ≤ r.settings.maxNesting
  · have hlevels : r.settings.maxNesting - d.nesting =
        r.settings.maxNesting - (d.nesting + 1) + 1 := by omega
    rw [resume, entering_of_within ⟨Nat.zero_le _, hd⟩, hlevels]
    rfl
  · have hspent : r.settings.maxNesting - d.nesting = 0 := by omega
    have hsteps : ¬ r.settings.maxDepth < d.descend.steps := Nat.not_lt_zero _
    have hnesting : r.settings.maxNesting < d.descend.nesting := Nat.not_le.1 hd
    rw [resume, entering, if_neg hsteps, if_pos hnesting, hspent]
    rfl

theorem answer_absence_of_within (h : d.Within r.settings) (q : Requirement) :
    answer r (.absence q d) = admitsAbsence r (r.settings.maxDepth - d.steps + 1) q := by
  rw [answer, entering_of_within h, Nat.succ_sub h.1]

/-- A call for a name, an array or a shape is only made within the bounds, and only if the marker
does not accept the value outright. -/
def Call.Entered (r : Registry) : Call → Prop
  | .named name optional v d => d.Within r.settings ∧ ¬ Waives (.named name optional) v
  | .array element optional v d => d.Within r.settings ∧ ¬ Waives (.array element optional) v
  | .shape _ _ d => d.Within r.settings
  | .requirement _ _ _ | .type _ _ _ | .absence _ _ => True

theorem activation_answer {c : Call} (h : c.Entered r) :
    activation r (answer r) c = answer r c := by
  cases c with
  | requirement q v d =>
    refine entering_congr fun hd => ?_
    rw [Nat.succ_sub hd.1]
    cases q with
    | predicate p => rfl
    | instanceOf c fallback => rfl
    | type e => exact resume_of_within hd (.type e) v
    | shape fields => exact resume_of_within hd (.shape fields) v
  | type e v d =>
    refine entering_congr fun hd => ?_
    rw [Nat.succ_sub hd.1]
    by_cases hw : Waives e v
    · rw [matchLevel_of_waives hw, if_pos (test_of_waives hw)]
    · simp only [not_waives_iff.1 hw, Bool.false_eq_true, ↓reduceIte]
      cases e with
      | named name optional => exact resume_of_within hd _ v
      | array element optional => exact resume_of_within hd _ v
  | named name optional v d =>
    obtain ⟨hd, hw⟩ := h
    show _ = resume r (.type (.named name optional)) v d
    rw [resume_of_within hd, matchLevel_named hw]
    dsimp only [activation]
    cases r.lookup name with
    | none => rfl
    | some target =>
      cases target with
      | user q => exact resume_resolve hd q v
      | builtin b => rfl
      | primitive k => rfl
  | array element optional v d =>
    obtain ⟨hd, hw⟩ := h
    have hitems : (fun w => answer r (.type element w d.descend)) =
        matchWithin r (r.settings.maxNesting - d.nesting) (.type element) :=
      funext fun w => resume_descend d (.type element) w
    show matchArray r (fun _ w => answer r (.type element w d.descend)) element optional v =
      resume r (.type (.array element optional)) v d
    rw [resume_of_within hd, matchLevel_array hw, hitems]
    rfl
  | shape fields v d =>
    have hfields : (fun q w => answer r (.requirement q w d.descend)) =
        matchWithin r (r.settings.maxNesting - d.nesting) :=
      funext fun q => funext fun w => resume_descend d q w
    have habsent : (fun q => answer r (.absence q d)) =
        admitsAbsence r (r.settings.maxDepth - d.steps + 1) :=
      funext (answer_absence_of_within h)
    show matchShape (fun q w => answer r (.requirement q w d.descend))
      (fun q => answer r (.absence q d)) fields v = resume r (.shape fields) v d
    rw [resume_of_within h, hfields, habsent]
    rfl
  | absence q d =>
    refine entering_congr fun hd => ?_
    rw [Nat.succ_sub hd.1, admitsAbsence_succ]
    by_cases ho : q.optional
    · rw [if_pos ho, if_pos ho]
    · rw [if_neg ho, if_neg ho]
      cases r.definition? q with
      | none => rfl
      | some definition =>
        exact entering_resolve (f := fun steps => admitsAbsence r steps definition) rfl hd

end Matching

end Conformance
