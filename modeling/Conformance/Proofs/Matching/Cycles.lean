import Conformance.Proofs.Matching.Bounds

/-!
# Cycles of aliases

Types that are defined as the names of one another, in a circle, stand for nothing: whatever is
matched against them runs out of names (`assess_of_aliasCycle`). A marker in the circle accepts
`undefined`, and lets a field be absent, if the names last until it is reached.

Both the match of a value and the check for an absent field follow the names in the same way, so the
way round the circle is followed once, for any function that takes a name for its definition
(`AliasCycle.follow`).
-/

namespace Conformance

open Matched Matching

namespace Matching

variable {r : Registry} {fields declared : Shape} {v : Value}

/-- What a declared field yields when a value is matched against the shape itself. -/
def fieldAtRoot (r : Registry) (declared : Shape) (v : Value) : String × Requirement → Matched :=
  fieldResult (matchWithin r r.settings.maxNesting) (admitsAbsence r (r.settings.maxDepth + 1))
    (.shape declared) v

theorem assess_shape_eq_first (hv : Structured v) :
    r.assess (.shape fields) v = first (fields.map (fieldAtRoot r fields v)) :=
  matchShape_eq_first hv _ _ fields

theorem fieldAtRoot_eq_conforms_congr (declared' : Shape) (field : String × Requirement) :
    fieldAtRoot r declared v field = .ok .conforms ↔
      fieldAtRoot r declared' v field = .ok .conforms := by
  unfold fieldAtRoot
  rw [fieldResult_eq_conforms_iff, fieldResult_eq_conforms_iff]

theorem assess_shape_eq_conforms_iff (hv : Structured v) (declared : Shape) :
    r.assess (.shape fields) v = .ok .conforms ↔
      ∀ field ∈ fields, fieldAtRoot r declared v field = .ok .conforms := by
  rw [assess_shape_eq_first hv, first_eq_conforms_iff, List.forall_mem_map]
  exact forall₂_congr fun field _ => fieldAtRoot_eq_conforms_congr declared field

end Matching

/-- The types `name 0`, .., `name (k - 1)` are defined as the next one, the last as the first;
`marked i` tells whether the definition of `name i` carries the marker. -/
structure Registry.AliasCycle (r : Registry) (k : Nat) (name : Nat → String)
    (marked : Nat → Bool) : Prop where
  positive : 0 < k
  defined : ∀ i < k, r.get? (name i) = some (.type (.named (name ((i + 1) % k)) (marked i)))

namespace Registry.AliasCycle

variable {r : Registry} {k : Nat} {name : Nat → String} {marked : Nat → Bool}

/-- The text that is reached after `i` names, beginning with `name 0` itself. -/
def text (k : Nat) (name : Nat → String) (marked : Nat → Bool) : Nat → TypeExpr
  | 0 => .named (name 0) false
  | i + 1 => .named (name ((i + 1) % k)) (marked (i % k))

theorem get?_text (h : r.AliasCycle k name marked) (i : Nat) :
    ∃ n marker, text k name marked i = .named n marker ∧
      r.get? n = some (.type (text k name marked (i + 1))) := by
  have hdefined := h.defined (i % k) (Nat.mod_lt i h.positive)
  rw [Nat.mod_add_mod] at hdefined
  cases i with
  | zero => exact ⟨_, _, rfl, hdefined⟩
  | succ i => exact ⟨_, _, rfl, hdefined⟩

theorem optional_text_eq_false {i : Nat} (hi : i ≤ k) (hmarked : ∀ j < i, marked j = false) {j : Nat}
    (hj : j ≤ i) : (text k name marked j).optional = false := by
  cases j with
  | zero => rfl
  | succ j =>
    have hmod : j % k = j := Nat.mod_eq_of_lt (by omega)
    show marked (j % k) = false
    rw [hmod]
    exact hmarked j (by omega)

theorem optional_text_eq_false_of_unmarked (h : r.AliasCycle k name marked)
    (hmarked : ∀ i < k, marked i = false) (j : Nat) :
    (text k name marked j).optional = false := by
  cases j with
  | zero => rfl
  | succ j => exact hmarked _ (Nat.mod_lt j h.positive)

/-- The first marker stands on the text that comes after as many names as it has before it, and one
more. -/
theorem optional_text_succ {i : Nat} (hi : i < k) (hmarked : marked i) :
    (text k name marked (i + 1)).optional = true := by
  show marked (i % k) = true
  rw [Nat.mod_eq_of_lt hi]
  exact hmarked

/-! ## Round the circle -/

/-- What takes each of the first `m` texts for the next comes to the text after them, with `m` names
less to go. -/
theorem follow {α : Type} {f : Nat → Requirement → α} {m : Nat}
    (hstep : ∀ i < m, ∀ steps, f (steps + 1) (.type (text k name marked i)) =
      f steps (.type (text k name marked (i + 1)))) (steps : Nat) :
    f (steps + m) (.type (text k name marked 0)) = f steps (.type (text k name marked m)) := by
  induction m generalizing steps with
  | zero => rfl
  | succ m ih =>
    have hfirst : ∀ i < m, ∀ steps, f (steps + 1) (.type (text k name marked i)) =
        f steps (.type (text k name marked (i + 1))) := fun i hi => hstep i (by omega)
    calc f (steps + (m + 1)) (.type (text k name marked 0))
        = f (steps + 1 + m) (.type (text k name marked 0)) := by rw [Nat.add_right_comm, Nat.add_assoc]
      _ = f (steps + 1) (.type (text k name marked m)) := ih hfirst (steps + 1)
      _ = f steps (.type (text k name marked (m + 1))) := hstep m (by omega) steps

/-- What accepts the text after `m` names does so if they last, and is spent if they do not. -/
theorem follow_until {α : Type} {f : Nat → Requirement → α} {accepted spent : α} {m : Nat}
    (hspent : ∀ q, f 0 q = spent)
    (hstep : ∀ i < m, ∀ steps, f (steps + 1) (.type (text k name marked i)) =
      f steps (.type (text k name marked (i + 1))))
    (haccepted : ∀ steps, f (steps + 1) (.type (text k name marked m)) = accepted) (steps : Nat) :
    f steps (.type (text k name marked 0)) = if m < steps then accepted else spent := by
  by_cases hm : m < steps
  · obtain ⟨rest, rfl⟩ := Nat.exists_eq_add_of_lt hm
    have hrest : m + rest + 1 = rest + 1 + m := by omega
    rw [if_pos hm, hrest, follow hstep, haccepted]
  · have hfirst := follow (fun i (hi : i < steps) => hstep i (by omega)) 0
    rw [Nat.zero_add] at hfirst
    rw [if_neg hm, hfirst, hspent]

section

variable (h : r.AliasCycle k name marked) (deeper : Deeper) {v : Value}

include h

theorem matchLevel_text {i : Nat} (hw : ¬ Waives (text k name marked i) v) (steps : Nat) :
    matchLevel r deeper (steps + 1) (.type (text k name marked i)) v =
      matchLevel r deeper steps (.type (text k name marked (i + 1))) v := by
  obtain ⟨n, marker, htext, hget⟩ := h.get?_text i
  rw [htext] at hw ⊢
  exact matchLevel_user (lookup_eq_user_iff.2 hget) hw deeper steps

theorem admitsAbsence_text {i : Nat} (ho : (text k name marked i).optional = false) (steps : Nat) :
    admitsAbsence r (steps + 1) (.type (text k name marked i)) =
      admitsAbsence r steps (.type (text k name marked (i + 1))) := by
  obtain ⟨n, marker, htext, hget⟩ := h.get?_text i
  have ho' : ¬ (Requirement.type (text k name marked i)).optional := ne_true_of_eq_false ho
  have hdefinition : r.definition? (.type (text k name marked i)) =
      some (.type (text k name marked (i + 1))) := by
    rw [htext]
    exact hget
  rw [admitsAbsence_succ, if_neg ho', hdefinition]

theorem matchLevel_spent (hw : ∀ i, ¬ Waives (text k name marked i) v) (steps : Nat) :
    matchLevel r deeper steps (.type (text k name marked 0)) v =
      .error (.depthExceeded r.settings.maxDepth) := by
  have hfollow := follow (f := fun steps q => matchLevel r deeper steps q v)
    (fun i (_ : i < steps) => h.matchLevel_text deeper (hw i)) 0
  rw [Nat.zero_add] at hfollow
  exact hfollow

theorem matchLevel_spent_of_ne_undefined (hv : v ≠ .undefined) (steps : Nat) :
    matchLevel r deeper steps (.type (text k name marked 0)) v =
      .error (.depthExceeded r.settings.maxDepth) :=
  h.matchLevel_spent deeper (fun _ hw => hv hw.2) steps

section Unmarked

variable (hmarked : ∀ i < k, marked i = false)

include hmarked

theorem matchLevel_of_unmarked (v : Value) (steps : Nat) :
    matchLevel r deeper steps (.type (text k name marked 0)) v =
      .error (.depthExceeded r.settings.maxDepth) :=
  h.matchLevel_spent deeper
    (fun i hw => ne_true_of_eq_false (h.optional_text_eq_false_of_unmarked hmarked i) hw.1) steps

theorem admitsAbsence_of_unmarked (steps : Nat) :
    admitsAbsence r steps (.type (text k name marked 0)) =
      .error (.depthExceeded r.settings.maxDepth) := by
  have hfollow := follow (f := admitsAbsence r) (fun i (_ : i < steps) =>
    h.admitsAbsence_text (h.optional_text_eq_false_of_unmarked hmarked i)) 0
  rw [Nat.zero_add] at hfollow
  exact hfollow

theorem fieldAtRoot_of_unmarked (hnesting : 1 ≤ r.settings.maxNesting) (declared : Shape)
    (v : Value) (field : String) :
    fieldAtRoot r declared v (field, .type (text k name marked 0)) =
      .error (.depthExceeded r.settings.maxDepth) := by
  unfold fieldAtRoot
  cases hp : v.present? field with
  | some w =>
    have hlevels : r.settings.maxNesting = r.settings.maxNesting - 1 + 1 := by omega
    rw [fieldResult_of_present hp, hlevels, matchWithin, h.matchLevel_of_unmarked _ hmarked]
    rfl
  | none =>
    rw [fieldResult_of_absent hp, absenceResult, h.admitsAbsence_of_unmarked hmarked]

end Unmarked

section Marked

variable {i : Nat} (hi : i < k) (hmarked : marked i) (hfirst : ∀ j < i, marked j = false)

include hi hmarked hfirst

theorem matchLevel_of_marked (steps : Nat) :
    matchLevel r deeper steps (.type (text k name marked 0)) .undefined =
      if i + 1 < steps then .ok .conforms else .error (.depthExceeded r.settings.maxDepth) := by
  refine follow_until (f := fun steps q => matchLevel r deeper steps q .undefined)
    (fun q => rfl) (fun j hj => ?_) (fun steps => ?_) steps
  · have hunmarked : (text k name marked j).optional = false :=
      optional_text_eq_false (by omega) hfirst (by omega)
    exact h.matchLevel_text deeper fun hw => ne_true_of_eq_false hunmarked hw.1
  · exact matchLevel_of_waives ⟨optional_text_succ hi hmarked, rfl⟩ deeper steps

theorem admitsAbsence_of_marked (steps : Nat) :
    admitsAbsence r steps (.type (text k name marked 0)) =
      if i + 1 < steps then .ok true else .error (.depthExceeded r.settings.maxDepth) := by
  refine follow_until (f := admitsAbsence r) (fun q => rfl) (fun j hj => ?_) (fun steps => ?_) steps
  · exact h.admitsAbsence_text (optional_text_eq_false (by omega) hfirst (by omega))
  · have ho : (text k name marked (i + 1)).optional = true := optional_text_succ hi hmarked
    have hq : (Requirement.type (text k name marked (i + 1))).optional := ho
    rw [admitsAbsence_succ, if_pos hq]

theorem fieldAtRoot_of_marked {field : String} (hp : v.present? field = none) (declared : Shape) :
    fieldAtRoot r declared v (field, .type (text k name marked 0)) =
      if i + 1 ≤ r.settings.maxDepth then .ok .conforms
      else .error (.depthExceeded r.settings.maxDepth) := by
  rw [fieldAtRoot, fieldResult_of_absent hp, absenceResult,
    h.admitsAbsence_of_marked hi hmarked hfirst]
  by_cases hlasts : i + 1 ≤ r.settings.maxDepth
  · rw [if_pos hlasts, if_pos (Nat.lt_succ_of_le hlasts)]
  · rw [if_neg hlasts, if_neg (mt Nat.le_of_lt_succ hlasts)]

end Marked

end

end Registry.AliasCycle

/-- A type in a circle of names. Without a marker everything that is matched against it runs out of
names, as a value, as a field and for want of a field. With a marker everything but `undefined` does;
and if the first marker, on the definition of `name i`, comes before the names run out, then
`undefined` conforms and a shape may as well not declare a field that is absent. -/
theorem Registry.assess_of_aliasCycle {r : Registry} {k : Nat} {name : Nat → String}
    {marked : Nat → Bool} (h : r.AliasCycle k name marked) :
    let q : Requirement := .type (.named (name 0) false)
    let spent : Matched := .error (.depthExceeded r.settings.maxDepth)
    ((∀ i < k, marked i = false) →
      (∀ v, r.assess q v = spent) ∧
      (1 ≤ r.settings.maxNesting → ∀ field fields v, Structured v →
        r.assess (.shape ((field, q) :: fields)) v = spent)) ∧
    ∀ i < k, marked i → (∀ j < i, marked j = false) →
      (∀ v, v ≠ .undefined → r.assess q v = spent) ∧
      (r.assess q .undefined = if i + 1 ≤ r.settings.maxDepth then .ok .conforms else spent) ∧
      ∀ before field after v, Structured v → v.present? field = none →
        (i + 1 ≤ r.settings.maxDepth →
          (r.assess (.shape (before ++ (field, q) :: after)) v = .ok .conforms ↔
            r.assess (.shape (before ++ after)) v = .ok .conforms)) ∧
        (r.settings.maxDepth < i + 1 → r.assess (.shape before) v = .ok .conforms →
          r.assess (.shape (before ++ (field, q) :: after)) v = spent) := by
  intro q spent
  refine ⟨fun hmarked => ⟨fun v => ?_, fun hnesting field fields v hv => ?_⟩,
    fun i hi hmarked hfirst => ⟨fun v hv => ?_, ?_, fun before field after v hv hp => ?_⟩⟩
  · exact h.matchLevel_of_unmarked _ hmarked v _
  · have hproblem : fieldAtRoot r ((field, q) :: fields) v (field, q) = spent :=
      h.fieldAtRoot_of_unmarked hmarked hnesting _ v field
    rw [assess_shape_eq_first hv, List.map_cons, first_cons, hproblem, andThen_error]
  · exact h.matchLevel_spent_of_ne_undefined _ hv _
  · have hundefined : r.assess q .undefined = _ := h.matchLevel_of_marked _ hi hmarked hfirst _
    rw [hundefined]
    simp only [Nat.lt_succ_iff, spent]
  · have hfield : ∀ declared, fieldAtRoot r declared v (field, q) =
        if i + 1 ≤ r.settings.maxDepth then .ok .conforms else spent :=
      h.fieldAtRoot_of_marked hi hmarked hfirst hp
    constructor
    · intro hlasts
      rw [assess_shape_eq_conforms_iff hv [], assess_shape_eq_conforms_iff hv []]
      simp only [List.forall_mem_append, List.forall_mem_cons, hfield, if_pos hlasts, true_and]
    · intro hends hbefore
      rw [assess_shape_eq_first hv, List.map_append, List.map_cons, hfield,
        if_neg (Nat.not_le.2 hends)]
      refine first_append ?_ nofun
      rw [List.forall_mem_map]
      exact (assess_shape_eq_conforms_iff hv _).1 hbefore

/-- Three names in a circle; the definition of the second may carry the marker. -/
def Registry.ringTypes (marker : Bool) : Registry :=
  (((withSettings {}).insert "a" (.type (.named "b" false))).insert "b"
    (.type (.named "c" marker))).insert "c" (.type (.named "a" false))

theorem Registry.aliasCycle_ringTypes (marker : Bool) (depth nesting : Nat) :
    ((ringTypes marker).withBounds depth nesting).AliasCycle 3
      (fun i => ["a", "b", "c"].getD i "") (fun i => marker && i == 1) where
  positive := by decide
  defined i hi := by
    match i, hi with
    | 0, _ => cases marker <;> rfl
    | 1, _ => cases marker <;> rfl
    | 2, _ => cases marker <;> rfl

/-- Without a marker nothing gets round the circle. With one, `undefined` does with room for two
names and not with room for one, and so does a node that lacks its link. -/
theorem Registry.assess_of_aliasCycle_ringTypes :
    let q : Requirement := .type (.named "a" false)
    let node : Shape := [("link", q), ("label", .type (.named "string" false))]
    let v : Value := .object none [("label", .string "end")]
    ((ringTypes false).withBounds 7 1).assess (.shape node) v = .error (.depthExceeded 7) ∧
      ((ringTypes true).withBounds 2 1).assess q .null = .error (.depthExceeded 2) ∧
      ((ringTypes true).withBounds 2 1).assess q .undefined = .ok .conforms ∧
      ((ringTypes true).withBounds 2 1).assess (.shape node) v = .ok .conforms ∧
      ((ringTypes true).withBounds 1 1).assess (.shape node) v = .error (.depthExceeded 1) := by
  intro q node v
  have hv : Structured v := ⟨nofun, rfl⟩
  obtain ⟨hplain, -⟩ := assess_of_aliasCycle (aliasCycle_ringTypes false 7 1)
  obtain ⟨-, hmarked⟩ := assess_of_aliasCycle (aliasCycle_ringTypes true 2 1)
  obtain ⟨-, hshort⟩ := assess_of_aliasCycle (aliasCycle_ringTypes true 1 1)
  have hfirst : ∀ j < 1, (true && j == 1) = false := by decide
  obtain ⟨hvalue, hundefined, hfield⟩ := hmarked 1 (by decide) rfl hfirst
  obtain ⟨-, -, hlost⟩ := hshort 1 (by decide) rfl hfirst
  refine ⟨?_, hvalue .null nofun, hundefined, ?_, ?_⟩
  · exact (hplain fun i _ => rfl).2 (Nat.le_refl 1) "link" _ v hv
  · exact ((hfield [] "link" _ v hv rfl).1 (Nat.le_refl 2)).2 rfl
  · exact (hlost [] "link" _ v hv rfl).2 (by decide) rfl

end Conformance
