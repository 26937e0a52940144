import Conformance.Proofs.Double.Equality
import Conformance.Proofs.Matching.Level
import Conformance.Proofs.Registry.History
import Conformance.Proofs.Requirement.Description

/-!
# Linked lists

A type of nodes that link to nodes of the same type, described by `nodeJson`. Matching a list of `n`
nodes takes `n` levels, however long the list is and with no name but that of the node in a row
(`assess_linked`). A node's link comes before its value in the order of the names, so the walk goes
to the end of the list first: too long a list is found to be too deep before any value is looked at,
and of several values that are no whole numbers the last is reported.
-/

namespace Conformance

open Matched Matching

def nodeJson : Json := .object (Entries.ofList [("value", .string "int"), ("next", .string "node?")])

def nodeFields : Shape :=
  [("next", .type (.named "node" true)), ("value", .type (.named "int" false))]

theorem ofJson_nodeJson : Requirement.ofJson nodeJson = .ok (.shape nodeFields) := by
  have hnode : IsTypeName "node".toList := NameFlaw.ofName?_eq_none_iff.1 rfl
  have hint : IsTypeName "int".toList := NameFlaw.ofName?_eq_none_iff.1 rfl
  have hnext := Requirement.ofJson_string_eq_ok_iff.2 ⟨.named "node" true, hnode, rfl, rfl⟩
  have hvalue := Requirement.ofJson_string_eq_ok_iff.2 ⟨.named "int" false, hint, rfl, rfl⟩
  refine (Requirement.ofJson_object_eq_ok_iff
    (Entries.nodup_of_ordered (Entries.ordered_ofList _))).2 ⟨nodeFields, ?_, rfl⟩
  exact .cons ⟨rfl, hnext⟩ (.cons ⟨rfl, hvalue⟩ .nil)

/-- The registry defines a node so, and `int` is not defined as something else. -/
structure Registry.DefinesNode (r : Registry) : Prop where
  node : ∃ q, Requirement.ofJson nodeJson = .ok q ∧ r.get? "node" = some q
  int : r.get? "int" = none

theorem Registry.WellKept.definesNode {r : Registry} (h : r.WellKept)
    (hoff : r.settings.allowOverwrite = false)
    (hnode : r.get? "node" = some (.shape nodeFields)) : r.DefinesNode where
  node := ⟨_, ofJson_nodeJson, hnode⟩
  int := get?_eq_none_of_not_mem_names fun hint => by
    cases (Builtin.ofName?_name .int).symm.trans (h.unreserved hoff "int" hint).1

/-! ## Lists of values -/

namespace Value

/-- A list of nodes with these values: every node but the last links to the next. Nodes may have other
fields, and may be instances. -/
inductive Linked : Value → List Value → Prop
  | last {node x : Value} (value : node.present? "value" = some x)
    (next : node.present? "next" = none) : Linked node [x]
  | link {node x tail : Value} {rest : List Value} (value : node.present? "value" = some x)
    (next : node.present? "next" = some tail) (linked : Linked tail rest) : Linked node (x :: rest)

def linkedList : List Value → Value
  | [] => undefined
  | [x] => object none [("value", x)]
  | x :: y :: rest => object none [("next", linkedList (y :: rest)), ("value", x)]

theorem present?_of_lookup {maker : Option Class} {fields : List (String × Value)} {name : String}
    {x : Value} (h : fields.lookup name = some x) (hx : x ≠ undefined) :
    (object maker fields).present? name = some x := by
  have hpresent : x.isUndefined = false := eq_false_of_ne_true (mt isUndefined_iff.1 hx)
  simp [present?, field?, fields?, h, Option.filter, hpresent]

theorem linked_linkedList {values : List Value} (hne : values ≠ [])
    (h : ∀ x ∈ values, x ≠ undefined) : (linkedList values).Linked values := by
  induction values with
  | nil => exact absurd rfl hne
  | cons x rest ih =>
    obtain ⟨hx, hrest⟩ := List.forall_mem_cons.1 h
    cases rest with
    | nil => exact .last (present?_of_lookup rfl hx) rfl
    | cons y rest =>
      have htail : linkedList (y :: rest) ≠ undefined := by cases rest <;> nofun
      exact .link (present?_of_lookup rfl hx) (present?_of_lookup rfl htail)
        (ih (List.cons_ne_nil y rest) hrest)

/-- `x`, at index `b`, is no whole number, and all values after it are. -/
structure LastOther (values : List Value) (b : Nat) (x : Value) : Prop where
  found : values[b]? = some x
  other : Builtin.int.accepts x = false
  after : ∀ j y, b < j → values[j]? = some y → Builtin.int.accepts y

variable {values rest : List Value} {b : Nat} {x y : Value}

theorem LastOther.cons (h : LastOther rest b x) (y : Value) : LastOther (y :: rest) (b + 1) x where
  found := h.found
  other := h.other
  after j z hj hz := by
    obtain ⟨i, rfl⟩ := Nat.exists_eq_add_of_lt hj
    exact h.after (b + 1 + i) z (by omega) hz

theorem lastOther_head (hx : Builtin.int.accepts x = false)
    (hrest : ∀ y ∈ rest, Builtin.int.accepts y) : LastOther (x :: rest) 0 x where
  found := rfl
  other := hx
  after j y hj hy := by
    obtain ⟨i, rfl⟩ := Nat.exists_eq_add_of_lt hj
    exact hrest y (List.mem_of_getElem? hy)

theorem LastOther.not_forall (h : LastOther values b x) :
    ¬ ∀ y ∈ values, Builtin.int.accepts y := by
  intro hall
  cases h.other.symm.trans (hall x (List.mem_of_getElem? h.found))

theorem LastOther.unique {b' : Nat} {x' : Value} (h : LastOther values b x)
    (h' : LastOther values b' x') : b = b' ∧ x = x' := by
  have hb : b = b' := by
    rcases Nat.lt_trichotomy b b' with hlt | heq | hlt
    · cases h'.other.symm.trans (h.after b' x' hlt h'.found)
    · exact heq
    · cases h.other.symm.trans (h'.after b x hlt h.found)
  subst hb
  exact ⟨rfl, Option.some.inj (h.found.symm.trans h'.found)⟩

end Value

/-! ## Matching -/

namespace Matching

def valueFailure (b : Nat) (x : Value) : Failure :=
  ⟨.builtinRejected .int, x.pretty, (Requirement.type (.named "int" false)).display,
    List.replicate b (.field "next") ++ [.field "value"]⟩

/-- What is found about the value of a node, seen from the node. -/
def valueResult (x : Value) : Matched :=
  within (.field "value")
    (.ok (rootCheck (Builtin.int.accepts x) (.builtinRejected .int) (.type (.named "int" false)) x))

theorem valueResult_of_accepts {x : Value} (h : Builtin.int.accepts x) :
    valueResult x = .ok .conforms := by
  rw [valueResult, rootCheck_eq_conforms_iff.2 h, within_conforms]

theorem valueResult_of_not_accepts {x : Value} (h : Builtin.int.accepts x = false) :
    valueResult x = .ok (.fails (valueFailure 0 x)) := by
  rw [valueResult, h]
  rfl

/-- All values are whole numbers, or the last that is none decides. -/
inductive LastDecides (values : List Value) : Matched → Prop
  | conforms (h : ∀ x ∈ values, Builtin.int.accepts x) : LastDecides values (.ok .conforms)
  | fails {b : Nat} {x : Value} (h : Value.LastOther values b x) :
    LastDecides values (.ok (.fails (valueFailure b x)))

namespace LastDecides

variable {values rest : List Value} {result : Matched}

/-- A node in front: what is found in the rest of the list comes before its own value. -/
theorem cons (h : LastDecides rest result) (x : Value) :
    LastDecides (x :: rest) ((result.within (.field "next")).andThen (valueResult x)) := by
  cases h with
  | conforms hrest =>
    rw [within_conforms, andThen_conforms]
    cases hx : Builtin.int.accepts x with
    | true =>
      rw [valueResult_of_accepts hx]
      exact .conforms (List.forall_mem_cons.2 ⟨hx, hrest⟩)
    | false =>
      rw [valueResult_of_not_accepts hx]
      exact .fails (Value.lastOther_head hx hrest)
  | fails h =>
    rw [within_fails, andThen_fails]
    exact .fails (h.cons x)

theorem conforms_iff (h : LastDecides values result) :
    result = .ok .conforms ↔ ∀ x ∈ values, Builtin.int.accepts x := by
  cases h with
  | conforms h => exact iff_of_true rfl h
  | fails h => exact iff_of_false nofun h.not_forall

theorem exists_last (h : LastDecides values result)
    (hother : ¬ ∀ x ∈ values, Builtin.int.accepts x) : ∃ b x, Value.LastOther values b x := by
  cases h with
  | conforms h => exact absurd h hother
  | fails h => exact ⟨_, _, h⟩

theorem eq_fails (h : LastDecides values result) {b : Nat} {x : Value}
    (hx : Value.LastOther values b x) : result = .ok (.fails (valueFailure b x)) := by
  cases h with
  | conforms h => exact absurd h hx.not_forall
  | fails h =>
    obtain ⟨rfl, rfl⟩ := h.unique hx
    rfl

end LastDecides

variable {r : Registry} {v x : Value} {values : List Value}

theorem matchWithin_node (h : r.DefinesNode) (hdepth : 1 ≤ r.settings.maxDepth)
    (hx : v.present? "value" = some x) (optional : Bool) (nesting : Nat) :
    matchWithin r (nesting + 1) (.type (.named "node" optional)) v =
      (((v.present? "next").elim (.ok .conforms) fun tail =>
        (matchWithin r nesting (.type (.named "node" true)) tail).within (.field "next")).andThen
      ((matchWithin r nesting (.type (.named "int" false)) x).within (.field "value"))) := by
  have hv := structured_of_present? hx
  have hmarker : ¬ Waives (.named "node" optional) v := by
    rintro ⟨-, rfl⟩
    cases hv.2
  obtain ⟨q, hq, hnode⟩ := h.node
  obtain rfl : Requirement.shape nodeFields = q := Except.ok.inj (ofJson_nodeJson.symm.trans hq)
  obtain ⟨depth, hdepth⟩ := Nat.exists_eq_add_of_le' hdepth
  rw [matchWithin, matchLevel_user (Registry.lookup_eq_user_iff.2 hnode) hmarker, hdepth]
  show matchShape _ (admitsAbsence r (depth + 1)) nodeFields v = _
  rw [matchShape_eq_first hv, nodeFields, List.map_cons, List.map_singleton, first_cons, first_cons,
    first_nil, fieldResult_of_present hx, andThen_conforms_right]
  cases hnext : v.present? "next" with
  | some tail =>
    rw [fieldResult_of_present hnext]
    rfl
  | none =>
    rw [fieldResult_of_absent hnext, absenceResult, admitsAbsence_succ]
    rfl

theorem matchWithin_int (h : r.DefinesNode) (nesting : Nat) (x : Value) :
    (matchWithin r (nesting + 1) (.type (.named "int" false)) x).within (.field "value") =
      valueResult x := by
  have hmarker : ¬ Waives (.named "int" false) x := fun hw => Bool.false_ne_true hw.1
  have hint : r.lookup "int" = some (.builtin .int) := by
    rw [Registry.lookup, h.int]
    rfl
  rw [matchWithin, matchLevel_builtin hint hmarker]
  rfl

/-- With a level for each node and one more for its value the last value that is no whole number
decides, and with fewer levels the walk runs out of them. -/
theorem matchWithin_of_linked (h : r.DefinesNode) (hdepth : 1 ≤ r.settings.maxDepth)
    (hv : v.Linked values) (optional : Bool) (nesting : Nat) :
    let result := matchWithin r nesting (.type (.named "node" optional)) v
    (values.length < nesting → LastDecides values result) ∧
      (nesting ≤ values.length → result = .error (.nestingExceeded r.settings.maxNesting)) := by
  -- Along the list, for any number of levels: the tail has one level less, and so has the value.
  induction hv generalizing optional nesting with
  | @last node x hvalue hnext =>
    cases nesting with
    | zero => exact ⟨fun hlt => absurd hlt (Nat.not_lt_zero _), fun _ => rfl⟩
    | succ nesting =>
      intro result
      have hresult : result = _ := matchWithin_node h hdepth hvalue optional nesting
      rw [hresult, hnext]
      cases nesting with
      | zero => exact ⟨fun hlt => absurd hlt (Nat.lt_irrefl 1), fun _ => rfl⟩
      | succ nesting =>
        rw [matchWithin_int h]
        exact ⟨fun _ => LastDecides.cons (.conforms (List.forall_mem_nil _)) x, fun hle => absurd hle (by simp)⟩
  | @link node x tail rest hvalue hnext hlinked ih =>
    cases nesting with
    | zero => exact ⟨fun hlt => absurd hlt (Nat.not_lt_zero _), fun _ => rfl⟩
    | succ nesting =>
      intro result
      have hresult : result = _ := matchWithin_node h hdepth hvalue optional nesting
      obtain ⟨hdecides, herror⟩ := ih true nesting
      rw [hresult, hnext, Option.elim_some, List.length_cons]
      refine ⟨fun hlt => ?_, fun hle => ?_⟩
      · obtain ⟨more, rfl⟩ := Nat.exists_eq_add_of_lt (Nat.lt_of_succ_lt_succ hlt)
        rw [matchWithin_int h]
        exact (hdecides (by omega)).cons x
      · rw [herror (Nat.le_of_succ_le_succ hle)]
        rfl

end Matching

/-- A list of `n` nodes, their values not `undefined`. With room for `n` levels it conforms exactly if
all values are whole numbers, and else it fails at the last that is none. With less room the match
comes to the bound, whatever the values are. -/
theorem Registry.assess_linked {r : Registry} (h : r.DefinesNode)
    (hdepth : 1 ≤ r.settings.maxDepth) {v : Value} {values : List Value} (hv : v.Linked values) :
    let result := r.assess (.type (.named "node" false)) v
    (values.length ≤ r.settings.maxNesting →
      (result = .ok .conforms ↔ ∀ x ∈ values, Builtin.int.accepts x) ∧
      (¬ (∀ x ∈ values, Builtin.int.accepts x) → ∃ b x, Value.LastOther values b x) ∧
      ∀ b x, Value.LastOther values b x →
        result = .ok (.fails ⟨.builtinRejected .int, x.pretty,
          (Requirement.type (.named "int" false)).display,
          List.replicate b (.field "next") ++ [.field "value"]⟩)) ∧
    (r.settings.maxNesting < values.length →
      result = .error (.nestingExceeded r.settings.maxNesting)) := by
  intro result
  obtain ⟨hdecides, herror⟩ := matchWithin_of_linked h hdepth hv false (r.settings.maxNesting + 1)
  refine ⟨fun hroom => ?_, herror⟩
  have hlast : LastDecides values result := hdecides (Nat.lt_succ_of_le hroom)
  exact ⟨hlast.conforms_iff, hlast.exists_last, fun b x => hlast.eq_fails⟩

/-- Room for three levels: three whole numbers, the second of two wrong values, and one node too
many. -/
theorem Registry.assess_linked_registered :
    let r := (withSettings ⟨false, 1, 3⟩).after [.register "node" (.json nodeJson)]
    let node : Requirement := .type (.named "node" false)
    let zero : Value := .number .zero
    r.DefinesNode ∧
      r.assess node (.linkedList [zero, zero, zero]) = .ok .conforms ∧
      r.assess node (.linkedList [.null, .bool true, zero]) =
        .ok (.fails ⟨.builtinRejected .int, (Value.bool true).pretty,
          (Requirement.type (.named "int" false)).display, [.field "next", .field "value"]⟩) ∧
      r.assess node (.linkedList [.null, zero, zero, zero]) = .error (.nestingExceeded 3) := by
  intro r node zero
  have hadmits : (withSettings ⟨false, 1, 3⟩).Admits "node" :=
    ⟨NameFlaw.ofName?_eq_none_iff.1 rfl, fun _ => rfl⟩
  have hregister : (withSettings ⟨false, 1, 3⟩).register "node" (.json nodeJson) = _ :=
    register_of_vet_ok ofJson_nodeJson (vet_eq_ok_iff.2 hadmits)
  have hr : r = (withSettings ⟨false, 1, 3⟩).insert "node" (.shape nodeFields) :=
    congrArg Run.registry hregister
  have hkept : r.WellKept := (wellKept_withSettings _).after _
  have hdefines : r.DefinesNode := hkept.definesNode (by rw [hr]; rfl) (by rw [hr]; rfl)
  have hdepth : r.settings.maxDepth = 1 := by rw [hr]; rfl
  have hnesting : r.settings.maxNesting = 3 := by rw [hr]; rfl
  have hassess (values : List Value) (hne : values ≠ []) (hvalues : ∀ x ∈ values, x ≠ .undefined) :=
    assess_linked hdefines (Nat.le_of_eq hdepth.symm) (Value.linked_linkedList hne hvalues)
  rw [hnesting] at hassess
  have hzero : Builtin.int.accepts zero := Double.isIntegral_zero false
  have hlast : Value.LastOther [.bool true, zero] 0 (.bool true) :=
    Value.lastOther_head rfl (List.forall_mem_singleton.2 hzero)
  obtain ⟨hwhole, -⟩ := hassess [zero, zero, zero] (by simp) (by simp [zero])
  obtain ⟨hmixed, -⟩ := hassess [.null, .bool true, zero] (by simp) (by simp [zero])
  obtain ⟨-, hlong⟩ := hassess [.null, zero, zero, zero] (by simp) (by simp [zero])
  exact ⟨hdefines, (hwhole (Nat.le_refl 3)).1.2 (by simp [hzero]),
    (hmixed (Nat.le_refl 3)).2.2 1 _ (hlast.cons .null), hlong (Nat.lt_succ_self 3)⟩

end Conformance
