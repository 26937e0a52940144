import Conformance.Proofs.Matching.Walk
import Conformance.Proofs.TypeExpr.RoundTrip

/-!
# Names in several pairs of brackets

In an array over arrays the inner type is looked up when an inner array has an item, and not before.
So nested arrays conform to a name in brackets that stands for nothing if they are hollow
(`Value.Hollow`): arrays on as many levels as there are brackets, and nothing in the last of them.
What is not hollow has obstacles, values on these levels that are no arrays and arrays with items on
the last of them. A match goes depth first and from left to right, which is the lexicographic order
of the indices, and so the first obstacle in this order decides (`assess_bracketed`). The step is
`decided_around`, for one more pair of brackets, and the induction is on the pairs.
-/

namespace Conformance

open Matched Matching

/-! ## Brackets -/

namespace TypeExpr

/-- The name in `k` pairs of brackets. -/
def bracketed (name : String) : Nat → TypeExpr
  | 0 => .named name false
  | k + 1 => .array (bracketed name k) false

theorem write_bracketed (name : String) (k : Nat) :
    (bracketed name k).write = List.replicate k '[' ++ name.toList ++ List.replicate k ']' := by
  induction k with
  | zero => simp [bracketed, write, writeMarker]
  | succ k ih =>
    rw [bracketed, write, ih, List.replicate_succ, List.replicate_succ']
    simp [writeMarker]

theorem baseName_bracketed (name : String) (k : Nat) : (bracketed name k).baseName = name := by
  induction k with
  | zero => rfl
  | succ k ih => exact ih

theorem parse_bracketed {name : String} (h : IsTypeName name.toList) (k : Nat) :
    TypeExpr.parse (.ofList (List.replicate k '[' ++ name.toList ++ List.replicate k ']')) =
      .ok (bracketed name k) := by
  rw [← write_bracketed, parse_eq_ok_iff, baseName_bracketed]
  exact ⟨h, rfl⟩

end TypeExpr

/-! ## Nested arrays -/

namespace Value

/-- There are arrays on `k` levels and nothing below: whatever indices lead to is an array on one of
these levels. -/
def Hollow (v : Value) (k : Nat) : Prop :=
  ∀ (place : List Nat) (w : Value), v.follow? (place.map .index) = some w →
    place.length < k ∧ ∃ items, w = .array items

/-- On one of the first `k` levels of `v`, at the place that the indices lead to, there is `w`, which
is no array, or which is an array with items on the last of these levels. -/
structure Obstacle (v : Value) (k : Nat) (place : List Nat) (w : Value) : Prop where
  found : v.follow? (place.map .index) = some w
  level : place.length < k
  obstructs : ∀ items, w = .array items → place.length + 1 = k ∧ items ≠ []

/-- No other obstacle comes before it, depth first and from left to right. -/
structure FirstObstacle (v : Value) (k : Nat) (place : List Nat) (w : Value) : Prop extends
    Obstacle v k place w where
  first : ∀ place' w', v.Obstacle k place' w' → place' = place ∨ List.Lex (· < ·) place place'

variable {v u w : Value} {items before after : List Value} {k i : Nat} {place : List Nat}

theorem follow?_item (items : List Value) (i : Nat) (place : List Nat) :
    (array items).follow? ((i :: place).map .index) =
      items[i]?.bind (·.follow? (place.map .index)) := rfl

theorem hollow_array_iff : (array items).Hollow (k + 1) ↔ ∀ u ∈ items, u.Hollow k := by
  constructor
  · intro h u hu place w hw
    obtain ⟨i, hi⟩ := List.mem_iff_getElem?.1 hu
    obtain ⟨hlevel, harray⟩ := h (i :: place) w (by rw [follow?_item, hi]; exact hw)
    exact ⟨Nat.lt_of_succ_lt_succ hlevel, harray⟩
  · intro h place w hw
    cases place with
    | nil =>
      cases hw
      exact ⟨Nat.zero_lt_succ k, items, rfl⟩
    | cons i place =>
      rw [follow?_item] at hw
      obtain ⟨u, hu, hw⟩ := Option.bind_eq_some_iff.1 hw
      obtain ⟨hlevel, harray⟩ := h u (List.mem_of_getElem? hu) place w hw
      exact ⟨Nat.succ_lt_succ hlevel, harray⟩

theorem Hollow.not_obstacle (h : v.Hollow k) : ¬ v.Obstacle k place w := by
  intro hw
  obtain ⟨-, items, rfl⟩ := h place w hw.found
  obtain ⟨hlast, hitems⟩ := hw.obstructs items rfl
  -- The first item would be on the level that is not there.
  obtain ⟨x, rest, rfl⟩ := List.exists_cons_of_ne_nil hitems
  have hx : v.follow? ((place ++ [0]).map .index) = some x := by
    rw [List.map_append, List.map_singleton, follow?_concat, hw.found]
    rfl
  have hbelow := (h _ x hx).1
  rw [List.length_append, List.length_singleton] at hbelow
  omega

theorem Obstacle.zero (h : v.Obstacle 0 place w) : False := absurd h.level (Nat.not_lt_zero _)

theorem obstacle_item_iff :
    (array items).Obstacle (k + 1) (i :: place) w ↔
      ∃ u, items[i]? = some u ∧ u.Obstacle k place w := by
  constructor
  · intro h
    have hfound := h.found
    rw [follow?_item] at hfound
    obtain ⟨u, hu, hw⟩ := Option.bind_eq_some_iff.1 hfound
    refine ⟨u, hu, hw, Nat.lt_of_succ_lt_succ h.level, fun items' he => ?_⟩
    exact (h.obstructs items' he).imp_left Nat.succ.inj
  · rintro ⟨u, hu, h⟩
    refine ⟨?_, Nat.succ_lt_succ h.level, fun items' he => ?_⟩
    · rw [follow?_item, hu]
      exact h.found
    · exact (h.obstructs items' he).imp_left (congrArg Nat.succ)

theorem firstObstacle_root (h : ∀ items, v = .array items → k = 0 ∧ items ≠ []) :
    v.FirstObstacle (k + 1) [] v where
  found := rfl
  level := Nat.zero_lt_succ k
  obstructs items he := (h items he).imp_left fun hk => by rw [hk, List.length_nil]
  first place' _ _ := by
    cases place' with
    | nil => exact .inl rfl
    | cons i place' => exact .inr .nil

theorem FirstObstacle.item (h : u.FirstObstacle k place w) (hbefore : ∀ x ∈ before, x.Hollow k) :
    (array (before ++ u :: after)).FirstObstacle (k + 1) (before.length :: place) w where
  toObstacle := obstacle_item_iff.2 ⟨u, by simp, h.toObstacle⟩
  first place' w' h' := by
    cases place' with
    | nil =>
      -- Were the array itself an obstacle, it would be on the last level, with none left for `w`.
      have hk : 0 + 1 = k + 1 := (h'.obstructs _ (Option.some.inj h'.found).symm).1
      obtain rfl : k = 0 := by omega
      exact h.zero.elim
    | cons i place' =>
      obtain ⟨x, hx, hobstacle⟩ := obstacle_item_iff.1 h'
      rcases Nat.lt_trichotomy i before.length with hi | rfl | hi
      · rw [List.getElem?_append_left hi] at hx
        exact absurd hobstacle (hbefore x (List.mem_of_getElem? hx)).not_obstacle
      · obtain rfl : u = x := by simpa using hx
        exact (h.first place' w' hobstacle).imp (congrArg _) .cons
      · exact .inr (.rel hi)

theorem FirstObstacle.unique {place' : List Nat} {w' : Value} (h : v.FirstObstacle k place w)
    (h' : v.FirstObstacle k place' w') : place = place' ∧ w = w' := by
  have hplace : place = place' := by
    rcases h.first place' w' h'.toObstacle with he | hlt
    · exact he.symm
    · exact (h'.first place w h.toObstacle).resolve_right (List.lt_asymm hlt)
  subst hplace
  exact ⟨rfl, Option.some.inj (h.found.symm.trans h'.found)⟩

end Value

/-! ## Matching -/

namespace Matching

variable {r : Registry} {name : String} {v : Value} {items : List Value}

/-- What a match comes to at an obstacle: the text of the type says how many brackets are left, and
where a type has to be looked up it is one pair. -/
def obstruction (name : String) (k : Nat) (place : List Nat) (w : Value) : Matched :=
  match w.items? with
  | none => .ok (.fails ⟨.notSequence, w.pretty,
      (Requirement.type (.bracketed name (k - place.length))).display, place.map .index⟩)
  | some _ => .error (.unknownElementType name (.bracketed name 1))

theorem obstruction_ne_conforms (name : String) (k : Nat) (place : List Nat) (w : Value) :
    obstruction name k place w ≠ .ok .conforms := by
  unfold obstruction
  cases w.items? <;> nofun

theorem within_obstruction (name : String) (k : Nat) (place : List Nat) (w : Value) (i : Nat) :
    (obstruction name k place w).within (.index i) = obstruction name (k + 1) (i :: place) w := by
  unfold obstruction
  rw [List.length_cons, Nat.add_sub_add_right]
  cases w.items? <;> rfl

/-- A value that is hollow conforms, and in another one the first obstacle decides. -/
def DecidedByObstacles (name : String) (k : Nat) (v : Value) (result : Matched) : Prop :=
  (result = .ok .conforms ∧ v.Hollow k) ∨
    ∃ place w, v.FirstObstacle k place w ∧ result = obstruction name k place w

namespace DecidedByObstacles

variable {k : Nat} {result : Matched} {place : List Nat} {w : Value}

theorem conforms_iff (h : DecidedByObstacles name k v result) :
    result = .ok .conforms ↔ v.Hollow k := by
  rcases h with ⟨hresult, hv⟩ | ⟨place, w, hw, hresult⟩
  · exact ⟨fun _ => hv, fun _ => hresult⟩
  · constructor
    · intro hconforms
      exact absurd (hresult.symm.trans hconforms) (obstruction_ne_conforms _ _ _ _)
    · intro hv
      exact absurd hw.toObstacle hv.not_obstacle

theorem exists_first (h : DecidedByObstacles name k v result) (hv : ¬ v.Hollow k) :
    ∃ place w, v.FirstObstacle k place w ∧ result = obstruction name k place w :=
  h.resolve_left fun hresult => hv hresult.2

theorem eq_obstruction (h : DecidedByObstacles name k v result)
    (hw : v.FirstObstacle k place w) : result = obstruction name k place w := by
  obtain ⟨place', w', hw', hresult⟩ := h.exists_first fun hv => hv.not_obstacle hw.toObstacle
  obtain ⟨rfl, rfl⟩ := hw.unique hw'
  exact hresult

end DecidedByObstacles

theorem decided_of_not_array (hv : v.items? = none) (deeper : Deeper) (k : Nat) :
    DecidedByObstacles name (k + 1) v (matchArray r deeper (.bracketed name k) false v) := by
  refine .inr ⟨[], v, Value.firstObstacle_root fun items he => ?_, ?_⟩
  · rw [Value.items?_eq_some_iff.2 he] at hv
    cases hv
  · rw [matchArray_of_not_array hv, obstruction, hv]
    rfl

theorem decided_innermost (hname : r.lookup name = none) (deeper : Deeper) (v : Value) :
    DecidedByObstacles name 1 v (matchArray r deeper (.bracketed name 0) false v) := by
  cases hv : v.items? with
  | none => exact decided_of_not_array hv deeper 0
  | some items =>
    obtain rfl := Value.items?_eq_some_iff.1 hv
    cases items with
    | nil => exact .inl ⟨rfl, Value.hollow_array_iff.2 nofun⟩
    | cons x rest =>
      have hunknown : ¬ Resolvable r (.bracketed name 0) :=
        not_resolvable_iff.2 ⟨name, false, rfl, hname⟩
      rw [matchArray_of_not_resolvable hunknown _ _ (List.cons_ne_nil x rest)]
      refine .inr ⟨[], _, Value.firstObstacle_root fun items he => ?_, rfl⟩
      cases he
      exact ⟨rfl, List.cons_ne_nil x rest⟩

/-- One more pair of brackets around others: the items are matched in order, with no look at the
name. -/
theorem decided_around {deeper : Deeper} {k : Nat}
    (h : ∀ u, DecidedByObstacles name (k + 1) u (deeper (.type (.bracketed name (k + 1))) u))
    (v : Value) :
    DecidedByObstacles name (k + 2) v (matchArray r deeper (.bracketed name (k + 1)) false v) := by
  cases hv : v.items? with
  | none => exact decided_of_not_array hv deeper (k + 1)
  | some items =>
    obtain rfl := Value.items?_eq_some_iff.1 hv
    have hknown : Resolvable r (.bracketed name (k + 1)) := fun _ _ he => nomatch he
    rw [matchArray_eq_first hknown]
    rcases first_items_cases (deeper (.type (.bracketed name (k + 1)))) items with
      ⟨hwhole, hall⟩ | ⟨before, u, after, rfl, hbefore, hu, hwhole⟩
    · exact .inl ⟨hwhole, Value.hollow_array_iff.2 fun u hu => (h u).conforms_iff.1 (hall u hu)⟩
    · obtain ⟨place, w, hfirst, hresult⟩ := (h u).exists_first (mt (h u).conforms_iff.2 hu)
      have hhollow : ∀ x ∈ before, x.Hollow (k + 1) := fun x hx =>
        (h x).conforms_iff.1 (hbefore x hx)
      refine .inr ⟨_, w, hfirst.item hhollow, ?_⟩
      rw [hwhole, hresult, within_obstruction]

theorem decided_matchWithin (hname : r.lookup name = none) {k nesting : Nat} (hk : k ≤ nesting)
    (v : Value) :
    DecidedByObstacles name (k + 1) v
      (matchWithin r (nesting + 1) (.type (.bracketed name (k + 1))) v) := by
  have hlevel (nesting k : Nat) (v : Value) :
      matchWithin r (nesting + 1) (.type (.bracketed name (k + 1))) v =
        matchArray r (matchWithin r nesting) (.bracketed name k) false v :=
    matchLevel_array (fun hw => Bool.false_ne_true hw.1) _ _
  induction k generalizing nesting v with
  | zero =>
    rw [hlevel]
    exact decided_innermost hname _ v
  | succ k ih =>
    obtain ⟨more, rfl⟩ := Nat.exists_eq_add_of_lt hk
    rw [hlevel]
    exact decided_around (ih (Nat.le_add_right k more)) v

end Matching

/-- A name that stands for nothing, in `k` pairs of brackets. Hollow values conform, and else the
first obstacle decides: what is no array fails at its place, and where an array has items, whatever
they are, their type is unknown. -/
theorem Registry.assess_bracketed {r : Registry} {name : String} (hname : r.lookup name = none)
    {k : Nat} (hk : 1 ≤ k) (hnesting : k - 1 ≤ r.settings.maxNesting) (v : Value) :
    let result := r.assess (.type (.bracketed name k)) v
    (result = .ok .conforms ↔ v.Hollow k) ∧
      (¬ v.Hollow k → ∃ place w, v.FirstObstacle k place w) ∧
      ∀ place w, v.FirstObstacle k place w →
        (w.items? = none → result = .ok (.fails ⟨.notSequence, w.pretty,
          (Requirement.type (.bracketed name (k - place.length))).display, place.map .index⟩)) ∧
        ∀ items, w = .array items →
          result = .error (.unknownElementType name (.array (.named name false) false)) := by
  intro result
  obtain ⟨k, rfl⟩ := Nat.exists_eq_add_of_le' hk
  have hdecided : DecidedByObstacles name (k + 1) v result := decided_matchWithin hname hnesting v
  refine ⟨hdecided.conforms_iff, fun hv => ?_, fun place w hw => ?_⟩
  · obtain ⟨place, w, hw, -⟩ := hdecided.exists_first hv
    exact ⟨place, w, hw⟩
  · rw [hdecided.eq_obstruction hw, obstruction]
    constructor
    · intro hitems
      rw [hitems]
    · rintro items rfl
      rfl

/-- In two pairs of brackets, with no level to spare. Of an inner array with an item and a value that
is no array, the first decides. -/
theorem Registry.assess_bracketed_ragged :
    let r := (withSettings {}).withBounds 0 1
    let q : Requirement := .type (.bracketed "id" 2)
    let empty : Value := .array []
    let filled : Value := .array [.null]
    TypeExpr.parse "[[id]]" = .ok (.bracketed "id" 2) ∧ r.lookup "id" = none ∧
      r.assess q (.array [empty, empty]) = .ok .conforms ∧
      r.assess q (.array [empty, filled, .null]) =
        .error (.unknownElementType "id" (.array (.named "id" false) false)) ∧
      r.assess q (.array [empty, .null, filled]) = .ok (.fails ⟨.notSequence, Value.null.pretty,
        (Requirement.type (.bracketed "id" 1)).display, [.index 1]⟩) := by
  intro r q empty filled
  have hname : r.lookup "id" = none := rfl
  have hid : IsTypeName "id".toList := NameFlaw.ofName?_eq_none_iff.1 rfl
  have htext : "[[id]]" = .ofList (List.replicate 2 '[' ++ "id".toList ++ List.replicate 2 ']') := rfl
  have hparse : TypeExpr.parse "[[id]]" = .ok (.bracketed "id" 2) :=
    htext ▸ TypeExpr.parse_bracketed hid 2
  have hempty : empty.Hollow 1 := Value.hollow_array_iff.2 nofun
  have hbefore : ∀ x ∈ [empty], x.Hollow 1 := List.forall_mem_singleton.2 hempty
  have hfilled : filled.FirstObstacle 1 [] filled :=
    Value.firstObstacle_root fun items he => ⟨rfl, Value.array.inj he ▸ List.cons_ne_nil _ _⟩
  have hnull : Value.null.FirstObstacle 1 [] .null := Value.firstObstacle_root nofun
  have hbrackets := assess_bracketed hname (k := 2) (by decide) (Nat.le_refl 1)
  refine ⟨hparse, hname, ?_, ?_, ?_⟩
  · refine (hbrackets _).1.2 (Value.hollow_array_iff.2 ?_)
    simp only [List.forall_mem_cons, List.not_mem_nil]
    exact ⟨hempty, hempty, nofun⟩
  · exact ((hbrackets _).2.2 _ _ (hfilled.item hbefore)).2 _ rfl
  · exact ((hbrackets _).2.2 _ _ (hnull.item hbefore)).1 rfl

end Conformance
