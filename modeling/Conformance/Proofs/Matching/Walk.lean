import Conformance.Proofs.Matching.Blame
import Conformance.Proofs.Matching.Termination

/-!
# The walk of a match

`Calls` has every call that the work on a call may come to; `Makes` has those that it does come to,
where the parts before it conform. A walk follows the calls that are made from the first one on, and
its `Trail` tells where in the value it is and which names it resolved there in a row. A match is
answered with an error exactly if its walk comes to a call that the error stems from
(`assess_eq_error_iff`).
-/

namespace Conformance

open Matched

theorem Value.follow?_concat (v : Value) (path : List PathSegment) (s : PathSegment) :
    v.follow? (path ++ [s]) = (v.follow? path).bind (·.step? s) := by
  induction path generalizing v with
  | nil => cases h : v.step? s <;> simp [follow?, h]
  | cons s' path ih =>
    rw [List.cons_append, follow?, follow?]
    cases v.step? s' with
    | none => rfl
    | some w => exact ih w

namespace Matching

/-- What a call does to come to the next: it stays where it is, resolves a name, or enters an item
or a field. -/
inductive Move where
  | stay
  | resolve (name : String)
  | enter (s : PathSegment)

/-- How far a walk has come: the place in the value, and the names that were resolved in a row since
the last step into the value. -/
structure Trail where
  path : List PathSegment
  names : List String

namespace Trail

def start : Trail := ⟨[], []⟩

def after (t : Trail) : Move → Trail
  | .stay => t
  | .resolve name => { t with names := t.names ++ [name] }
  | .enter s => ⟨t.path ++ [s], []⟩

def depth (t : Trail) : Depth := ⟨t.names.length, t.path.length⟩

end Trail

variable (r : Registry)

def fieldAnswer (fields : Shape) (v : Value) (d : Depth) : String × Requirement → Matched :=
  fieldResult (fun q w => answer r (.requirement q w d.descend)) (fun q => answer r (.absence q d))
    (.shape fields) v

/-- The calls that the work on a call comes to, and by which move. An item is come to once the items
before it conform, and so is a field, or its absence. -/
inductive Makes : Call → Move → Call → Prop
  | type {e : TypeExpr} {v : Value} {d : Depth} (within : d.Within r.settings) :
    Makes (.requirement (.type e) v d) .stay (.type e v d)
  | shape {fields : Shape} {v : Value} {d : Depth} (within : d.Within r.settings) :
    Makes (.requirement (.shape fields) v d) .stay (.shape fields v d)
  | named {name : String} {optional : Bool} {v : Value} {d : Depth} (within : d.Within r.settings)
    (demanded : ¬ Waives (.named name optional) v) :
    Makes (.type (.named name optional) v d) .stay (.named name optional v d)
  | array {element : TypeExpr} {optional : Bool} {v : Value} {d : Depth}
    (within : d.Within r.settings) (demanded : ¬ Waives (.array element optional) v) :
    Makes (.type (.array element optional) v d) .stay (.array element optional v d)
  | definition {name : String} {optional : Bool} {v : Value} {d : Depth} {q : Requirement}
    (resolved : r.get? name = some q) :
    Makes (.named name optional v d) (.resolve name) (.requirement q v d.resolve)
  | item {element : TypeExpr} {optional : Bool} {items before after : List Value} {w : Value}
    {d : Depth} (resolvable : Resolvable r element) (order : items = before ++ w :: after)
    (conform : ∀ u ∈ before, answer r (.type element u d.descend) = .ok .conforms) :
    Makes (.array element optional (.array items) d) (.enter (.index before.length))
      (.type element w d.descend)
  | field {fields before after : Shape} {v w : Value} {d : Depth} {name : String} {q : Requirement}
    (structured : Structured v) (order : fields = before ++ (name, q) :: after)
    (conform : ∀ field ∈ before, fieldAnswer r fields v d field = .ok .conforms)
    (present : v.present? name = some w) :
    Makes (.shape fields v d) (.enter (.field name)) (.requirement q w d.descend)
  | absent {fields before after : Shape} {v : Value} {d : Depth} {name : String} {q : Requirement}
    (structured : Structured v) (order : fields = before ++ (name, q) :: after)
    (conform : ∀ field ∈ before, fieldAnswer r fields v d field = .ok .conforms)
    (absent : v.present? name = none) :
    Makes (.shape fields v d) .stay (.absence q d)
  | absentDefinition {name : String} {definition : Requirement} {d : Depth}
    (within : d.Within r.settings) (resolved : r.get? name = some definition) :
    Makes (.absence (.type (.named name false)) d) (.resolve name) (.absence definition d.resolve)

inductive Walk (c₀ : Call) : Trail → Call → Prop
  | refl : Walk c₀ .start c₀
  | step {t : Trail} {c c' : Call} {m : Move} (walk : Walk c₀ t c) (makes : Makes r c m c') :
    Walk c₀ (t.after m) c'

/-- What an error stems from: names resolved or parts entered beyond the bounds, or a non-empty
array whose element type is a name that stands for nothing. -/
inductive Origin : Call → ConfigurationError → Prop
  | depth {c : Call} (spent : r.settings.maxDepth < c.depth.steps) :
    Origin c (.depthExceeded r.settings.maxDepth)
  | nesting {c : Call} (steps : c.depth.steps ≤ r.settings.maxDepth)
    (spent : r.settings.maxNesting < c.depth.nesting) :
    Origin c (.nestingExceeded r.settings.maxNesting)
  | element {name : String} {marker optional : Bool} {items : List Value} {d : Depth}
    (unknown : r.lookup name = none) (nonempty : items ≠ []) :
    Origin (.array (.named name marker) optional (.array items) d)
      (.unknownElementType name (.array (.named name marker) optional))

def Call.IsError (e : ConfigurationError) : (c : Call) → c.Answer → Prop
  | .requirement _ _ _, a | .type _ _ _, a | .named _ _ _ _, a | .array _ _ _ _, a
  | .shape _ _ _, a => a = .error e
  | .absence _ _, a => a = .error e

def Call.Raises (e : ConfigurationError) (c : Call) : Prop := c.IsError e (answer r c)

variable {r} {c c' : Call} {m : Move} {e : ConfigurationError}

/-! ## One move -/

theorem Makes.calls (h : Makes r c m c') : Calls r c c' := by
  cases h with
  | type within => exact .type within
  | shape within => exact .shape within
  | named within demanded => exact .named within demanded
  | array within demanded => exact .array within demanded
  | definition resolved => exact .definition (Registry.lookup_eq_user_iff.2 resolved)
  | item resolvable order _ => exact .item resolvable (order ▸ List.mem_append_cons_self)
  | field structured order _ present =>
    exact .field structured (order ▸ List.mem_append_cons_self) present
  | absent structured order _ absent =>
    exact .absent structured (order ▸ List.mem_append_cons_self) absent
  | absentDefinition within resolved => exact .absentDefinition within nofun resolved

theorem entering_eq_error {d : Depth} {α : Type} {rest : Except ConfigurationError α}
    (h : entering r d rest = .error e) :
    (r.settings.maxDepth < d.steps ∧ e = .depthExceeded r.settings.maxDepth) ∨
      (d.steps ≤ r.settings.maxDepth ∧ r.settings.maxNesting < d.nesting ∧
        e = .nestingExceeded r.settings.maxNesting) ∨
      (d.Within r.settings ∧ rest = .error e) := by
  unfold entering at h
  by_cases hs : r.settings.maxDepth < d.steps
  · rw [if_pos hs] at h
    cases h
    exact .inl ⟨hs, rfl⟩
  · rw [if_neg hs] at h
    have hs := Nat.not_lt.1 hs
    by_cases hn : r.settings.maxNesting < d.nesting
    · rw [if_pos hn] at h
      cases h
      exact .inr (.inl ⟨hs, hn, rfl⟩)
    · rw [if_neg hn] at h
      exact .inr (.inr ⟨⟨hs, Nat.not_lt.1 hn⟩, h⟩)

theorem absenceResult_eq_error_iff {absent : Requirement → Except ConfigurationError Bool}
    {q required : Requirement} {v : Value} {name : String} :
    absenceResult absent q v name required = .error e ↔ absent required = .error e := by
  unfold absenceResult
  rcases absent required with e' | _ | _ <;> simp

theorem within_eq_error_iff {s : PathSegment} {a : Matched} :
    a.within s = .error e ↔ a = .error e := by
  rcases a with e' | _ | f <;> simp

theorem matchArray_eq_error_iff (deeper : Deeper) {element : TypeExpr} {optional : Bool}
    {items : List Value} (hk : Resolvable r element) :
    matchArray r deeper element optional (.array items) = .error e ↔
      ∃ before w after, items = before ++ w :: after ∧
        (∀ u ∈ before, deeper (.type element) u = .ok .conforms) ∧
        deeper (.type element) w = .error e := by
  rw [matchArray_eq_first hk]
  constructor
  · intro h
    rcases first_items_cases (deeper (.type element)) items with
      ⟨hwhole, -⟩ | ⟨before, w, after, hitems, hconform, -, hwhole⟩
    · cases hwhole.symm.trans h
    · exact ⟨before, w, after, hitems, hconform, within_eq_error_iff.1 (hwhole.symm.trans h)⟩
  · rintro ⟨before, w, after, rfl, hconform, hw⟩
    rw [List.mapIdx_append, List.mapIdx_cons]
    simp only [Nat.zero_add, hw, within_error]
    refine first_append (fun result hresult => ?_) nofun
    obtain ⟨i, hi, rfl⟩ := List.mem_mapIdx.1 hresult
    exact within_eq_conforms_iff.2 (hconform _ (List.getElem_mem hi))

theorem matchShape_eq_error_iff {deeper : Deeper}
    {absent : Requirement → Except ConfigurationError Bool} {fields : Shape} {v : Value}
    (hv : Structured v) :
    matchShape deeper absent fields v = .error e ↔
      ∃ before field after, fields = before ++ field :: after ∧
        (∀ f ∈ before, fieldResult deeper absent (.shape fields) v f = .ok .conforms) ∧
        fieldResult deeper absent (.shape fields) v field = .error e := by
  rw [matchShape_eq_first hv]
  constructor
  · intro h
    obtain ⟨results, later, hsplit, hconform⟩ := exists_of_first_eq h nofun
    obtain ⟨before, rest, hfields, rfl, hrest⟩ := List.map_eq_append_iff.1 hsplit
    obtain ⟨field, after, rfl, hfield, -⟩ := List.map_eq_cons_iff.1 hrest
    exact ⟨before, field, after, hfields, fun f hf => hconform _ (List.mem_map_of_mem hf), hfield⟩
  · rintro ⟨before, field, after, hfields, hconform, hfield⟩
    have hmap : fields.map (fieldResult deeper absent (.shape fields) v) =
        before.map (fieldResult deeper absent (.shape fields) v) ++ .error e ::
          after.map (fieldResult deeper absent (.shape fields) v) := by
      rw [← hfield, ← List.map_cons, ← List.map_append, ← hfields]
    rw [hmap]
    refine first_append (fun result hresult => ?_) nofun
    obtain ⟨f, hf, rfl⟩ := List.mem_map.1 hresult
    exact hconform f hf

theorem origin_or_makes_of_array {element : TypeExpr} {optional : Bool} {v : Value} {d : Depth}
    (h : matchArray r (fun _ w => answer r (.type element w d.descend)) element optional v =
      .error e) :
    Origin r (.array element optional v d) e ∨
      ∃ m c', Makes r (.array element optional v d) m c' ∧ c'.Raises r e := by
  cases v with
  | array items =>
    by_cases hk : Resolvable r element
    · obtain ⟨before, w, after, hitems, hconform, hw⟩ := (matchArray_eq_error_iff _ hk).1 h
      exact .inr ⟨_, _, .item hk hitems hconform, hw⟩
    · cases items with
      | nil => cases h
      | cons w rest =>
        rw [matchArray_of_not_resolvable hk _ _ (List.cons_ne_nil _ _)] at h
        cases h
        obtain ⟨name, marker, rfl, hunknown⟩ := not_resolvable_iff.1 hk
        exact .inl (.element hunknown (List.cons_ne_nil _ _))
  | _ =>
    rw [matchArray_of_not_array rfl] at h
    cases h

theorem exists_makes_of_shape {fields : Shape} {v : Value} {d : Depth}
    (h : matchShape (fun q w => answer r (.requirement q w d.descend))
      (fun q => answer r (.absence q d)) fields v = .error e) :
    ∃ m c', Makes r (.shape fields v d) m c' ∧ c'.Raises r e := by
  by_cases hv : Structured v
  · obtain ⟨before, ⟨name, q⟩, after, hfields, hconform, hfield⟩ :=
      (matchShape_eq_error_iff hv).1 h
    cases hp : v.present? name with
    | some w =>
      rw [fieldResult_of_present hp] at hfield
      exact ⟨_, _, .field hv hfields hconform hp, within_eq_error_iff.1 hfield⟩
    | none =>
      rw [fieldResult_of_absent hp] at hfield
      exact ⟨_, _, .absent hv hfields hconform hp, absenceResult_eq_error_iff.1 hfield⟩
  · obtain ⟨kind, hkind⟩ := matchShape_of_not_structured hv
    rw [hkind] at h
    cases h

/-- An error stems from the call itself or from a call that it makes. -/
theorem Call.Raises.origin_or_makes (h : c.Raises r e) (hc : c.Entered r) :
    Origin r c e ∨ ∃ m c', Makes r c m c' ∧ c'.Raises r e := by
  rw [Raises, ← activation_answer hc] at h
  cases c with
  | requirement q v d =>
    obtain ⟨hs, rfl⟩ | ⟨hs, hn, rfl⟩ | ⟨hd, h⟩ := entering_eq_error h
    · exact .inl (.depth hs)
    · exact .inl (.nesting hs hn)
    · cases q with
      | predicate p => cases h
      | instanceOf c fallback => cases h
      | type t => exact .inr ⟨_, _, .type hd, h⟩
      | shape fields => exact .inr ⟨_, _, .shape hd, h⟩
  | type t v d =>
    obtain ⟨hs, rfl⟩ | ⟨hs, hn, rfl⟩ | ⟨hd, h⟩ := entering_eq_error h
    · exact .inl (.depth hs)
    · exact .inl (.nesting hs hn)
    · by_cases hw : Waives t v
      · rw [if_pos (test_of_waives hw)] at h
        cases h
      · simp only [not_waives_iff.1 hw, Bool.false_eq_true, ↓reduceIte] at h
        cases t with
        | named name optional => exact .inr ⟨_, _, .named hd hw, h⟩
        | array element optional => exact .inr ⟨_, _, .array hd hw, h⟩
  | named name optional v d =>
    dsimp only [activation] at h
    cases hl : r.lookup name with
    | none => rw [hl] at h; cases h
    | some target =>
      rw [hl] at h
      cases target with
      | user q => exact .inr ⟨_, _, .definition (Registry.lookup_eq_user_iff.1 hl), h⟩
      | builtin b => cases h
      | primitive k => cases h
  | array element optional v d => exact origin_or_makes_of_array h
  | shape fields v d => exact .inr (exists_makes_of_shape h)
  | absence q d =>
    obtain ⟨hs, rfl⟩ | ⟨hs, hn, rfl⟩ | ⟨hd, h⟩ := entering_eq_error h
    · exact .inl (.depth hs)
    · exact .inl (.nesting hs hn)
    · by_cases ho : q.optional
      · rw [if_pos ho] at h
        cases h
      · rw [if_neg ho] at h
        cases hq : r.definition? q with
        | none => rw [hq] at h; cases h
        | some definition =>
          obtain ⟨name, optional, rfl, hname⟩ := Registry.definition?_eq_some_iff.1 hq
          obtain rfl : optional = false := Bool.eq_false_iff.2 ho
          rw [hq] at h
          exact .inr ⟨_, _, .absentDefinition hd hname, h⟩

theorem Call.raises_of_not_within (hc : c.Entered r) (hd : ¬ c.depth.Within r.settings)
    (he : ∀ {α : Type} (rest : Except ConfigurationError α),
      entering r c.depth rest = .error e) : c.Raises r e := by
  rw [Raises, ← activation_answer hc]
  cases c with
  | requirement q v d => exact he _
  | type t v d => exact he _
  | absence q d => exact he _
  | named name optional v d => exact absurd hc.1 hd
  | array element optional v d => exact absurd hc.1 hd
  | shape fields v d => exact absurd hc hd

theorem Origin.raises (h : Origin r c e) (hc : c.Entered r) : c.Raises r e := by
  cases h with
  | depth spent =>
    exact Call.raises_of_not_within hc (fun hd => Nat.not_lt.2 hd.1 spent) fun _ => if_pos spent
  | nesting steps spent =>
    exact Call.raises_of_not_within hc (fun hd => Nat.not_lt.2 hd.2 spent) fun _ =>
      (if_neg (Nat.not_lt.2 steps)).trans (if_pos spent)
  | @element name marker optional items d unknown nonempty =>
    have hk : ¬ Resolvable r (.named name marker) :=
      not_resolvable_iff.2 ⟨name, marker, rfl, unknown⟩
    rw [Call.Raises, ← activation_answer hc]
    exact matchArray_of_not_resolvable hk
      (fun _ w => answer r (.type (.named name marker) w d.descend)) optional nonempty

theorem Makes.raises (h : Makes r c m c') (hc : c.Entered r) (he : c'.Raises r e) :
    c.Raises r e := by
  rw [Call.Raises, ← activation_answer hc]
  cases h with
  | type within => exact (entering_of_within within _).trans he
  | shape within => exact (entering_of_within within _).trans he
  | named within demanded =>
    refine (entering_of_within within _).trans ?_
    simp only [not_waives_iff.1 demanded, Bool.false_eq_true, ↓reduceIte]
    exact he
  | array within demanded =>
    refine (entering_of_within within _).trans ?_
    simp only [not_waives_iff.1 demanded, Bool.false_eq_true, ↓reduceIte]
    exact he
  | definition resolved =>
    simp only [activation, Registry.lookup_eq_user_iff.2 resolved]
    exact he
  | @item element optional items before after w d resolvable order conform =>
    exact (matchArray_eq_error_iff (fun _ u => answer r (.type element u d.descend)) resolvable).2
      ⟨before, w, after, order, conform, he⟩
  | field structured order conform present =>
    refine (matchShape_eq_error_iff structured).2 ⟨_, _, _, order, conform, ?_⟩
    rw [fieldResult_of_present present]
    exact within_eq_error_iff.2 he
  | absent structured order conform absent =>
    refine (matchShape_eq_error_iff structured).2 ⟨_, _, _, order, conform, ?_⟩
    rw [fieldResult_of_absent absent]
    exact absenceResult_eq_error_iff.2 he
  | @absentDefinition name definition d within resolved =>
    refine (entering_of_within within _).trans ?_
    have hdefinition : r.definition? (.type (.named name false)) = some definition := resolved
    rw [hdefinition]
    exact he

/-! ## The whole walk -/

theorem Makes.depth_eq (h : Makes r c m c') {t : Trail} (ht : c.depth = t.depth) :
    c'.depth = (t.after m).depth := by
  have hnames (name : String) : (t.names ++ [name]).length = t.names.length + 1 :=
    List.length_append
  have hpath (s : PathSegment) : (t.path ++ [s]).length = t.path.length + 1 := List.length_append
  cases h with
  | type | shape | named | array | absent => exact ht
  | @definition name optional v d q resolved =>
    obtain rfl : d = t.depth := ht
    exact congrArg (Depth.mk · t.path.length) (hnames name).symm
  | @absentDefinition name definition d within resolved =>
    obtain rfl : d = t.depth := ht
    exact congrArg (Depth.mk · t.path.length) (hnames name).symm
  | @item element optional items before after w d resolvable order conform =>
    obtain rfl : d = t.depth := ht
    exact congrArg (Depth.mk 0) (hpath _).symm
  | @field fields before after v w d name q structured order conform present =>
    obtain rfl : d = t.depth := ht
    exact congrArg (Depth.mk 0) (hpath _).symm

/-- The call is about the value, unless it is about an absent field. -/
def Call.IsAbout (w : Value) : Call → Prop
  | .requirement _ v _ | .type _ v _ | .named _ _ v _ | .array _ _ v _ | .shape _ v _ => v = w
  | .absence _ _ => True

namespace Walk

variable {q : Requirement} {v : Value} {t : Trail}

theorem sound (h : Walk r (start q v) t c) : c.Sound r := by
  induction h with
  | refl => exact Call.sound_start q v
  | step _ makes ih => exact ih.of_calls makes.calls

theorem depth_eq (h : Walk r (start q v) t c) : c.depth = t.depth := by
  induction h with
  | refl => rfl
  | step _ makes ih => exact makes.depth_eq ih

theorem isSome_get? {c₀ : Call} (h : Walk r c₀ t c) : ∀ name ∈ t.names, (r.get? name).isSome := by
  induction h with
  | refl => exact nofun
  | step _ makes ih =>
    cases makes with
    | type | shape | named | array | absent => exact ih
    | item | field => exact nofun
    | definition resolved | absentDefinition _ resolved =>
      intro name hname
      rcases List.mem_append.1 hname with hname | hname
      · exact ih name hname
      · obtain rfl := List.mem_singleton.1 hname
        rw [resolved]
        rfl

theorem exists_follow?_eq (h : Walk r (start q v) t c) :
    ∃ w, v.follow? t.path = some w ∧ c.IsAbout w := by
  induction h with
  | refl => exact ⟨v, rfl, rfl⟩
  | @step t c c' m _ makes ih =>
    obtain ⟨w, hw, hc⟩ := ih
    cases makes with
    | type | shape | named | array | definition => exact ⟨w, hw, hc⟩
    | absent | absentDefinition => exact ⟨w, hw, trivial⟩
    | @item element optional items before after u d resolvable order conform =>
      obtain rfl : Value.array items = w := hc
      have hu : (Value.array items).step? (.index before.length) = some u := by
        simp [Value.step?, Value.items?, order]
      exact ⟨u, by simp [Trail.after, Value.follow?_concat, hw, hu], rfl⟩
    | @field fields before after u x d name p structured order conform present =>
      obtain rfl : u = w := hc
      have hx : u.step? (.field name) = some x := present
      exact ⟨x, by simp [Trail.after, Value.follow?_concat, hw, hx], rfl⟩

/-- The walk goes on to where an error stems from. -/
theorem exists_origin (h : Walk r (start q v) t c) (he : c.Raises r e) :
    ∃ t c, Walk r (start q v) t c ∧ Origin r c e := by
  induction hm : c.measure r using WellFoundedLT.induction generalizing t c with
  | _ n ih =>
    subst hm
    rcases he.origin_or_makes h.sound.entered with horigin | ⟨m, c', hmakes, he⟩
    · exact ⟨t, c, h, horigin⟩
    · exact ih _ (h.sound.measure_lt hmakes.calls) (.step h hmakes) he rfl

theorem raises (h : Walk r (start q v) t c) (he : c.Raises r e) : (start q v).Raises r e := by
  induction h with
  | refl => exact he
  | step walk makes ih => exact ih (makes.raises walk.sound.entered he)

end Walk

end Matching

open Matching

/-- A match is answered with the errors that stem from the calls of its walk. -/
theorem Registry.assess_eq_error_iff {r : Registry} {q : Requirement} {v : Value}
    {e : ConfigurationError} :
    r.assess q v = .error e ↔ ∃ t c, Walk r (start q v) t c ∧ Origin r c e := by
  constructor
  · intro h
    exact Walk.refl.exists_origin h
  · rintro ⟨t, c, hwalk, horigin⟩
    exact hwalk.raises (horigin.raises hwalk.sound.entered)

end Conformance
