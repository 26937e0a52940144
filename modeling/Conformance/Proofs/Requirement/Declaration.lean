import Conformance.Proofs.Entries
import Conformance.Proofs.TypeExpr.RoundTrip
import Mathlib.Data.Finset.Card

/-!
# Declarations

The fields of a shape are declared one after the other, and some names more than once. What comes of
it is an ordered map (`Shape.MadeOf`): a name has the place of its first declaration and the
requirement of its last one. One more declaration keeps this so (`MadeOf.declare`), and there is one
such shape only (`MadeOf.unique`). A declaration that cannot be converted ends the chain
(`declareAll_orderedMap`).
-/

namespace Conformance

/-- What fails with the first error of a list succeeds exactly if the list has none. -/
theorem exists_eq_ok_iff_of_findSome? {ε α β : Type} {x : Except ε α} {xs : List β}
    {f : β → Option ε} (h : ∀ e, x = .error e ↔ xs.findSome? f = some e) :
    (∃ a, x = .ok a) ↔ ∀ b ∈ xs, f b = none := by
  calc (∃ a, x = .ok a)
      ↔ ∀ e, x ≠ .error e := by cases x <;> simp
    _ ↔ xs.findSome? f = none := by simp only [Ne, h, Option.eq_none_iff_forall_ne_some]
    _ ↔ ∀ b ∈ xs, f b = none := List.findSome?_eq_none_iff

namespace Shape

variable {s : Shape} {name : String}

theorem declare_of_not_mem (h : name ∉ s.names) (q : Requirement) :
    s.declare name q = s ++ [(name, q)] := by
  induction s with
  | nil => rfl
  | cons field rest ih =>
    obtain ⟨hne, hrest⟩ := not_or.1 (mt List.mem_cons.2 h)
    rw [declare, if_neg (Ne.symm hne), ih hrest, List.cons_append]

theorem names_declare_of_mem (h : name ∈ s.names) (q : Requirement) :
    (s.declare name q).names = s.names := by
  induction s with
  | nil => cases h
  | cons field rest ih =>
    rw [declare]
    split
    · rfl
    · next hne =>
      have hrest : name ∈ names rest := (List.mem_cons.1 h).resolve_left (Ne.symm hne)
      exact congrArg (field.1 :: ·) (ih hrest)

theorem nodup_names_declare (h : s.names.Nodup) (name : String) (q : Requirement) :
    (s.declare name q).names.Nodup := by
  by_cases hname : name ∈ s.names
  · rw [names_declare_of_mem hname]
    exact h
  · rw [declare_of_not_mem hname, names, List.map_append]
    refine List.nodup_append.2 ⟨h, List.nodup_singleton name, ?_⟩
    intro a ha b hb hab
    obtain rfl : b = name := List.mem_singleton.1 hb
    exact hname (hab ▸ ha)

theorem mem_declare {field : String × Requirement} {q : Requirement}
    (h : field ∈ s.declare name q) : field = (name, q) ∨ field ∈ s := by
  induction s with
  | nil => exact .inl (List.mem_singleton.1 h)
  | cons head rest ih =>
    rw [declare] at h
    split at h
    · next hname =>
      rw [hname] at h
      exact (List.mem_cons.1 h).imp_right (List.mem_cons_of_mem _)
    · rcases List.mem_cons.1 h with rfl | h
      · exact .inr List.mem_cons_self
      · exact (ih h).imp_right (List.mem_cons_of_mem _)

theorem mem_names_declare {n : String} (q : Requirement) :
    n ∈ (s.declare name q).names ↔ n ∈ s.names ∨ n = name := by
  by_cases hname : name ∈ s.names
  · have hself : n = name → n ∈ s.names := fun h => h ▸ hname
    rw [names_declare_of_mem hname, or_iff_left_of_imp hself]
  · simp [declare_of_not_mem hname, names]

theorem get?_eq_some_iff (h : s.names.Nodup) {q : Requirement} :
    s.get? name = some q ↔ (name, q) ∈ s :=
  Entries.lookup_eq_some_iff h

end Shape

namespace Source

variable {declarations front : List (String × Source)} {name n : String} {source other : Source}

/-! ## First and last declarations -/

/-- The first declaration of `a` comes before the first one of `b`. -/
def DeclaredBefore (declarations : List (String × Source)) (a b : String) : Prop :=
  (declarations.map (·.1)).idxOf a < (declarations.map (·.1)).idxOf b

def DeclaredLast (declarations : List (String × Source)) (name : String) (source : Source) : Prop :=
  ∃ before after, declarations = before ++ (name, source) :: after ∧
    ∀ later ∈ after, later.1 ≠ name

theorem DeclaredBefore.ne {a b : String} (h : DeclaredBefore declarations a b) : a ≠ b := by
  rintro rfl
  exact Nat.lt_irrefl _ h

theorem DeclaredBefore.concat {a b : String} (h : DeclaredBefore front a b)
    (ha : a ∈ front.map (·.1)) (hb : b ∈ front.map (·.1)) (d : String × Source) :
    DeclaredBefore (front ++ [d]) a b := by
  rwa [DeclaredBefore, List.map_append, List.idxOf_append_of_mem ha, List.idxOf_append_of_mem hb]

theorem declaredBefore_concat_of_not_mem (hn : n ∈ front.map (·.1))
    (hname : name ∉ front.map (·.1)) : DeclaredBefore (front ++ [(name, source)]) n name := by
  rw [DeclaredBefore, List.map_append, List.idxOf_append_of_mem hn,
    List.idxOf_append_of_notMem hname]
  exact Nat.lt_of_lt_of_le (List.idxOf_lt_length_of_mem hn) (Nat.le_add_right ..)

theorem declaredLast_iff_lookup :
    DeclaredLast declarations n source ↔ declarations.reverse.lookup n = some source := by
  rw [List.lookup_eq_some_iff]
  constructor
  · rintro ⟨before, after, rfl, hafter⟩
    refine ⟨after.reverse, before.reverse, by simp, fun later hlater => ?_⟩
    exact bne_iff_ne.2 (hafter later (List.mem_reverse.1 hlater)).symm
  · rintro ⟨after, before, hreverse, hafter⟩
    refine ⟨before.reverse, after.reverse, ?_, fun later hlater => ?_⟩
    · rw [← List.reverse_reverse declarations, hreverse]
      simp
    · exact (bne_iff_ne.1 (hafter later (List.mem_reverse.1 hlater))).symm

theorem declaredLast_concat :
    DeclaredLast (front ++ [(name, source)]) n other ↔
      if n = name then other = source else DeclaredLast front n other := by
  rw [declaredLast_iff_lookup, List.reverse_append, List.reverse_singleton, List.singleton_append,
    Entries.lookup_cons]
  split
  · rw [Option.some.injEq, eq_comm]
  · exact declaredLast_iff_lookup.symm

end Source

/-! ## The shape of a chain of declarations -/

/-- The shape has the declared names in the order of their first declarations, each with the
requirement of its last one. -/
structure Shape.MadeOf (s : Shape) (declarations : List (String × Source)) : Prop where
  declared : ∀ name, name ∈ s.names ↔ name ∈ declarations.map (·.1)
  placed : s.names.Pairwise (Source.DeclaredBefore declarations)
  required : ∀ name q, s.get? name = some q ↔
    ∃ source, Source.DeclaredLast declarations name source ∧ source.toRequirement = .ok q

namespace Shape.MadeOf

variable {declarations front : List (String × Source)} {name : String} {source : Source}
  {s t : Shape} {q : Requirement}

theorem nil : MadeOf [] [] where
  declared _ := .rfl
  placed := .nil
  required name q := by simp [get?, Source.declaredLast_iff_lookup]

theorem nodup (h : s.MadeOf declarations) : s.names.Nodup :=
  h.placed.imp Source.DeclaredBefore.ne

theorem placed_declare (h : s.MadeOf front) (name : String) (source : Source) (q : Requirement) :
    (s.declare name q).names.Pairwise (Source.DeclaredBefore (front ++ [(name, source)])) := by
  have hkept : s.names.Pairwise (Source.DeclaredBefore (front ++ [(name, source)])) :=
    h.placed.imp_of_mem fun ha hb hbefore =>
      hbefore.concat ((h.declared _).1 ha) ((h.declared _).1 hb) _
  by_cases hname : name ∈ s.names
  · rwa [names_declare_of_mem hname]
  · rw [declare_of_not_mem hname, names, List.map_append]
    refine List.pairwise_append.2 ⟨hkept, List.pairwise_singleton .., fun a ha b hb => ?_⟩
    obtain rfl : b = name := List.mem_singleton.1 hb
    exact Source.declaredBefore_concat_of_not_mem ((h.declared a).1 ha)
      (mt (h.declared b).2 hname)

theorem declare (h : s.MadeOf front) (hq : source.toRequirement = .ok q) (name : String) :
    (s.declare name q).MadeOf (front ++ [(name, source)]) where
  declared n := by
    rw [mem_names_declare, h.declared, List.map_append, List.mem_append, List.map_singleton,
      List.mem_singleton]
  placed := h.placed_declare name source q
  required n r := by
    simp only [get?_declare, Source.declaredLast_concat]
    by_cases hn : n = name
    · simp [hn, hq]
    · simp [hn, h.required]

theorem unique (hs : s.MadeOf declarations) (ht : t.MadeOf declarations) : s = t := by
  have hget (name : String) : s.get? name = t.get? name :=
    Option.ext fun q => (hs.required name q).trans (ht.required name q).symm
  have hperm : s.Perm t := Entries.perm_of_lookup_eq hs.nodup ht.nodup hget
  have hplaced {u : Shape} (hu : u.MadeOf declarations) :
      u.Pairwise fun x y => Source.DeclaredBefore declarations x.1 y.1 :=
    List.pairwise_map.1 hu.placed
  -- the same fields, and either list has them in the order of their first places
  exact hperm.eq_of_pairwise (fun _ _ _ _ hlt hgt => absurd hgt (Nat.lt_asymm hlt)) (hplaced hs)
    (hplaced ht)

theorem length_eq (h : s.MadeOf declarations) :
    s.length = (declarations.map (·.1)).toFinset.card := by
  calc s.length = s.names.length := (List.length_map _).symm
    _ = s.names.toFinset.card := (List.toFinset_card_of_nodup h.nodup).symm
    _ = (declarations.map (·.1)).toFinset.card := by rw [List.toFinset.ext h.declared]

end Shape.MadeOf

namespace Source

variable {declarations front rest : List (String × Source)} {name : String} {source : Source}
  {s t : Shape} {q : Requirement} {e : ConfigurationError}

theorem declareAll_cons_of_ok (hq : source.toRequirement = .ok q) :
    declareAll s ((name, source) :: rest) = declareAll (s.declare name q) rest := by
  rw [declareAll, hq]

theorem declareAll_cons_of_error (he : source.toRequirement = .error e) :
    declareAll s ((name, source) :: rest) = .error e := by
  rw [declareAll, he]

/-- The invariant of a chain, with the declarations that were made before it. -/
theorem madeOf_of_declareAll (h : s.MadeOf front) (hrest : declareAll s rest = .ok t) :
    t.MadeOf (front ++ rest) := by
  -- each step hands its declaration over to those made before
  induction rest generalizing s front with
  | nil =>
    cases hrest
    rwa [List.append_nil]
  | cons declaration rest ih =>
    obtain ⟨name, source⟩ := declaration
    cases hq : source.toRequirement with
    | ok q =>
      rw [declareAll_cons_of_ok hq] at hrest
      rw [← List.singleton_append, ← List.append_assoc]
      exact ih (h.declare hq name) hrest
    | error e =>
      rw [declareAll_cons_of_error hq] at hrest
      cases hrest

/-! ## The first error -/

def error? (source : Source) : Option ConfigurationError :=
  match source.toRequirement with
  | .ok _ => none
  | .error e => some e

theorem error?_eq_some_iff : source.error? = some e ↔ source.toRequirement = .error e := by
  rw [error?]
  cases source.toRequirement <;> simp

theorem error?_eq_none_iff : source.error? = none ↔ ∃ q, source.toRequirement = .ok q := by
  rw [error?]
  cases source.toRequirement <;> simp

theorem declareAll_eq_error_iff :
    declareAll s declarations = .error e ↔ declarations.findSome? (·.2.error?) = some e := by
  induction declarations generalizing s with
  | nil => simp [declareAll]
  | cons declaration rest ih =>
    obtain ⟨name, source⟩ := declaration
    rw [List.findSome?_cons]
    cases hq : source.toRequirement with
    | ok q =>
      rw [declareAll_cons_of_ok hq, error?_eq_none_iff.2 ⟨q, hq⟩]
      exact ih
    | error e' =>
      rw [declareAll_cons_of_error hq, error?_eq_some_iff.2 hq, Except.error.injEq,
        Option.some.injEq]

theorem exists_declareAll_eq_ok_iff :
    (∃ t, declareAll s declarations = .ok t) ↔
      ∀ d ∈ declarations, ∃ q, d.2.toRequirement = .ok q := by
  rw [exists_eq_ok_iff_of_findSome? fun _ => declareAll_eq_error_iff]
  simp only [error?_eq_none_iff]

/-- If all declarations can be converted, a chain of them comes to a shape, which is the one ordered
map of them: it lists each declared name once, in the order of the first declarations, with the
requirement of the last declaration, which is also what is found under the name, and has as many
fields as there are different names. Otherwise the chain stops with the error of the first
declaration that cannot be converted. -/
theorem declareAll_orderedMap (declarations : List (String × Source)) :
    ((∀ d ∈ declarations, ∃ q, d.2.toRequirement = .ok q) →
      ∃ s, declareAll [] declarations = .ok s ∧ s.MadeOf declarations ∧
        (∀ t : Shape, t.MadeOf declarations → t = s) ∧ s.names.Nodup ∧
        (∀ name q, (name, q) ∈ s ↔ s.get? name = some q) ∧
        s.length = (declarations.map (·.1)).toFinset.card) ∧
      ∀ e, declareAll [] declarations = .error e ↔
        ∃ before name source after, declarations = before ++ (name, source) :: after ∧
          source.toRequirement = .error e ∧ ∀ d ∈ before, ∃ q, d.2.toRequirement = .ok q := by
  refine ⟨fun hconverts => ?_, fun e => ?_⟩
  · obtain ⟨s, hs⟩ := exists_declareAll_eq_ok_iff.2 hconverts
    have hmade : s.MadeOf declarations := madeOf_of_declareAll .nil hs
    exact ⟨s, hs, hmade, fun t ht => ht.unique hmade, hmade.nodup,
      fun name q => (Shape.get?_eq_some_iff hmade.nodup).symm, hmade.length_eq⟩
  · simp only [declareAll_eq_error_iff, List.findSome?_eq_some_iff, error?_eq_some_iff,
      error?_eq_none_iff, Prod.exists]

/-- Two names are declared again, out of turn, and then two declarations fail. -/
theorem declareAll_orderedMap_redeclared :
    let declarations : List (String × Source) :=
      [("b", .text "int"), ("a", .text "int?"), ("b", .built (.shape [])), ("c", .text "int"),
        ("a", .text "int")]
    let s : Shape :=
      [("b", .shape []), ("a", .type (.named "int" false)), ("c", .type (.named "int" false))]
    declareAll [] declarations = .ok s ∧ s.MadeOf declarations ∧ s.get? "b" = some (.shape []) ∧
      s.length = (declarations.map (·.1)).toFinset.card ∧
      declareAll [] (declarations ++ [("d", .text "[]"), ("e", .json (.int 3))]) =
        .error (.emptyArrayType "[]") := by
  intro declarations s
  have hname : IsTypeName "int".toList := NameFlaw.ofName?_eq_none_iff.1 rfl
  have htext (optional : Bool) : toRequirement (.text (TypeExpr.named "int" optional).text) =
      .ok (.type (.named "int" optional)) := by
    rw [toRequirement, Requirement.parse, (TypeExpr.parse_eq_ok_iff _ (.named "int" optional)).2
      ⟨hname, rfl⟩]
  have hint : toRequirement (.text "int") = .ok (.type (.named "int" false)) := htext false
  have hmarked : toRequirement (.text "int?") = .ok (.type (.named "int" true)) := htext true
  have hempty : toRequirement (.text "[]") = .error (.emptyArrayType "[]") := by
    have hchars : TypeExpr.ofChars "[]".toList = .error (.emptyArray "[]") := by
      rw [TypeExpr.ofChars]
      rfl
    rw [toRequirement, Requirement.parse, TypeExpr.parse, hchars]
  have hconverts : ∀ d ∈ declarations, ∃ q, d.2.toRequirement = .ok q := by
    simp only [declarations, List.forall_mem_cons]
    exact ⟨⟨_, hint⟩, ⟨_, hmarked⟩, ⟨_, rfl⟩, ⟨_, hint⟩, ⟨_, hint⟩, List.forall_mem_nil _⟩
  have hdeclared : declareAll [] declarations = .ok s := by
    rw [declareAll_cons_of_ok hint, declareAll_cons_of_ok hmarked, declareAll_cons_of_ok rfl,
      declareAll_cons_of_ok hint, declareAll_cons_of_ok hint]
    rfl
  obtain ⟨t, ht, hmade, -, -, hlisted, hlength⟩ := (declareAll_orderedMap declarations).1 hconverts
  obtain rfl : s = t := Except.ok.inj (hdeclared.symm.trans ht)
  exact ⟨hdeclared, hmade, (hlisted _ _).1 List.mem_cons_self, hlength,
    ((declareAll_orderedMap _).2 _).2 ⟨declarations, "d", .text "[]", _, rfl, hempty, hconverts⟩⟩

end Source

end Conformance
