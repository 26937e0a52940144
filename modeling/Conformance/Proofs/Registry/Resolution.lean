import Conformance.Proofs.Registry.History

/-!
# Texts that resolve

A text is resolved without being read: one marker is taken off its end, and what is left is looked
up as it is. This agrees with the reader of type texts only because of what can be registered. In a
well-kept registry nothing but a type name stands for anything (`WellKept.isTypeName_of_knows`), and
so the texts that resolve are exactly those that are read as a name which stands for something
(`resolve_agrees`).
-/

namespace Conformance

theorem Builtin.isTypeName_name (b : Builtin) : IsTypeName b.name.toList :=
  NameFlaw.ofName?_eq_none_iff.1 (by cases b <;> rfl)

theorem Kind.isTypeName_name (k : Kind) : IsTypeName k.name.toList :=
  NameFlaw.ofName?_eq_none_iff.1 (by cases k <;> rfl)

namespace Registry

variable {r : Registry} {text name : String} {optional : Bool}

theorem WellKept.isTypeName_of_knows (h : r.WellKept) (hknows : r.knows name) :
    IsTypeName name.toList := by
  rw [← isTaken_eq_knows, isTaken, Bool.or_eq_true, Bool.or_eq_true] at hknows
  rcases hknows with (huser | hbuiltin) | hkind
  · exact h.typeName name (mem_names_iff.2 huser)
  · obtain ⟨b, hb⟩ := Option.isSome_iff_exists.1 hbuiltin
    exact Builtin.name_of_ofName? hb ▸ b.isTypeName_name
  · obtain ⟨k, hk⟩ := Option.isSome_iff_exists.1 hkind
    exact Kind.name_of_ofName? hk ▸ k.isTypeName_name

theorem resolve_of_parse (h : TypeExpr.parse text = .ok (.named name optional)) :
    r.resolve text = ⟨name, optional, r.lookup name⟩ := by
  obtain ⟨-, hsplit⟩ := TypeExpr.ofChars_eq_ok_named_iff.1 (TypeExpr.parse_eq_ok_iff_ofChars.1 h)
  simp only [resolve, hsplit, String.ofList_toList]

theorem parse_of_isTypeName_resolve (h : IsTypeName (r.resolve text).name.toList) :
    TypeExpr.parse text = .ok (.named (r.resolve text).name (r.resolve text).optional) := by
  refine TypeExpr.parse_eq_ok_iff_ofChars.2 (TypeExpr.ofChars_eq_ok_named_iff.2 ⟨h, ?_⟩)
  exact Prod.ext (String.toList_ofList (l := (TypeExpr.splitMarker text.toList).1)).symm rfl

/-- Whatever operations led to the registry, a text resolves exactly if it is read as a plain name
that stands for something, and it resolves to that name, with its marker and with what it stands
for. Texts that are not read as plain names do not resolve, nor do those in which, without the
marker, the name is empty, padded, marked once more or in brackets. -/
theorem resolve_agrees (settings : Settings) (operations : List Operation) (text : String) :
    let r := (withSettings settings).after operations
    let found := r.resolve text
    (found.target.isSome ↔
        ∃ name optional, TypeExpr.parse text = .ok (.named name optional) ∧ r.knows name) ∧
      (∀ name optional, TypeExpr.parse text = .ok (.named name optional) →
        found = ⟨name, optional, r.lookup name⟩) ∧
      ((∀ name optional, TypeExpr.parse text ≠ .ok (.named name optional)) → found.target = none) ∧
      ∀ flaw, NameFlaw.ofName? found.name.toList = some flaw → found.target = none := by
  intro r found
  have hr : r.WellKept := (wellKept_withSettings settings).after operations
  have hname (hsome : found.target.isSome) : IsTypeName found.name.toList :=
    hr.isTypeName_of_knows hsome
  refine ⟨⟨fun hsome => ?_, ?_⟩, fun name optional => resolve_of_parse, fun hread => ?_,
    fun flaw hflaw => ?_⟩
  · exact ⟨_, _, parse_of_isTypeName_resolve (hname hsome), hsome⟩
  · rintro ⟨name, optional, hparse, hknows⟩
    have hfound : found = ⟨name, optional, r.lookup name⟩ := resolve_of_parse hparse
    rw [hfound]
    exact hknows
  · refine Option.not_isSome_iff_eq_none.1 fun hsome => ?_
    exact hread _ _ (parse_of_isTypeName_resolve (hname hsome))
  · refine Option.not_isSome_iff_eq_none.1 fun hsome => ?_
    cases hflaw.symm.trans (NameFlaw.ofName?_eq_none_iff.2 (hname hsome))

/-- The second registration is refused, so a marker is not part of a name. -/
theorem resolve_agrees_marked :
    let int : Requirement := .type (.named "int" false)
    let r := (withSettings {}).after [.register "id" (.built int), .register "id?" (.built int)]
    TypeExpr.parse "id?" = .ok (.named "id" true) ∧
      r.resolve "id?" = ⟨"id", true, some (.user int)⟩ ∧
      ∀ text ∈ ["id??", "[id]", "?", " id"], (r.resolve text).target = none := by
  intro int r
  have hagrees := resolve_agrees {} [.register "id" (.built int), .register "id?" (.built int)]
  have hparse : TypeExpr.parse "id?" = .ok (.named "id" true) :=
    (TypeExpr.parse_eq_ok_iff _ _).2 ⟨NameFlaw.ofName?_eq_none_iff.1 rfl, rfl⟩
  obtain ⟨-, hresolve, -, -⟩ := hagrees "id?"
  refine ⟨hparse, hresolve _ _ hparse, ?_⟩
  have hflawed (text name : String) (hname : (r.resolve text).name = name) (flaw : NameFlaw)
      (hflaw : NameFlaw.ofName? name.toList = some flaw) : (r.resolve text).target = none :=
    (hagrees text).2.2.2 flaw (hname ▸ hflaw)
  simp only [List.forall_mem_cons, List.not_mem_nil]
  exact ⟨hflawed "id??" "id?" rfl .marker rfl, hflawed "[id]" "[id]" rfl .bracket rfl,
    hflawed "?" "" rfl .empty rfl, hflawed " id" " id" rfl .padded rfl, nofun⟩

end Registry

end Conformance
