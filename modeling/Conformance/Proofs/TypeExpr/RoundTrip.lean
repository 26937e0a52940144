import Conformance.Requirement

/-!
# Type texts and type expressions

Reading a text peels a marker and a pair of brackets off its two ends, without looking at what
stands between them; writing a type expression puts them back. The texts that are read are exactly
those that are written for an expression around a type name, and each is read as that expression
(`parse_eq_ok_iff`).
-/

namespace Conformance

namespace TypeExpr

/-! ## The marker -/

theorem splitMarker_concat (cs : List Char) : splitMarker (cs ++ ['?']) = (cs, true) := by
  simp [splitMarker]

theorem splitMarker_of_getLast?_ne {cs : List Char} (h : cs.getLast? ≠ some '?') :
    splitMarker cs = (cs, false) :=
  if_neg h

theorem splitMarker_eq_iff {cs body : List Char} {optional : Bool}
    (hbody : body.getLast? ≠ some '?') :
    splitMarker cs = (body, optional) ↔ body ++ writeMarker optional = cs := by
  constructor
  · intro h
    by_cases hlast : cs.getLast? = some '?'
    · obtain ⟨front, rfl⟩ := List.getLast?_eq_some_iff.1 hlast
      rw [splitMarker_concat] at h
      obtain ⟨rfl, rfl⟩ := Prod.mk.inj h
      rfl
    · rw [splitMarker_of_getLast?_ne hlast] at h
      obtain ⟨rfl, rfl⟩ := Prod.mk.inj h
      exact List.append_nil cs
  · rintro rfl
    cases optional with
    | true => exact splitMarker_concat body
    | false =>
      rw [writeMarker, if_neg Bool.false_ne_true, List.append_nil]
      exact splitMarker_of_getLast?_ne hbody

/-! ## One layer -/

variable {cs : List Char} {optional : Bool}

theorem ofChars_eq_ok_named_iff {name : String} :
    ofChars cs = .ok (.named name optional) ↔
      IsTypeName name.toList ∧ splitMarker cs = (name.toList, optional) := by
  rw [ofChars]
  constructor
  · intro h
    split at h
    · split at h
      · split at h
        · cases h
        · split at h <;> cases h
      · cases h
    · split at h
      · cases h
      · rename_i hflaw
        cases h
        rw [String.toList_ofList]
        exact ⟨NameFlaw.ofName?_eq_none_iff.1 hflaw, rfl⟩
  · rintro ⟨hname, hsplit⟩
    split
    · rename_i inside hbody
      have hopen : name.toList = '[' :: inside := by rw [← hbody, hsplit]
      exact absurd (hopen ▸ List.mem_cons_self) hname.2.2.2.1
    · simp only [hsplit, NameFlaw.ofName?_eq_none_iff.2 hname, String.ofList_toList]

theorem ofChars_nil : ofChars [] = .error (.malformed (.name .empty)) := by
  rw [ofChars]
  rfl

theorem ofChars_eq_ok_array_iff {element : TypeExpr} :
    ofChars cs = .ok (.array element optional) ↔
      ∃ inside, splitMarker cs = ('[' :: (inside ++ [']']), optional) ∧
        ofChars inside = .ok element := by
  rw [ofChars]
  constructor
  · intro h
    split at h
    · rename_i inside hbody
      split at h
      · rename_i hclose
        obtain ⟨inner, rfl⟩ := List.getLast?_eq_some_iff.1 hclose
        rw [List.dropLast_concat] at h
        split at h
        · cases h
        · split at h
          · rename_i hinner
            cases h
            exact ⟨inner, Prod.ext hbody rfl, hinner⟩
          · cases h
      · cases h
    · split at h <;> cases h
  · rintro ⟨inside, hsplit, hinside⟩
    have hne : inside ≠ [] := by
      rintro rfl
      rw [ofChars_nil] at hinside
      cases hinside
    split
    · rename_i body hbody
      rw [hsplit] at hbody
      obtain rfl : inside ++ [']'] = body := (List.cons.inj hbody).2
      simp only [List.getLast?_concat, List.dropLast_concat, if_neg hne, hinside, hsplit,
        ↓reduceIte]
    · rename_i hopen
      exact absurd (by rw [hsplit]) (hopen (inside ++ [']']))

/-! ## All layers -/

/-- On characters: a text is read as `e` exactly if it is the text of `e` and the name in it is a
type name. -/
theorem ofChars_eq_ok_iff {e : TypeExpr} :
    ofChars cs = .ok e ↔ IsTypeName e.baseName.toList ∧ e.write = cs := by
  -- On the expression, for all texts: what stands between the brackets is a text of its own, and
  -- brackets that do not match are found where the name should be.
  induction e generalizing cs with
  | named name optional =>
    rw [ofChars_eq_ok_named_iff]
    refine and_congr_right fun hname => splitMarker_eq_iff fun hlast => ?_
    exact hname.2.2.1 (List.mem_of_getLast? hlast)
  | array element optional ih =>
    have hclosed (inside : List Char) : ('[' :: (inside ++ [']'])).getLast? ≠ some '?' := by
      rw [← List.cons_append, List.getLast?_concat]
      decide
    calc ofChars cs = .ok (.array element optional)
        ↔ ∃ inside, '[' :: (inside ++ [']']) ++ writeMarker optional = cs ∧
            IsTypeName element.baseName.toList ∧ element.write = inside := by
          rw [ofChars_eq_ok_array_iff]
          simp only [splitMarker_eq_iff (hclosed _), ih]
      _ ↔ IsTypeName element.baseName.toList ∧
            '[' :: (element.write ++ [']']) ++ writeMarker optional = cs := by
          constructor
          · rintro ⟨inside, hcs, hname, rfl⟩
            exact ⟨hname, hcs⟩
          · rintro ⟨hname, hcs⟩
            exact ⟨element.write, hcs, hname, rfl⟩
      _ ↔ IsTypeName (array element optional).baseName.toList ∧
            (array element optional).write = cs := by
          simp only [baseName, write, List.cons_append, List.append_assoc, List.nil_append]

/-! ## Texts -/

theorem parse_eq_ok_iff_ofChars {text : String} {e : TypeExpr} :
    TypeExpr.parse text = .ok e ↔ ofChars text.toList = .ok e := by
  rw [parse]
  cases ofChars text.toList with
  | ok found => simp
  | error flaw => cases flaw <;> simp

theorem parse_of_isTypeName {name : String} (h : IsTypeName name.toList) :
    TypeExpr.parse name = .ok (.named name false) :=
  parse_eq_ok_iff_ofChars.2 (ofChars_eq_ok_iff.2 ⟨h, List.append_nil _⟩)

/-- A text is read as `e` exactly if the name inside `e` is a type name and the text is the one
written for `e`. -/
theorem parse_eq_ok_iff (text : String) (e : TypeExpr) :
    TypeExpr.parse text = .ok e ↔ IsTypeName e.baseName.toList ∧ e.text = text := by
  rw [parse_eq_ok_iff_ofChars, ofChars_eq_ok_iff, TypeExpr.text, ← String.toList_inj,
    String.toList_ofList]

end TypeExpr

end Conformance
