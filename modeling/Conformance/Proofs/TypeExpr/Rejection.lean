import Conformance.Proofs.TypeExpr.RoundTrip

/-!
# Texts that are no type expression

Layers are peeled off a text for as long as there are brackets around the whole of it with something
in between. Reading a layer fails exactly as reading what is inside it (`ofChars_of_encloses`), so
the innermost layer alone says what is wrong (`Innermost.ofChars_eq_error_iff`). An empty array is
reported with the text of that layer, everything else with the whole text
(`parse_error_classified`).
-/

namespace Conformance

namespace Malformation

variable {body : List Char}

/-- What the reason says of a text without its marker. -/
def Applies (body : List Char) : Malformation → Prop
  | unclosed => body.head? = some '[' ∧ body.getLast? ≠ some ']'
  | name .empty => body = []
  | name .padded => Text.isPadded body
  | name .marker => '?' ∈ body
  | name .bracket => '[' ∈ body ∨ ']' ∈ body

instance : (reason : Malformation) → Decidable (reason.Applies body)
  | unclosed => inferInstanceAs (Decidable (_ ∧ _))
  | name .empty => inferInstanceAs (Decidable (body = []))
  | name .padded => inferInstanceAs (Decidable (Text.isPadded body = true))
  | name .marker => inferInstanceAs (Decidable ('?' ∈ body))
  | name .bracket => inferInstanceAs (Decidable (_ ∨ _))

def all : List Malformation :=
  [unclosed, name .empty, name .padded, name .marker, name .bracket]

def first? (body : List Char) : Option Malformation := all.find? (Applies body ·)

theorem find?_cons (reason : Malformation) (rest : List Malformation) :
    (reason :: rest).find? (Applies body ·) =
      if reason.Applies body then some reason else rest.find? (Applies body ·) := by
  by_cases h : reason.Applies body
  · simp [h]
  · simp [h]

theorem first?_of_unclosed (h : unclosed.Applies body) : first? body = some unclosed := by
  rw [first?, all, find?_cons, if_pos h]

theorem first?_of_not_unclosed (h : ¬ unclosed.Applies body) :
    first? body = (NameFlaw.ofName? body).map name := by
  unfold first? all NameFlaw.ofName?
  simp only [find?_cons, if_neg h, List.find?_nil, List.isEmpty_iff, apply_ite (Option.map name)]
  rfl

/-- The reason for a bracket that is opened and not closed is given for nothing else. -/
theorem message_eq_iff {reason : Malformation} (h : first? body = some reason) :
    reason.message = "unbalanced '['" ↔ body.head? = some '[' ∧ body.getLast? ≠ some ']' := by
  constructor
  · intro hmessage
    have happlies : reason.Applies body := by simpa using List.find?_some h
    cases reason with
    | unclosed => exact happlies
    | name flaw => exact absurd hmessage (by cases flaw <;> decide)
  · intro hunclosed
    obtain rfl : unclosed = reason := Option.some.inj ((first?_of_unclosed hunclosed).symm.trans h)
    rfl

end Malformation

namespace TypeExpr

/-! ## Layers -/

/-- Apart from a marker at its end, the text is `inside` in brackets. -/
def Encloses (cs inside : List Char) : Prop :=
  inside ≠ [] ∧ (splitMarker cs).1 = '[' :: (inside ++ [']'])

/-- Peeling layers off the text ends at `s`. -/
inductive Innermost : List Char → List Char → Prop
  | here {cs : List Char} (h : ∀ inside, ¬ Encloses cs inside) : Innermost cs cs
  | peel {cs inside s : List Char} (h : Encloses cs inside) (h' : Innermost inside s) :
      Innermost cs s

variable {cs inside s : List Char}

theorem Encloses.length_lt (h : Encloses cs inside) : inside.length < cs.length := by
  have hle := length_splitMarker_le cs
  rw [h.2, List.length_cons, List.length_append] at hle
  omega

theorem Encloses.unique {inside' : List Char} (h : Encloses cs inside)
    (h' : Encloses cs inside') : inside = inside' := by
  have hbody : '[' :: (inside ++ [']']) = '[' :: (inside' ++ [']']) := h.2.symm.trans h'.2
  exact List.append_cancel_right (List.cons.inj hbody).2

theorem exists_innermost (cs : List Char) : ∃ s, Innermost cs s := by
  by_cases h : ∃ inside, Encloses cs inside
  · obtain ⟨inside, hinside⟩ := h
    have := hinside.length_lt
    obtain ⟨s, hs⟩ := exists_innermost inside
    exact ⟨s, .peel hinside hs⟩
  · exact ⟨cs, .here fun inside hinside => h ⟨inside, hinside⟩⟩
termination_by cs.length

theorem Innermost.unique {s' : List Char} (h : Innermost cs s) (h' : Innermost cs s') :
    s' = s := by
  induction h with
  | here hbare =>
    cases h' with
    | here => rfl
    | peel hlayer _ => exact absurd hlayer (hbare _)
  | peel hlayer _ ih =>
    cases h' with
    | here hbare => exact absurd hlayer (hbare _)
    | peel hlayer' hinner =>
      obtain rfl := hlayer.unique hlayer'
      exact ih hinner

/-! ## Reading a layer -/

theorem ofChars_of_encloses (h : Encloses cs inside) :
    ofChars cs = (ofChars inside).map (.array · (splitMarker cs).2) := by
  rw [ofChars]
  split
  · rename_i body hbody
    obtain rfl : body = inside ++ [']'] := (List.cons.inj (hbody.symm.trans h.2)).2
    rw [List.getLast?_concat, List.dropLast_concat, if_pos rfl, if_neg h.1]
    cases ofChars inside <;> rfl
  · rename_i hopen
    exact absurd h.2 (hopen _)

theorem unclosed_applies_cons (h : inside.getLast? ≠ some ']') :
    Malformation.unclosed.Applies ('[' :: inside) := by
  refine ⟨rfl, ?_⟩
  rw [List.getLast?_cons]
  cases hlast : inside.getLast? with
  | none => decide
  | some c => rwa [hlast] at h

theorem ofChars_of_not_encloses (h : ∀ inside, ¬ Encloses cs inside) :
    ofChars cs =
      if (splitMarker cs).1 = ['[', ']'] then .error (.emptyArray (.ofList cs))
      else match Malformation.first? (splitMarker cs).1 with
        | some reason => .error (.malformed reason)
        | none => .ok (.named (.ofList (splitMarker cs).1) (splitMarker cs).2) := by
  rw [ofChars]
  split
  · rename_i inside hbody
    by_cases hclose : inside.getLast? = some ']'
    · obtain ⟨inner, rfl⟩ := List.getLast?_eq_some_iff.1 hclose
      have hinner : inner = [] := Decidable.byContradiction fun hne => h inner ⟨hne, hbody⟩
      subst hinner
      simp [hbody]
    · have hbrackets : '[' :: inside ≠ ['[', ']'] := by
        rintro ⟨⟩
        exact hclose rfl
      rw [if_neg hclose, hbody, if_neg hbrackets,
        Malformation.first?_of_unclosed (unclosed_applies_cons hclose)]
  · rename_i hopen
    have hbrackets : (splitMarker cs).1 ≠ ['[', ']'] := hopen _
    have hunclosed : ¬ Malformation.unclosed.Applies (splitMarker cs).1 := by
      rintro ⟨hhead, -⟩
      obtain ⟨inside, hbody⟩ := List.head?_eq_some_iff.1 hhead
      exact hopen inside hbody
    rw [if_neg hbrackets, Malformation.first?_of_not_unclosed hunclosed]
    cases NameFlaw.ofName? (splitMarker cs).1 <;> rfl

/-- Only the innermost layer can be wrong. -/
theorem Innermost.ofChars_eq_error_iff {flaw : TypeFlaw} (h : Innermost cs s) :
    ofChars cs = .error flaw ↔ ofChars s = .error flaw := by
  induction h with
  | here => rfl
  | peel hlayer _ ih =>
    rw [ofChars_of_encloses hlayer, ← ih]
    cases ofChars _ <;> simp [Except.map]

theorem Innermost.not_encloses (h : Innermost cs s) (inside : List Char) : ¬ Encloses s inside := by
  induction h with
  | here hbare => exact hbare inside
  | peel _ _ ih => exact ih

theorem Innermost.ofChars_eq_emptyArray_iff {layer : String} (h : Innermost cs s) :
    ofChars cs = .error (.emptyArray layer) ↔
      (splitMarker s).1 = ['[', ']'] ∧ layer = .ofList s := by
  rw [h.ofChars_eq_error_iff, ofChars_of_not_encloses h.not_encloses]
  by_cases hbody : (splitMarker s).1 = ['[', ']']
  · simp [hbody, eq_comm]
  · rw [if_neg hbody]
    cases Malformation.first? (splitMarker s).1 <;> simp [hbody]

theorem Innermost.ofChars_eq_malformed_iff {reason : Malformation} (h : Innermost cs s) :
    ofChars cs = .error (.malformed reason) ↔
      (splitMarker s).1 ≠ ['[', ']'] ∧ Malformation.first? (splitMarker s).1 = some reason := by
  rw [h.ofChars_eq_error_iff, ofChars_of_not_encloses h.not_encloses]
  by_cases hbody : (splitMarker s).1 = ['[', ']']
  · simp [hbody]
  · rw [if_neg hbody]
    cases Malformation.first? (splitMarker s).1 <;> simp [hbody]

/-! ## Texts -/

theorem parse_eq_error_iff {text : String} {e : ConfigurationError} :
    TypeExpr.parse text = .error e ↔
      (∃ layer, ofChars text.toList = .error (.emptyArray layer) ∧ e = .emptyArrayType layer) ∨
      ∃ reason, ofChars text.toList = .error (.malformed reason) ∧
        e = .malformedTypeName text reason := by
  rw [parse]
  cases ofChars text.toList with
  | ok found => simp
  | error flaw => cases flaw <;> simp [eq_comm]

/-- Every text has one innermost layer. If that is a pair of brackets, perhaps with a marker, the
text is refused for an empty array, and the layer is shown. Otherwise the first reason that applies
to the layer without its marker decides, and the whole text is shown, whatever is around the layer;
a text to which no reason applies is not refused. -/
theorem parse_error_classified (text : String) :
    ∃ s, (∀ s', Innermost text.toList s' ↔ s' = s) ∧
      let body := (splitMarker s).1
      (body = ['[', ']'] → TypeExpr.parse text = .error (.emptyArrayType (.ofList s))) ∧
      (body ≠ ['[', ']'] → ∀ e, TypeExpr.parse text = .error e ↔
        ∃ reason, Malformation.first? body = some reason ∧ e = .malformedTypeName text reason ∧
          (reason.message = "unbalanced '['" ↔
            body.head? = some '[' ∧ body.getLast? ≠ some ']')) := by
  obtain ⟨s, hs⟩ := exists_innermost text.toList
  refine ⟨s, fun s' => ⟨hs.unique, fun h => h ▸ hs⟩, fun hbody => ?_, fun hbody e => ⟨?_, ?_⟩⟩
  · exact parse_eq_error_iff.2 (.inl ⟨_, hs.ofChars_eq_emptyArray_iff.2 ⟨hbody, rfl⟩, rfl⟩)
  · intro herror
    rcases parse_eq_error_iff.1 herror with ⟨layer, hlayer, -⟩ | ⟨reason, hreason, rfl⟩
    · exact absurd (hs.ofChars_eq_emptyArray_iff.1 hlayer).1 hbody
    · have hfirst := (hs.ofChars_eq_malformed_iff.1 hreason).2
      exact ⟨reason, hfirst, rfl, Malformation.message_eq_iff hfirst⟩
  · rintro ⟨reason, hfirst, rfl, -⟩
    exact parse_eq_error_iff.2 (.inr ⟨reason, hs.ofChars_eq_malformed_iff.2 ⟨hbody, hfirst⟩, rfl⟩)

/-- The marker belongs to the layer that is shown for an empty array; a name with a blank is shown
with all that is around it. -/
theorem parse_error_classified_nested :
    TypeExpr.parse "[[]?]" = .error (.emptyArrayType "[]?") ∧
      TypeExpr.parse "[[ int]?]?" = .error (.malformedTypeName "[[ int]?]?" (.name .padded)) := by
  constructor
  · obtain ⟨s, hs, hempty, -⟩ := parse_error_classified "[[]?]"
    have houter : Encloses "[[]?]".toList ['[', ']', '?'] := ⟨List.cons_ne_nil _ _, rfl⟩
    have hbare (inside : List Char) : ¬ Encloses ['[', ']', '?'] inside := by
      rintro ⟨hne, hbody⟩
      cases inside with
      | nil => exact hne rfl
      | cons c rest => cases rest <;> cases hbody
    obtain rfl := (hs _).1 (.peel houter (.here hbare))
    exact hempty rfl
  · obtain ⟨s, hs, -, hnamed⟩ := parse_error_classified "[[ int]?]?"
    have houter : Encloses "[[ int]?]?".toList "[ int]?".toList := ⟨List.cons_ne_nil _ _, rfl⟩
    have hinner : Encloses "[ int]?".toList " int".toList := ⟨List.cons_ne_nil _ _, rfl⟩
    have hbare (inside : List Char) : ¬ Encloses " int".toList inside := by
      rintro ⟨-, hbody⟩
      cases hbody
    obtain rfl := (hs _).1 (.peel houter (.peel hinner (.here hbare)))
    exact (hnamed (by decide) _).2 ⟨.name .padded, rfl, rfl, by decide⟩

end TypeExpr

end Conformance
