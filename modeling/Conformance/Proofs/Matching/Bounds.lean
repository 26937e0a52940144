import Conformance.Proofs.Matching.Congruence

/-!
# The bounds of a match

The bounds on names in a row and on levels never change an answer, they only withhold it: what a
match finds within its bounds it finds within wider ones (`assess_withBounds_eq`).
-/

namespace Conformance

open Matched Matching

def Registry.withBounds (r : Registry) (maxDepth maxNesting : Nat) : Registry :=
  { r with settings := { r.settings with maxDepth, maxNesting } }

@[simp] theorem Matched.withheld_within (s : PathSegment) (a : Matched) :
    (a.within s).withheld = a.withheld := by
  cases a <;> rfl

def Matched.Settles (a b : Matched) : Prop := a.withheld ∨ b = a

namespace Matched

theorem withheld_eq_false_iff {a : Matched} :
    a.withheld = false ↔
      ∀ limit, a ≠ .error (.depthExceeded limit) ∧ a ≠ .error (.nestingExceeded limit) := by
  rcases a with e | o
  · cases e <;> simp [withheld, ConfigurationError.isBound]
  · simp [withheld]

theorem Settles.eq {a b : Matched} (h : Settles a b) (ha : a.withheld = false) : b = a := by
  rcases h with h | h
  · rw [ha] at h
    cases h
  · exact h

theorem Settles.conforms {a b : Matched} (h : Settles a b) (ha : a = .ok .conforms) :
    b = .ok .conforms := by
  rw [h.eq (by rw [ha]; rfl), ha]

theorem settles_congruence : Congruence Settles :=
  eq_congruence.flip.unless (fun h => by rw [h]) Bool.false_ne_true
    fun s a h => (withheld_within s a).trans h

end Matched

namespace Matching

variable {r r' : Registry} {nesting nesting' : Nat}

theorem settles_matchWithin (htypes : r'.types = r.types)
    (hdepth : r.settings.maxDepth ≤ r'.settings.maxDepth) (hn : nesting ≤ nesting')
    (q : Requirement) (v : Value) :
    Settles (matchWithin r nesting q v) (matchWithin r' nesting' q v) := by
  obtain ⟨extra, hextra⟩ := Nat.exists_eq_add_of_le hdepth
  obtain ⟨more, rfl⟩ := Nat.exists_eq_add_of_le hn
  exact matchWithin_congr settles_congruence (Registry.agreesOn_of_types htypes).extendsOn
    settles_congruence.likeness extra more hextra (fun _ _ _ => .inl rfl)
    (fun _ _ _ _ => .inl rfl) (fun _ _ => .inl rfl) nesting trivial rfl

theorem settles_matchLevel (htypes : r'.types = r.types)
    (hdepth : r.settings.maxDepth ≤ r'.settings.maxDepth) (hn : nesting ≤ nesting')
    {steps steps' : Nat} (hs : steps ≤ steps') (q : Requirement) (v : Value) :
    Settles (matchLevel r (matchWithin r nesting) steps q v)
      (matchLevel r' (matchWithin r' nesting') steps' q v) := by
  obtain ⟨extra, rfl⟩ := Nat.exists_eq_add_of_le hs
  refine matchLevel_congr settles_congruence (Registry.agreesOn_of_types htypes).extendsOn
    settles_congruence.likeness ?_ (fun _ _ => .inl rfl) (fun _ _ _ _ => .inl rfl) steps trivial rfl
  rintro q v _ - rfl
  exact settles_matchWithin htypes hdepth hn q v

end Matching

namespace Registry

variable {r : Registry} {depth depth' nesting nesting' : Nat}

theorem settles_assess (hd : depth ≤ depth') (hn : nesting ≤ nesting') (q : Requirement)
    (v : Value) :
    Settles ((r.withBounds depth nesting).assess q v)
      ((r.withBounds depth' nesting').assess q v) := by
  have htypes : (r.withBounds depth' nesting').types = (r.withBounds depth nesting).types := rfl
  exact settles_matchWithin htypes hd (Nat.succ_le_succ hn) q v

/-- A result other than a bound that was met is the result under all bounds that are at least as
wide. -/
theorem assess_withBounds_eq (hd : depth ≤ depth') (hn : nesting ≤ nesting') {q : Requirement}
    {v : Value} {result : Matched} (h : (r.withBounds depth nesting).assess q v = result)
    (hresult : ∀ limit, result ≠ .error (.depthExceeded limit) ∧
      result ≠ .error (.nestingExceeded limit)) :
    (r.withBounds depth' nesting').assess q v = result := by
  rw [← h]
  refine (settles_assess hd hn q v).eq ?_
  rw [h]
  exact withheld_eq_false_iff.2 hresult

/-- A type whose values hold values of the same type, by way of a second name. -/
def treeTypes : Registry :=
  ((withSettings {}).insert "forest" (.type (.array (.named "tree" false) false))).insert "tree"
    (.shape [("children", .type (.named "forest" true)), ("label", .type (.named "string" false))])

/-- The second child of the root has a label of the wrong kind, three levels down. -/
theorem assess_withBounds_eq_treeTypes :
    let q : Requirement := .type (.named "tree" false)
    let v : Value := .object none
      [("children", .array [.object none [("label", .string "left")],
          .object none [("label", .null)]]),
        ("label", .string "root")]
    let result : Matched := .ok (.fails ⟨.wrongPrimitiveKind .string .object, Value.null.pretty,
      (Requirement.type (.named "string" false)).display,
      [.field "children", .index 1, .field "label"]⟩)
    (treeTypes.withBounds 1 3).assess q v = result ∧
      (treeTypes.withBounds 300 5000).assess q v = result := by
  intro q v result
  have h : (treeTypes.withBounds 1 3).assess q v = result := rfl
  have hresult (limit : Nat) : result ≠ .error (.depthExceeded limit) ∧
      result ≠ .error (.nestingExceeded limit) := ⟨nofun, nofun⟩
  exact ⟨h, assess_withBounds_eq (by decide) (by decide) h hresult⟩

end Registry

end Conformance
