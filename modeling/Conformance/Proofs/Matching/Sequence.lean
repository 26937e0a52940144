import Conformance.Matching.Basic

/-!
# Results in order

A container is matched part by part, and its first part with a problem decides. `within` moves the
result of a part to its place, `andThen` goes on to a later result while the earlier one conforms,
and `first` is the first result of a list that does not conform.
-/

namespace Conformance

namespace Matched

def within (s : PathSegment) : Matched → Matched
  | .ok o => .ok (o.within s)
  | .error e => .error e

def andThen : Matched → Matched → Matched
  | .ok .conforms, later => later
  | problem, _ => problem

/-- The first result that does not conform, if there is one. -/
def first (results : List Matched) : Matched := results.foldr andThen (.ok .conforms)

@[simp] theorem within_conforms (s : PathSegment) : within s (.ok .conforms) = .ok .conforms := rfl

@[simp] theorem within_fails (s : PathSegment) (f : Failure) :
    within s (.ok (.fails f)) = .ok (.fails (f.within s)) := rfl

@[simp] theorem within_error (s : PathSegment) (e : ConfigurationError) :
    within s (.error e) = .error e := rfl

@[simp] theorem andThen_conforms (later : Matched) : andThen (.ok .conforms) later = later := rfl

@[simp] theorem andThen_fails (f : Failure) (later : Matched) :
    andThen (.ok (.fails f)) later = .ok (.fails f) := rfl

@[simp] theorem andThen_error (e : ConfigurationError) (later : Matched) :
    andThen (.error e) later = .error e := rfl

@[simp] theorem andThen_conforms_right (result : Matched) :
    andThen result (.ok .conforms) = result := by
  rcases result with e | _ | f <;> rfl

theorem andThen_eq_self {result : Matched} (h : result ≠ .ok .conforms) (later : Matched) :
    andThen result later = result := by
  rcases result with e | _ | f
  · rfl
  · exact absurd rfl h
  · rfl

theorem andThen_eq_conforms_iff {result later : Matched} :
    andThen result later = .ok .conforms ↔ result = .ok .conforms ∧ later = .ok .conforms := by
  rcases result with e | _ | f <;> simp

theorem within_eq_conforms_iff {s : PathSegment} {result : Matched} :
    within s result = .ok .conforms ↔ result = .ok .conforms := by
  rcases result with e | _ | f <;> simp

theorem within_eq_fails_iff {s : PathSegment} {result : Matched} {f : Failure} :
    within s result = .ok (.fails f) ↔ ∃ g, result = .ok (.fails g) ∧ f = g.within s := by
  rcases result with e | _ | g <;> simp [eq_comm]

@[simp] theorem first_nil : first [] = .ok .conforms := rfl

@[simp] theorem first_cons (result : Matched) (results : List Matched) :
    first (result :: results) = andThen result (first results) := rfl

theorem first_eq_conforms_iff {results : List Matched} :
    first results = .ok .conforms ↔ ∀ result ∈ results, result = .ok .conforms := by
  induction results with
  | nil => simp
  | cons result results ih => rw [first_cons, andThen_eq_conforms_iff, ih, List.forall_mem_cons]

theorem exists_of_first_eq {results : List Matched} {problem : Matched}
    (h : first results = problem) (hp : problem ≠ .ok .conforms) :
    ∃ before after, results = before ++ problem :: after ∧
      ∀ result ∈ before, result = .ok .conforms := by
  induction results with
  | nil => exact absurd h.symm hp
  | cons result results ih =>
    rw [first_cons] at h
    by_cases hr : result = .ok .conforms
    · rw [hr, andThen_conforms] at h
      obtain ⟨before, after, rfl, hb⟩ := ih h
      exact ⟨result :: before, after, rfl, List.forall_mem_cons.2 ⟨hr, hb⟩⟩
    · rw [andThen_eq_self hr] at h
      subst h
      exact ⟨[], results, rfl, by simp⟩

theorem first_append {before after : List Matched} {problem : Matched}
    (hb : ∀ result ∈ before, result = .ok .conforms) (hp : problem ≠ .ok .conforms) :
    first (before ++ problem :: after) = problem := by
  induction before with
  | nil => exact andThen_eq_self hp _
  | cons result before ih =>
    obtain ⟨hr, hb⟩ := List.forall_mem_cons.1 hb
    rw [List.cons_append, first_cons, hr, andThen_conforms]
    exact ih hb

theorem mem_of_first_eq {results : List Matched} {problem : Matched}
    (h : first results = problem) (hp : problem ≠ .ok .conforms) : problem ∈ results := by
  obtain ⟨before, after, rfl, -⟩ := exists_of_first_eq h hp
  simp

end Matched

end Conformance
