import Conformance.Proofs.Matching.Bounds
import Conformance.Proofs.Matching.Calls
import Mathlib.Data.Prod.Lex
import Mathlib.Logic.Relation

/-!
# Every match comes to an end

A definition may be larger than the name it stands for, and the steps start anew in every item and
field, so neither the value nor the requirement nor the steps decrease from call to call. What
decreases is `Call.measure`: the levels that are left, then the names that are left, then the size
of the requirement at hand, then the work that is left on it (`recursion_wellFounded`).
-/

namespace Conformance

namespace Requirement

mutual

def size : Requirement → Nat
  | predicate _ => 1
  | instanceOf _ _ => 1
  | type _ => 1
  | shape fields => 1 + sizeFields fields

def sizeFields : List (String × Requirement) → Nat
  | [] => 0
  | (_, q) :: rest => q.size + sizeFields rest

end

theorem size_le_sizeFields {fields : Shape} {name : String} {q : Requirement}
    (h : (name, q) ∈ fields) : q.size ≤ sizeFields fields := by
  induction fields with
  | nil => cases h
  | cons field rest ih =>
    rw [sizeFields]
    rcases List.mem_cons.1 h with rfl | h
    · exact Nat.le_add_right _ _
    · have := ih h
      omega

theorem size_lt_size_shape {fields : Shape} {name : String} {q : Requirement}
    (h : (name, q) ∈ fields) : q.size < (shape fields).size := by
  have := size_le_sizeFields h
  rw [size]
  omega

end Requirement

namespace Matching

namespace Call

def tasksLeft : Call → Nat
  | requirement _ _ _ => 2
  | type _ _ _ => 1
  | named _ _ _ _ | array _ _ _ _ | shape _ _ _ | absence _ _ => 0

/-- The levels left, the names left, the size of the requirement at hand and what is left to do
about it, to be compared from left to right. -/
def measure (r : Registry) (c : Call) : ℕ ×ₗ ℕ ×ₗ ℕ ×ₗ ℕ :=
  toLex (r.settings.maxNesting + 1 - c.depth.nesting,
    toLex (r.settings.maxDepth + 1 - c.depth.steps, toLex (c.subject.size, c.tasksLeft)))

variable {r : Registry} {c c' : Call}

theorem measure_lt_of_nesting (h : c.depth.nesting ≤ r.settings.maxNesting)
    (hn : c'.depth.nesting = c.depth.nesting + 1) : c'.measure r < c.measure r := by
  refine Prod.Lex.toLex_lt_toLex.2 (.inl ?_)
  dsimp only
  omega

theorem measure_lt_of_steps (h : c.depth.steps ≤ r.settings.maxDepth)
    (hn : c'.depth.nesting = c.depth.nesting) (hs : c'.depth.steps = c.depth.steps + 1) :
    c'.measure r < c.measure r := by
  refine Prod.Lex.toLex_lt_toLex.2 (.inr ⟨by rw [hn], Prod.Lex.toLex_lt_toLex.2 (.inl ?_)⟩)
  dsimp only
  omega

theorem measure_lt_of_subject (hd : c'.depth = c.depth)
    (h : c'.subject.size < c.subject.size ∨
      c'.subject.size = c.subject.size ∧ c'.tasksLeft < c.tasksLeft) :
    c'.measure r < c.measure r := by
  unfold measure
  rw [hd]
  exact Prod.Lex.toLex_lt_toLex.2 (.inr ⟨rfl, Prod.Lex.toLex_lt_toLex.2
    (.inr ⟨rfl, Prod.Lex.toLex_lt_toLex.2 h⟩)⟩)

/-! ## Calls within the bounds -/

/-- A call as a match makes it: at most one past the bounds, and within them where the work of
the caller has begun. -/
structure Sound (r : Registry) (c : Call) : Prop where
  steps : c.depth.steps ≤ r.settings.maxDepth + 1
  nesting : c.depth.nesting ≤ r.settings.maxNesting + 1
  entered : c.Entered r

theorem Sound.of_within (h : c.depth.Within r.settings) (hc : c.Entered r) : c.Sound r :=
  ⟨Nat.le_succ_of_le h.1, Nat.le_succ_of_le h.2, hc⟩

theorem sound_start (q : Requirement) (v : Value) : (start q v).Sound r :=
  ⟨Nat.zero_le _, Nat.zero_le _, trivial⟩

theorem within_of_calls (hc : c.Entered r) (h : Calls r c c') : c.depth.Within r.settings := by
  cases h with
  | type within | shape within | named within _ | array within _ | absentDefinition within _ _ =>
    exact within
  | definition _ | item _ _ => exact hc.1
  | field _ _ _ | absent _ _ _ => exact hc

theorem Sound.of_calls (hc : c.Sound r) (h : Calls r c c') : c'.Sound r := by
  have hwithin := within_of_calls hc.entered h
  cases h with
  | type within => exact .of_within within trivial
  | shape within => exact .of_within within within
  | named within demanded => exact .of_within within ⟨within, demanded⟩
  | array within demanded => exact .of_within within ⟨within, demanded⟩
  | definition resolved => exact ⟨Nat.succ_le_succ hwithin.1, hc.nesting, trivial⟩
  | item resolvable mem => exact ⟨Nat.zero_le _, Nat.succ_le_succ hwithin.2, trivial⟩
  | field structured mem present => exact ⟨Nat.zero_le _, Nat.succ_le_succ hwithin.2, trivial⟩
  | absent structured mem absent => exact .of_within hwithin trivial
  | absentDefinition within demanded resolved =>
    exact ⟨Nat.succ_le_succ hwithin.1, hc.nesting, trivial⟩

theorem Sound.measure_lt (hc : c.Sound r) (h : Calls r c c') : c'.measure r < c.measure r := by
  have hwithin := within_of_calls hc.entered h
  -- A definition may be larger than its name, so there the names left decide; in an item or a field
  -- the steps start anew, so there the levels left decide.
  cases h with
  | type within => exact measure_lt_of_subject rfl (.inr ⟨rfl, Nat.one_lt_two⟩)
  | shape within => exact measure_lt_of_subject rfl (.inr ⟨rfl, Nat.two_pos⟩)
  | named within demanded => exact measure_lt_of_subject rfl (.inr ⟨rfl, Nat.one_pos⟩)
  | array within demanded => exact measure_lt_of_subject rfl (.inr ⟨rfl, Nat.one_pos⟩)
  | definition resolved => exact measure_lt_of_steps hwithin.1 rfl rfl
  | item resolvable mem => exact measure_lt_of_nesting hwithin.2 rfl
  | field structured mem present => exact measure_lt_of_nesting hwithin.2 rfl
  | absent structured mem absent =>
    exact measure_lt_of_subject rfl (.inl (Requirement.size_lt_size_shape mem))
  | absentDefinition within demanded resolved => exact measure_lt_of_steps hwithin.1 rfl rfl

def Visited (r : Registry) (c : Call) : Prop :=
  ∃ q v, Relation.ReflTransGen (Calls r) (start q v) c

theorem Visited.sound (h : c.Visited r) : c.Sound r := by
  obtain ⟨q, v, hchain⟩ := h
  induction hchain with
  | refl => exact sound_start q v
  | tail _ hcalls ih => exact ih.of_calls hcalls

end Call

end Matching

open Matching

/-- The recursion of the matcher is well founded. A match is the answer to its first call. For every
call it may come to: the answer is made of the answers to the calls made from there and of nothing
else, each of these calls has a smaller measure, the depth is at most one past the bounds, and so it
can be counted up to a greatest number `max` that is above the bounds. -/
theorem Registry.recursion_wellFounded (r : Registry) :
    WellFounded (fun c' c => Call.Visited r c ∧ Calls r c c') ∧
      (∀ q v, Call.Visited r (start q v) ∧ r.assess q v = answer r (start q v)) ∧
      ∀ c, Call.Visited r c →
        (∀ call : (c : Call) → c.Answer, (∀ c', Calls r c c' → call c' = answer r c') →
          activation r call c = answer r c) ∧
        (∀ c', Calls r c c' → Call.Visited r c' ∧ c'.measure r < c.measure r) ∧
        c.depth.steps ≤ r.settings.maxDepth + 1 ∧
        c.depth.nesting ≤ r.settings.maxNesting + 1 ∧
        ∀ max, r.settings.maxDepth < max → r.settings.maxNesting < max →
          c.depth.steps ≤ max ∧ c.depth.nesting ≤ max := by
  refine ⟨?_, fun q v => ⟨⟨q, v, .refl⟩, assess_eq_answer r q v⟩, fun c hc => ?_⟩
  · refine Subrelation.wf (r := InvImage (· < ·) (Call.measure r)) ?_
      (InvImage.wf _ wellFounded_lt)
    exact fun ⟨hc, hcalls⟩ => hc.sound.measure_lt hcalls
  · have hsound := hc.sound
    refine ⟨fun call hcall => ?_, fun c' hcalls => ⟨?_, hsound.measure_lt hcalls⟩, hsound.steps,
      hsound.nesting, fun max hdepth hnesting => ?_⟩
    · rw [activation_congr hcall, activation_answer hsound.entered]
    · obtain ⟨q, v, hchain⟩ := hc
      exact ⟨q, v, hchain.tail hcalls⟩
    · exact ⟨hsound.steps.trans hdepth, hsound.nesting.trans hnesting⟩

/-- The name `tree` stands for a requirement that is larger than itself, and yet there is less left
to do: with the bounds of the settings, and with counters of 32 bits. -/
theorem Registry.recursion_wellFounded_treeTypes :
    let v : Value := .object none []
    let name : Call := .named "tree" false v .root
    let body : Call := .requirement (.shape
      [("children", .type (.named "forest" true)), ("label", .type (.named "string" false))]) v
      ⟨1, 0⟩
    Call.Visited treeTypes body ∧ name.subject.size < body.subject.size ∧
      body.measure treeTypes < name.measure treeTypes ∧ body.depth.steps ≤ UInt32.size - 1 := by
  intro v name body
  obtain ⟨-, hstart, hvisited⟩ := recursion_wellFounded treeTypes
  have hroot : Depth.root.Within treeTypes.settings := ⟨Nat.zero_le _, Nat.zero_le _⟩
  have hdemanded : ¬ Waives (.named "tree" false) v := by
    rintro ⟨h, -⟩
    cases h
  have hfirst := (hstart (.type (.named "tree" false)) v).1
  have htype := ((hvisited _ hfirst).2.1 _ (.type hroot)).1
  have hname : Call.Visited treeTypes name := ((hvisited _ htype).2.1 _ (.named hroot hdemanded)).1
  obtain ⟨hbody, hless⟩ := (hvisited _ hname).2.1 body (.definition rfl)
  have hcounters := (hvisited _ hbody).2.2.2.2 (UInt32.size - 1) (by decide) (by decide)
  exact ⟨hbody, by decide, hless, hcounters.1⟩

end Conformance
