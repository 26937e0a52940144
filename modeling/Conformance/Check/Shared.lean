import Conformance.Check.Basic

/-!
# The shared registry

One registry is shared by all parts of a program. A check that is taken from it does not copy the
registry but refers to it, and is bound to it as it is at that moment: before the registry changes
it is copied, if a check that is still held refers to it, and changes in place otherwise.
-/

namespace Conformance

/-- A use of the shared registry: operations in order up to the first that fails, binding a value
for checks to come, or giving up the check that was bound as number `i`, counted from zero. -/
inductive SharedCall where
  | chain (operations : List Operation)
  | bind (v : Value)
  | release (i : Nat)

structure Held where
  value : Value
  place : Nat

/-- The shared registry: the one in use, at the place after those that checks made it leave behind,
and what was bound so far, in order. -/
structure Shared where
  older : List Registry := []
  current : Registry := Registry.withSettings {}
  held : List (Option Held) := []
  place_le : ∀ h : Held, some h ∈ held → h.place ≤ older.length := by
    exact fun _ h => absurd h List.not_mem_nil

namespace Shared

def read (s : Shared) (place : Nat) : Registry := s.older[place]?.getD s.current

def check (s : Shared) (v : Value) : Check := s.current.check v

/-- The checks in the order in which they were bound, where one that was given up leaves a gap. -/
def slots (s : Shared) : List (Option Check) :=
  s.held.map (·.map fun h => (s.read h.place).check h.value)

def check? (s : Shared) (i : Nat) : Option Check := s.slots[i]?.join

def checks (s : Shared) : List Check := s.slots.filterMap id

def isReferred (s : Shared) : Bool := s.held.any (·.any (·.place == s.older.length))

/-- Have the registry in use at a place that no check refers to. -/
def unshare (s : Shared) : Shared :=
  if s.isReferred then
    { s with
      older := s.older ++ [s.current]
      place_le := fun h hmem =>
        Nat.le_trans (s.place_le h hmem) (List.length_append ▸ Nat.le_add_right ..) }
  else s

/-- Apply one operation. The registry is the updater's own before it is known whether the operation
takes place. -/
def update (s : Shared) (op : Operation) : Shared × List Event × Option ConfigurationError :=
  let own := s.unshare
  let run := own.current.apply op
  ({ own with current := run.registry }, run.events, run.error)

def updateAll (s : Shared) : List Operation → Shared × List Event × Option ConfigurationError
  | [] => (s, [], none)
  | op :: rest =>
    match s.update op with
    | (next, events, none) =>
      let (last, later, error) := next.updateAll rest
      (last, events ++ later, error)
    | (next, events, some e) => (next, events, some e)

def bind (s : Shared) (v : Value) : Shared :=
  { s with
    held := s.held ++ [some ⟨v, s.older.length⟩]
    place_le := fun h hmem =>
      (List.mem_append.1 hmem).elim (s.place_le h) fun hlast =>
        Nat.le_of_eq (congrArg Held.place (Option.some.inj (List.mem_singleton.1 hlast))) }

def release (s : Shared) (i : Nat) : Shared :=
  { s with
    held := s.held.set i none
    place_le := fun h hmem =>
      (List.mem_or_eq_of_mem_set hmem).elim (s.place_le h) (absurd · (Option.some_ne_none h)) }

/-- Perform one call; what a failing chain did before it failed stays done. -/
def perform (s : Shared) : SharedCall → Shared × List Event × Option ConfigurationError
  | .chain operations => s.updateAll operations
  | .bind v => (s.bind v, [], none)
  | .release i => (s.release i, [], none)

def performAll (s : Shared) (calls : List SharedCall) : Shared :=
  calls.foldl (fun s call => (s.perform call).1) s

end Shared

end Conformance
