import Conformance.Matching.Failure

/-!
# Registries

A registry gives requirements names. A name resolves to the registered requirement, else to the
built-in type, else to the kind of that name.

Operations change a registry, report events for a log, and may fail. What each of them comes to is
a `Run`: the registry as the operation leaves it and the events so far stand beside the error.
-/

namespace Conformance

/-- How a registry treats names that are taken, and how far a check may go. -/
structure Settings where
  /-- A name that is taken may be defined again, built-in names included. -/
  allowOverwrite : Bool := false
  /-- How many names may be resolved in a row without a step into the value. -/
  maxDepth : Nat := 256
  /-- How many items and fields deep a value is followed. -/
  maxNesting : Nat := 4096
  deriving DecidableEq, Inhabited

/-! ## Events -/

inductive Level where
  | debug
  | warn
  deriving DecidableEq

def Level.name : Level → String
  | debug => "DEBUG"
  | warn => "WARN"

inductive Event where
  | registered (name : String) (replaced : Bool)
  | cleared (count : Nat)
  | overwritingEnabled
  | checkFailed (failure : Failure)
  | unusableRequirement (error : ConfigurationError)

namespace Event

def level : Event → Level
  | checkFailed _ => .warn
  | _ => .debug

def ofRegistry : Event → Bool
  | registered _ _ | cleared _ | overwritingEnabled => true
  | checkFailed _ | unusableRequirement _ => false

def message : Event → String
  | registered _ _ => "registered type"
  | cleared _ => "clearing registered types"
  | overwritingEnabled => "type overwriting enabled"
  | checkFailed _ => "value failed type check"
  | unusableRequirement _ => "unusable requirement treated as non-conforming"

/-- The further fields of the log line, as texts. -/
def fields : Event → List (String × String)
  | registered name replaced => [("name", name), ("replaced", toString replaced)]
  | cleared count => [("count", toString count)]
  | overwritingEnabled => []
  | checkFailed f =>
    [("path", f.pointer), ("reason", f.display), ("requirement", f.requirement),
      ("value", f.value)]
  | unusableRequirement e => [("error", e.message)]

end Event

/-! ## Registries -/

/-- Settings, and the registered types in the order of their names. -/
structure Registry where
  settings : Settings := {}
  types : List (String × Requirement) := []
  ordered : Ordered types := by exact List.Pairwise.nil

/-- What a name stands for. -/
inductive Target where
  | user (q : Requirement)
  | builtin (b : Builtin)
  | primitive (k : Kind)

/-- A text, resolved: its name without the marker, whether there was a marker, and the target. -/
structure Lookup where
  name : String
  optional : Bool
  target : Option Target

namespace Registry

def withSettings (settings : Settings) : Registry := { settings }

def get? (r : Registry) (name : String) : Option Requirement := r.types.lookup name

def names (r : Registry) : List String := r.types.map (·.1)

def size (r : Registry) : Nat := r.types.length

def lookup (r : Registry) (name : String) : Option Target :=
  match r.get? name with
  | some q => some (.user q)
  | none =>
    match Builtin.ofName? name with
    | some b => some (.builtin b)
    | none => (Kind.ofName? name).map .primitive

def knows (r : Registry) (name : String) : Bool := (r.lookup name).isSome

/-- What a text stands for, when one marker at its end is taken off. -/
def resolve (r : Registry) (text : String) : Lookup :=
  let (name, optional) := TypeExpr.splitMarker text.toList
  ⟨.ofList name, optional, r.lookup (.ofList name)⟩

/-! ## Registration -/

/-- Is the name registered, or reserved for a built-in type or a kind? -/
def isTaken (r : Registry) (name : String) : Bool :=
  (r.get? name).isSome || (Builtin.ofName? name).isSome || (Kind.ofName? name).isSome

def vet (r : Registry) (name : String) : Except ConfigurationError Unit :=
  match NameFlaw.ofName? name.toList with
  | some flaw => .error (.invalidTypeName name flaw)
  | none =>
    if !r.settings.allowOverwrite && r.isTaken name then .error (.duplicateName name)
    else .ok ()

/-- Define a name, in place of its former definition if there is one. -/
def insert (r : Registry) (name : String) (q : Requirement) : Registry :=
  { r with
    types := Entries.insert name q r.types
    ordered := Entries.ordered_insert name q r.ordered }

theorem get?_insert (r : Registry) (name : String) (q : Requirement) (n : String) :
    (r.insert name q).get? n = if n = name then some q else r.get? n :=
  Entries.lookup_insert name n q r.types

/-- A name is taken exactly if it stands for something. -/
theorem isTaken_eq_knows (r : Registry) (name : String) : r.isTaken name = r.knows name := by
  unfold isTaken knows lookup
  cases r.get? name with
  | some q => rfl
  | none =>
    cases Builtin.ofName? name with
    | some b => rfl
    | none => cases Kind.ofName? name <;> rfl

end Registry

/-! ## Operations -/

/-- A change of a registry. -/
inductive Operation where
  | register (name : String) (source : Source)
  | registerAll (entries : List (String × Source))
  | clear
  | allowOverwriting

/-- What operations come to: the registry that they leave, their events in order, and the error that
stopped them, if any did. -/
structure Run where
  registry : Registry
  events : List Event
  error : Option ConfigurationError

namespace Run

/-- An operation that cannot fail. -/
def ended (result : Registry × List Event) : Run := ⟨result.1, result.2, none⟩

/-- Go on from the registry reached, unless an error has stopped the run. -/
def andThen (run : Run) (next : Registry → Run) : Run :=
  match run.error with
  | none =>
    let later := next run.registry
    { later with events := run.events ++ later.events }
  | some _ => run

end Run

namespace Registry

/-- Register one type: the requirement is converted, then the name is vetted. -/
def register (r : Registry) (name : String) (source : Source) : Run :=
  match source.toRequirement with
  | .ok q =>
    match r.vet name with
    | .ok () => ⟨r.insert name q, [.registered name (r.get? name).isSome], none⟩
    | .error e => ⟨r, [], some e⟩
  | .error e => ⟨r, [], some e⟩

/-- The entries of a batch as requirements, if all of them may be registered together; `seen`
holds the names before them. -/
def stage (r : Registry) (seen : List String) :
    List (String × Source) → Except ConfigurationError (List (String × Requirement))
  | [] => .ok []
  | (name, source) :: rest => do
    let q ← source.toRequirement
    r.vet name
    if !r.settings.allowOverwrite && seen.contains name then .error (.duplicateName name)
    let staged ← r.stage (name :: seen) rest
    .ok ((name, q) :: staged)

def insertAll (r : Registry) : List (String × Requirement) → Registry × List Event
  | [] => (r, [])
  | (name, q) :: rest =>
    let (result, events) := (r.insert name q).insertAll rest
    (result, .registered name (r.get? name).isSome :: events)

/-- Register several types. All are looked at before the first of them is defined. -/
def registerAll (r : Registry) (entries : List (String × Source)) : Run :=
  match r.stage [] entries with
  | .ok staged => .ended (r.insertAll staged)
  | .error e => ⟨r, [], some e⟩

/-- Forget all registered types. -/
def clear (r : Registry) : Registry × List Event :=
  ({ settings := r.settings }, [.cleared r.size])

/-- From now on names that are taken may be defined again. -/
def allowOverwriting (r : Registry) : Registry × List Event :=
  ({ r with settings := { r.settings with allowOverwrite := true } },
    if r.settings.allowOverwrite then [] else [.overwritingEnabled])

def apply (r : Registry) : Operation → Run
  | .register name source => r.register name source
  | .registerAll entries => r.registerAll entries
  | .clear => .ended r.clear
  | .allowOverwriting => .ended r.allowOverwriting

/-- Apply the operations in order, up to the first that fails. -/
def run (r : Registry) : List Operation → Run
  | [] => ⟨r, [], none⟩
  | op :: rest => (r.apply op).andThen fun next => next.run rest

end Registry

end Conformance
