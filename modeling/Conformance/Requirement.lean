import Conformance.Json.Basic
import Conformance.TypeExpr
import Conformance.Value.Basic

/-!
# Requirements

What a value has to be: accepted by a predicate, an instance of a class, of a type, or an object
of a certain shape. A predicate rejects a value only by saying `false` outright or by reporting an
error; anything else passes. A shape declares fields in an order of its own, each name once
(`Shape.declare`); fields that it does not declare are free.

Whoever asks for a check or registers a type gives a requirement in one of several forms
(`Source`). It is converted when it is used, and the conversion may fail.
-/

namespace Conformance

/-! ## Errors -/

/-- Why a requirement or a registration cannot be used, as against a value that does not
conform. -/
inductive ConfigurationError where
  | duplicateName (name : String)
  | invalidTypeName (name : String) (flaw : NameFlaw)
  | emptyArrayType (text : String)
  | malformedTypeName (text : String) (reason : Malformation)
  | unknownElementType (name : String) (requirement : TypeExpr)
  | unsupportedRequirement (found : Json)
  | depthExceeded (limit : Nat)
  | nestingExceeded (limit : Nat)

namespace ConfigurationError

open Text (quote)

def message : ConfigurationError → String
  | duplicateName name =>
    "type " ++ quote name ++ " is already defined; overwriting existing types is not allowed"
  | invalidTypeName name flaw => "invalid type name " ++ quote name ++ ": " ++ flaw.message
  | emptyArrayType text => "empty type array in " ++ quote text ++ ", should be \"[type]\""
  | malformedTypeName text reason => "malformed type " ++ quote text ++ ": " ++ reason.message
  | unknownElementType name requirement =>
    "nonexistent type " ++ quote name ++ " in array requirement " ++ quote requirement.text
  | unsupportedRequirement found => "not a valid requirement: " ++ found.pretty
  | depthExceeded limit =>
    "requirement nesting exceeded " ++ toString limit ++
      " levels (is a named type defined in terms of itself?)"
  | nestingExceeded limit => "value nesting exceeded " ++ toString limit ++ " levels"

end ConfigurationError

/-- The type expression of a text; whatever layer is malformed, the error shows the whole text. -/
def TypeExpr.parse (text : String) : Except ConfigurationError TypeExpr :=
  match TypeExpr.ofChars text.toList with
  | .ok e => .ok e
  | .error (.emptyArray layer) => .error (.emptyArrayType layer)
  | .error (.malformed reason) => .error (.malformedTypeName text reason)

/-! ## Predicates -/

/-- What a predicate says of a value. -/
inductive Verdict where
  | pass
  | fail
  | error (text : String)
  deriving DecidableEq

namespace Verdict

def ofBool (b : Bool) : Verdict := if b then pass else fail

/-- No answer passes. -/
def ofOption : Option Bool → Verdict
  | some b => ofBool b
  | none => pass

/-- An error rejects with its text; a result counts as what it is. -/
def ofExcept : Except String Verdict → Verdict
  | .ok v => v
  | .error text => error text

end Verdict

structure Predicate where
  name : Option String
  test : Value → Verdict

def Predicate.label (p : Predicate) : String :=
  "Predicate(" ++ p.name.getD "<anonymous>" ++ ")"

/-! ## Requirements and shapes -/

/-- A requirement. An instance-of requirement may hand values that are no instance to a
predicate. -/
inductive Requirement where
  | predicate (p : Predicate)
  | instanceOf (c : Class) (fallback : Option Predicate)
  | type (e : TypeExpr)
  | shape (fields : List (String × Requirement))

/-- The declared fields of a shape, in the order of their first declaration. -/
abbrev Shape := List (String × Requirement)

/-- Declare a field. A name that was declared before keeps its place and gets the new
requirement. -/
def Shape.declare (name : String) (q : Requirement) : Shape → Shape
  | [] => [(name, q)]
  | (n, r) :: rest => if n = name then (n, q) :: rest else (n, r) :: declare name q rest

def Shape.names (s : Shape) : List String := s.map (·.1)

def Shape.get? (s : Shape) (name : String) : Option Requirement := s.lookup name

theorem Shape.get?_declare (name : String) (q : Requirement) (n : String) (s : Shape) :
    (s.declare name q).get? n = if n = name then some q else s.get? n := by
  unfold get?
  induction s with
  | nil => exact Entries.lookup_cons n name q []
  | cons head rest ih =>
    obtain ⟨m, r⟩ := head
    unfold declare
    split
    · rename_i h
      subst h
      simp only [Entries.lookup_cons]
      split <;> rfl
    · simp only [Entries.lookup_cons, ih]
      split <;> split <;> simp_all

namespace Requirement

/-- Does the requirement carry the marker `?` itself? -/
def optional : Requirement → Bool
  | type e => e.optional
  | _ => false

def parse (text : String) : Except ConfigurationError Requirement :=
  match TypeExpr.parse text with
  | .ok e => .ok (type e)
  | .error e => .error e

mutual

/-- A JSON description: types by their text, shapes by an object. -/
def describe : Requirement → Json
  | predicate ⟨some name, _⟩ => .string ("[predicate " ++ name ++ "]")
  | predicate ⟨none, _⟩ => .string "[predicate]"
  | instanceOf c _ => .string ("[class " ++ c.name ++ "]")
  | type e => .string e.text
  | shape fields => .object (Entries.ofList (describeFields fields))

def describeFields : List (String × Requirement) → List (String × Json)
  | [] => []
  | (name, q) :: rest => (name, q.describe) :: describeFields rest

end

def display (q : Requirement) : String := q.describe.pretty

mutual

/-- The requirement that JSON describes: a string is a type, an object is a shape. Of several
errors the first in the order of the text is reported. -/
def ofJson : Json → Except ConfigurationError Requirement
  | .string text => parse text
  | .object entries =>
    match declareEntries [] entries with
    | .ok declared => .ok (shape declared)
    | .error e => .error e
  | j => .error (.unsupportedRequirement j)

def declareEntries (declared : Shape) : List (String × Json) → Except ConfigurationError Shape
  | [] => .ok declared
  | (name, j) :: rest =>
    match ofJson j with
    | .ok q => declareEntries (declared.declare name q) rest
    | .error e => .error e

end

end Requirement

/-! ## Sources -/

/-- A requirement as it is given: the text of a type, a JSON description, a finished requirement,
or a shape with its declarations in order. -/
inductive Source where
  | text (text : String)
  | json (j : Json)
  | built (q : Requirement)
  | shape (fields : List (String × Source))

namespace Source

mutual

/-- The requirement itself, or the first error met. -/
def toRequirement : Source → Except ConfigurationError Requirement
  | text t => Requirement.parse t
  | json j => Requirement.ofJson j
  | built q => .ok q
  | shape fields =>
    match declareAll [] fields with
    | .ok declared => .ok (.shape declared)
    | .error e => .error e

def declareAll (declared : Shape) : List (String × Source) → Except ConfigurationError Shape
  | [] => .ok declared
  | (name, source) :: rest =>
    match source.toRequirement with
    | .ok q => declareAll (declared.declare name q) rest
    | .error e => .error e

end

end Source

end Conformance
