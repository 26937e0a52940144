import Conformance.Requirement
import Conformance.Value.Json

/-!
# Failures

A failure says what a value is lacking, at which place, with the texts of the value and of the
requirement found there. The place is a path of items and fields, and `pointer` writes it as a
JSON pointer.
-/

namespace Conformance

inductive FailureKind where
  | wrongPrimitiveKind (expected actual : Kind)
  | builtinRejected (builtin : Builtin)
  | notSequence
  | notObject (actual : Kind)
  | nullValue
  | missingField (field : String)
  | predicateRejected (detail : Option String)
  | notInstance (className : String)
  | unknownTypeName (name : String)
  deriving DecidableEq

/-- A step from a value into one of its parts. -/
inductive PathSegment where
  | index (i : Nat)
  | field (name : String)
  deriving DecidableEq

namespace PathSegment

def escape (c : Char) : List Char :=
  if c = '~' then ['~', '0'] else if c = '/' then ['~', '1'] else [c]

def write : PathSegment → List Char
  | index i => Nat.toDigits 10 i
  | field name => name.toList.flatMap escape

def text (s : PathSegment) : String := String.ofList s.write

end PathSegment

structure Failure where
  kind : FailureKind
  value : String
  requirement : String
  path : List PathSegment
  deriving DecidableEq

namespace Failure

def ofValue (kind : FailureKind) (v : Value) (requirement : String) : Failure :=
  ⟨kind, v.pretty, requirement, []⟩

/-- The same failure, seen from one step further out. -/
def within (f : Failure) (s : PathSegment) : Failure := { f with path := s :: f.path }

def writePointer : List PathSegment → List Char
  | [] => []
  | s :: rest => '/' :: (s.write ++ writePointer rest)

/-- The path as a JSON pointer; the root is the empty text. -/
def pointer (f : Failure) : String := String.ofList (writePointer f.path)

/-- The innermost index on the path. -/
def index? (f : Failure) : Option Nat :=
  f.path.reverse.findSome? fun
    | .index i => some i
    | .field _ => none

/-- What the failure says, without its place. -/
def reason (f : Failure) : String :=
  match f.kind with
  | .wrongPrimitiveKind expected actual =>
    f.value ++ " should be a(n) " ++ expected.name ++ ", not " ++ actual.name
  | .builtinRejected builtin => f.value ++ " should be a \"" ++ builtin.name ++ "\""
  | .notSequence => f.value ++ " should be an array matching " ++ f.requirement
  | .notObject actual => f.value ++ " should be an object, not " ++ actual.name
  | .nullValue => f.value ++ " is not of type " ++ f.requirement
  | .missingField field =>
    f.value ++ " does not contain field " ++ field ++ " for requirement " ++ f.requirement
  | .predicateRejected (some detail) => f.value ++ " failed " ++ f.requirement ++ ": " ++ detail
  | .predicateRejected none => f.value ++ " failed " ++ f.requirement
  | .notInstance className => f.value ++ " is not an instance of " ++ className
  | .unknownTypeName name =>
    f.value ++ " cannot be checked against unknown type " ++ Text.quote name

def display (f : Failure) : String :=
  (if f.path.isEmpty then "(root)" else f.pointer) ++ ": " ++ f.reason

end Failure

/-- What a check of a usable requirement finds. -/
inductive Outcome where
  | conforms
  | fails (f : Failure)
  deriving DecidableEq

namespace Outcome

def isConforming : Outcome → Bool
  | conforms => true
  | fails _ => false

def within (s : PathSegment) : Outcome → Outcome
  | conforms => conforms
  | fails f => fails (f.within s)

end Outcome

end Conformance
