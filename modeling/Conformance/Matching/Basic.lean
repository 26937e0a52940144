import Conformance.Registry.Basic

/-!
# Matching

A value is matched against a requirement in a registry. Two budgets bound the walk: `nesting`
levels of items and fields may still be entered, the current one included, and `steps` names may
still be resolved on this level. Each level starts with all its steps, so a level is a function of
how values one level further in are matched (`deeper`).

Items and fields are taken in order, and the first that does not conform decides: as a failure at
its place, or as a configuration error.
-/

namespace Conformance

/-- What a match yields: an outcome, or the reason why the requirement cannot be used. -/
abbrev Matched := Except ConfigurationError Outcome

abbrev Deeper := Requirement → Value → Matched

namespace Matching

def testedBy (q : Requirement) (p : Predicate) (v : Value) : Outcome :=
  match p.test v with
  | .pass => .conforms
  | .fail => .fails (.ofValue (.predicateRejected none) v q.display)
  | .error text => .fails (.ofValue (.predicateRejected (some text)) v q.display)

def rootCheck (accepted : Bool) (kind : FailureKind) (q : Requirement) (v : Value) : Outcome :=
  if accepted then .conforms else .fails (.ofValue kind v q.display)

/-- An instance of the class, or else a value that passes the fallback. -/
def matchInstance (c : Class) (fallback : Option Predicate) (v : Value) : Outcome :=
  let q := Requirement.instanceOf c fallback
  if v.isInstanceOf c then .conforms
  else match fallback with
    | some p => testedBy q p v
    | none => .fails (.ofValue (.notInstance c.name) v q.display)

def matchItems (deeper : Value → Matched) : Nat → List Value → Matched
  | _, [] => .ok .conforms
  | i, v :: rest =>
    match deeper v with
    | .ok .conforms => matchItems deeper (i + 1) rest
    | .ok (.fails f) => .ok (.fails (f.within (.index i)))
    | .error e => .error e

/-- An element type that is a name has to be known once there is an element. -/
def elementKnown (r : Registry) : TypeExpr → Except ConfigurationError Unit
  | .array (.named name marker) optional =>
    if r.knows name then .ok ()
    else .error (.unknownElementType name (.array (.named name marker) optional))
  | _ => .ok ()

def matchArray (r : Registry) (deeper : Deeper) (element : TypeExpr) (optional : Bool)
    (v : Value) : Matched :=
  let e := TypeExpr.array element optional
  match v.items? with
  | none => .ok (.fails (.ofValue .notSequence v (Requirement.type e).display))
  | some [] => .ok .conforms
  | some items => do
    elementKnown r e
    matchItems (deeper (.type element)) 0 items

/-- May a field with this requirement be absent? It may if the requirement carries the marker, or
is a name that stands for such a requirement. -/
def admitsAbsence (r : Registry) : Nat → Requirement → Except ConfigurationError Bool
  | 0, _ => .error (.depthExceeded r.settings.maxDepth)
  | steps + 1, q =>
    if q.optional then .ok true
    else match q with
      | .type (.named name _) =>
        match r.lookup name with
        | some (.user definition) => admitsAbsence r steps definition
        | _ => .ok false
      | _ => .ok false

def matchFields (deeper : Deeper) (absent : Requirement → Except ConfigurationError Bool)
    (q : Requirement) (v : Value) : Shape → Matched
  | [] => .ok .conforms
  | (name, required) :: rest =>
    match v.present? name with
    | some field =>
      match deeper required field with
      | .ok .conforms => matchFields deeper absent q v rest
      | .ok (.fails f) => .ok (.fails (f.within (.field name)))
      | .error e => .error e
    | none =>
      match absent required with
      | .ok true => matchFields deeper absent q v rest
      | .ok false => .ok (.fails (.ofValue (.missingField name) v q.display))
      | .error e => .error e

def matchShape (deeper : Deeper) (absent : Requirement → Except ConfigurationError Bool)
    (fields : Shape) (v : Value) : Matched :=
  let q := Requirement.shape fields
  if v.isNull then .ok (.fails (.ofValue .nullValue v q.display))
  else if v.kind ≠ .object then .ok (.fails (.ofValue (.notObject v.kind) v q.display))
  else matchFields deeper absent q v fields

/-- Match on one level, resolving fewer than `steps` names in a row. -/
def matchLevel (r : Registry) (deeper : Deeper) : Nat → Requirement → Value → Matched
  | 0, _, _ => .error (.depthExceeded r.settings.maxDepth)
  | _ + 1, .predicate p, v => .ok (testedBy (.predicate p) p v)
  | _ + 1, .instanceOf c fallback, v => .ok (matchInstance c fallback v)
  | steps + 1, .shape fields, v => matchShape deeper (admitsAbsence r (steps + 1)) fields v
  | _ + 1, .type (.array element optional), v =>
    if optional && v.isUndefined then .ok .conforms
    else matchArray r deeper element optional v
  | steps + 1, .type (.named name optional), v =>
    let q := Requirement.type (.named name optional)
    if optional && v.isUndefined then .ok .conforms
    else match r.lookup name with
      | some (.user definition) => matchLevel r deeper steps definition v
      | some (.builtin b) => .ok (rootCheck (b.accepts v) (.builtinRejected b) q v)
      | some (.primitive k) =>
        .ok (rootCheck (v.kind == k) (.wrongPrimitiveKind k v.kind) q v)
      | none => .ok (.fails (.ofValue (.unknownTypeName name) v q.display))

def matchWithin (r : Registry) : Nat → Deeper
  | 0 => fun _ _ => .error (.nestingExceeded r.settings.maxNesting)
  | nesting + 1 => matchLevel r (matchWithin r nesting) (r.settings.maxDepth + 1)

end Matching

/-- What matching a value against a requirement yields, within the bounds of the registry. -/
def Registry.assess (r : Registry) (q : Requirement) (v : Value) : Matched :=
  Matching.matchWithin r (r.settings.maxNesting + 1) q v

end Conformance
