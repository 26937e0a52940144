import Conformance.Text

/-!
# Type expressions

A type is a name or an array of a type; either may carry the marker `?`, by which `undefined`
belongs to it. `TypeExpr.write` gives its text. A type name is not empty, has no blank at either
end, and contains neither the marker nor a bracket.

A text is read from the outside to the inside: a marker at its end is taken off, then a pair of
brackets around the whole of the rest. What is left without brackets has to be a name. Only the
innermost layer can be wrong.
-/

namespace Conformance

/-! ## Names -/

/-- Why a text is no type name. -/
inductive NameFlaw where
  | empty
  | padded
  | marker
  | bracket
  deriving DecidableEq

namespace NameFlaw

def message : NameFlaw → String
  | empty => "name is empty"
  | padded => "name has surrounding whitespace"
  | marker => "'?' is only allowed once, at the end"
  | bracket => "unbalanced brackets"

/-- The first flaw of a name, in the order of the constructors. -/
def ofName? (cs : List Char) : Option NameFlaw :=
  if cs.isEmpty then some empty
  else if Text.isPadded cs then some padded
  else if '?' ∈ cs then some marker
  else if '[' ∈ cs ∨ ']' ∈ cs then some bracket
  else none

end NameFlaw

def IsTypeName (cs : List Char) : Prop :=
  cs ≠ [] ∧ Text.isPadded cs = false ∧ '?' ∉ cs ∧ '[' ∉ cs ∧ ']' ∉ cs

theorem NameFlaw.ofName?_eq_none_iff {cs : List Char} : ofName? cs = none ↔ IsTypeName cs := by
  unfold ofName? IsTypeName
  by_cases he : cs = []
  · simp [he]
  by_cases hp : Text.isPadded cs
  · simp [he, hp]
  by_cases hm : '?' ∈ cs
  · simp [he, hp, hm]
  by_cases hb : '[' ∈ cs ∨ ']' ∈ cs
  · have : ¬ ('[' ∉ cs ∧ ']' ∉ cs) := fun h => hb.elim h.1 h.2
    simp [he, hp, hm, hb, this]
  · simp [he, hp, hm, not_or.1 hb]

/-! ## Expressions -/

inductive TypeExpr where
  | named (name : String) (optional : Bool)
  | array (element : TypeExpr) (optional : Bool)
  deriving DecidableEq

namespace TypeExpr

/-- Does it carry the marker itself? -/
def optional : TypeExpr → Bool
  | named _ optional => optional
  | array _ optional => optional

/-- The name inside all brackets. -/
def baseName : TypeExpr → String
  | named name _ => name
  | array element _ => element.baseName

def writeMarker (optional : Bool) : List Char := if optional then ['?'] else []

def write : TypeExpr → List Char
  | named name optional => name.toList ++ writeMarker optional
  | array element optional => '[' :: (element.write ++ ']' :: writeMarker optional)

def text (e : TypeExpr) : String := String.ofList e.write

end TypeExpr

/-! ## Reading -/

/-- Why a text is malformed: its innermost layer opens a bracket that it does not close at its
end, or is no name. -/
inductive Malformation where
  | unclosed
  | name (flaw : NameFlaw)
  deriving DecidableEq

def Malformation.message : Malformation → String
  | unclosed => "unbalanced '['"
  | name flaw => flaw.message

/-- Why a text is no type expression. An empty array is reported with the text of its layer. -/
inductive TypeFlaw where
  | emptyArray (layer : String)
  | malformed (reason : Malformation)
  deriving DecidableEq

namespace TypeExpr

/-- The text without a marker at its end, and whether there was one. -/
def splitMarker (cs : List Char) : List Char × Bool :=
  if cs.getLast? = some '?' then (cs.dropLast, true) else (cs, false)

theorem length_splitMarker_le (cs : List Char) : (splitMarker cs).1.length ≤ cs.length := by
  unfold splitMarker
  split <;> simp

def ofChars (cs : List Char) : Except TypeFlaw TypeExpr :=
  let optional := (splitMarker cs).2
  match _h : (splitMarker cs).1 with
  | '[' :: inside =>
    if inside.getLast? = some ']' then
      if inside.dropLast = [] then .error (.emptyArray (.ofList cs))
      else
        match ofChars inside.dropLast with
        | .ok element => .ok (.array element optional)
        | .error flaw => .error flaw
    else .error (.malformed .unclosed)
  | body =>
    match NameFlaw.ofName? body with
    | some flaw => .error (.malformed (.name flaw))
    | none => .ok (.named (.ofList body) optional)
termination_by cs.length
decreasing_by
  have hle := length_splitMarker_le cs
  rw [_h, List.length_cons] at hle
  rw [List.length_dropLast]
  omega

end TypeExpr

end Conformance
