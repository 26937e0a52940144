import Conformance.Json.Basic
import Conformance.Value.Basic

/-!
# Values as JSON and in messages

`undefined` and functions have no JSON form: an object leaves such a field out, an array holds
`null` in its place. Numbers that are not finite become `null`, and whole numbers that a double
tells apart from their neighbours become integers. Dates are timestamps, and instances the objects
of their fields.

The text that stands for a value in a message is indented JSON, `undefined` for what has no JSON
form, and a placeholder for a value that is nested too deep to be shown. Empty containers have no
depth; a field or an item counts whether it is shown or not.
-/

namespace Conformance

attribute [local instance (high)] instPowNat

/-- Up to this size every whole number is a double of its own. -/
def maxSafeInteger : Nat := 2 ^ (53 : Nat) - 1

def Double.toJson (x : Double) : Json :=
  if !x.isFinite then .null
  else match x.toInt? with
    | some n => if x.isIntegral && n.natAbs ≤ maxSafeInteger then .int n else .double x
    | none => .double x

namespace Value

def bytesJson (bytes : List UInt8) : Json := .array (bytes.map fun b => .int b.toNat)

def bufferJson (bytes : List UInt8) : Json :=
  .object [("data", bytesJson bytes), ("type", .string "Buffer")]

/-- A buffer as it is streamed: what it is comes before what it holds. -/
def bufferStream (bytes : List UInt8) : Json :=
  .object [("type", .string "Buffer"), ("data", bytesJson bytes)]

mutual

/-- The JSON form of a value, given that of buffers. -/
def jsonWith (buffer : List UInt8 → Json) : Value → Option Json
  | undefined => none
  | function _ => none
  | null => some .null
  | bool b => some (.bool b)
  | number x => some x.toJson
  | string s => some (.string s)
  | date t => some (.string t.text)
  | Value.buffer bytes => some (buffer bytes)
  | array items => some (.array (itemsWith buffer items))
  | object _ fields => some (.object (fieldsWith buffer fields))

def itemsWith (buffer : List UInt8 → Json) : List Value → List Json
  | [] => []
  | x :: xs => (jsonWith buffer x).getD .null :: itemsWith buffer xs

def fieldsWith (buffer : List UInt8 → Json) : List (String × Value) → List (String × Json)
  | [] => []
  | (name, x) :: rest =>
    match jsonWith buffer x with
    | some j => (name, j) :: fieldsWith buffer rest
    | none => fieldsWith buffer rest

end

def toJson : Value → Option Json := jsonWith bufferJson

/-- The value as a stream of JSON text; what has no form of its own is `null`. -/
def serialized (v : Value) : String := ((v.jsonWith bufferStream).getD .null).compact

mutual

/-- The value that JSON describes. Integers are rounded to the nearest double. -/
def ofJson : Json → Value
  | .null => null
  | .bool b => bool b
  | .int n => number (.ofInt n)
  | .double x => number x
  | .string s => string s
  | .array items => array (ofJsonItems items)
  | .object entries => object none (ofJsonEntries entries)

def ofJsonItems : List Json → List Value
  | [] => []
  | j :: js => ofJson j :: ofJsonItems js

def ofJsonEntries : List (String × Json) → List (String × Value)
  | [] => []
  | (name, j) :: rest => (name, ofJson j) :: ofJsonEntries rest

end

/-! ## Messages -/

def placeholder : String := "object"

def maxShownDepth : Nat := 128

mutual

/-- Is the value nested deeper than `budget`? Nothing below that depth is looked at. -/
def exceedsDepth : Value → Nat → Bool
  | array items, budget => itemsExceed items budget
  | object _ fields, budget => fieldsExceed fields budget
  | _, _ => false

def itemsExceed : List Value → Nat → Bool
  | [], _ => false
  | _ :: _, 0 => true
  | x :: xs, budget + 1 => exceedsDepth x budget || itemsExceed xs (budget + 1)

def fieldsExceed : List (String × Value) → Nat → Bool
  | [], _ => false
  | _ :: _, 0 => true
  | (_, x) :: rest, budget + 1 => exceedsDepth x budget || fieldsExceed rest (budget + 1)

end

def pretty (v : Value) : String :=
  if v.exceedsDepth maxShownDepth then placeholder
  else match v.toJson with
    | some j => j.pretty
    | none => "undefined"

end Value

end Conformance
