import Conformance.Calendar.Instant
import Conformance.Double.Basic
import Conformance.Entries

/-!
# Values

The values that are checked. An object is plain or an instance of the class that made it; in
both cases it holds its own fields, in the order of their names. Classes and functions are
references: they are equal when they stem from one declaration.

A class is known by the declaration that made it, not by its name: each declaration has a stamp of
its own (`Classes.declare` hands them out). A class descends from itself and from every class that
its parent descends from.

Values are classified by their kind, and more finely by the built-in types; the names of either are
type names.
-/

namespace Conformance

/-! ## Kinds -/

inductive Kind where
  | undefined
  | object
  | boolean
  | number
  | string
  | function
  deriving DecidableEq

namespace Kind

def all : List Kind := [undefined, object, boolean, number, string, function]

def name : Kind → String
  | undefined => "undefined"
  | object => "object"
  | boolean => "boolean"
  | number => "number"
  | string => "string"
  | function => "function"

def ofName? (name : String) : Option Kind := all.find? (·.name == name)

@[simp] theorem ofName?_name (k : Kind) : ofName? k.name = some k := by cases k <;> rfl

theorem name_of_ofName? {name : String} {k : Kind} (h : ofName? name = some k) :
    k.name = name := by
  simpa using List.find?_some h

end Kind

/-! ## Classes -/

/-- A class: first of its line, or declared under a parent. -/
inductive Class where
  | root (stamp : Nat) (name : String)
  | derived (stamp : Nat) (name : String) (parent : Class)
  deriving DecidableEq

namespace Class

/-- The declared name; several classes may share one. -/
def name : Class → String
  | root _ name => name
  | derived _ name _ => name

def parent? : Class → Option Class
  | root _ _ => none
  | derived _ _ parent => some parent

/-- The class and its ancestors, nearest first. -/
def lineage : Class → List Class
  | root stamp name => [root stamp name]
  | derived stamp name parent => derived stamp name parent :: parent.lineage

def descendsFrom (c d : Class) : Bool := d ∈ c.lineage

def label (c : Class) : String := "Class(" ++ c.name ++ ")"

theorem mem_lineage_self (c : Class) : c ∈ c.lineage := by cases c <;> exact List.mem_cons_self

@[simp] theorem descendsFrom_self (c : Class) : c.descendsFrom c := by
  simp [descendsFrom, mem_lineage_self]

end Class

/-- The classes declared so far, latest first. -/
structure Classes where
  declared : List Class
  deriving Inhabited

namespace Classes

def empty : Classes := ⟨[]⟩

/-- Declare a class; its stamp is the number of those before it. -/
def declare (classes : Classes) (name : String) (parent : Option Class) : Class × Classes :=
  let stamp := classes.declared.length
  let c := match parent with
    | none => Class.root stamp name
    | some parent => Class.derived stamp name parent
  (c, ⟨c :: classes.declared⟩)

end Classes

/-! ## Values -/

/-- A reference to a function. Each function has a stamp of its own. -/
structure Function where
  stamp : Nat
  name : Option String
  deriving DecidableEq

def Function.label (f : Function) : String :=
  "Function(" ++ f.name.getD "<anonymous>" ++ ")"

inductive Value where
  | undefined
  | null
  | bool (b : Bool)
  | number (x : Double)
  | string (s : String)
  | array (items : List Value)
  | object (maker : Option Class) (fields : List (String × Value))
  | date (t : Instant)
  | buffer (bytes : List UInt8)
  | function (f : Function)
  deriving Inhabited

/-- A function together with what it computes. -/
structure Callable extends Function where
  call : List Value → Value

namespace Value

def kind : Value → Kind
  | undefined => .undefined
  | bool _ => .boolean
  | number _ => .number
  | string _ => .string
  | function _ => .function
  | null | array _ | object _ _ | date _ | buffer _ => .object

def isUndefined : Value → Bool
  | undefined => true
  | _ => false

def isNull : Value → Bool
  | null => true
  | _ => false

def number? : Value → Option Double
  | number x => some x
  | _ => none

def string? : Value → Option String
  | string s => some s
  | _ => none

def items? : Value → Option (List Value)
  | array items => some items
  | _ => none

/-- The own fields, if it is an object of either sort. -/
def fields? : Value → Option (List (String × Value))
  | object _ fields => some fields
  | _ => none

def field? (v : Value) (name : String) : Option Value := v.fields?.bind (·.lookup name)

/-- The field of that name, if it is there and holds more than `undefined`. -/
def present? (v : Value) (name : String) : Option Value :=
  (v.field? name).filter (!·.isUndefined)

def class? : Value → Option Class
  | object maker _ => maker
  | _ => none

/-- Was it made by the class or by a descendant of it? -/
def isInstanceOf (v : Value) (c : Class) : Bool := v.class?.any (·.descendsFrom c)

/-- The plain object that the entries build, from left to right. -/
def ofFields (entries : List (String × Value)) : Value := object none (Entries.ofList entries)

def ofOption : Option Value → Value := (·.getD undefined)

/-! ### Equality

Structural: numbers are compared as numbers, dates as instants, classes and functions as
references. -/

mutual

def eq : Value → Value → Bool
  | undefined, undefined => true
  | null, null => true
  | bool a, bool b => a == b
  | number x, number y => x.eq y
  | string s, string t => s == t
  | array xs, array ys => eqItems xs ys
  | object c xs, object d ys => decide (c = d) && eqFields xs ys
  | date s, date t => decide (s = t)
  | buffer xs, buffer ys => xs == ys
  | function f, function g => decide (f = g)
  | _, _ => false

def eqItems : List Value → List Value → Bool
  | [], [] => true
  | x :: xs, y :: ys => eq x y && eqItems xs ys
  | _, _ => false

def eqFields : List (String × Value) → List (String × Value) → Bool
  | [], [] => true
  | (k, x) :: xs, (l, y) :: ys => k == l && eq x y && eqFields xs ys
  | _, _ => false

end

end Value

/-! ## Built-in types -/

inductive Builtin where
  | posInt
  | int
  | date
  | array
  | null
  | object
  | buffer
  deriving DecidableEq

namespace Builtin

def all : List Builtin := [posInt, int, date, array, null, object, buffer]

def name : Builtin → String
  | posInt => "posInt"
  | int => "int"
  | date => "date"
  | array => "array"
  | null => "null"
  | object => "object"
  | buffer => "buffer"

def ofName? (name : String) : Option Builtin := all.find? (·.name == name)

/-- Does the value belong to the type? Every value of the kind `object` belongs to `object`, and
zero of either sign is a `posInt`. -/
def accepts : Builtin → Value → Bool
  | posInt, .number x => x.isIntegral && x.isNonnegative
  | int, .number x => x.isIntegral
  | date, .date _ => true
  | array, .array _ => true
  | null, .null => true
  | object, v => v.kind == .object
  | buffer, .buffer _ => true
  | _, _ => false

@[simp] theorem ofName?_name (b : Builtin) : ofName? b.name = some b := by cases b <;> rfl

theorem name_of_ofName? {name : String} {b : Builtin} (h : ofName? name = some b) :
    b.name = name := by
  simpa using List.find?_some h

end Builtin

end Conformance
