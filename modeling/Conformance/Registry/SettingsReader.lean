import Conformance.Json.Reader
import Conformance.Registry.Basic

/-!
# Reading settings

Settings are read from JSON text: an object with some of the settings by their keys, or an array
with the first of them in order; those that are not given keep their default. The text is read from
left to right, and the first problem decides: text that is not JSON, an early end, or a value that
no setting can have.
-/

namespace Conformance

inductive SettingsError where
  | malformed
  | truncated
  | unsuitable
  deriving DecidableEq

namespace SettingsError

def ofReadError : Json.ReadError → SettingsError
  | .malformed => malformed
  | .truncated => truncated

/-- A step of reading JSON as a step of reading settings. -/
def reading {α : Type} : Except Json.ReadError α → Except SettingsError α
  | .ok x => .ok x
  | .error e => .error (ofReadError e)

end SettingsError

inductive Setting where
  | allowOverwrite
  | maxDepth
  | maxNesting
  deriving DecidableEq

namespace Setting

open Json SettingsError

/-- All settings, in the order in which an array gives them. -/
def all : List Setting := [allowOverwrite, maxDepth, maxNesting]

def key : Setting → String
  | allowOverwrite => "allow_overwrite"
  | maxDepth => "max_depth"
  | maxNesting => "max_nesting"

def ofKey? (key : String) : Option Setting := all.find? (·.key == key)

/-- A value of a sort that the setting does not have: it is read as far as it is one token. -/
def readOther {α : Type} : List Char → Except SettingsError α
  | [] => .error .truncated
  | 'n' :: rest => do
    let _ ← reading (expect ['u', 'l', 'l'] rest)
    .error .unsuitable
  | 't' :: rest => do
    let _ ← reading (expect ['r', 'u', 'e'] rest)
    .error .unsuitable
  | 'f' :: rest => do
    let _ ← reading (expect ['a', 'l', 's', 'e'] rest)
    .error .unsuitable
  | '"' :: rest => do
    let _ ← reading (readString rest)
    .error .unsuitable
  | '[' :: _ | '{' :: _ => .error .unsuitable
  | cs => do
    let _ ← reading (readNumber cs)
    .error .unsuitable

def readBool : List Char → Except SettingsError (Bool × List Char)
  | 't' :: rest => do
    let rest ← reading (expect ['r', 'u', 'e'] rest)
    .ok (true, rest)
  | 'f' :: rest => do
    let rest ← reading (expect ['a', 'l', 's', 'e'] rest)
    .ok (false, rest)
  | cs => readOther cs

/-- A bound is an integer of 64 bits without a sign. -/
def readBound (cs : List Char) : Except SettingsError (Nat × List Char) :=
  if cs.head?.any fun c => c == '-' || c.isDigit then do
    match ← reading (readNumber cs) with
    | (.int (.ofNat n), rest) => .ok (n, rest)
    | _ => .error .unsuitable
  else readOther cs

/-- The settings with the given one read from the text. -/
def read (s : Setting) (settings : Settings) (cs : List Char) :
    Except SettingsError (Settings × List Char) :=
  let cs := skipBlanks cs
  match s with
  | allowOverwrite => do
    let (b, rest) ← readBool cs
    .ok ({ settings with allowOverwrite := b }, rest)
  | maxDepth => do
    let (n, rest) ← readBound cs
    .ok ({ settings with maxDepth := n }, rest)
  | maxNesting => do
    let (n, rest) ← readBound cs
    .ok ({ settings with maxNesting := n }, rest)

end Setting

namespace Settings

open Json SettingsError

/-- The entry whose key begins here, unless its key is unknown or among `given`. -/
def readEntry (given : List Setting) (settings : Settings) :
    List Char → Except SettingsError (Setting × Settings × List Char)
  | '"' :: rest => do
    let (key, rest) ← reading (readString rest)
    match Setting.ofKey? key with
    | none => .error .unsuitable
    | some s =>
      if s ∈ given then .error .unsuitable
      else
        let rest ← reading (expect [':'] (skipBlanks rest))
        let (settings, rest) ← s.read settings rest
        .ok (s, settings, rest)
  | cs => reading (unexpected cs)

/-- The entries after the first, and the closing brace. No key may come twice, so there are fewer
entries than `fuel` if that is more than the number of settings. -/
def readEntries : Nat → List Setting → Settings → List Char →
    Except SettingsError (Settings × List Char)
  | 0, _, _, _ => .error .unsuitable
  | fuel + 1, given, settings, cs =>
    match skipBlanks cs with
    | '}' :: rest => .ok (settings, rest)
    | ',' :: rest => do
      let (s, settings, rest) ← readEntry given settings (skipBlanks rest)
      readEntries fuel (s :: given) settings rest
    | cs => reading (unexpected cs)

def readObject (cs : List Char) : Except SettingsError (Settings × List Char) :=
  match skipBlanks cs with
  | '}' :: rest => .ok ({}, rest)
  | cs => do
    let (s, settings, rest) ← readEntry [] {} cs
    readEntries (Setting.all.length + 1) [s] settings rest

/-- The items after the first, for the settings that are left, and the closing bracket. -/
def readItems (settings : Settings) :
    List Setting → List Char → Except SettingsError (Settings × List Char)
  | left, cs =>
    match left, skipBlanks cs with
    | _, ']' :: rest => .ok (settings, rest)
    | [], ',' :: _ => .error .malformed
    | s :: left, ',' :: rest =>
      match skipBlanks rest with
      | ']' :: _ => .error .malformed
      | rest => do
        let (settings, rest) ← s.read settings rest
        readItems settings left rest
    | _, cs => reading (unexpected cs)

def readArray (cs : List Char) : Except SettingsError (Settings × List Char) :=
  match skipBlanks cs with
  | ']' :: rest => .ok ({}, rest)
  | cs => do
    let (settings, rest) ← Setting.allowOverwrite.read {} cs
    readItems settings [.maxDepth, .maxNesting] rest

def read (text : String) : Except SettingsError Settings := do
  let (settings, rest) ← match skipBlanks text.toList with
    | '{' :: rest => readObject rest
    | '[' :: rest => readArray rest
    | cs => Setting.readOther cs
  reading (expectEnd rest)
  .ok settings

end Settings

end Conformance
