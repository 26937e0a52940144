import Conformance.Json.Basic
import Conformance.Text

/-!
# Reading JSON text

Reading fails at the first character that cannot stand where it stands (`malformed`), or at an end
of the text that comes too early (`truncated`). A literal without fraction and exponent is an
integer if it fits 64 bits, signed or unsigned, and is not `-0`; any other number is the nearest
double, and one past the greatest double is malformed. The last of several entries with one key
counts.

There is no limit on how many containers may be open: the reader is the printer's inverse at every
depth, and `Value.pretty_shown` rests on that. A reader that gives up at some number of open
containers would read back only what stays below it.
-/

namespace Conformance.Json

attribute [local instance (high)] instPowNat

inductive ReadError where
  | malformed
  | truncated
  deriving DecidableEq, Repr

def isBlank (c : Char) : Bool := c == ' ' || c == '\n' || c == '\t' || c == '\r'

def skipBlanks (cs : List Char) : List Char := cs.dropWhile isBlank

/-- The error at a place where no text was expected or another character was. -/
def unexpected {α : Type} : List Char → Except ReadError α
  | [] => .error .truncated
  | _ :: _ => .error .malformed

def expect : List Char → List Char → Except ReadError (List Char)
  | [], rest => .ok rest
  | c :: word, d :: rest => if c = d then expect word rest else .error .malformed
  | _ :: _, [] => .error .truncated

/-! ## Strings -/

def hexDigit? (c : Char) : Option Nat :=
  if '0' ≤ c ∧ c ≤ '9' then some (c.toNat - 48)
  else if 'a' ≤ c ∧ c ≤ 'f' then some (c.toNat - 87)
  else if 'A' ≤ c ∧ c ≤ 'F' then some (c.toNat - 55)
  else none

/-- Four hexadecimal digits. The text is truncated if fewer than four bytes are left. -/
def readHex : List Char → Except ReadError (Nat × List Char)
  | a :: b :: c :: d :: rest =>
    match hexDigit? a, hexDigit? b, hexDigit? c, hexDigit? d with
    | some a, some b, some c, some d => .ok (((a * 16 + b) * 16 + c) * 16 + d, rest)
    | _, _, _, _ => .error .malformed
  | cs => if Text.byteLength cs < 4 then .error .truncated else .error .malformed

/-- The character named by the digits after `\u`: one unit, or a pair of surrogates. -/
def readUnit (cs : List Char) : Except ReadError (Char × List Char) := do
  let (n, rest) ← readHex cs
  if 0xDC00 ≤ n ∧ n ≤ 0xDFFF then .error .malformed
  else if 0xD800 ≤ n ∧ n ≤ 0xDBFF then do
    let rest ← expect ['\\', 'u'] rest
    let (m, rest) ← readHex rest
    if 0xDC00 ≤ m ∧ m ≤ 0xDFFF then
      .ok (.ofNat (0x10000 + (n - 0xD800) * 0x400 + (m - 0xDC00)), rest)
    else .error .malformed
  else .ok (.ofNat n, rest)

/-- The character that an escape stands for, from behind the backslash. -/
def readEscape : List Char → Except ReadError (Char × List Char)
  | '"' :: rest => .ok ('"', rest)
  | '\\' :: rest => .ok ('\\', rest)
  | '/' :: rest => .ok ('/', rest)
  | 'b' :: rest => .ok ('\x08', rest)
  | 'f' :: rest => .ok ('\x0c', rest)
  | 'n' :: rest => .ok ('\n', rest)
  | 'r' :: rest => .ok ('\r', rest)
  | 't' :: rest => .ok ('\t', rest)
  | 'u' :: rest => readUnit rest
  | cs => unexpected cs

/-- The rest of a string after its opening quote, in at most `fuel` characters; `done` holds what
was read, last character first. -/
def readStringFrom : Nat → List Char → List Char → Except ReadError (String × List Char)
  | 0, _, _ => .error .truncated
  | _ + 1, _, [] => .error .truncated
  | _ + 1, done, '"' :: rest => .ok (.ofList done.reverse, rest)
  | fuel + 1, done, '\\' :: rest => do
    let (c, rest) ← readEscape rest
    readStringFrom fuel (c :: done) rest
  | fuel + 1, done, c :: rest =>
    if c.toNat < 0x20 then .error .malformed else readStringFrom fuel (c :: done) rest

def readString (cs : List Char) : Except ReadError (String × List Char) :=
  readStringFrom (cs.length + 1) [] cs

/-! ## Numbers -/

def digitsValue (cs : List Char) : Nat := Nat.ofDigitChars 10 cs 0

@[simp] theorem digitsValue_toDigits (n : Nat) : digitsValue (Nat.toDigits 10 n) = n :=
  Nat.ofDigitChars_toDigits (by decide) (by decide)

def readDigits (cs : List Char) : Except ReadError (List Char × List Char) :=
  match cs.span Char.isDigit with
  | ([], rest) => unexpected rest
  | (digits, rest) => .ok (digits, rest)

/-- The digits before the point; only zero itself begins with a zero. -/
def readWhole : List Char → Except ReadError (List Char × List Char)
  | '0' :: c :: rest => if c.isDigit then .error .malformed else .ok (['0'], c :: rest)
  | cs => readDigits cs

def readFraction : List Char → Except ReadError (Option (List Char) × List Char)
  | '.' :: rest => do
    let (digits, rest) ← readDigits rest
    .ok (some digits, rest)
  | cs => .ok (none, cs)

def readExponent : List Char → Except ReadError (Option Int × List Char)
  | c :: rest =>
    if c = 'e' ∨ c = 'E' then do
      let (negative, rest) := match rest with
        | '-' :: rest => (true, rest)
        | '+' :: rest => (false, rest)
        | rest => (false, rest)
      let (digits, rest) ← readDigits rest
      let n : Int := digitsValue digits
      .ok (some (if negative then -n else n), rest)
    else .ok (none, c :: rest)
  | [] => .ok (none, [])

/-- An integer literal: the integer if it fits 64 bits, else the nearest double. -/
def ofLiteral (negative : Bool) (n : Nat) : Json :=
  if negative then
    if n ≠ 0 ∧ n ≤ 2 ^ (63 : Nat) then .int (-n) else .double (.ofDecimal true ⟨n, 0⟩)
  else if n < 2 ^ (64 : Nat) then .int n else .double (.ofDecimal false ⟨n, 0⟩)

def finiteOnly : Json → Except ReadError Json
  | .double (.infinite _) => .error .malformed
  | j => .ok j

def readNumber (cs : List Char) : Except ReadError (Json × List Char) := do
  let (negative, cs) := match cs with
    | '-' :: rest => (true, rest)
    | cs => (false, cs)
  let (whole, cs) ← readWhole cs
  let (fraction, cs) ← readFraction cs
  let (exponent, cs) ← readExponent cs
  let number := match fraction, exponent with
    | none, none => ofLiteral negative (digitsValue whole)
    | _, _ =>
      let behind := fraction.getD []
      let scale : Int := exponent.getD 0 - behind.length
      .double (.ofDecimal negative ⟨digitsValue (whole ++ behind), scale⟩)
  let number ← finiteOnly number
  .ok (number, cs)

/-! ## Values -/

def readKey (cs : List Char) : Except ReadError (String × List Char) :=
  match skipBlanks cs with
  | '"' :: rest => do
    let (key, rest) ← readString rest
    let rest ← expect [':'] (skipBlanks rest)
    .ok (key, rest)
  | cs => unexpected cs

mutual

/-- A value, read in at most `fuel` steps. -/
def readValue : Nat → List Char → Except ReadError (Json × List Char)
  | 0, _ => .error .truncated
  | fuel + 1, cs =>
    match skipBlanks cs with
    | 'n' :: rest => do .ok (null, ← expect ['u', 'l', 'l'] rest)
    | 't' :: rest => do .ok (bool true, ← expect ['r', 'u', 'e'] rest)
    | 'f' :: rest => do .ok (bool false, ← expect ['a', 'l', 's', 'e'] rest)
    | '"' :: rest => do
      let (s, rest) ← readString rest
      .ok (string s, rest)
    | '[' :: rest =>
      match skipBlanks rest with
      | ']' :: rest => .ok (array [], rest)
      | rest => do
        let (items, rest) ← readItems fuel rest
        .ok (array items, rest)
    | '{' :: rest =>
      match skipBlanks rest with
      | '}' :: rest => .ok (object [], rest)
      | rest => do
        let (entries, rest) ← readEntries fuel rest
        .ok (object (Entries.ofList entries), rest)
    | cs => readNumber cs

def readItems : Nat → List Char → Except ReadError (List Json × List Char)
  | 0, _ => .error .truncated
  | fuel + 1, cs => do
    let (x, rest) ← readValue fuel cs
    match skipBlanks rest with
    | ',' :: rest => do
      let (xs, rest) ← readItems fuel rest
      .ok (x :: xs, rest)
    | ']' :: rest => .ok ([x], rest)
    | rest => unexpected rest

def readEntries : Nat → List Char → Except ReadError (List (String × Json) × List Char)
  | 0, _ => .error .truncated
  | fuel + 1, cs => do
    let (key, rest) ← readKey cs
    let (x, rest) ← readValue fuel rest
    match skipBlanks rest with
    | ',' :: rest => do
      let (entries, rest) ← readEntries fuel rest
      .ok ((key, x) :: entries, rest)
    | '}' :: rest => .ok ([(key, x)], rest)
    | rest => unexpected rest

end

def expectEnd (cs : List Char) : Except ReadError Unit :=
  if (skipBlanks cs).isEmpty then .ok () else .error .malformed

/-- The value of a text. Each step of reading passes a character or a container that opened on
one, so the fuel is enough. -/
def read (text : String) : Except ReadError Json := do
  let cs := text.toList
  let (j, rest) ← readValue (2 * cs.length + 2) cs
  expectEnd rest
  .ok j

end Conformance.Json
