import Conformance.Double.Decimal
import Conformance.Entries

/-!
# JSON values and their text

A number is an integer or a double, as it was written or built: `1` and `1.0` are two values. The
entries of an object are in the order of their keys (`Json.Normal`).

One writer serves the compact and the indented layout. It takes the text that is to follow, so
that writing is linear in the length of the result.
-/

namespace Conformance

inductive Json where
  | null
  | bool (b : Bool)
  | int (n : Int)
  | double (x : Double)
  | string (s : String)
  | array (items : List Json)
  | object (entries : List (String × Json))
  deriving Inhabited

namespace Json

mutual

/-- Every object inside has its keys in order. -/
def Normal : Json → Prop
  | object entries => Ordered entries ∧ NormalEntries entries
  | array items => NormalItems items
  | _ => True

def NormalItems : List Json → Prop
  | [] => True
  | x :: xs => x.Normal ∧ NormalItems xs

def NormalEntries : List (String × Json) → Prop
  | [] => True
  | (_, x) :: rest => x.Normal ∧ NormalEntries rest

end

end Json

/-! ## Writing -/

/-- Where a decimal numeral is written out: the least and the greatest power of ten of its first
digit. All others take an exponent. -/
structure NumeralLayout where
  least : Int
  greatest : Int

/-- Written out from `0.00001` up to below `10 ^ 16`. -/
def NumeralLayout.json : NumeralLayout := ⟨-5, 15⟩

def zeros (n : Nat) : List Char := List.replicate n '0'

def writeInt (n : Int) : List Char :=
  let digits := Nat.toDigits 10 n.natAbs
  if n < 0 then '-' :: digits else digits

/-- A numeral written out, with a point in any case. -/
def Decimal.writeOut (d : Decimal) : List Char :=
  let digits := Nat.toDigits 10 d.digits
  let whole := d.leading + 1
  if 0 ≤ d.exponent then digits ++ zeros d.exponent.toNat ++ ['.', '0']
  else if 0 < whole then digits.take whole.toNat ++ '.' :: digits.drop whole.toNat
  else '0' :: '.' :: (zeros (-whole).toNat ++ digits)

/-- A numeral as one digit, the others behind a point, and a signed exponent. -/
def Decimal.writeScientific (d : Decimal) : List Char :=
  let digits := Nat.toDigits 10 d.digits
  let tail := digits.drop 1
  let fraction := if tail.isEmpty then [] else '.' :: tail
  let sign := if 0 ≤ d.leading then '+' else '-'
  digits.take 1 ++ fraction ++ 'e' :: sign :: Nat.toDigits 10 d.leading.natAbs

def NumeralLayout.write (l : NumeralLayout) (d : Decimal) : List Char :=
  if l.least ≤ d.leading ∧ d.leading ≤ l.greatest then d.writeOut else d.writeScientific

/-- A double, with the fewest digits that read back. JSON has no text for one that is not finite;
`null` stands in for it. -/
def Double.write : Double → List Char
  | finite negative x =>
    let sign := if negative then ['-'] else []
    let text := if x.units = 0 then ['0', '.', '0'] else NumeralLayout.json.write x.shortest
    sign ++ text
  | _ => ['n', 'u', 'l', 'l']

namespace Json

def escape (c : Char) : List Char :=
  if c = '"' then ['\\', '"']
  else if c = '\\' then ['\\', '\\']
  else if c = '\x08' then ['\\', 'b']
  else if c = '\t' then ['\\', 't']
  else if c = '\n' then ['\\', 'n']
  else if c = '\x0c' then ['\\', 'f']
  else if c = '\r' then ['\\', 'r']
  else if c.toNat < 0x20 then
    ['\\', 'u', '0', '0', Nat.digitChar (c.toNat / 16), Nat.digitChar (c.toNat % 16)]
  else [c]

def writeString (s : String) (rest : List Char) : List Char :=
  '"' :: (s.toList.flatMap escape ++ '"' :: rest)

/-- What stands between the tokens: `gap` before an item at the given depth, `colon` after a key. -/
structure Layout where
  gap : Nat → List Char
  colon : List Char

def Layout.compact : Layout := ⟨fun _ => [], [':']⟩

/-- Each item on a line of its own, two spaces further in than its container. -/
def Layout.indented : Layout := ⟨fun depth => '\n' :: List.replicate (2 * depth) ' ', [':', ' ']⟩

mutual

/-- The text of a value at the given depth, followed by `rest`. Of a container the parts after the
first stand behind a comma each. -/
def write (l : Layout) (depth : Nat) : Json → List Char → List Char
  | null, rest => 'n' :: 'u' :: 'l' :: 'l' :: rest
  | bool true, rest => 't' :: 'r' :: 'u' :: 'e' :: rest
  | bool false, rest => 'f' :: 'a' :: 'l' :: 's' :: 'e' :: rest
  | int n, rest => writeInt n ++ rest
  | double x, rest => x.write ++ rest
  | string s, rest => writeString s rest
  | array [], rest => '[' :: ']' :: rest
  | array (x :: xs), rest =>
    '[' :: (l.gap (depth + 1) ++ write l (depth + 1) x
      (writeItems l (depth + 1) xs (l.gap depth ++ ']' :: rest)))
  | object [], rest => '{' :: '}' :: rest
  | object ((key, x) :: entries), rest =>
    '{' :: (l.gap (depth + 1) ++ writeString key (l.colon ++ write l (depth + 1) x
      (writeEntries l (depth + 1) entries (l.gap depth ++ '}' :: rest))))

def writeItems (l : Layout) (depth : Nat) : List Json → List Char → List Char
  | [], rest => rest
  | x :: xs, rest => ',' :: (l.gap depth ++ write l depth x (writeItems l depth xs rest))

def writeEntries (l : Layout) (depth : Nat) : List (String × Json) → List Char → List Char
  | [], rest => rest
  | (key, x) :: entries, rest =>
    ',' :: (l.gap depth ++ writeString key (l.colon ++ write l depth x
      (writeEntries l depth entries rest)))

end

def compact (j : Json) : String := String.ofList (j.write .compact 0 [])

def pretty (j : Json) : String := String.ofList (j.write .indented 0 [])

end Json

end Conformance
