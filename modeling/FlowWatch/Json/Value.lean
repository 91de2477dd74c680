/-
JSON values and their text.

Members of an object keep their order. A number is either an integer of 64 bits, signed or
unsigned, or some other numeral, whose value nothing in this library needs. Text is written in two
layouts: compact, without blanks, and indented by two spaces per level.
-/
import FlowWatch.Text.Decimal

set_option autoImplicit false

namespace FlowWatch

open Text

/-- A JSON number. -/
inductive JsonNumber where
  | integer (n : Int)
  | other
  deriving DecidableEq, Repr

/-- A JSON value. -/
inductive Json where
  | null
  | bool (b : Bool)
  | number (n : JsonNumber)
  | text (s : String)
  | array (items : List Json)
  | object (members : List (String × Json))
  deriving Inhabited, Repr

namespace Json

/-- An integer value. -/
def integer (n : Int) : Json := .number (.integer n)

/-- The value of a natural number. -/
def natural (n : Nat) : Json := integer n

/-! ## Writing -/

/-- One character inside a JSON string. -/
def escapedChar (c : Char) : List Char :=
  if c == '"' then ['\\', '"']
  else if c == '\\' then ['\\', '\\']
  else if c == '\n' then ['\\', 'n']
  else if c == '\r' then ['\\', 'r']
  else if c == '\t' then ['\\', 't']
  else if c.toNat == 8 then ['\\', 'b']
  else if c.toNat == 12 then ['\\', 'f']
  else if c.toNat < 0x20 then
    ['\\', 'u', '0', '0', digitChar (c.toNat / 16), digitChar (c.toNat % 16)]
  else [c]

/-- A JSON string. -/
def stringText (s : String) : List Char := '"' :: s.toList.flatMap escapedChar ++ ['"']

/-- A number; the numerals without an integer value are all written as null. -/
def numberText : JsonNumber → List Char
  | .integer n => signedDecimal n
  | .other => "null".toList

mutual

/-- The compact text of a value. -/
def compact : Json → List Char
  | .null => "null".toList
  | .bool b => (if b then "true" else "false").toList
  | .number n => numberText n
  | .text s => stringText s
  | .array items => '[' :: compactItems items ++ [']']
  | .object members => '\x7b' :: compactMembers members ++ ['\x7d']

/-- Items with commas between them. -/
def compactItems : List Json → List Char
  | [] => []
  | [v] => v.compact
  | v :: vs => v.compact ++ ',' :: compactItems vs

/-- Members with commas between them. -/
def compactMembers : List (String × Json) → List Char
  | [] => []
  | [(k, v)] => stringText k ++ ':' :: v.compact
  | (k, v) :: ms => stringText k ++ ':' :: v.compact ++ ',' :: compactMembers ms

end

/-- A line end and the indentation of a level. -/
def newLine (level : Nat) : List Char := '\n' :: List.replicate (2 * level) ' '

mutual

/-- The indented text of a value that starts on a line of the given level. -/
def indented (level : Nat) : Json → List Char
  | .null => "null".toList
  | .bool b => (if b then "true" else "false").toList
  | .number n => numberText n
  | .text s => stringText s
  | .array [] => ['[', ']']
  | .array (v :: vs) =>
    '[' :: newLine (level + 1) ++ indentedItems (level + 1) (v :: vs) ++ newLine level ++ [']']
  | .object [] => ['\x7b', '\x7d']
  | .object (m :: ms) =>
    '\x7b' :: newLine (level + 1) ++ indentedMembers (level + 1) (m :: ms) ++ newLine level ++
      ['\x7d']

/-- Items on lines of their own. -/
def indentedItems (level : Nat) : List Json → List Char
  | [] => []
  | [v] => v.indented level
  | v :: vs => v.indented level ++ ',' :: newLine level ++ indentedItems level vs

/-- Members on lines of their own. -/
def indentedMembers (level : Nat) : List (String × Json) → List Char
  | [] => []
  | [(k, v)] => stringText k ++ ':' :: ' ' :: v.indented level
  | (k, v) :: ms =>
    stringText k ++ ':' :: ' ' :: v.indented level ++ ',' :: newLine level ++
      indentedMembers level ms

end

/-- A layout of JSON text. -/
inductive Layout where
  | compact
  | indented
  deriving DecidableEq, Repr

/-- The text of a value. -/
def render (layout : Layout) (v : Json) : String :=
  String.ofList (match layout with
    | .compact => v.compact
    | .indented => v.indented 0)

end Json

end FlowWatch
