/-
Quoting a text for a message.

A quoted text stands between double quotes on one line. The quote, the backslash and the usual
control characters have short escapes; every other character that cannot be shown is written by
its code point, in hexadecimal between braces.
-/
import FlowWatch.Text.Decimal
import FlowWatch.Text.Unprintable

set_option autoImplicit false

namespace FlowWatch.Text

/-- The escape of a character by its code point. -/
def codePointEscape (c : Char) : List Char :=
  '\\' :: 'u' :: '\x7b' :: hexadecimal c.toNat ++ ['\x7d']

/-- One character inside quotes. -/
def quotedChar (c : Char) : List Char :=
  if c == '"' then ['\\', '"']
  else if c == '\\' then ['\\', '\\']
  else if c == '\n' then ['\\', 'n']
  else if c == '\r' then ['\\', 'r']
  else if c == '\t' then ['\\', 't']
  else if c.toNat == 0 then ['\\', '0']
  else if c.toNat < 0x20 || c.toNat == 0x7F then codePointEscape c
  else if c.toNat < 0x7F then [c]
  else if isUnprintable c then codePointEscape c
  else [c]

/-- The text between double quotes, with escapes. -/
def quoted (s : String) : String :=
  String.ofList ('"' :: s.toList.flatMap quotedChar ++ ['"'])

/-- A list of texts in brackets, each one quoted. -/
def quotedList (names : List String) : String :=
  "[" ++ ", ".intercalate (names.map quoted) ++ "]"

end FlowWatch.Text
