import SeriesExec.Text.Hidden

/-!
# Quoted text — texts inside a description

Where a description of a task shows a text, it stands between quotation marks, and characters that
would not be seen are escaped.  This file defines `quoted`, the text with marks and escapes, and
`escape`, how one character is written.
-/

namespace SeriesExec
namespace Text

/-- A character by its number, in hexadecimal digits between braces. -/
def byNumber (c : Char) : List Char :=
  ['\\', 'u', '\x7b'] ++ Nat.toDigits 16 c.toNat ++ ['\x7d']

/-- How a character stands in a quoted text. -/
def escape (c : Char) : List Char :=
  if c = '\x00' then ['\\', '0']
  else if c = '\t' then ['\\', 't']
  else if c = '\r' then ['\\', 'r']
  else if c = '\n' then ['\\', 'n']
  else if c = '"' then ['\\', '"']
  else if c = '\\' then ['\\', '\\']
  else if c.toNat < 0x20 || c.toNat = 0x7F || isHidden c then byNumber c
  else [c]

/-- The text between quotation marks. -/
def quoted (s : String) : String :=
  String.ofList ('"' :: s.toList.flatMap escape ++ ['"'])

end Text
end SeriesExec
