import NestedFilter.Text.Extending
import NestedFilter.Text.Graphic

/-!
# Quoted text in messages

A text that a message shows stands between double quotes, and every character in it that
a reader could not see or would take for something else is written as an escape. The six
characters with an escape of their own are the double quote, the backslash, the
tabulator, the two line ends and NUL; any other character that is not graphic, or that
extends the one before it, is written by its code point in braces. The two halfwidth sound
marks of Katakana extend the character before them too, but they are letters with a place
of their own in the line, and are shown.
-/

namespace NestedFilter

namespace Text

/-- A character by its code point: `\u` and the hexadecimal digits in braces. -/
def codePointEscape (c : Char) : List Char :=
  "\\u\x7b".toList ++ Nat.toDigits 16 c.toNat ++ ['\x7d']

/-- The character is one of the halfwidth sound marks of Katakana. -/
def isSoundMark (c : Char) : Bool :=
  c == '\uff9e' || c == '\uff9f'

/-- A character as it is written between double quotes. -/
def escape (c : Char) : List Char :=
  if c = '\x22' then ['\\', '\x22']
  else if c = '\\' then ['\\', '\\']
  else if c = '\t' then ['\\', 't']
  else if c = '\n' then ['\\', 'n']
  else if c = '\r' then ['\\', 'r']
  else if c = '\x00' then ['\\', '0']
  else if 0x20 ≤ c.toNat && c.toNat < 0x7F then [c]
  else if extendsGrapheme c && !isSoundMark c || !isGraphic c then codePointEscape c
  else [c]

/-- A text between double quotes, with its escapes. -/
def quoted (s : String) : String :=
  String.ofList ('\x22' :: s.toList.flatMap escape ++ ['\x22'])

end Text

end NestedFilter
