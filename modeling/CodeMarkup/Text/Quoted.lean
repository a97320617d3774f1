import CodeMarkup.Text.Visible

/-!
# Quoted text

Messages show a text they complain about between quotation marks, in a form a reader can tell apart
from every other text: the quotation mark, the backslash and the common controls have two-character
escapes, and whatever cannot be seen standing alone is written by its code point. An apostrophe needs
no escape between quotation marks.
-/

namespace CodeMarkup.Text

/-- One character inside quotation marks. -/
def quotedChar (c : Char) : List Char :=
  if c = '\x00' then ['\\', '0']
  else if c = '\t' then ['\\', 't']
  else if c = '\r' then ['\\', 'r']
  else if c = '\n' then ['\\', 'n']
  else if c = '\\' then ['\\', '\\']
  else if c = '"' then ['\\', '"']
  else if isVisible c then [c]
  else ['\\', 'u', '{'] ++ Nat.toDigits 16 c.toNat ++ ['}']

/-- A text between quotation marks, each character escaped where a reader could mistake it. -/
def quoted (text : List Char) : List Char :=
  '"' :: text.flatMap quotedChar ++ ['"']

/-- `quoted` on strings. -/
def quote (text : String) : String :=
  String.ofList (quoted text.toList)

example : quote "two" = "\"two\"" := by decide +kernel
example : quote "a\tb" = "\"a\\tb\"" := by decide +kernel

end CodeMarkup.Text
