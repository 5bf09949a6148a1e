import Rollbook.Text.Hidden

/-!
# Rollbook — quoted text

Text between double quotes, as error messages show it: a quote, a backslash and the four named
control characters are written with a backslash, every other hidden character by its code point,
and all else stands for itself. An apostrophe needs no escape.
-/

namespace Rollbook.Text

/-- A code point in braces, in lower-case hexadecimal without leading zeros. -/
def codePoint (c : Char) : List Char :=
  '\\' :: 'u' :: '\x7b' :: (Nat.toDigits 16 c.toNat ++ ['\x7d'])

/-- One character as it stands between the quotes. -/
def escapeChar (c : Char) : List Char :=
  if c = '\x00' then ['\\', '0']
  else if c = '\t' then ['\\', 't']
  else if c = '\r' then ['\\', 'r']
  else if c = '\n' then ['\\', 'n']
  else if c = '\x22' ∨ c = '\\' then ['\\', c]
  else if isHidden c then codePoint c
  else [c]

/-- The text between double quotes, with its special characters escaped. -/
def quote (s : String) : String :=
  String.ofList ('\x22' :: (s.toList.flatMap escapeChar ++ ['\x22']))

end Rollbook.Text
