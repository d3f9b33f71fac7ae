import Stencil.Text.Hidden
import Stencil.Text

/-! Quoted texts and characters, in which every character is visible. -/
namespace Stencil.Text

/-- A code point by its number: `\u`, then lower-case hex digits in braces. -/
def codePointEscape (c : Char) : Text := ['\\', 'u', '{'] ++ ofHex c.toNat ++ ['}']

/-- A character inside quotes: the quote, the backslash and what cannot be seen are escaped. -/
def escapeIn (quote c : Char) : Text :=
  if c = '\x00' then ['\\', '0']
  else if c = '\t' then ['\\', 't']
  else if c = '\r' then ['\\', 'r']
  else if c = '\n' then ['\\', 'n']
  else if c = quote ∨ c = '\\' then ['\\', c]
  else if isHidden c then codePointEscape c
  else [c]

def quoted (s : Text) : Text := '"' :: s.flatMap (escapeIn '"') ++ ['"']

def quotedChar (c : Char) : Text := '\'' :: escapeIn '\'' c ++ ['\'']

/-- The body of a character literal in printable ASCII. -/
def charLiteralBody (c : Char) : Text :=
  if c = '\t' then ['\\', 't']
  else if c = '\r' then ['\\', 'r']
  else if c = '\n' then ['\\', 'n']
  else if c = '\'' ∨ c = '"' ∨ c = '\\' then ['\\', c]
  else if 0x20 ≤ c.toNat ∧ c.toNat ≤ 0x7e then [c]
  else codePointEscape c

end Stencil.Text
