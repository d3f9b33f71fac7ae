import Stencil.Json

/-! JSON texts. One printer serves both styles: all in one place, and one item a line. -/
namespace Stencil.Json

structure Style where
  /-- What starts a line inside as many brackets. -/
  line : Nat → Text
  colon : Text

def compact : Style := ⟨fun _ => [], ":"⟩

/-- Two spaces for each level. -/
def indented : Style := ⟨fun depth => '\n' :: List.replicate (2 * depth) ' ', ": "⟩

def escapeChar (c : Char) : Text :=
  if c = '"' ∨ c = '\\' then ['\\', c]
  else if c = '\x08' then ['\\', 'b']
  else if c = '\t' then ['\\', 't']
  else if c = '\n' then ['\\', 'n']
  else if c = '\x0c' then ['\\', 'f']
  else if c = '\r' then ['\\', 'r']
  else if c.toNat < 0x20 then
    ['\\', 'u', '0', '0', Nat.digitChar (c.toNat / 16), Nat.digitChar (c.toNat % 16)]
  else [c]

def stringText (s : Text) : Text := '"' :: s.flatMap escapeChar ++ ['"']

variable (style : Style)

mutual

def render (depth : Nat) : Json → Text
  | null => "null"
  | boolean true => "true"
  | boolean false => "false"
  | number n => n.text
  | string s => stringText s
  | array [] => "[]"
  | array (x :: xs) =>
    '[' :: style.line (depth + 1) ++ render (depth + 1) x ++ renderItems (depth + 1) xs ++
      style.line depth ++ "]"
  | object [] => ['{', '}']
  | object ((k, v) :: ms) =>
    '{' :: style.line (depth + 1) ++ stringText k ++ style.colon ++ render (depth + 1) v ++
      renderMembers (depth + 1) ms ++ style.line depth ++ ['}']

/-- The items after the first. -/
def renderItems (depth : Nat) : List Json → Text
  | [] => []
  | x :: xs => ',' :: style.line depth ++ render depth x ++ renderItems depth xs

/-- The members after the first. -/
def renderMembers (depth : Nat) : List (Text × Json) → Text
  | [] => []
  | (k, v) :: ms =>
    ',' :: style.line depth ++ stringText k ++ style.colon ++ render depth v ++
      renderMembers depth ms

end

end Stencil.Json
