import Stencil.Text.Quoted
import Stencil.Text.Utf8

/-!
Encoded literals: the UTF-8 bytes of a text, each written as `\x` and two hex digits. The form can
stand in a byte string as it is. In JSON its backslashes are doubled, like those of any string.
-/
namespace Stencil

open Text (Bytes Utf8Fault)

/-- A literal in its encoded form, which is checked only when it is decoded. -/
structure Literal where
  encoded : Text
  deriving DecidableEq

/-- Places are byte positions in the encoded form. -/
inductive LiteralError
  | badEscape (position : Nat)
  | truncated (position : Nat)
  | badHexDigit (digit : UInt8) (position : Nat)
  | utf8 (fault : Utf8Fault)
  deriving DecidableEq

namespace LiteralError

/-- The Latin-1 character of a byte. -/
def latin1 (b : UInt8) : Char := Char.ofNat b.toNat

def message : LiteralError → Text
  | badEscape i => "expected `\\x` escape at byte " ++ Text.ofNat i
  | truncated i => "truncated escape at byte " ++ Text.ofNat i
  | badHexDigit b i =>
    "invalid hex digit " ++ Text.quotedChar (latin1 b) ++ " at byte " ++ Text.ofNat i
  | utf8 fault => "decoded literal is not valid UTF-8: " ++ fault.message

end LiteralError

namespace Literal

def escapeByte (b : UInt8) : Text :=
  ['\\', 'x', Nat.digitChar (b.toNat / 16), Nat.digitChar (b.toNat % 16)]

def encode (s : Text) : Literal := ⟨(Text.encodeUtf8 s).flatMap escapeByte⟩

def hexValue? (b : UInt8) : Option UInt8 :=
  if 0x30 ≤ b ∧ b ≤ 0x39 then some (b - 0x30)
  else if 0x61 ≤ b ∧ b ≤ 0x66 then some (b - 0x61 + 10)
  else if 0x41 ≤ b ∧ b ≤ 0x46 then some (b - 0x41 + 10)
  else none

def hexValue (b : UInt8) (position : Nat) : Except LiteralError UInt8 :=
  match hexValue? b with
  | some v => .ok v
  | none => .error (.badHexDigit b position)

/-- The bytes that escapes stand for, which follow at position `i`; `before` is reversed. -/
def readEscapes (before : Bytes) (i : Nat) : Bytes → Except LiteralError Bytes
  | [] => .ok before.reverse
  | a :: x :: h :: l :: rest =>
    if a = 0x5c ∧ x = 0x78 then
      match hexValue h (i + 2), hexValue l (i + 3) with
      | .error e, _ => .error e
      | _, .error e => .error e
      | .ok h, .ok l => readEscapes ((h * 16 + l) :: before) (i + 4) rest
    else .error (.badEscape i)
  | a :: x :: _ => if a = 0x5c ∧ x = 0x78 then .error (.truncated i) else .error (.badEscape i)
  | _ :: [] => .error (.badEscape i)

def decode (l : Literal) : Except LiteralError Text := do
  let bytes ← readEscapes [] 0 (Text.encodeUtf8 l.encoded)
  (Text.decodeUtf8 bytes).mapError .utf8

end Literal

end Stencil
