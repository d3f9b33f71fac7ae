import Stencil.Text

/-! UTF-8: the bytes of a text, and the text of bytes or the place where they stop being UTF-8. -/
namespace Stencil.Text

abbrev Bytes := List UInt8

def encodeUtf8 (s : Text) : Bytes := s.flatMap String.utf8EncodeChar

/-- Where bytes stop being UTF-8: how many are well formed, and how many after those begin a
character that cannot go on; none if the bytes end inside a character. -/
structure Utf8Fault where
  validUpTo : Nat
  length : Option Nat
  deriving DecidableEq, Repr

namespace Utf8Fault

def message (e : Utf8Fault) : Text :=
  match e.length with
  | some n => "invalid utf-8 sequence of " ++ ofNat n ++ " bytes from index " ++ ofNat e.validUpTo
  | none => "incomplete utf-8 byte sequence from index " ++ ofNat e.validUpTo

end Utf8Fault

/-- The ranges of the bytes that may follow a leading byte, in order; none for a byte that begins
no character. -/
def continuations (lead : UInt8) : Option (List (UInt8 × UInt8)) :=
  let any := (0x80, 0xbf)
  if lead < 0x80 then some []
  else if lead < 0xc2 then none
  else if lead < 0xe0 then some [any]
  else if lead = 0xe0 then some [(0xa0, 0xbf), any]
  else if lead = 0xed then some [(0x80, 0x9f), any]
  else if lead < 0xf0 then some [any, any]
  else if lead = 0xf0 then some [(0x90, 0xbf), any, any]
  else if lead < 0xf4 then some [any, any, any]
  else if lead = 0xf4 then some [(0x80, 0x8f), any, any]
  else none

/-- How many bytes stay within the ranges one after the other; none if the bytes end first. -/
def matching : List (UInt8 × UInt8) → Bytes → Option Nat
  | [], _ => some 0
  | _ :: _, [] => none
  | (lo, hi) :: ranges, b :: bytes =>
    if lo ≤ b ∧ b ≤ hi then (matching ranges bytes).map (· + 1) else some 0

/-- The length of the ill-formed beginning of bytes that begin no character. -/
def faultLength : Bytes → Option Nat
  | [] => none
  | lead :: bytes =>
    match continuations lead with
    | none => some 1
    | some ranges => (matching ranges bytes).map (· + 1)

/-- The character at the head of the bytes. -/
def firstChar? (bytes : Bytes) : Option Char := (bytes.take 4).toByteArray.utf8DecodeChar? 0

/-- Decodes what follows the `i` bytes whose characters, reversed, are `before`. -/
def decodeUtf8From (before : Text) (i : Nat) (bytes : Bytes) : Except Utf8Fault Text :=
  match bytes with
  | [] => .ok before.reverse
  | b :: rest =>
    match firstChar? (b :: rest) with
    | some c => decodeUtf8From (c :: before) (i + c.utf8Size) (rest.drop (c.utf8Size - 1))
    | none => .error ⟨i, faultLength (b :: rest)⟩
termination_by bytes.length
decreasing_by exact Nat.lt_succ_of_le (List.drop_sublist _ _).length_le

def decodeUtf8 (bytes : Bytes) : Except Utf8Fault Text := decodeUtf8From [] 0 bytes

end Stencil.Text
