/-! Text is a list of characters; strings only name constants and cross the program's edge. -/
namespace Stencil

abbrev Text := List Char

instance : Coe String Text := ⟨String.toList⟩

namespace Text

def ofNat (n : Nat) : Text := Nat.toDigits 10 n

def ofHex (n : Nat) : Text := Nat.toDigits 16 n

/-- The length of the UTF-8 form in bytes. -/
def byteSize (s : Text) : Nat := s.foldr (fun c size => c.utf8Size + size) 0

/-- What is left of a text after a given beginning. -/
def dropPrefix? : Text → Text → Option Text
  | s, [] => some s
  | [], _ :: _ => none
  | c :: s, p :: ps => if p = c then dropPrefix? s ps else none

/-- The longest beginning in which `d` starts nowhere, and the rest; `before` is reversed. -/
def breakAtFrom (d before : Text) : Text → Text × Text
  | [] => (before.reverse, [])
  | c :: s =>
    if d.isPrefixOf (c :: s) then (before.reverse, c :: s) else breakAtFrom d (c :: before) s

/-- Cuts a text before the first occurrence of `d`, or at its end if there is none. -/
def breakAt (s d : Text) : Text × Text := breakAtFrom d [] s

theorem dropPrefix?_eq_some {s p t : Text} : s.dropPrefix? p = some t ↔ s = p ++ t := by
  induction p generalizing s with
  | nil => simp [dropPrefix?]
  | cons a p ih =>
    cases s with
    | nil => simp [dropPrefix?]
    | cons c s => by_cases h : a = c <;> simp [dropPrefix?, h, ih, eq_comm]

theorem breakAtFrom_append (d before s : Text) :
    (breakAtFrom d before s).1 ++ (breakAtFrom d before s).2 = before.reverse ++ s := by
  induction s generalizing before with
  | nil => simp [breakAtFrom]
  | cons c s ih =>
    simp only [breakAtFrom]
    split
    · rfl
    · simp [ih]

theorem breakAt_append (s d : Text) : (s.breakAt d).1 ++ (s.breakAt d).2 = s := by
  simp [breakAt, breakAtFrom_append]

end Text

end Stencil
