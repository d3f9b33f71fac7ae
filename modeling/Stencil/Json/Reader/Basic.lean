import Stencil.Json.Fault

/-!
What readers of JSON share. Every reader returns a rest that is shorter than a bound, so loops over
a document end.
-/
namespace Stencil.Json

/-- A value that was read, and the text after it. -/
structure Taken (α : Type) (n : Nat) where
  value : α
  rest : Text
  short : rest.length < n

/-- A reader takes at least one character. -/
abbrev Reader (α : Type) := (s : Text) → Except Fault (Taken α s.length)

variable {α : Type} {n : Nat}

def Taken.map {β : Type} (f : α → β) (t : Taken α n) : Taken β n := ⟨f t.value, t.rest, t.short⟩

theorem tail_short {c : Char} {s : Text} (h : (c :: s).length < n) : s.length < n :=
  Nat.lt_of_succ_lt h

theorem self_short (s : Text) : s.length < s.length + 1 := Nat.lt_succ_self _

theorem short_trans {r s : Text} (hr : r.length < s.length) (hs : s.length < n) : r.length < n :=
  Nat.lt_trans hr hs

theorem short_of_le {r s : Text} (hr : r.length < s.length + 1) (hs : s.length < n) :
    r.length < n :=
  Nat.lt_of_le_of_lt (Nat.le_of_lt_succ hr) hs

theorem lt_of_lt_of_short {r t s : Text} (hr : r.length < t.length) (ht : t.length < s.length + 1) :
    r.length < s.length :=
  Nat.lt_of_lt_of_le hr (Nat.le_of_lt_succ ht)

theorem short_of_step {r t s : Text} (hr : r.length < t.length) (ht : t.length < s.length + 1)
    (hs : s.length < n) : r.length < n :=
  Nat.lt_trans (lt_of_lt_of_short hr ht) hs

def isSpace (c : Char) : Bool := c = ' ' || c = '\n' || c = '\t' || c = '\r'

def skipSpace (s : Text) : Text := s.dropWhile isSpace

theorem dropWhile_length_le (p : Char → Bool) (s : Text) : (s.dropWhile p).length ≤ s.length :=
  (List.dropWhile_sublist p).length_le

theorem dropWhile_short {p : Char → Bool} {s : Text} (h : s.length < n) :
    (s.dropWhile p).length < n :=
  Nat.lt_of_le_of_lt (dropWhile_length_le p s) h

theorem dropWhile_cons_short {p : Char → Bool} {s t : Text} {c : Char}
    (hs : s.dropWhile p = c :: t) (h : s.length < n) : t.length < n := by
  have := dropWhile_length_le p s
  rw [hs] at this
  exact Nat.lt_trans this h

theorem skipSpace_cons_lt {s t : Text} {c : Char} (hs : skipSpace s = c :: t) :
    t.length < s.length := by
  have := dropWhile_length_le isSpace s
  rw [show s.dropWhile isSpace = c :: t from hs] at this
  exact this

theorem skipSpace_cons_short {s t : Text} {c : Char} (hs : skipSpace s = c :: t)
    (h : s.length < n) : t.length < n :=
  Nat.lt_trans (skipSpace_cons_lt hs) h

/-- Reads the rest of a word whose first letter has been read. -/
def readWord : (word s : Text) → s.length < n → Except Fault (Taken Unit n)
  | [], s, h => .ok ⟨(), s, h⟩
  | _ :: _, [], _ => .error (.before .endInValue [])
  | p :: word, c :: s, h =>
    if p = c then readWord word s (tail_short h) else .error (.at .expectedIdent (c :: s))

end Stencil.Json
