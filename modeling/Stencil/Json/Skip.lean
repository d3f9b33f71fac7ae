import Stencil.Json.Reader

/-!
Passing over a JSON value that nobody asks for. Containers may be nested to any depth, and neither
the code points of strings nor the size of numbers is looked at.
-/
namespace Stencil.Json

variable {n : Nat}

inductive Bracket
  | list
  | object

def skipEscape (s : Text) (h : s.length < n) : Except Fault (Taken Unit n) :=
  match s with
  | [] => .error (.before .endInString [])
  | c :: s =>
    if c = 'u' then (readUnit s (tail_short h)).map (·.map fun _ => ())
    else if (simpleEscape? c).isSome then .ok ⟨(), s, tail_short h⟩
    else .error (.at .invalidEscape (c :: s))

/-- Passes over a string after its opening quote. -/
def skipString (s : Text) (h : s.length < n) : Except Fault (Taken Unit n) :=
  match s with
  | [] => .error (.before .endInString [])
  | c :: s =>
    if c = '"' then .ok ⟨(), s, tail_short h⟩
    else if c = '\\' then
      match skipEscape s (self_short s) with
      | .error e => .error e
      | .ok t => skipString t.rest (Nat.lt_trans t.short h)
    else if c.toNat < 0x20 then .error (.before .controlCharacter (c :: s))
    else skipString s (tail_short h)
termination_by s.length
decreasing_by
  · exact t.short
  · exact self_short s

/-- Passes over an exponent after its `e`. -/
def skipExponent (s : Text) (h : s.length < n) : Except Fault (Taken Unit n) :=
  match hs : takeSign s with
  | (_, []) => .error (.at .invalidNumber [])
  | (_, c :: t) =>
    if c.isDigit then .ok ⟨(), t.dropWhile Char.isDigit, dropWhile_short (takeSign_cons_short hs h)⟩
    else .error (.at .invalidNumber (c :: t))

/-- Passes over an exponent, if one follows. -/
def skipDoubleTail (s : Text) (h : s.length < n) : Except Fault (Taken Unit n) :=
  match s with
  | [] => .ok ⟨(), [], h⟩
  | c :: s =>
    if c = 'e' ∨ c = 'E' then skipExponent s (tail_short h) else .ok ⟨(), c :: s, h⟩

/-- Passes over what may follow the digits of an integer. -/
def skipNumberTail (s : Text) (h : s.length < n) : Except Fault (Taken Unit n) :=
  match s with
  | '.' :: s =>
    if s.takeWhile Char.isDigit = [] then .error (.at .invalidNumber s)
    else skipDoubleTail (s.dropWhile Char.isDigit) (dropWhile_short (tail_short h))
  | s => skipDoubleTail s ‹_›

/-- Passes over a number that starts with `c`, its sign apart. -/
def skipNumber (c : Char) (s : Text) (h : s.length < n) : Except Fault (Taken Unit n) :=
  if c = '0' then
    if (s.head?.map Char.isDigit).getD false then .error (.at .invalidNumber s)
    else skipNumberTail s h
  else if c.isDigit then
    skipNumberTail (s.dropWhile Char.isDigit) (dropWhile_short h)
  else .error (.at .invalidNumber (c :: s))

/-- Passes over a scalar or an opening bracket. -/
def skipHead (s : Text) : Except Fault (Taken (Option Bracket) s.length) :=
  match hs : skipSpace s with
  | [] => .error (.before .endInValue [])
  | c :: t =>
    have ht : t.length < s.length := skipSpace_cons_lt hs
    let scalar (r : Except Fault (Taken Unit s.length)) := r.map (·.map fun _ => none)
    if c = '"' then scalar (skipString t ht)
    else if c = '{' then .ok ⟨some .object, t, ht⟩
    else if c = '[' then .ok ⟨some .list, t, ht⟩
    else if c = 'n' then scalar (readWord "ull" t ht)
    else if c = 't' then scalar (readWord "rue" t ht)
    else if c = 'f' then scalar (readWord "alse" t ht)
    else if c = '-' then
      scalar <| match t, ht with
        | [], _ => .error (.at .invalidNumber [])
        | d :: u, hu => skipNumber d u (tail_short hu)
    else if c.isDigit then scalar (skipNumber c t ht)
    else .error (.at .expectedValue (c :: t))

/-- Passes over a key and its colon. -/
def skipKey (s : Text) (h : s.length < n) : Except Fault (Taken Unit n) :=
  match hs : skipSpace s with
  | [] => .error (.before .endInObject [])
  | c :: t =>
    if c = '"' then do
      let key ← skipString t (skipSpace_cons_short hs h)
      readColon key.rest key.short
    else .error (.at .keyNotString (c :: t))

def Bracket.close : Bracket → Char
  | list => ']'
  | object => '}'

/-- Moves to the next value inside a bracket: `false` once the bracket is closed. -/
def skipToValue (b : Bracket) (first : Bool) (s : Text) (h : s.length < n) :
    Except Fault (Taken Bool n) :=
  match hs : skipSpace s with
  | [] =>
    .error (match b with
      | .list => .before .endInList []
      | .object => .before .endInObject [])
  | c :: t =>
    if c = b.close then .ok ⟨false, t, skipSpace_cons_short hs h⟩
    else if first then item s h
    else if c = ',' then item t (skipSpace_cons_short hs h)
    else
      .error (match b with
        | .list => .at .expectedCommaOrBracket (c :: t)
        | .object => .at .expectedCommaOrBrace (c :: t))
where
  item (s : Text) (h : s.length < n) : Except Fault (Taken Bool n) :=
    match b with
    | .list => .ok ⟨true, s, h⟩
    | .object => (skipKey s h).map (·.map fun _ => true)

/-- Goes on until the brackets around are closed, the innermost first. -/
def skipFrom (first : Bool) (around : List Bracket) (s : Text) (h : s.length < n) :
    Except Fault (Taken Unit n) :=
  match around with
  | [] => .ok ⟨(), s, h⟩
  | b :: around =>
    match skipToValue b first s (self_short s) with
    | .error e => .error e
    | .ok ⟨false, rest, hr⟩ => skipFrom false around rest (short_of_le hr h)
    | .ok ⟨true, rest, hr⟩ =>
      match skipHead rest with
      | .error e => .error e
      | .ok ⟨none, rest, ht⟩ => skipFrom false (b :: around) rest (short_of_step ht hr h)
      | .ok ⟨some c, rest, ht⟩ => skipFrom true (c :: b :: around) rest (short_of_step ht hr h)
termination_by 2 * s.length + around.length
decreasing_by
  · exact Nat.add_lt_add_of_le_of_lt (Nat.mul_le_mul_left 2 (Nat.le_of_lt_succ hr))
      (Nat.lt_succ_self _)
  · exact Nat.add_lt_add_right (Nat.mul_lt_mul_of_pos_left (lt_of_lt_of_short ht hr) (by decide)) _
  · have := lt_of_lt_of_short ht hr
    simp only [List.length_cons]
    omega

def skipValue : Reader Unit := fun s =>
  match skipHead s with
  | .error e => .error e
  | .ok ⟨none, rest, hr⟩ => .ok ⟨(), rest, hr⟩
  | .ok ⟨some b, rest, hr⟩ => skipFrom true [b] rest hr

end Stencil.Json
