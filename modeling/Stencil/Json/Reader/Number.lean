import Stencil.Json.Reader.Basic

/-!
Reading JSON numbers. The digits that 64 bits take up make the significand of a double, and one
multiplication or division by a power of ten scales it, so the double need not be the nearest.
-/
namespace Stencil.Json

variable {n : Nat}

def digitValue (c : Char) : Nat := c.toNat - '0'.toNat

/-- The digits that the first 64 bits can take up, as a number; their count; what follows them. -/
def takeDigits (value count : Nat) : Text → Nat × Nat × Text
  | [] => (value, count, [])
  | c :: s =>
    if c.isDigit ∧ value * 10 + digitValue c < UInt64.size then
      takeDigits (value * 10 + digitValue c) (count + 1) s
    else (value, count, c :: s)

theorem takeDigits_length_le (value count : Nat) (s : Text) :
    (takeDigits value count s).2.2.length ≤ s.length := by
  induction s generalizing value count with
  | nil => simp [takeDigits]
  | cons c s ih =>
    simp only [takeDigits]
    split
    · exact Nat.le_succ_of_le (ih _ _)
    · exact Nat.le_refl _

/-- `significand · 10 ^ exponent`, or none if it is too large. One multiplication or division by a
power of ten is rounded, and before it divisions by 10 ^ 308 as long as the exponent is below. -/
def scaled? (significand : Float) (exponent : Int) : Option Float :=
  if exponent.natAbs ≤ 308 then
    let power := Float.ofScientific 1 false exponent.natAbs
    if 0 ≤ exponent then
      let x := significand * power
      if x.isInf then none else some x
    else some (significand / power)
  else if significand == 0.0 then some significand
  else if 0 ≤ exponent then none
  else scaled? (significand / Float.ofScientific 1 false 308) (exponent + 308)
termination_by exponent.natAbs

/-- The double of a decimal; a number out of range shows once all of it is read. -/
def double (negative : Bool) (significand : Nat) (exponent : Int) (rest : Text) :
    Except Fault Number :=
  match scaled? significand.toUInt64.toFloat exponent with
  | none => .error (.before .numberOutOfRange rest)
  | some x => .ok (.double (if negative then -x else x).toBits)

/-- The digits of an exponent after the first. One that does not fit 32 bits either makes the number
too large, which shows at once, or goes on without changing it. -/
def takeExponent (tooLarge : Bool) (e : Nat) : Text → Except Fault (Nat × Text)
  | [] => .ok (e, [])
  | c :: s =>
    if c.isDigit then
      if e * 10 + digitValue c < UInt32.size / 2 then
        takeExponent tooLarge (e * 10 + digitValue c) s
      else if tooLarge then .error (.before .numberOutOfRange s)
      else .ok (UInt32.size / 2, s.dropWhile Char.isDigit)
    else .ok (e, c :: s)

theorem takeExponent_length_le {tooLarge : Bool} {e k : Nat} {s rest : Text}
    (h : takeExponent tooLarge e s = .ok (k, rest)) : rest.length ≤ s.length := by
  induction s generalizing e with
  | nil =>
    cases h
    exact Nat.le_refl _
  | cons c s ih =>
    simp only [takeExponent] at h
    split at h
    · split at h
      · exact Nat.le_succ_of_le (ih h)
      · split at h
        · cases h
        · cases h
          exact Nat.le_succ_of_le (dropWhile_length_le _ s)
    · cases h
      exact Nat.le_refl _

/-- The sign of an exponent, and what follows it. -/
def takeSign : Text → Bool × Text
  | '+' :: s => (false, s)
  | '-' :: s => (true, s)
  | s => (false, s)

theorem takeSign_length_le (s : Text) : (takeSign s).2.length ≤ s.length := by
  unfold takeSign
  split
  · exact Nat.le_succ _
  · exact Nat.le_succ _
  · exact Nat.le_refl _

theorem takeSign_cons_short {s t : Text} {c : Char} {down : Bool} (hs : takeSign s = (down, c :: t))
    (h : s.length < n) : t.length < n := by
  have := takeSign_length_le s
  rw [hs] at this
  exact Nat.lt_trans this h

/-- Reads an exponent after its `e`. -/
def readExponent (negative : Bool) (significand : Nat) (exponent : Int) (s : Text)
    (h : s.length < n) : Except Fault (Taken Number n) :=
  match hs : takeSign s with
  | (_, []) => .error (.before .endInValue [])
  | (down, c :: t) =>
    if c.isDigit then
      match he : takeExponent (!down && significand != 0) (digitValue c) t with
      | .error e => .error e
      | .ok (e, rest) =>
        (double negative significand (if down then exponent - e else exponent + e) rest).map
          fun x =>
            ⟨x, rest, Nat.lt_of_le_of_lt (takeExponent_length_le he) (takeSign_cons_short hs h)⟩
    else .error (.at .invalidNumber (c :: t))

/-- Reads what may follow the digits of a number that is a double for certain. -/
def readDoubleTail (negative : Bool) (significand : Nat) (exponent : Int) (s : Text)
    (h : s.length < n) : Except Fault (Taken Number n) :=
  match s with
  | 'e' :: s => readExponent negative significand exponent s (tail_short h)
  | 'E' :: s => readExponent negative significand exponent s (tail_short h)
  | s => (double negative significand exponent s).map fun x => ⟨x, s, ‹_›⟩

/-- Reads the fraction after its point. Digits beyond 64 bits are left out of account. -/
def readFraction (negative : Bool) (significand : Nat) (exponent : Int) (s : Text)
    (h : s.length < n) : Except Fault (Taken Number n) :=
  let digits := takeDigits significand 0 s
  let rest := digits.2.2.dropWhile Char.isDigit
  if s.takeWhile Char.isDigit = [] then
    .error (if s = [] then .before .endInValue [] else .at .invalidNumber s)
  else
    readDoubleTail negative digits.1 (exponent - digits.2.1) rest
      (dropWhile_short (Nat.lt_of_le_of_lt (takeDigits_length_le significand 0 s) h))

/-- Reads what follows the integer digits that 64 bits take up. -/
def readNumberTail (negative : Bool) (significand : Nat) (s : Text) (h : s.length < n) :
    Except Fault (Taken Number n) :=
  let more := s.takeWhile Char.isDigit
  match hs : s.dropWhile Char.isDigit with
  | '.' :: t => readFraction negative significand more.length t (dropWhile_cons_short hs h)
  | rest =>
    have short : rest.length < n := hs ▸ dropWhile_short h
    if more ≠ [] ∨ rest.head? = some 'e' ∨ rest.head? = some 'E' then
      readDoubleTail negative significand more.length rest short
    else if !negative then .ok ⟨.integer significand, rest, short⟩
    else if significand = 0 ∨ UInt64.size / 2 < significand then
      .ok ⟨.double (-significand.toUInt64.toFloat).toBits, rest, short⟩
    else .ok ⟨.integer (-(significand : Int)), rest, short⟩

/-- Reads a number that starts with `c`, its sign apart. -/
def readNumber (negative : Bool) (c : Char) (s : Text) (h : s.length < n) :
    Except Fault (Taken Number n) :=
  if c = '0' then
    if (s.head?.map Char.isDigit).getD false then .error (.at .invalidNumber s)
    else readNumberTail negative 0 s h
  else if c.isDigit then
    let digits := takeDigits (digitValue c) 0 s
    readNumberTail negative digits.1 digits.2.2
      (Nat.lt_of_le_of_lt (takeDigits_length_le (digitValue c) 0 s) h)
  else .error (.at .invalidNumber (c :: s))

/-- Reads a number after its minus sign. -/
def readNegative (s : Text) (h : s.length < n) : Except Fault (Taken Number n) :=
  match s with
  | [] => .error (.before .endInValue [])
  | c :: s => readNumber true c s (tail_short h)

end Stencil.Json
