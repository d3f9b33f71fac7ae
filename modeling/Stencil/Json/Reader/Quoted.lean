import Stencil.Json.Reader.Basic

/-! Reading JSON strings, which escape characters by letters and by UTF-16 units. -/
namespace Stencil.Json

variable {n : Nat}

def hexDigit? (c : Char) : Option Nat :=
  if '0' ≤ c ∧ c ≤ '9' then some (c.toNat - '0'.toNat)
  else if 'a' ≤ c ∧ c ≤ 'f' then some (c.toNat - 'a'.toNat + 10)
  else if 'A' ≤ c ∧ c ≤ 'F' then some (c.toNat - 'A'.toNat + 10)
  else none

/-- Reads the four hex digits of an escaped UTF-16 unit; it takes four bytes in any case. -/
def readUnit (s : Text) (h : s.length < n) : Except Fault (Taken Nat n) :=
  match s with
  | a :: b :: c :: d :: rest =>
    match hexDigit? a, hexDigit? b, hexDigit? c, hexDigit? d with
    | some a, some b, some c, some d =>
      .ok ⟨((a * 16 + b) * 16 + c) * 16 + d, rest,
        tail_short (tail_short (tail_short (tail_short h)))⟩
    | _, _, _, _ => .error (bad s)
  | s => .error (bad s)
where
  bad (s : Text) : Fault :=
    if s.byteSize < 4 then .before .endInString [] else ⟨.invalidEscape, s.byteSize - 4⟩

/-- Reads the second half of a surrogate pair. -/
def readLowSurrogate (s : Text) (h : s.length < n) : Except Fault (Taken Nat n) :=
  match s with
  | '\\' :: 'u' :: s => do
    let low ← readUnit s (tail_short (tail_short h))
    if 0xdc00 ≤ low.value ∧ low.value ≤ 0xdfff then return low
    else throw (.before .loneSurrogate low.rest)
  | ['\\'] => .error (.before .endInString [])
  | '\\' :: s => .error (.at .unfinishedSurrogatePair s)
  | [] => .error (.before .endInString [])
  | s => .error (.at .unfinishedSurrogatePair s)

/-- Reads a code point after `\u`. -/
def readCodePoint (s : Text) (h : s.length < n) : Except Fault (Taken Char n) := do
  let unit ← readUnit s h
  if 0xdc00 ≤ unit.value ∧ unit.value ≤ 0xdfff then throw (.before .loneSurrogate unit.rest)
  else if 0xd800 ≤ unit.value ∧ unit.value ≤ 0xdbff then
    let low ← readLowSurrogate unit.rest unit.short
    return low.map fun v => Char.ofNat ((unit.value - 0xd800) * 0x400 + (v - 0xdc00) + 0x10000)
  else return unit.map Char.ofNat

def simpleEscape? : Char → Option Char
  | '"' => some '"'
  | '\\' => some '\\'
  | '/' => some '/'
  | 'b' => some '\x08'
  | 'f' => some '\x0c'
  | 'n' => some '\n'
  | 'r' => some '\r'
  | 't' => some '\t'
  | _ => none

/-- Reads an escape after its backslash. -/
def readEscape (s : Text) (h : s.length < n) : Except Fault (Taken Char n) :=
  match s with
  | [] => .error (.before .endInString [])
  | c :: s =>
    if c = 'u' then readCodePoint s (tail_short h)
    else
      match simpleEscape? c with
      | some c => .ok ⟨c, s, tail_short h⟩
      | none => .error (.at .invalidEscape (c :: s))

/-- Reads the rest of a string; `before`, reversed, is what has been read of it. -/
def readStringFrom (before s : Text) (h : s.length < n) : Except Fault (Taken Text n) :=
  match s with
  | [] => .error (.before .endInString [])
  | c :: s =>
    if c = '"' then .ok ⟨before.reverse, s, tail_short h⟩
    else if c = '\\' then
      match readEscape s (self_short s) with
      | .error e => .error e
      | .ok t => readStringFrom (t.value :: before) t.rest (Nat.lt_trans t.short h)
    else if c.toNat < 0x20 then .error (.at .controlCharacter (c :: s))
    else readStringFrom (c :: before) s (tail_short h)
termination_by s.length
decreasing_by
  · exact t.short
  · exact self_short s

/-- Reads a string after its opening quote. -/
def readString (s : Text) (h : s.length < n) : Except Fault (Taken Text n) := readStringFrom [] s h

end Stencil.Json
