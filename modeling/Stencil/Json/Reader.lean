import Stencil.Json.Reader.Quoted
import Stencil.Json.Reader.Number

/-! Reading JSON values and documents; nested containers are counted down. -/
namespace Stencil.Json

variable {α : Type} {n : Nat}

/-- Moves to the next item of a list: `false` once the closing bracket is read. -/
def nextItem (first : Bool) (s : Text) (h : s.length < n) : Except Fault (Taken Bool n) :=
  match hs : skipSpace s with
  | [] => .error (.before .endInList [])
  | ']' :: t => .ok ⟨false, t, skipSpace_cons_short hs h⟩
  | c :: t =>
    if first then .ok ⟨true, s, h⟩
    else if c = ',' then
      match skipSpace t with
      | [] => .error (.before .endInValue [])
      | ']' :: u => .error (.at .trailingComma (']' :: u))
      | _ => .ok ⟨true, t, skipSpace_cons_short hs h⟩
    else .error (.at .expectedCommaOrBracket (c :: t))

/-- Reads the items of a list up to and with its closing bracket. -/
def readItems (item : Reader α) (before : List α) (first : Bool) (s : Text) (h : s.length < n) :
    Except Fault (Taken (List α) n) :=
  match nextItem first s (self_short s) with
  | .error e => .error e
  | .ok ⟨false, rest, hr⟩ => .ok ⟨before.reverse, rest, short_of_le hr h⟩
  | .ok ⟨true, rest, hr⟩ =>
    match item rest with
    | .error e => .error e
    | .ok ⟨x, rest, hx⟩ => readItems item (x :: before) false rest (short_of_step hx hr h)
termination_by s.length
decreasing_by exact lt_of_lt_of_short hx hr

/-- Moves to the next member of an object and reads its key: none once the closing brace is read. -/
def nextKey (first : Bool) (s : Text) (h : s.length < n) : Except Fault (Taken (Option Text) n) :=
  match hs : skipSpace s with
  | [] => .error (.before .endInObject [])
  | '}' :: t => .ok ⟨none, t, skipSpace_cons_short hs h⟩
  | c :: t =>
    have ht : t.length < n := skipSpace_cons_short hs h
    if first then
      if c = '"' then (readString t ht).map (·.map some) else .error (.at .keyNotString (c :: t))
    else if c = ',' then
      match hu : skipSpace t with
      | [] => .error (.before .endInValue [])
      | '"' :: u => (readString u (skipSpace_cons_short hu ht)).map (·.map some)
      | '}' :: u => .error (.at .trailingComma ('}' :: u))
      | u => .error (.at .keyNotString u)
    else .error (.at .expectedCommaOrBrace (c :: t))

/-- Reads the colon between a key and its value. -/
def readColon (s : Text) (h : s.length < n) : Except Fault (Taken Unit n) :=
  match hs : skipSpace s with
  | [] => .error (.before .endInObject [])
  | c :: t =>
    if c = ':' then .ok ⟨(), t, skipSpace_cons_short hs h⟩
    else .error (.at .expectedColon (c :: t))

/-- Reads the members of an object up to and with its closing brace. -/
def readMembers (item : Reader Json) (before : List (Text × Json)) (first : Bool) (s : Text)
    (h : s.length < n) : Except Fault (Taken (List (Text × Json)) n) :=
  match nextKey first s (self_short s) with
  | .error e => .error e
  | .ok ⟨none, rest, hr⟩ => .ok ⟨before, rest, short_of_le hr h⟩
  | .ok ⟨some key, rest, hr⟩ =>
    match readColon rest hr with
    | .error e => .error e
    | .ok ⟨_, rest, hc⟩ =>
      match item rest with
      | .error e => .error e
      | .ok ⟨x, rest, hx⟩ =>
        readMembers item (insertMember key x before) false rest (short_of_step hx hc h)
termination_by s.length
decreasing_by exact lt_of_lt_of_short hx hc

/-- Reads a value whose items are read by `inner`; without `inner` it may not be a container. -/
def readValueWith (inner : Option (Reader Json)) : Reader Json := fun s =>
  match hs : skipSpace s with
  | [] => .error (.before .endInValue [])
  | c :: t =>
    have ht : t.length < s.length := skipSpace_cons_lt hs
    if c = '"' then (readString t ht).map (·.map string)
    else if c = '{' then
      match inner with
      | none => .error (.at .tooDeep (c :: t))
      | some inner => (readMembers inner [] true t ht).map (·.map object)
    else if c = '[' then
      match inner with
      | none => .error (.at .tooDeep (c :: t))
      | some inner => (readItems inner [] true t ht).map (·.map array)
    else if c = 'n' then (readWord "ull" t ht).map (·.map fun _ => null)
    else if c = 't' then (readWord "rue" t ht).map (·.map fun _ => boolean true)
    else if c = 'f' then (readWord "alse" t ht).map (·.map fun _ => boolean false)
    else if c = '-' then (readNegative t ht).map (·.map number)
    else if c.isDigit then (readNumber false c t ht).map (·.map number)
    else .error (.at .expectedValue (c :: t))

/-- Reads a value with at most `depth` containers around one another. -/
def readValue : (depth : Nat) → Reader Json
  | 0 => readValueWith none
  | depth + 1 => readValueWith (some (readValue depth))

/-- Reads a document that is one value of a kind and nothing else. -/
def readDocument (value : Reader α) (s : Text) : Except Fault α := do
  let t ← value s
  match skipSpace t.rest with
  | [] => return t.value
  | rest => throw (.at .trailingCharacters rest)

/-- The most containers that may stand around one another. -/
def maxDepth : Nat := 127

def ofText (document : Text) : Except Fault Json := readDocument (readValue maxDepth) document

end Stencil.Json
