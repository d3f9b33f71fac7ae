import Stencil.Delimiters
import Stencil.Json.Skip

/-!
Delimiters as JSON. A document may leave members out and hold others; it is checked from left to
right, so the first fault is the first in the text, whether the text is no JSON or of a wrong type.
-/
namespace Stencil.Delimiters

open Json (Fault Found Mismatch Problem Reader Taken)

variable {n : Nat}

def wrongType (expected : Text) (s : Text) : Fault :=
  match Json.skipSpace s with
  | '[' :: t => .before (.mismatch (.invalidType .list expected)) ('[' :: t)
  | '{' :: t => .before (.mismatch (.invalidType .object expected)) ('{' :: t)
  | t =>
    match Json.readValueWith none t with
    | .error e => e
    | .ok v => .before (.mismatch (.invalidType v.value.found expected)) v.rest

def readText : Reader Text := fun s =>
  match hs : Json.skipSpace s with
  | '"' :: t => Json.readString t (Json.skipSpace_cons_lt hs)
  | _ => .error (wrongType "a string" s)

def readChar : Reader Char := fun s =>
  match hs : Json.skipSpace s with
  | '"' :: t => do
    let r ← Json.readString t (Json.skipSpace_cons_lt hs)
    match r.value with
    | [c] => return ⟨c, r.rest, r.short⟩
    | v => throw (.before (.mismatch (.invalidValue (.string v) "a character")) r.rest)
  | _ => .error (wrongType "a character" s)

def readMarkers : Reader (List Char) := fun s =>
  match hs : Json.skipSpace s with
  | '[' :: t => Json.readItems readChar [] true t (Json.skipSpace_cons_lt hs)
  | _ => .error (wrongType "a sequence" s)

/-- The members of a document that have been read. -/
structure Draft where
  start : Option Text := none
  stop : Option Text := none
  markers : Option (List Char) := none

/-- What is left out is as in the standard delimiters. -/
def Draft.complete (d : Draft) : Delimiters where
  start := d.start.getD standard.start
  stop := d.stop.getD standard.stop
  markers := (d.markers.map Markers.ofList).getD standard.markers

/-- A member that comes twice; the fault shows after a closing brace that follows its second key. -/
def duplicate (name : Text) (s : Text) : Fault :=
  match Json.skipSpace s with
  | '}' :: t => .before (.mismatch (.duplicateField name)) t
  | t => .before (.mismatch (.duplicateField name)) t

/-- Reads the value of a member of the given name. -/
def readMember (d : Draft) (key : Text) : Reader Draft := fun s =>
  if key = "start".toList then
    if d.start.isSome then .error (duplicate key s)
    else value readText (fun v => { d with start := some v }) s
  else if key = "end".toList then
    if d.stop.isSome then .error (duplicate key s)
    else value readText (fun v => { d with stop := some v }) s
  else if key = "eval_markers".toList then
    if d.markers.isSome then .error (duplicate key s)
    else value readMarkers (fun v => { d with markers := some v }) s
  else value Json.skipValue (fun _ => d) s
where
  value {α : Type} (reader : Reader α) (f : α → Draft) : Reader Draft := fun s => do
    let ⟨_, rest, hc⟩ ← Json.readColon s (Json.self_short s)
    let ⟨v, rest, hv⟩ ← reader rest
    return ⟨f v, rest, Json.lt_of_lt_of_short hv hc⟩

/-- Reads members up to and with the closing brace. -/
def readMembers (d : Draft) (first : Bool) (s : Text) (h : s.length < n) :
    Except Fault (Taken Draft n) :=
  match Json.nextKey first s (Json.self_short s) with
  | .error e => .error e
  | .ok ⟨none, rest, hr⟩ => .ok ⟨d, rest, Json.short_of_le hr h⟩
  | .ok ⟨some key, rest, hr⟩ =>
    match readMember d key rest with
    | .error e => .error e
    | .ok ⟨d, rest, hd⟩ => readMembers d false rest (Json.short_of_step hd hr h)
termination_by s.length
decreasing_by exact Json.lt_of_lt_of_short hd hr

/-- Reads the closing bracket of a list whose items have all been read. -/
def readListEnd (s : Text) (h : s.length < n) : Except Fault (Taken Unit n) :=
  match hs : Json.skipSpace s with
  | [] => .error (.before .endInList [])
  | c :: t =>
    if c = ']' then .ok ⟨(), t, Json.skipSpace_cons_short hs h⟩
    else if c = ',' then
      match Json.skipSpace t with
      | ']' :: u => .error (.at .trailingComma (']' :: u))
      | u => .error (.at .trailingCharacters u)
    else .error (.at .trailingCharacters (c :: t))

/-- Reads the next item of a list, or its closing bracket. -/
def readItem? {α : Type} (item : Reader α) (first : Bool) (s : Text) (h : s.length < n) :
    Except Fault (Taken (Option α) n) := do
  let ⟨more, rest, hr⟩ ← Json.nextItem first s h
  if more then
    let ⟨v, rest, hv⟩ ← item rest
    return ⟨some v, rest, Json.short_trans hv hr⟩
  else return ⟨none, rest, hr⟩

/-- Reads the list form, which has the members in a fixed order. -/
def readList (s : Text) (h : s.length < n) : Except Fault (Taken Draft n) := do
  let ⟨start, rest, hs⟩ ← readItem? readText true s h
  if start.isNone then return ⟨{}, rest, hs⟩
  let ⟨stop, rest, hs⟩ ← readItem? readText false rest hs
  if stop.isNone then return ⟨{ start }, rest, hs⟩
  let ⟨markers, rest, hs⟩ ← readItem? readMarkers false rest hs
  if markers.isNone then return ⟨{ start, stop }, rest, hs⟩
  let ⟨_, rest, hs⟩ ← readListEnd rest hs
  return ⟨{ start, stop, markers }, rest, hs⟩

def reader : Reader Delimiters := fun s =>
  match hs : Json.skipSpace s with
  | '{' :: t => (readMembers {} true t (Json.skipSpace_cons_lt hs)).map (·.map Draft.complete)
  | '[' :: t => (readList t (Json.skipSpace_cons_lt hs)).map (·.map Draft.complete)
  | _ => .error (wrongType "struct DelimiterConfig" s)

def ofDocument (document : Text) : Except Fault Delimiters := Json.readDocument reader document

def toJson (d : Delimiters) : Json :=
  .object [("start", .string d.start), ("end", .string d.stop),
    ("eval_markers", .array (d.markers.toList.map fun c => .string [c]))]

end Stencil.Delimiters
