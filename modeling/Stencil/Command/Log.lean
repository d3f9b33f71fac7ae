import Stencil.Delimiters.Ambiguity
import Stencil.Files
import Stencil.Instruction
import Stencil.Text.Quoted

/-! What a run reports on the way, and what it prints. -/
namespace Stencil.Command

inductive Level
  | off
  | error
  | warn
  | info
  | debug
  | trace
  deriving DecidableEq

namespace Level

def rank : Level → Nat
  | off => 0
  | error => 1
  | warn => 2
  | info => 3
  | debug => 4
  | trace => 5

def name : Level → Text
  | off => "OFF"
  | error => "ERROR"
  | warn => "WARN"
  | info => "INFO"
  | debug => "DEBUG"
  | trace => "TRACE"

def all : List Level := [off, error, warn, info, debug, trace]

/-- The level of a name in letters of any case. -/
def ofText? (s : Text) : Option Level := all.find? (·.name = s.map Char.toUpper)

end Level

inductive Event
  | configLoaded (path : Path)
  | ambiguity (a : Ambiguity)
  /-- A code region, where it starts in the template, and its code. -/
  | region (offset : Nat) (marker : Option Char) (code : Text)
  | scanned (chars segments : Nat)
  | emitted (instructions : Nat)
  | compiled (name : Text) (instructions : Nat)
  | artifactLoaded (instructions : Nat)
  | step (pc : Nat) (instruction : Instruction)
  | templateCompiled (instructions : Nat) (path : Path)
  | templateRendered (path : Path)
  deriving DecidableEq

namespace Event

def level : Event → Level
  | configLoaded _ | artifactLoaded _ | templateCompiled _ _ | templateRendered _ => .info
  | ambiguity _ => .warn
  | scanned _ _ | emitted _ | compiled _ _ => .debug
  | region _ _ _ | step _ _ => .trace

/-- Characters that could drive a terminal are shown by their numbers. -/
def tame (c : Char) : Text :=
  if c = '\x1b' then "\\x1b"
  else if c = '\x07' then "\\x07"
  else if c = '\x08' then "\\x08"
  else if c = '\x0c' then "\\x0c"
  else if c = '\x7f' then "\\x7f"
  else if 0x80 ≤ c.toNat ∧ c.toNat ≤ 0x9f then Text.codePointEscape c
  else [c]

def markerText : Option Char → Text
  | some c => "Some(" ++ Text.quotedChar c ++ ")"
  | none => "None"

def instructionText : Instruction → Text
  | .emitLiteral bytes =>
    "EmitLiteral \x7b bytes: EncodedLiteral(" ++ Text.quoted bytes.encoded ++ ") \x7d"
  | .emitEvaluated expr marker =>
    "EmitEvaluated \x7b expr: " ++ Text.quoted expr ++ ", marker: " ++ Text.quotedChar marker ++
      " \x7d"
  | .splice code => "Splice \x7b code: " ++ Text.quoted code ++ " \x7d"

def text : Event → Text
  | configLoaded path => "config loaded path=" ++ path.text
  | ambiguity a => a.message.flatMap tame
  | region offset marker code =>
    "code region offset=" ++ Text.ofNat offset ++ " marker=" ++ markerText marker ++ " len=" ++
      Text.ofNat code.byteSize
  | scanned chars segments =>
    "scanned template chars=" ++ Text.ofNat chars ++ " segments=" ++ Text.ofNat segments
  | emitted n => "emitted instruction stream instructions=" ++ Text.ofNat n
  | compiled name n =>
    "compiled template name=" ++ Text.quoted name ++ " instructions=" ++ Text.ofNat n
  | artifactLoaded n => "compiled artifact loaded instructions=" ++ Text.ofNat n
  | step pc instruction =>
    "exec pc=" ++ Text.ofNat pc ++ " instruction=" ++ instructionText instruction
  | templateCompiled n path =>
    "template compiled instructions=" ++ Text.ofNat n ++ " path=" ++ path.text
  | templateRendered path => "template rendered path=" ++ path.text

/-- The level is set to the right in five columns. -/
def line (e : Event) : Text :=
  List.replicate (5 - e.level.name.length) ' ' ++ e.level.name ++ ' ' :: e.text ++ ['\n']

/-- The code regions that a scanner still meets before the end or a region without end. -/
def regions (s : Scanner) : List Event :=
  match _h : s.next with
  | (some (.ok (.eval marker code)), t) => region s.offset (some marker) code :: regions t
  | (some (.ok (.raw code)), t) => region s.offset none code :: regions t
  | (some (.ok (.text _)), t) => regions t
  | (some (.error _), _) | (none, _) => []
termination_by s.left
decreasing_by all_goals exact Scanner.left_next_lt _h

end Event

/-- The lines of the events that a level lets through. -/
def logText (level : Level) (events : List Event) : Text :=
  (events.filter fun e => e.level.rank ≤ level.rank).flatMap Event.line

/-- What a run writes: a note for the log, or text for standard output. -/
inductive Record
  | noted (e : Event)
  | printed (s : Text)
  deriving DecidableEq

namespace Record

def event? : Record → Option Event
  | noted e => some e
  | printed _ => none

def output : Record → Text
  | noted _ => []
  | printed s => s

end Record

/-- All that a run has written, in order. -/
abbrev Transcript := Array Record

namespace Transcript

def events (t : Transcript) : List Event := t.toList.filterMap Record.event?

def printed (t : Transcript) : Text := t.toList.flatMap Record.output

theorem printed_push_noted (t : Transcript) (e : Event) :
    printed (t.push (.noted e)) = printed t := by
  simp [printed, Record.output]

theorem printed_push_printed (t : Transcript) (s : Text) :
    printed (t.push (.printed s)) = printed t ++ s := by
  simp [printed, Record.output]

end Transcript

end Stencil.Command
