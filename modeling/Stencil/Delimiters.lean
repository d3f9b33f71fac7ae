import Stencil.Markers
import Stencil.Text

/-! The delimiters and eval markers of a template. -/
namespace Stencil

/-- Code stands between `start` and `stop`; a marker right after `start` asks for the value of the
code. -/
structure Delimiters where
  start : Text
  stop : Text
  markers : Markers
  deriving DecidableEq

inductive Side
  | start
  | stop
  deriving DecidableEq

inductive CompileError
  | unterminated (start stop : Text) (offset : Nat)
  | emptyDelimiter (side : Side)
  deriving DecidableEq

namespace Delimiters

def standard : Delimiters := ⟨"<%", "%>", .ofList ['=']⟩

def Valid (d : Delimiters) : Prop := d.start ≠ [] ∧ d.stop ≠ []

instance (d : Delimiters) : Decidable d.Valid := inferInstanceAs (Decidable (_ ∧ _))

/-- The start delimiter is looked at first. -/
def emptySide (d : Delimiters) : Side := if d.start = [] then .start else .stop

def validate (d : Delimiters) : Except CompileError { d : Delimiters // d.Valid } :=
  if h : d.Valid then .ok ⟨d, h⟩ else .error (.emptyDelimiter d.emptySide)

end Delimiters

namespace CompileError

def message : CompileError → Text
  | unterminated start stop offset =>
    "unterminated `" ++ start ++ "` at offset " ++ Text.ofNat offset ++ ": no matching `" ++ stop ++
      "` before end of input"
  | emptyDelimiter .start => "invalid delimiter configuration: start delimiter is empty"
  | emptyDelimiter .stop => "invalid delimiter configuration: end delimiter is empty"

end CompileError

end Stencil
