import Stencil.Literal
import Stencil.Scanner

/-! The instruction stream that a template compiles to. -/
namespace Stencil

inductive Instruction
  | emitLiteral (bytes : Literal)
  | emitEvaluated (expr : Text) (marker : Char)
  | splice (code : Text)
  deriving DecidableEq

namespace Instruction

/-- Empty text asks for nothing. -/
def ofSegment? : Segment → Option Instruction
  | .text [] => none
  | .text content => some (emitLiteral (.encode content))
  | .eval marker code => some (emitEvaluated code marker)
  | .raw code => some (splice code)

def ofSegments (segments : List Segment) : List Instruction := segments.filterMap ofSegment?

end Instruction

def compile (d : Delimiters) (source : Text) : Except CompileError (List Instruction) :=
  (scan d source).map Instruction.ofSegments

end Stencil
