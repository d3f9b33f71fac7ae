import Stencil.Instruction

/-!
Running an instruction stream. The host runs the code and the sink takes the output; both act on one
state, and the first failure ends the run with the state it left.
-/
namespace Stencil

/-- A step that may change the state and may fail; the state outlives a failure. -/
abbrev Action (σ ε α : Type) := ExceptT ε (StateM σ) α

structure Host (σ ε : Type) where
  evaluate (expr : Text) (marker : Char) : Action σ ε Text
  splice (code : Text) : Action σ ε Unit

structure Sink (σ ε : Type) where
  /-- The marker is that of an evaluated expression; static text has none. -/
  write (content : Text) (marker : Option Char) : Action σ ε Unit

/-- Why a run ended, with the cause that the host or the sink gave. -/
inductive RenderError (ε : Type)
  | literal (e : LiteralError)
  | host (expr : Text) (cause : ε)
  | splice (code : Text) (cause : ε)
  | write (cause : ε)
  deriving DecidableEq

namespace RenderError

def message {ε : Type} : RenderError ε → Text
  | literal e => "corrupt literal in instruction stream: " ++ e.message
  | host expr _ => "evaluating `" ++ expr ++ "` failed"
  | splice code _ => "splicing `" ++ code ++ "` failed"
  | write _ => "write callback failed"

end RenderError

section

variable {σ ε δ α : Type}

namespace Action

/-- Gives a failure its place in the run. -/
def mapError (f : ε → δ) (a : Action σ ε α) : Action σ δ α := fun s => ((a s).1.mapError f, (a s).2)

end Action

variable (host : Host σ ε) (sink : Sink σ ε)

namespace Instruction

def run : Instruction → Action σ (RenderError ε) Unit
  | emitLiteral bytes => do
    let content ← liftExcept (bytes.decode.mapError .literal)
    (sink.write content none).mapError .write
  | emitEvaluated expr marker => do
    let value ← (host.evaluate expr marker).mapError (.host expr)
    (sink.write value (some marker)).mapError .write
  | splice code => (host.splice code).mapError (.splice code)
where
  liftExcept {β : Type} (r : Except (RenderError ε) β) : Action σ (RenderError ε) β :=
    fun s => (r, s)

end Instruction

def execute (instructions : List Instruction) : Action σ (RenderError ε) Unit :=
  instructions.forM (Instruction.run host sink)

/-- Runs instructions from index `pc` on and shows each to an observer before it runs. -/
def executeObserved (observe : Nat → Instruction → σ → σ) (pc : Nat) :
    List Instruction → Action σ (RenderError ε) Unit
  | [] => pure ()
  | i :: instructions => do
    modify (observe pc i)
    i.run host sink
    executeObserved observe (pc + 1) instructions

end

end Stencil
