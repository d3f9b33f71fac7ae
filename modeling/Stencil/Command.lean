import Stencil.Command.Stages

/-! The program as a function of its arguments and the files it finds. -/
namespace Stencil.Command

structure Outcome where
  exitCode : Nat
  standardOutput : Text
  standardError : Text
  deriving DecidableEq

def versionText : Text := "tmplc 0.1.0\n"

def usageText : Text := "Usage: tmplc [OPTIONS] <COMMAND>

Commands:
  compile <INPUT> <OUTPUT>            Compile a template to Rust source or a JSON artifact
    --format <rust|json>              What to write [default: rust]
    --name <NAME>                     Name of the template [default: from the input]
    --context-type <TYPE>             Type of the context in Rust source [default: Context]
  render <INPUT> --context <CONTEXT>  Render a template or an artifact against a JSON context
    -o, --output <OUTPUT>             Write here instead of to standard output
    --escape <MARKER>                 Escape the results of this marker for HTML (repeatable)

Both commands:
    --config <CONFIG>                 JSON file with delimiters
    --start <START>                   Start delimiter
    --end <END>                       End delimiter
    --markers <MARKERS>               Eval markers

Options:
  -v, --verbose                       Log at debug level
  -h, --help                          Print help
  -V, --version                       Print version
"

variable {m : Type → Type} [Monad m] [MonadFiles m]

def Task.stage : Task → Stage m Unit
  | .compile o => compileTemplate o
  | .render o => renderTemplate o

/-- What has been printed goes to standard output, also if a later stage fails. Logs go to standard
error, with the report of a failure after them. -/
def Task.run (level : Level) (task : Task) : m Outcome := do
  let (result, transcript) ← (task.stage.run : StateT Transcript m _).run #[]
  let output := Transcript.printed transcript
  let log := logText level (Transcript.events transcript)
  match result with
  | .ok () => return ⟨0, output, log⟩
  | .error f => return ⟨1, output, log ++ f.report⟩

/-- Runs the program. A level of the environment wins over the arguments. -/
def run (environmentLevel : Option Level) (args : List Text) : m Outcome :=
  match Request.ofArguments args with
  | .error .usage => return ⟨2, [], usageText⟩
  | .error .help => return ⟨0, usageText, []⟩
  | .error .version => return ⟨0, versionText, []⟩
  | .ok request =>
    request.task.run (environmentLevel.getD (if request.verbose then .debug else .info))

end Stencil.Command
