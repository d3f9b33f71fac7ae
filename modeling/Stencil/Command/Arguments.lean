import Stencil.Delimiters.Overrides
import Stencil.Files
import Stencil.Template.RustSource

/-! Command lines: what they ask for, and how they are read. -/
namespace Stencil.Command

inductive Format
  | rust
  | json
  deriving DecidableEq

/-- Where the delimiters of a template come from. -/
structure DelimiterOptions where
  config : Option Path := none
  overrides : Overrides := {}
  deriving DecidableEq

structure CompileOptions where
  input : Path
  output : Path
  format : Format := .rust
  /-- Without a name, the input's stem gives one. -/
  name : Option Text := none
  contextType : Text := Template.defaultContextType
  delimiters : DelimiterOptions := {}
  deriving DecidableEq

structure RenderOptions where
  input : Path
  context : Path
  /-- Without an output file, the text goes to standard output. -/
  output : Option Path := none
  /-- The markers whose results are escaped for HTML. -/
  escape : List Char := []
  delimiters : DelimiterOptions := {}
  deriving DecidableEq

inductive Task
  | compile (options : CompileOptions)
  | render (options : RenderOptions)
  deriving DecidableEq

structure Request where
  verbose : Bool
  task : Task
  deriving DecidableEq

/-- Why a command line is no request. -/
inductive Stop
  | usage
  | help
  | version
  deriving DecidableEq

inductive OptionName
  | format
  | name
  | contextType
  | context
  | output
  | escape
  | config
  | start
  | stop
  | markers
  deriving DecidableEq

namespace OptionName

def long : OptionName → Text
  | format => "format"
  | name => "name"
  | contextType => "context-type"
  | context => "context"
  | output => "output"
  | escape => "escape"
  | config => "config"
  | start => "start"
  | stop => "end"
  | markers => "markers"

def short? : OptionName → Option Char
  | output => some 'o'
  | _ => none

def repeats : OptionName → Bool
  | escape => true
  | _ => false

/-- Paths may not be empty, and some values have a form. -/
def accepts (value : Text) : OptionName → Bool
  | format => value = "rust" || value = "json"
  | context | output | config => value ≠ []
  | escape => value.length = 1
  | name | contextType | start | stop | markers => true

def delimiters : List OptionName := [config, start, stop, markers]

end OptionName

/-- A command: its options and how many positional arguments it takes. -/
structure Grammar where
  options : List OptionName
  positionals : Nat

def Grammar.compile : Grammar := ⟨.format :: .name :: .contextType :: OptionName.delimiters, 2⟩

def Grammar.render : Grammar := ⟨.context :: .output :: .escape :: OptionName.delimiters, 1⟩

/-- Before the command only flags can stand. -/
def Grammar.top : Grammar := ⟨[], 0⟩

/-- What an argument means. -/
inductive Meaning
  | verbose
  | help
  | version
  | value (option : OptionName) (value : Text)
  /-- The value is the next argument. -/
  | awaiting (option : OptionName)
  | positional (value : Text)
  | unknown
  deriving DecidableEq

namespace Grammar

variable (g : Grammar)

/-- The meaning of an argument that starts with two dashes, which are cut off. -/
def long (version : Bool) (s : Text) : Meaning :=
  let name := s.takeWhile (· ≠ '=')
  match s.dropWhile (· ≠ '='), g.options.find? (·.long = name) with
  | [], some option => .awaiting option
  | _ :: value, some option => .value option value
  | [], none =>
    if name = "verbose" then .verbose
    else if name = "help" then .help
    else if version ∧ name = "version" then .version
    else .unknown
  | _ :: _, none => .unknown

/-- The meanings of letters after one dash; a letter with a value takes what follows it. -/
def letters (version : Bool) : Text → List Meaning
  | [] => []
  | c :: s =>
    match g.options.find? (·.short? = some c), s with
    | some option, [] => [.awaiting option]
    | some option, '=' :: value => [.value option value]
    | some option, value => [.value option value]
    | none, s =>
      let meaning :=
        if c = 'v' then .verbose
        else if c = 'h' then .help
        else if version ∧ c = 'V' then .version
        else .unknown
      meaning :: letters version s

def meanings (version : Bool) : Text → List Meaning
  | '-' :: '-' :: s => [g.long version s]
  | ['-'] => [.positional ['-']]
  | '-' :: s => g.letters version s
  | s => [.positional s]

end Grammar

/-- What has been read of a command line. -/
structure Gathered where
  verbose : Bool := false
  values : List (OptionName × Text) := []
  positionals : List Text := []

namespace Gathered

/-- Takes up a meaning; an option that may not repeat is refused the second time. -/
def take (g : Grammar) (r : Gathered) : Meaning → Except Stop Gathered
  | .verbose => if r.verbose then .error .usage else .ok { r with verbose := true }
  | .help => .error .help
  | .version => .error .version
  | .value option value =>
    if option.accepts value && (option.repeats || r.values.all (·.1 ≠ option)) then
      .ok { r with values := r.values ++ [(option, value)] }
    else .error .usage
  | .positional value =>
    if value ≠ [] ∧ r.positionals.length < g.positionals then
      .ok { r with positionals := r.positionals ++ [value] }
    else .error .usage
  | .awaiting _ | .unknown => .error .usage

/-- Whether an argument cannot be the value of the option before it. -/
def isFlag : Text → Bool
  | ['-'] => false
  | '-' :: _ => true
  | _ => false

/-- Reads the arguments of a command. After two dashes alone all are positional. -/
def ofArguments (g : Grammar) (r : Gathered) : List Text → Except Stop Gathered
  | [] => .ok r
  | arg :: args =>
    if arg = "--" then (args.map .positional).foldlM (take g) r
    else
      let meanings := g.meanings false arg
      match meanings.getLast?, args with
      | some (.awaiting option), value :: args => do
        let r ← meanings.dropLast.foldlM (take g) r
        if isFlag value then throw .usage
        ofArguments g (← take g r (.value option value)) args
      | _, args => do ofArguments g (← meanings.foldlM (take g) r) args

variable (r : Gathered)

def value? (option : OptionName) : Option Text := r.values.lookup option

def delimiters : DelimiterOptions where
  config := (r.value? .config).map Path.mk
  overrides := ⟨r.value? .start, r.value? .stop, r.value? .markers⟩

def compileTask : Except Stop Task :=
  match r.positionals with
  | [input, output] =>
    .ok <| .compile {
      input := ⟨input⟩
      output := ⟨output⟩
      format := if r.value? .format = some "json".toList then .json else .rust
      name := r.value? .name
      contextType := (r.value? .contextType).getD Template.defaultContextType
      delimiters := r.delimiters }
  | _ => .error .usage

def renderTask : Except Stop Task :=
  match r.positionals, r.value? .context with
  | [input], some context =>
    .ok <| .render {
      input := ⟨input⟩
      context := ⟨context⟩
      output := (r.value? .output).map Path.mk
      escape := r.values.flatMap fun (option, value) => if option = .escape then value else []
      delimiters := r.delimiters }
  | _, _ => .error .usage

end Gathered

namespace Request

/-- Help can be asked for in general and for one command. -/
def helpOn : List Text → Stop
  | [] => .help
  | [command] =>
    if command = "compile" ∨ command = "render" ∨ command = "help" then .help else .usage
  | _ => .usage

/-- Reads what follows the flags in front, of which `verbose` is one. -/
def afterFlags (verbose : Bool) : List Text → Except Stop Request
  | [] => .error .usage
  | arg :: args =>
    if arg = "compile" then do
      let r ← Gathered.ofArguments .compile {} args
      return ⟨verbose || r.verbose, ← r.compileTask⟩
    else if arg = "render" then do
      let r ← Gathered.ofArguments .render {} args
      return ⟨verbose || r.verbose, ← r.renderTask⟩
    else if arg = "help" then .error (helpOn args)
    else if arg = "--" then .error .usage
    else do
      let r ← (Grammar.top.meanings true arg).foldlM (Gathered.take .top) { verbose }
      afterFlags r.verbose args

def ofArguments (args : List Text) : Except Stop Request := afterFlags false args

end Request

end Stencil.Command
