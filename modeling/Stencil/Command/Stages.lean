import Stencil.Command.Arguments
import Stencil.Command.Failure
import Stencil.Command.Log
import Stencil.Context
import Stencil.Name
import Stencil.Output
import Stencil.Template.Artifact

/-!
The stages of the commands, over any files. Each notes events, may print, and says what it failed
at.
-/
namespace Stencil.Command

/-- A stage of a run; what it has written outlives a failure. -/
abbrev Stage (m : Type → Type) (α : Type) := ExceptT Failure (StateT Transcript m) α

variable {m : Type → Type} [Monad m] {α ε : Type}

namespace Stage

def note (e : Event) : Stage m Unit := modify (·.push (.noted e))

/-- Writes to standard output, which is taken to succeed. -/
def print (s : Text) : Stage m Unit := modify (·.push (.printed s))

def fail (message : Text) (causes : List Text) : Stage m α := throw ⟨message, causes⟩

/-- Says what was being done when a stage fails. -/
def during (activity : Text) (stage : Stage m α) : Stage m α :=
  ExceptT.mk do
    match ← stage.run with
    | .ok v => return .ok v
    | .error f => return .error (f.during activity)

def ofExcept (message : ε → Text) : Except ε α → Stage m α
  | .ok v => pure v
  | .error e => fail (message e) []

def ofFiles (action : m (Except FileError α)) : Stage m α := do
  ofExcept FileError.message (← (liftM action : Stage m _))

end Stage

open Stage

section

variable [MonadFiles m]

def readText (p : Path) : Stage m Text :=
  during ("Reading " ++ p.text) (ofFiles (MonadFiles.readText p))

def writeText (p : Path) (s : Text) : Stage m Unit := ofFiles (MonadFiles.writeText p s)

/-- The delimiters of a configuration file, if there is one, with the overrides in their place. -/
def configure (o : DelimiterOptions) : Stage m { d : Delimiters // d.Valid } := do
  let base ← match o.config with
    | none => pure Delimiters.standard
    | some path =>
      let document ← readText path
      let d ← during ("Parsing config " ++ path.text) <|
        ofExcept (Json.Fault.message document) (Delimiters.ofDocument document)
      note (.configLoaded path)
      pure d
  let d ← ofExcept CompileError.message (base.resolve o.overrides)
  d.val.ambiguities.forM fun a => note (.ambiguity a)
  return d

def loadDelimiters (o : DelimiterOptions) : Stage m { d : Delimiters // d.Valid } :=
  during "Loading delimiter config" (configure o)

end

/-- Compiles a template and notes its regions, all of them or those before a failure. -/
def compileSource (d : Delimiters) (source : Text) : Stage m (List Instruction) := do
  let scanner ← ofExcept CompileError.message (Scanner.ofText d source)
  (Event.regions scanner).forM note
  let segments ← ofExcept CompileError.message (scanner.items.mapM id)
  note (.scanned source.length segments.length)
  let instructions := Instruction.ofSegments segments
  note (.emitted instructions.length)
  return instructions

/-- The name that was given, or that of the input; both have to be names. -/
def templateName (name : Option Text) (input : Path) : Stage m Text := do
  let name := name.getD (Name.ofStem (input.stem?.getD []))
  if Name.isName name then return name
  else
    fail ("`" ++ name ++
      "` is not a valid artifact name (ASCII identifier, not a keyword), pass --name") []

section

variable [MonadFiles m]

def writeArtifact (t : Template) (directory : Path) : Stage m Path := do
  let path := directory.join (t.name ++ ".json")
  during ("Writing " ++ path.text) (writeText path t.artifact)
  return path

def writeRustSource (t : Template) (contextType : Text) (directory : Path) : Stage m Path := do
  let path := directory.join (t.name ++ ".rs")
  writeText path (t.rustSource contextType)
  return path

def compileTemplate (o : CompileOptions) : Stage m Unit := do
  let d ← loadDelimiters o.delimiters
  let name ← templateName o.name o.input
  let source ← readText o.input
  let template ← during ("Compiling " ++ o.input.text) do
    let instructions ← compileSource d.val source
    note (.compiled name instructions.length)
    pure { name, delimiters := d.val, instructions : Template }
  during ("Creating " ++ o.output.text) (ofFiles (MonadFiles.createDirs o.output))
  let path ← match o.format with
    | .rust => during "Writing Rust source" (writeRustSource template o.contextType o.output)
    | .json => during "Writing JSON artifact" (writeArtifact template o.output)
  note (.templateCompiled template.instructions.length path)

/-- The instructions of an input: an artifact if it is a JSON file, or else a template. -/
def loadInstructions (input : Path) (o : DelimiterOptions) : Stage m (List Instruction) := do
  if input.extension? = some "json".toList then
    let document ← readText input
    let instructions ← during ("Loading compiled artifact " ++ input.text) <|
      ofExcept Template.LoadError.message (Template.loadInstructions document)
    note (.artifactLoaded instructions.length)
    return instructions
  else
    let d ← loadDelimiters o
    let source ← readText input
    during ("Compiling " ++ input.text) (compileSource d.val source)

end

/-- The causes behind a failed run of instructions. -/
def renderCauses : RenderError Context.HostError → List Text
  | .literal (.utf8 fault) => [(LiteralError.utf8 fault).message, fault.message]
  | .literal e => [e.message]
  | .host _ cause | .splice _ cause | .write cause => [cause.message]

/-- Runs instructions against a context and notes each. The output is made as a whole. -/
def renderInstructions (root : Json) (escape : List Char) (instructions : List Instruction) :
    Stage m Text := do
  let sink : Sink (Output × Array Event) Context.HostError :=
    ⟨fun content marker s => (.ok (), s.1.write content marker, s.2)⟩
  let observe := fun pc i (s : Output × Array Event) => (s.1, s.2.push (.step pc i))
  let start : Output := ⟨[], .ofList escape⟩
  let (result, output, steps) :=
    executeObserved (Context.host root) sink observe 0 instructions (start, #[])
  steps.toList.forM note
  match result with
  | .ok () => return output.text
  | .error e => fail e.message (renderCauses e)

section

variable [MonadFiles m]

def renderTemplate (o : RenderOptions) : Stage m Unit := do
  let instructions ← loadInstructions o.input o.delimiters
  let document ← readText o.context
  let root ← during ("Parsing context " ++ o.context.text) <|
    ofExcept (Json.Fault.message document) (Json.ofText document)
  let rendered ← during ("Rendering " ++ o.input.text) <|
    renderInstructions root o.escape instructions
  match o.output with
  | some path =>
    during ("Writing " ++ path.text) (writeText path rendered)
    note (.templateRendered path)
  | none => print rendered

end

end Stencil.Command
