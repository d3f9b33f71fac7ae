import Stencil.Proofs.Command.Effects
import Stencil.Proofs.Name
import Stencil.Proofs.Results
import Stencil.Proofs.Text.Utf8

/-! The effect of each stage, and what the commands come to. -/
namespace Stencil

/-- The text of a file, if it is there and is text. -/
def FileSystem.text? (fs : FileSystem) (p : Path) : Option Text :=
  (fs.readBytes p).toOption.bind fun bytes => (Text.decodeUtf8 bytes).toOption

theorem FileSystem.text?_eq_some_iff {fs : FileSystem} {p : Path} {s : Text} :
    fs.text? p = some s ↔ fs.readBytes p = .ok (Text.encodeUtf8 s) := by
  simp [text?, Option.bind_eq_some_iff, toOption_eq_some_iff, Text.decodeUtf8_eq_ok_iff]

/-- The host of a context has no state of its own. -/
theorem Context.actsOn_host {σ τ : Type} (part : τ → σ) (root : Json) :
    (host root).ActsOn part (host root) := ⟨fun _ _ _ => rfl, fun _ _ => rfl⟩

namespace Command

open Effect (reads)
open Stage (Acts)

variable {fs : FileSystem}

def delimiters? (o : DelimiterOptions) (fs : FileSystem) : Option { d : Delimiters // d.Valid } :=
  let base := match o.config with
    | none => some Delimiters.standard
    | some path => (fs.text? path).bind fun document => (Delimiters.ofDocument document).toOption
  base.bind fun base => (base.resolve o.overrides).toOption

/-- The name that is given, or that of the input. -/
def CompileOptions.templateName (o : CompileOptions) : Text :=
  o.name.getD (Name.ofStem (o.input.stem?.getD []))

def templateName? (o : CompileOptions) : Option Text :=
  if Name.isName o.templateName then some o.templateName else none

/-- The template that a command line asks for. -/
def template? (o : CompileOptions) (fs : FileSystem) : Option Template :=
  (delimiters? o.delimiters fs).bind fun d =>
  (templateName? o).bind fun name =>
  (fs.text? o.input).bind fun source => (Template.ofSource name d.val source).toOption

theorem template?_eq_some_iff {o : CompileOptions} {t : Template} :
    template? o fs = some t ↔
      ∃ d source, delimiters? o.delimiters fs = some d ∧ Name.isName o.templateName ∧
        fs.text? o.input = some source ∧
        Template.ofSource o.templateName d.val source = .ok t := by
  rw [template?, templateName?]
  by_cases hname : Name.isName o.templateName
  · simp only [hname, if_true, Option.bind_some, Option.bind_eq_some_iff, toOption_eq_some_iff,
      true_and, exists_and_left]
  · simp [hname]

theorem name_of_template? {o : CompileOptions} {t : Template}
    (h : template? o fs = some t) : t.name = o.templateName := by
  obtain ⟨d, source, -, -, -, hsource⟩ := template?_eq_some_iff.mp h
  obtain ⟨instructions, -, rfl⟩ := map_eq_ok_iff.mp hsource
  rfl

def instructions? (input : Path) (o : DelimiterOptions) (fs : FileSystem) :
    Option (List Instruction) :=
  if input.extension? = some "json".toList then
    (fs.text? input).bind fun document => (Template.loadInstructions document).toOption
  else
    (delimiters? o fs).bind fun d =>
    (fs.text? input).bind fun source => (compile d.val source).toOption

/-- An input that is no artifact is a template. -/
theorem instructions?_of_compile {input : Path} {o : DelimiterOptions}
    {d : { d : Delimiters // d.Valid }} {source : Text} {instructions : List Instruction}
    (hinput : input.extension? ≠ some "json".toList) (hd : delimiters? o fs = some d)
    (htext : fs.text? input = some source) (hcompile : compile d.val source = .ok instructions) :
    instructions? input o fs = some instructions := by
  rw [instructions?, if_neg hinput, hd, Option.bind_some, htext, Option.bind_some, hcompile]
  rfl

/-- The output of instructions run against a context. -/
def outputText? (root : Json) (escape : List Char) (instructions : List Instruction) :
    Option Text :=
  match execute (Context.host root) Output.sink instructions ⟨[], .ofList escape⟩ with
  | (.ok _, output) => some output.text
  | (.error _, _) => none

def rendered? (o : RenderOptions) (fs : FileSystem) : Option Text :=
  (instructions? o.input o.delimiters fs).bind fun instructions =>
  (fs.text? o.context).bind fun document =>
  (Json.ofText document).toOption.bind fun root => outputText? root o.escape instructions

theorem acts_readText (p : Path) : Acts (readText p) (reads fun fs => fs.text? p) := by
  have hread : Effect.ofFiles (MonadFiles.readText p) = reads fun fs => fs.text? p := by
    funext w
    have hrun : (MonadFiles.readText p : StateM FileSystem (Except FileError Text)) w.files =
        ((w.files.readBytes p).bind fun bytes =>
          (Text.decodeUtf8 bytes).mapError fun _ => .notText, w.files) := by
      unfold MonadFiles.readText
      rcases h : w.files.readBytes p with e | bytes
      · simp only [bind, StateT.bind, MonadFiles.readBytes, h]
        rfl
      · simp only [bind, StateT.bind, MonadFiles.readBytes, h]
        rfl
    rw [Effect.ofFiles, hrun, reads, FileSystem.text?]
    rcases w.files.readBytes p with e | bytes
    · rfl
    · simp only [Except.bind, Except.toOption, Option.bind_some]
      rcases Text.decodeUtf8 bytes with e | s <;> rfl
  rw [← hread]
  exact .during _ (.ofFiles _)

theorem acts_configure (o : DelimiterOptions) : Acts (configure o) (reads (delimiters? o)) := by
  have hresolve (base : Delimiters) : Acts (do
      let d ← Stage.ofExcept CompileError.message (base.resolve o.overrides)
      d.val.ambiguities.forM fun a => Stage.note (.ambiguity a)
      return d) (reads fun _ => (base.resolve o.overrides).toOption) :=
    .followed (.ofExcept _ _) fun d => .forM_note_bind _ _ (.pure d)
  unfold configure delimiters?
  cases o.config with
  | none => exact .bind_reads (.pure _) hresolve
  | some path =>
    simp only [Option.bind_assoc]
    refine .bind_reads (acts_readText path) fun document => ?_
    refine .bind_reads (.during _ (.ofExcept _ _)) fun d => ?_
    exact .note_bind _ (hresolve d)

theorem acts_loadDelimiters (o : DelimiterOptions) :
    Acts (loadDelimiters o) (reads (delimiters? o)) := .during _ (acts_configure o)

theorem acts_compileSource (d : Delimiters) (source : Text) :
    Acts (compileSource d source) (reads fun _ => (compile d source).toOption) := by
  have hcompile : (compile d source).toOption =
      (Scanner.ofText d source).toOption.bind fun scanner =>
        (scanner.items.mapM id).toOption.bind fun segments =>
          some (Instruction.ofSegments segments) := by
    rw [compile, scan]
    rcases Scanner.ofText d source with e | scanner
    · rfl
    · change ((scanner.items.mapM id).map Instruction.ofSegments).toOption =
        (scanner.items.mapM id).toOption.bind _
      rcases scanner.items.mapM id with e | segments <;> rfl
  rw [hcompile]
  refine .bind_reads (.ofExcept _ _) fun scanner => ?_
  refine .forM_note_bind _ id ?_
  refine .bind_reads (.ofExcept _ _) fun segments => ?_
  exact .note_bind _ (.note_bind _ (.pure _))

theorem acts_templateName (o : CompileOptions) :
    Acts (templateName o.name o.input) (reads fun _ => templateName? o) := by
  unfold templateName templateName? CompileOptions.templateName
  dsimp only
  split
  · exact .pure _
  · exact fun _ _ => rfl

theorem acts_loadInstructions (input : Path) (o : DelimiterOptions) :
    Acts (loadInstructions input o) (reads (instructions? input o)) := by
  unfold loadInstructions instructions?
  split
  · refine .bind_reads (acts_readText input) fun document => ?_
    exact .followed (.during _ (.ofExcept _ _)) fun instructions => .note_bind _ (.pure _)
  · refine .bind_reads (acts_loadDelimiters o) fun d => ?_
    refine .bind_reads (acts_readText input) fun source => ?_
    exact .during _ (acts_compileSource d.val source)

theorem acts_renderInstructions (root : Json) (escape : List Char)
    (instructions : List Instruction) :
    Acts (renderInstructions root escape instructions)
      (reads fun _ => outputText? root escape instructions) := by
  -- The stage runs with the steps beside the output; the output alone is carried along.
  let sink : Sink (Output × Array Event) Context.HostError :=
    ⟨fun content marker s => (.ok (), s.1.write content marker, s.2)⟩
  let observe := fun pc i (s : Output × Array Event) => (s.1, s.2.push (.step pc i))
  let start : Output := ⟨[], .ofList escape⟩
  have hsink : sink.ActsOn Prod.fst Output.sink := fun _ _ _ => rfl
  have hobserve : ∀ pc i s, (observe pc i s).1 = s.1 := fun _ _ _ => rfl
  have hrun := actsOn_executeObserved (Context.actsOn_host Prod.fst root) hsink hobserve 0
    instructions (start, #[])
  rw [outputText?, ← hrun]
  unfold renderInstructions
  rcases h : executeObserved (Context.host root) sink observe 0 instructions (start, #[]) with
    ⟨result, output, steps⟩
  simp only [sink, observe, start] at h
  simp only [h]
  refine .forM_note_bind _ id ?_
  cases result with
  | ok _ => exact .pure _
  | error e => exact fun _ _ => rfl

/-- Where the text of a rendering goes. -/
def deliver : Option Path → Text → Effect Unit
  | some path, text => Effect.ofFiles (MonadFiles.writeText path text)
  | none, text => Effect.print text

theorem acts_renderTemplate (o : RenderOptions) :
    Acts (renderTemplate o) (reads (rendered? o) >>= deliver o.output) := by
  unfold renderTemplate rendered?
  refine .bind_reads_bind (acts_loadInstructions o.input o.delimiters) fun instructions => ?_
  refine .bind_reads_bind (acts_readText o.context) fun document => ?_
  refine .bind_reads_bind (.during _ (.ofExcept _ _)) fun root => ?_
  refine .bind (.during _ (acts_renderInstructions root o.escape instructions)) fun text => ?_
  cases o.output with
  | some path =>
    rw [← Effect.bind_done (deliver (some path) text)]
    exact .bind (.during _ (.ofFiles _)) fun _ => .note _
  | none => exact .print text

/-- The end of the name of what a format makes. -/
def Format.suffix : Format → Text
  | .rust => ".rs"
  | .json => ".json"

theorem Format.slash_not_mem_fileName {name : Text} (format : Format)
    (hname : Name.Identifier name) : '/' ∉ name ++ format.suffix := by
  rw [List.mem_append, not_or]
  refine ⟨hname.slash_not_mem, ?_⟩
  cases format <;> decide

/-- Where a template of a name is written. -/
def CompileOptions.file (o : CompileOptions) (name : Text) : Path :=
  o.output.join (name ++ o.format.suffix)

def CompileOptions.content (o : CompileOptions) (t : Template) : Text :=
  match o.format with
  | .rust => t.rustSource o.contextType
  | .json => t.artifact

/-- Writes a compiled template. -/
def store (o : CompileOptions) (t : Template) : Effect Unit := do
  Effect.ofFiles (MonadFiles.createDirs o.output)
  Effect.ofFiles (MonadFiles.writeText (o.file t.name) (o.content t))

theorem acts_compileTemplate (o : CompileOptions) :
    Acts (compileTemplate o) (reads (template? o) >>= store o) := by
  unfold compileTemplate template?
  refine .bind_reads_bind (acts_loadDelimiters o.delimiters) fun d => ?_
  refine .bind_reads_bind (acts_templateName o) fun name => ?_
  refine .bind_reads_bind (acts_readText o.input) fun source => ?_
  refine .bind (.during _ ?_) fun t => ?_
  · have hsource : (Template.ofSource name d.val source).toOption =
        (compile d.val source).toOption.bind fun instructions =>
          some ⟨name, d.val, instructions⟩ := by
      rw [Template.ofSource]
      rcases compile d.val source with e | instructions <;> rfl
    rw [hsource]
    refine .bind_reads (acts_compileSource d.val source) fun instructions => ?_
    exact .note_bind _ (.pure _)
  · refine .bind (.during _ (.ofFiles _)) fun _ => ?_
    unfold CompileOptions.file CompileOptions.content
    cases o.format with
    | rust =>
      rw [← Effect.bind_some_bind_done (Effect.ofFiles _) (o.output.join (t.name ++ ".rs"))]
      exact .bind (.during _ (.bind (.ofFiles _) fun _ => .pure _)) fun path => .note _
    | json =>
      rw [← Effect.bind_some_bind_done (Effect.ofFiles _) (o.output.join (t.name ++ ".json"))]
      exact .bind (.during _ (.bind (.during _ (.ofFiles _)) fun _ => .pure _)) fun path => .note _

namespace Task

/-- What is looked up is looked up before anything is printed or written. -/
def effect : Task → Effect Unit
  | .compile o => reads (template? o) >>= store o
  | .render o => reads (rendered? o) >>= deliver o.output

theorem acts_stage (task : Task) : Acts task.stage task.effect := by
  cases task with
  | compile o => exact acts_compileTemplate o
  | render o => exact acts_renderTemplate o

/-- Compilation succeeds if there is a template to write and the writing succeeds. -/
theorem effect_compile_eq_some_iff {o : CompileOptions} {w w' : World} :
    (compile o).effect w = (some (), w') ↔
      ∃ t made left, template? o w.files = some t ∧
        (MonadFiles.createDirs o.output : StateM FileSystem (Except FileError Unit)) w.files =
          (.ok (), made) ∧
        made.writeBytes (o.file t.name) (Text.encodeUtf8 (o.content t)) = .ok left ∧
        { w with files := left } = w' := by
  simp only [effect, store, Effect.bind_eq_some_iff, Effect.reads_eq_some_iff]
  constructor
  · rintro ⟨t, _, ⟨ht, rfl⟩, ⟨⟩, _, hcreated, hwritten⟩
    obtain ⟨made, hmade, rfl⟩ := Effect.ofFiles_eq_some_iff.mp hcreated
    obtain ⟨left, hwrite, rfl⟩ := Effect.writeText_eq_some_iff.mp hwritten
    exact ⟨t, made, left, ht, hmade, hwrite, rfl⟩
  · rintro ⟨t, made, left, ht, hmade, hwrite, rfl⟩
    exact ⟨t, w, ⟨ht, rfl⟩, (), _, Effect.ofFiles_eq_some_iff.mpr ⟨made, hmade, rfl⟩,
      Effect.writeText_eq_some_iff.mpr ⟨left, hwrite, rfl⟩⟩

/-- The task carried out on given files. -/
def runOn (task : Task) (level : Level) (fs : FileSystem) : Outcome × FileSystem :=
  (task.run level : StateM FileSystem Outcome) fs

variable (task : Task) (level : Level) (fs : FileSystem)

theorem runOn_apply :
    ∃ log, task.runOn level fs =
      match task.effect ⟨[], fs⟩ with
      | (some _, w) => (⟨0, w.printed, log⟩, w.files)
      | (none, w) => (⟨1, w.printed, log⟩, w.files) := by
  have hempty : Transcript.printed #[] = [] := rfl
  rw [← hempty, ← task.acts_stage #[] fs]
  unfold runOn run
  rcases h : (task.stage : Stage (StateM FileSystem) Unit) #[] fs with ⟨⟨f | _, written⟩, left⟩
  · simp only [bind, StateT.bind, StateT.run, ExceptT.run, h]
    exact ⟨_, rfl⟩
  · simp only [bind, StateT.bind, StateT.run, ExceptT.run, h]
    exact ⟨_, rfl⟩

theorem runOn_snd : (task.runOn level fs).2 = (task.effect ⟨[], fs⟩).2.files := by
  obtain ⟨log, hrun⟩ := task.runOn_apply level fs
  rw [hrun]
  rcases task.effect ⟨[], fs⟩ with ⟨- | _, w⟩ <;> rfl

theorem exitCode_runOn :
    (task.runOn level fs).1.exitCode = if (task.effect ⟨[], fs⟩).1.isSome then 0 else 1 := by
  obtain ⟨log, hrun⟩ := task.runOn_apply level fs
  rw [hrun]
  rcases task.effect ⟨[], fs⟩ with ⟨- | _, w⟩ <;> rfl

/-- A run that reports success has had its whole effect. -/
theorem exists_effect_of_exitCode {task : Task} {level : Level} {fs : FileSystem}
    (h : (task.runOn level fs).1.exitCode = 0) :
    ∃ output, task.effect ⟨[], fs⟩ = (some (), ⟨output, (task.runOn level fs).2⟩) := by
  rw [exitCode_runOn] at h
  rw [runOn_snd]
  rcases heffect : task.effect ⟨[], fs⟩ with ⟨- | _, w⟩
  · simp [heffect] at h
  · exact ⟨w.printed, rfl⟩

/-- What has been printed is not taken back by a failure. -/
theorem standardOutput_runOn :
    (task.runOn level fs).1.standardOutput = (task.effect ⟨[], fs⟩).2.printed := by
  obtain ⟨log, hrun⟩ := task.runOn_apply level fs
  rw [hrun]
  rcases task.effect ⟨[], fs⟩ with ⟨- | _, w⟩ <;> rfl

end Task

end Command

end Stencil
