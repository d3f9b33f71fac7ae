import Stencil.Proofs.Command.Stages
import Stencil.Proofs.Files.Paths
import Stencil.Proofs.Files.Preservation
import Stencil.Proofs.Template.Recovery

/-!
Artifacts as inputs. Once a template has been compiled to an artifact, rendering the one or the
other makes no difference. Files are those of `FileSystem`, without links: two paths share a file
if they lead to one place, and a file can be read as soon as it has been written.
-/
namespace Stencil

open Text (encodeUtf8)

variable {fs fs' made : FileSystem} {p q : Path} {name : Text} {t : Template}

namespace Command

variable {o : CompileOptions} {d : DelimiterOptions}

/-- An input that is no artifact is compiled as it is for `compile`. -/
theorem instructions?_of_template? (hinput : o.input.extension? ≠ some "json".toList)
    (h : template? o fs = some t) :
    instructions? o.input o.delimiters fs = some t.instructions := by
  obtain ⟨d, source, hd, -, htext, hsource⟩ := template?_eq_some_iff.mp h
  obtain ⟨-, -, hcompile⟩ := Template.ofSource_eq_ok_iff.mp hsource
  exact instructions?_of_compile hinput hd htext hcompile

/-- An artifact gives its instructions whatever the delimiters are. -/
theorem instructions?_of_artifact (hp : p.extension? = some "json".toList)
    (h : fs.readBytes p = .ok (encodeUtf8 t.artifact)) (d : DelimiterOptions) :
    instructions? p d fs = some t.instructions := by
  rw [instructions?, if_pos hp, FileSystem.text?_eq_some_iff.mpr h, Option.bind_some,
    t.load_artifact]
  rfl

/-- Delimiters stay what they are as long as their file does. -/
theorem delimiters?_congr {v : { d : Delimiters // d.Valid }} (h : delimiters? d fs = some v)
    (hkeep : ∀ p, d.config = some p → ∀ s, fs.text? p = some s → fs'.text? p = some s) :
    delimiters? d fs' = some v := by
  rw [delimiters?] at h ⊢
  cases hconfig : d.config with
  | none =>
    rw [hconfig] at h
    exact h
  | some path =>
    rw [hconfig] at h
    cases htext : fs.text? path with
    | none => simp [htext] at h
    | some document =>
      simp only [htext] at h
      simp only [hkeep path hconfig document htext]
      exact h

theorem template?_congr (h : template? o fs = some t)
    (hkeep : ∀ p, p = o.input ∨ o.delimiters.config = some p → ∀ s,
      fs.text? p = some s → fs'.text? p = some s) : template? o fs' = some t := by
  obtain ⟨d, source, hd, hname, htext, hsource⟩ := template?_eq_some_iff.mp h
  have hd : delimiters? o.delimiters fs' = some d :=
    delimiters?_congr hd fun p hp => hkeep p (Or.inr hp)
  exact template?_eq_some_iff.mpr
    ⟨d, source, hd, hname, hkeep _ (Or.inl rfl) _ htext, hsource⟩

theorem extension?_file (hformat : o.format = .json) (hname : Name.Identifier name) :
    (o.file name).extension? = some "json".toList := by
  have hslash := o.format.slash_not_mem_fileName hname
  rw [hformat] at hslash
  rw [CompileOptions.file, hformat]
  exact Path.extension?_join o.output "json" hname.ne_nil (by decide) (by decide) hslash

/-- What holds once a template has been compiled to an artifact: the artifact can be read, and so
can all other files. -/
theorem after_compile (hformat : o.format = .json) {output : Text}
    (h : (Task.compile o).effect ⟨[], fs⟩ = (some (), ⟨output, fs'⟩)) :
    ∃ t, template? o fs = some t ∧
      fs'.readBytes (o.file o.templateName) = .ok (encodeUtf8 t.artifact) ∧
      ∀ p bytes, fs.readBytes p = .ok bytes →
        fs'.target p ≠ fs'.target (o.file o.templateName) → fs'.readBytes p = .ok bytes := by
  obtain ⟨t, made, left, ht, hmade, hwrite, hleft⟩ := Task.effect_compile_eq_some_iff.mp h
  cases hleft
  rw [name_of_template? ht, CompileOptions.content, hformat] at hwrite
  have hmade : FileSystem.Keeps (fun _ => False) fs made :=
    (FileSystem.adds_of_createDirs hmade).keeps
  refine ⟨t, ht, FileSystem.readBytes_of_writeBytes hwrite, ?_⟩
  intro p bytes hread hne
  exact FileSystem.readBytes_of_writeBytes_ne hwrite (hmade.readBytes hread fun _ _ h => h) hne

/-- Two outcomes have the same exit code and the same standard output. -/
def Outcome.Agrees (a b : Outcome) : Prop :=
  a.exitCode = b.exitCode ∧ a.standardOutput = b.standardOutput

/-- Without an output file, the files decide what is printed and nothing else counts. -/
theorem effect_render_congr {o o' : RenderOptions} {fs : FileSystem} (h : o.output = none)
    (h' : o'.output = none) (hsame : rendered? o fs = rendered? o' fs) :
    (Task.render o).effect ⟨[], fs⟩ = (Task.render o').effect ⟨[], fs⟩ := by
  simp only [Task.effect, Effect.bind_apply, Effect.reads, hsame, h, h']

/-- A template whose files are still there after it has been compiled to an artifact renders to the
same output and with the same exit code as the artifact, under any delimiters for the latter. -/
theorem render_artifact_eq_render_template {level : Level}
    (hformat : o.format = .json) (hinput : o.input.extension? ≠ some "json".toList)
    (hexit : ((Task.compile o).runOn level fs).1.exitCode = 0)
    (hfs' : ((Task.compile o).runOn level fs).2 = fs')
    (htemplate : fs'.target o.input ≠ fs'.target (o.file o.templateName))
    (hconfig : ∀ config, o.delimiters.config = some config →
      fs'.target config ≠ fs'.target (o.file o.templateName))
    (context : Path) (escape : List Char) (d : DelimiterOptions) (level₁ level₂ : Level) :
    let artifact : RenderOptions :=
      { input := o.file o.templateName, context, escape, delimiters := d }
    let template : RenderOptions :=
      { input := o.input, context, escape, delimiters := o.delimiters }
    ((Task.render artifact).runOn level₁ fs').1.Agrees
      ((Task.render template).runOn level₂ fs').1 := by
  intro artifact template
  obtain ⟨output, hcompile⟩ := Task.exists_effect_of_exitCode hexit
  rw [hfs'] at hcompile
  obtain ⟨t, ht, hartifact, hkeep⟩ := after_compile hformat hcompile
  obtain ⟨v, source, -, hname, -, -⟩ := template?_eq_some_iff.mp ht
  -- Both renderings start from what compilation left, where the template is what it was.
  have ht' : template? o fs' = some t := by
    refine template?_congr ht fun p hp s hs => ?_
    rw [FileSystem.text?_eq_some_iff] at hs ⊢
    refine hkeep p _ hs ?_
    rcases hp with rfl | hp
    · exact htemplate
    · exact hconfig p hp
  have hsame : rendered? artifact fs' = rendered? template fs' := by
    rw [rendered?, rendered?, instructions?_of_template? hinput ht',
      instructions?_of_artifact (extension?_file hformat (Name.isName_iff.mp hname)) hartifact]
  have heffect : (Task.render artifact).effect ⟨[], fs'⟩ =
      (Task.render template).effect ⟨[], fs'⟩ := effect_render_congr rfl rfl hsame
  constructor
  · rw [Task.exitCode_runOn, Task.exitCode_runOn, heffect]
  · rw [Task.standardOutput_runOn, Task.standardOutput_runOn, heffect]

/-- A template with a configuration file, and an artifact that is rendered with a missing one. -/
theorem render_artifact_eq_render_template_configured :
    let config : Text := (Json.object [("start", .string ['<'])]).render Json.compact 0
    let source : Text := ['a', '<', '=', 'b', '>']
    let fs : FileSystem := ⟨.directory [(['t'], .file (encodeUtf8 source)),
      (['d'], .file (encodeUtf8 config)), (['c'], .file (encodeUtf8 ['{', '}']))], []⟩
    let delimiters : DelimiterOptions := ⟨some ⟨['d']⟩, { stop := some ['>'] }⟩
    let missing : DelimiterOptions := ⟨some ⟨['?']⟩, {}⟩
    let o : CompileOptions := { input := ⟨['t']⟩, output := ⟨['o']⟩, format := .json, delimiters }
    let artifact : RenderOptions :=
      { input := ⟨"o/t.json"⟩, context := ⟨['c']⟩, escape := ['='], delimiters := missing }
    let template : RenderOptions :=
      { input := ⟨['t']⟩, context := ⟨['c']⟩, escape := ['='], delimiters }
    let compiled := (Task.compile o).runOn .off fs
    compiled.1.exitCode = 0 ∧ ((Task.render artifact).runOn .info compiled.2).1.Agrees
      ((Task.render template).runOn .trace compiled.2).1 := by
  intro config source fs delimiters missing o artifact template compiled
  let v : Delimiters := ⟨['<'], ['>'], Delimiters.standard.markers⟩
  have hv : v.Valid := by decide
  have hdelimiters : delimiters? o.delimiters fs = some ⟨v, hv⟩ := by
    have hconfig : fs.text? ⟨['d']⟩ = some config := FileSystem.text?_eq_some_iff.mpr rfl
    have hobject : Json.object [("start", .string ['<'])] =
        .object ([Delimiters.Member.start ['<']].map Delimiters.Member.entry) := rfl
    have hread : Delimiters.ofDocument config =
        .ok ([Delimiters.Member.start ['<']].foldl Delimiters.Member.addTo {}).complete := by
      simp only [config, hobject]
      exact Delimiters.ofDocument_render Json.compact_blank (List.pairwise_singleton _ _)
    rw [delimiters?]
    simp only [o, delimiters, hconfig, hread, Option.bind_some]
    rfl
  let t : Template := ⟨['t'], v, Instruction.ofSegments [.text ['a'], .eval '=' ['b']]⟩
  have hsource : Template.ofSource ['t'] v source = .ok t :=
    Template.ofSource_of_canonical [.text ['a'], .eval '=' ['b']] hv (by decide)
  have ht : template? o fs = some t := template?_eq_some_iff.mpr
    ⟨_, source, hdelimiters, by decide, FileSystem.text?_eq_some_iff.mpr rfl, hsource⟩
  let made := fs.put [['o']] (.directory [])
  let left := made.put [['o'], "t.json".toList] (.file (encodeUtf8 t.artifact))
  have hmade : (MonadFiles.createDirs o.output : StateM FileSystem (Except FileError Unit)) fs =
      (.ok (), made) := rfl
  have hwrite : made.writeBytes (o.file t.name) (encodeUtf8 (o.content t)) = .ok left := rfl
  have hcompile : (Task.compile o).effect ⟨[], fs⟩ = (some (), ⟨[], left⟩) :=
    Task.effect_compile_eq_some_iff.mpr ⟨t, made, left, ht, hmade, hwrite, rfl⟩
  have hexit : compiled.1.exitCode = 0 := by
    rw [Task.exitCode_runOn, hcompile]
    rfl
  have hleft : compiled.2 = left := by
    rw [Task.runOn_snd, hcompile]
  have hname : o.templateName = ['t'] := by decide
  have hfile : left.target (o.file ['t']) = .ok [['o'], "t.json".toList] := rfl
  have hinput : artifact.input = o.file o.templateName := by
    rw [hname]
    rfl
  have htemplate : compiled.2.target o.input ≠ compiled.2.target (o.file o.templateName) := by
    have ht : left.target o.input = .ok [['t']] := rfl
    rw [hleft, hname, hfile, ht]
    decide
  have hconfig : compiled.2.target ⟨['d']⟩ ≠ compiled.2.target (o.file o.templateName) := by
    have hd : left.target ⟨['d']⟩ = .ok [['d']] := rfl
    rw [hleft, hname, hfile, hd]
    decide
  have hmain := render_artifact_eq_render_template (o := o) rfl (by decide) hexit rfl htemplate
    (by rintro _ ⟨⟩; exact hconfig) artifact.context artifact.escape missing .info .trace
  rw [← hinput] at hmain
  exact ⟨hexit, hmain⟩

end Command

end Stencil
