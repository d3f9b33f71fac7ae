import Stencil.Proofs.Command.Stages
import Stencil.Proofs.Execution.Compilation
import Stencil.Proofs.Files.Preservation
import Stencil.Proofs.Json.RoundTrip

/-!
Delivery of a rendering. A text goes out in one piece, once all of it has been made; until then
nothing is printed and no file is touched. Files are those of `FileSystem`, so links, special files
and permissions are left out.
-/
namespace Stencil.Command

open FileSystem (Stores)
open Text (encodeUtf8)

variable {o : RenderOptions} {fs : FileSystem} {text : Text}

theorem rendered?_eq_some_iff :
    rendered? o fs = some text ↔
      ∃ instructions document root, instructions? o.input o.delimiters fs = some instructions ∧
        fs.text? o.context = some document ∧ Json.ofText document = .ok root ∧
        outputText? root o.escape instructions = some text := by
  simp only [rendered?, Option.bind_eq_some_iff, toOption_eq_some_iff, exists_and_left]

theorem effect_render_of_none (h : rendered? o fs = none) (printed : Text) :
    (Task.render o).effect ⟨printed, fs⟩ = (none, ⟨printed, fs⟩) := by
  rw [Task.effect, Effect.bind_apply, Effect.reads, h]

/-- Once a text has been rendered it only has to be delivered. -/
theorem effect_render_of_some (h : rendered? o fs = some text) (printed : Text) :
    (Task.render o).effect ⟨printed, fs⟩ = deliver o.output text ⟨printed, fs⟩ := by
  rw [Task.effect, Effect.bind_apply, Effect.reads, h]

theorem deliver_file (path : Path) (text : Text) (w : World) :
    (∃ e, w.files.writeBytes path (encodeUtf8 text) = .error e ∧
      deliver (some path) text w = (none, w)) ∨
    (∃ left, w.files.writeBytes path (encodeUtf8 text) = .ok left ∧
      deliver (some path) text w = (some (), { w with files := left })) := by
  rw [deliver, Effect.ofFiles_writeText]
  cases w.files.writeBytes path (encodeUtf8 text) with
  | error e => exact Or.inl ⟨e, rfl, rfl⟩
  | ok left => exact Or.inr ⟨left, rfl, rfl⟩

/-- A rendering succeeds if there is a text and the text can be written. It then goes to standard
output or to the output file, and to nothing else; a rendering that fails leaves no trace. Links,
special files and permissions are left out: a path leads to one plain file. -/
theorem render_all_or_nothing (o : RenderOptions) (level : Level) (fs : FileSystem) :
    let outcome := ((Task.render o).runOn level fs).1
    let fs' := ((Task.render o).runOn level fs).2
    (outcome.exitCode = 0 ↔ ∃ text, rendered? o fs = some text ∧
      ∀ path, o.output = some path → ∃ left, fs.writeBytes path (encodeUtf8 text) = .ok left) ∧
    (outcome.exitCode ≠ 0 → outcome.standardOutput = [] ∧ fs' = fs) ∧
    (outcome.exitCode = 0 → ∃ text, rendered? o fs = some text ∧
      (o.output = none → outcome.standardOutput = text ∧ fs' = fs) ∧
      ∀ path, o.output = some path → outcome.standardOutput = [] ∧
        ∃ place, fs'.target path = .ok place ∧ Stores place (encodeUtf8 text) fs fs') := by
  intro outcome fs'
  have hexit : outcome.exitCode = if ((Task.render o).effect ⟨[], fs⟩).1.isSome then 0 else 1 :=
    Task.exitCode_runOn ..
  have hprinted : outcome.standardOutput = ((Task.render o).effect ⟨[], fs⟩).2.printed :=
    Task.standardOutput_runOn ..
  have hleft : fs' = ((Task.render o).effect ⟨[], fs⟩).2.files := Task.runOn_snd ..
  cases hrendered : rendered? o fs with
  | none =>
    rw [effect_render_of_none hrendered] at hexit hprinted hleft
    refine ⟨iff_of_false (by simp [hexit]) (by simp), fun _ => ⟨hprinted, hleft⟩, ?_⟩
    intro h
    simp [hexit] at h
  | some text =>
    rw [effect_render_of_some hrendered] at hexit hprinted hleft
    cases houtput : o.output with
    | none =>
      -- Printing is what is done last, and it does not fail.
      rw [houtput] at hexit hprinted hleft
      refine ⟨iff_of_true hexit ⟨text, rfl, nofun⟩, fun h => (h hexit).elim, fun _ => ?_⟩
      exact ⟨text, rfl, fun _ => ⟨hprinted, hleft⟩, nofun⟩
    | some path =>
      rw [houtput] at hexit hprinted hleft
      obtain ⟨e, hwrite, hdeliver⟩ | ⟨left, hwrite, hdeliver⟩ := deliver_file path text ⟨[], fs⟩
      · rw [hdeliver] at hexit hprinted hleft
        refine ⟨iff_of_false (by simp [hexit]) ?_, fun _ => ⟨hprinted, hleft⟩, ?_⟩
        · rintro ⟨_, ⟨⟩, hwrites⟩
          obtain ⟨left, hok⟩ := hwrites path rfl
          cases hwrite.symm.trans hok
        · intro h
          simp [hexit] at h
      · rw [hdeliver] at hexit hprinted hleft
        refine ⟨iff_of_true hexit ⟨text, rfl, ?_⟩, fun h => (h hexit).elim, fun _ => ?_⟩
        · rintro _ ⟨⟩
          exact ⟨left, hwrite⟩
        · refine ⟨text, rfl, nofun, ?_⟩
          rintro _ ⟨⟩
          refine ⟨hprinted, ?_⟩
          rw [hleft]
          exact FileSystem.stores_of_writeBytes hwrite

/-- A rendering over its own template, and one that fails at a missing value when a part of the
output has been made. -/
theorem render_all_or_nothing_over_input :
    let source : Text := "a<%=b%>"
    let context : Json := .object [(['b'], .string ['<'])]
    let fs : FileSystem := ⟨.directory [(['t'], .file (encodeUtf8 source)),
      (['c'], .file (encodeUtf8 (context.render Json.compact 0))),
      (['e'], .file (encodeUtf8 ((Json.object []).render Json.compact 0)))], []⟩
    let o : RenderOptions :=
      { input := ⟨['t']⟩, context := ⟨['c']⟩, output := some ⟨['t']⟩, escape := ['='] }
    let rendered := (Task.render o).runOn .info fs
    let failed := (Task.render { o with context := ⟨['e']⟩ }).runOn .info fs
    rendered.1.exitCode = 0 ∧ rendered.1.standardOutput = [] ∧
      Stores [['t']] (encodeUtf8 "a&lt;") fs rendered.2 ∧
      failed.1.exitCode ≠ 0 ∧ failed.1.standardOutput = [] ∧ failed.2 = fs := by
  intro source context fs o rendered failed
  have hd : delimiters? o.delimiters fs = some ⟨.standard, by decide⟩ := rfl
  have hsource : fs.text? o.input = some source := FileSystem.text?_eq_some_iff.mpr rfl
  let segments : List Segment := [.text ['a'], .eval '=' ['b']]
  have hscan : scan .standard source = .ok segments :=
    (scan_eq_ok_iff (by decide)).mpr ⟨by decide, by decide⟩
  have hinstructions := instructions?_of_compile (by decide) hd hsource
    (compile_eq_ok_iff.mpr ⟨_, hscan, rfl⟩)
  have hcontext : Json.ofText (context.render Json.compact 0) = .ok context := by
    rw [Json.ofText_render Json.compact_blank (.object (by simpa using .string ['<']))]
    rfl
  have hempty : Json.ofText ((Json.object []).render Json.compact 0) = .ok (.object []) :=
    Json.ofText_render Json.compact_blank (.object nofun)
  have hrun (root : Json) :=
    execute_ofSegments (Context.host root) Output.sink segments ⟨[], .ofList o.escape⟩
  have houtput : outputText? context o.escape (Instruction.ofSegments segments) =
      some "a&lt;".toList := by
    rw [outputText?, hrun]
    rfl
  have hmissing : outputText? (.object []) o.escape (Instruction.ofSegments segments) = none := by
    rw [outputText?, hrun]
    rfl
  have htext : rendered? o fs = some "a&lt;".toList := rendered?_eq_some_iff.mpr
    ⟨_, _, context, hinstructions, FileSystem.text?_eq_some_iff.mpr rfl, hcontext, houtput⟩
  have hnone : rendered? { o with context := ⟨['e']⟩ } fs = none := by
    have hdocument : fs.text? ⟨['e']⟩ = some ((Json.object []).render Json.compact 0) :=
      FileSystem.text?_eq_some_iff.mpr rfl
    simp only [rendered?, hinstructions, hdocument, hempty, Option.bind_some, Except.toOption,
      hmissing]
  obtain ⟨hwhen, -, hwritten⟩ := render_all_or_nothing o .info fs
  have hexit : rendered.1.exitCode = 0 :=
    hwhen.mpr ⟨_, htext, by rintro _ ⟨⟩; exact ⟨_, rfl⟩⟩
  obtain ⟨text, htext', -, hpath⟩ := hwritten hexit
  cases htext.symm.trans htext'
  obtain ⟨hprinted, place, hplace, hstores⟩ := hpath _ rfl
  have htarget : fs.target ⟨['t']⟩ = .ok [['t']] := rfl
  cases (hstores.keeps.target htarget).symm.trans hplace
  obtain ⟨hfails, hunchanged, -⟩ :=
    render_all_or_nothing { o with context := ⟨['e']⟩ } .info fs
  have hfailed : failed.1.exitCode ≠ 0 := by
    intro h
    obtain ⟨text, htext, -⟩ := hfails.mp h
    cases hnone.symm.trans htext
  obtain ⟨hsilent, hsame⟩ := hunchanged hfailed
  exact ⟨hexit, hprinted, hstores, hfailed, hsilent, hsame⟩

end Stencil.Command
