import Stencil.Proofs.Command.Stages
import Stencil.Proofs.Files.Ancestry
import Stencil.Proofs.Files.Paths
import Stencil.Proofs.Files.Preservation
import Stencil.Proofs.Template.Recovery

/-!
Confinement of compilation. Until a template has been compiled no file is touched; then its one
file is written into the output directory, under a name that cannot lead out of it. Files are those
of `FileSystem`, so links, special files and permissions are left out; through a link in the output
directory a file could still be written elsewhere.
-/
namespace Stencil.Command

open FileSystem (Adds OnTheWay)
open Text (Bytes encodeUtf8)

variable {o : CompileOptions} {fs fs' made : FileSystem} {t : Template} {directory : List Text}

/-- Something is wrong before there is a template to write. -/
inductive Unwritten (o : CompileOptions) (fs : FileSystem) : Prop
  | delimiters : delimiters? o.delimiters fs = none → Unwritten o fs
  | name : ¬ Name.Identifier o.templateName → Unwritten o fs
  | input : fs.text? o.input = none → Unwritten o fs
  | source {d : { d : Delimiters // d.Valid }} {source : Text} {e : CompileError} :
    delimiters? o.delimiters fs = some d → fs.text? o.input = some source →
      compile d.val source = .error e → Unwritten o fs

theorem template?_of_unwritten (h : Unwritten o fs) : template? o fs = none := by
  rw [Option.eq_none_iff_forall_ne_some]
  intro t ht
  obtain ⟨d, source, hd, hname, htext, hsource⟩ := template?_eq_some_iff.mp ht
  cases h with
  | delimiters hnone => cases hd.symm.trans hnone
  | name hno => exact hno (Name.isName_iff.mp hname)
  | input hnone => cases htext.symm.trans hnone
  | source hd' htext' herror =>
    cases hd.symm.trans hd'
    cases htext.symm.trans htext'
    rw [Template.ofSource, herror] at hsource
    cases hsource

theorem effect_of_unwritten {w : World} (h : Unwritten o w.files) :
    (Task.compile o).effect w = (none, w) := by
  rw [Task.effect, Effect.bind_apply, Effect.reads, template?_of_unwritten h]

/-- A place that is as it was, or holds a new directory on the way to the output directory. -/
def Untouched (o : CompileOptions) (fs fs' : FileSystem) (place : List Text) : Prop :=
  fs'.entry? place = fs.entry? place ∨
    fs.entry? place = none ∧ fs'.entry? place = some .directory ∧ fs'.OnTheWay o.output place

/-- The directory in which a template has been put, and what else differs. -/
structure Leaves (o : CompileOptions) (t : Template) (directory : List Text)
    (fs fs' : FileSystem) : Prop where
  workingDirectory : fs'.workingDirectory = fs.workingDirectory
  output : fs'.along o.output o.output.steps = .ok directory
  isDirectory : fs'.entry? directory = some .directory
  target : fs'.target (o.file t.name) = .ok (directory ++ [t.name ++ o.format.suffix])
  artifact : fs'.entry? (directory ++ [t.name ++ o.format.suffix]) =
    some (.file (encodeUtf8 (o.content t)))
  not_directory : fs.entry? (directory ++ [t.name ++ o.format.suffix]) ≠ some .directory
  elsewhere (place : List Text) :
    place ≠ directory ++ [t.name ++ o.format.suffix] → Untouched o fs fs' place

theorem untouched_of_adds (h : Adds o.output.ancestry fs fs') (place : List Text) :
    Untouched o fs fs' place := by
  refine (h.entry place).imp_right ?_
  rintro ⟨hnone, hnew, p, hp, hplace⟩
  exact ⟨hnone, hnew, FileSystem.onTheWay_of_ancestry hp hplace⟩

/-- A file with the name of a template is found in the output directory itself. -/
theorem exists_directory_of_target {place : List Text} (hname : Name.Identifier t.name)
    (h : fs.target (o.file t.name) = .ok place) :
    ∃ directory, fs.along o.output o.output.steps = .ok directory ∧
      fs.entry? directory = some .directory ∧
        place = directory ++ [t.name ++ o.format.suffix] := by
  have hslash := o.format.slash_not_mem_fileName hname
  have hlong : 2 < (t.name ++ o.format.suffix).length := by
    have hpos := List.length_pos_iff.mpr hname.ne_nil
    have hsuffix : 3 ≤ o.format.suffix.length := by cases o.format <;> decide
    rw [List.length_append]
    omega
  have hne {short : Text} (hshort : short.length ≤ 2) : t.name ++ o.format.suffix ≠ short := by
    intro he
    rw [he] at hlong
    omega
  obtain ⟨-, halong⟩ := FileSystem.placeOf_eq_ok_iff.mp (FileSystem.placeOf_of_target h)
  rw [CompileOptions.file, Path.steps_join _ (hne (by simp)) hslash, FileSystem.along,
    Path.isAbsolute_join _ hslash] at halong
  obtain ⟨directory, hdirectory, hentry, -, rfl⟩ := FileSystem.along_concat_eq_ok_iff.mp halong
  refine ⟨directory, hdirectory, hentry, ?_⟩
  rw [FileSystem.enter, if_neg (hne (by decide)), if_neg (hne (by decide))]

theorem leaves_of_writeBytes (hname : Name.Identifier t.name)
    (hmade : (MonadFiles.createDirs o.output : StateM FileSystem (Except FileError Unit)) fs =
      (.ok (), made))
    (hwrite : made.writeBytes (o.file t.name) (encodeUtf8 (o.content t)) = .ok fs') :
    ∃ directory, Leaves o t directory fs fs' := by
  obtain ⟨place, htarget, hstores⟩ := FileSystem.stores_of_writeBytes hwrite
  have hadds := FileSystem.adds_of_createDirs hmade
  have hkept : FileSystem.Keeps (fun _ => False) fs made := hadds.keeps
  obtain ⟨directory, houtput, hentry, rfl⟩ := exists_directory_of_target hname htarget
  refine ⟨directory, hstores.workingDirectory.trans hadds.workingDirectory, houtput, hentry,
    htarget, by rw [hstores.entry, if_pos rfl], ?_, ?_⟩
  · intro hold
    exact hstores.not_directory (hkept.directory hold)
  · intro place hne
    rw [Untouched, hstores.entry, if_neg hne]
    refine (untouched_of_adds hadds place).imp_right ?_
    rintro ⟨hnone, hnew, steps, hsteps, halong⟩
    exact ⟨hnone, hnew, steps, hsteps, hstores.keeps.along halong⟩

/-- The file is the last thing to be written, so a failure leaves directories at most. -/
theorem adds_of_effect_none {w w' : World} (h : (Task.compile o).effect w = (none, w')) :
    Adds o.output.ancestry w.files w'.files := by
  rw [Task.effect, Effect.bind_apply, Effect.reads] at h
  cases ht : template? o w.files with
  | none =>
    rw [ht] at h
    cases h
    exact .refl w.files
  | some t =>
    simp only [ht, store, Effect.bind_apply, Effect.ofFiles_writeText] at h
    have hadds : Adds o.output.ancestry w.files
        (Effect.ofFiles (MonadFiles.createDirs o.output) w).2.files :=
      FileSystem.AlwaysAdds.createDirs o.output w.files
    rcases hmade : Effect.ofFiles (MonadFiles.createDirs o.output) w with ⟨- | u, made⟩
    · rw [hmade] at h hadds
      cases h
      exact hadds
    · simp only [hmade] at h hadds
      rcases hwrite : made.files.writeBytes (o.file t.name) (encodeUtf8 (o.content t)) with e | left
      · simp only [hwrite] at h
        cases h
        exact hadds
      · simp only [hwrite] at h
        cases h

/-- A compilation that gets no template to write changes nothing, and one that fails to write it
makes nothing but directories on the way to the output directory. One that succeeds has also written
the one file for its template, directly in the output directory and named by an identifier. Links,
special files and permissions are left out. -/
theorem compile_confined (o : CompileOptions) (level : Level) (fs : FileSystem) :
    let outcome := ((Task.compile o).runOn level fs).1
    let fs' := ((Task.compile o).runOn level fs).2
    (outcome.exitCode = 0 ↔ ∃ t made left, template? o fs = some t ∧
      (MonadFiles.createDirs o.output : StateM FileSystem (Except FileError Unit)) fs =
        (.ok (), made) ∧
      made.writeBytes (o.file t.name) (encodeUtf8 (o.content t)) = .ok left) ∧
    (Unwritten o fs → outcome.exitCode ≠ 0 ∧ fs' = fs) ∧
    (outcome.exitCode ≠ 0 → ∀ place, Untouched o fs fs' place) ∧
    (outcome.exitCode = 0 → ∃ t directory, template? o fs = some t ∧
      Name.Identifier t.name ∧ Leaves o t directory fs fs') := by
  intro outcome fs'
  have hexit : outcome.exitCode = if ((Task.compile o).effect ⟨[], fs⟩).1.isSome then 0 else 1 :=
    Task.exitCode_runOn ..
  have hleft : fs' = ((Task.compile o).effect ⟨[], fs⟩).2.files := Task.runOn_snd ..
  rcases heffect : (Task.compile o).effect ⟨[], fs⟩ with ⟨- | _, w⟩
  · have hexit : outcome.exitCode = 1 := by
      rw [hexit, heffect]
      rfl
    rw [heffect] at hleft
    refine ⟨iff_of_false (by simp [hexit]) ?_, ?_, ?_, fun h => by simp [hexit] at h⟩
    · rintro ⟨t, made, left, ht, hmade, hwrite⟩
      have hsome : (Task.compile o).effect ⟨[], fs⟩ = (some (), ⟨[], left⟩) :=
        Task.effect_compile_eq_some_iff.mpr ⟨t, made, left, ht, hmade, hwrite, rfl⟩
      cases heffect.symm.trans hsome
    · intro h
      cases heffect.symm.trans (effect_of_unwritten h)
      exact ⟨by simp [hexit], hleft⟩
    · rw [hleft]
      exact fun _ => untouched_of_adds (adds_of_effect_none heffect)
  · have hexit : outcome.exitCode = 0 := by
      rw [hexit, heffect]
      rfl
    rw [heffect] at hleft
    obtain ⟨t, made, left, ht, hmade, hwrite, rfl⟩ := Task.effect_compile_eq_some_iff.mp heffect
    obtain ⟨d, source, -, hname, -, -⟩ := template?_eq_some_iff.mp ht
    rw [← name_of_template? ht, Name.isName_iff] at hname
    refine ⟨iff_of_true hexit ⟨t, made, left, ht, hmade, hwrite⟩, ?_, fun h => (h hexit).elim, ?_⟩
    · intro h
      cases heffect.symm.trans (effect_of_unwritten h)
    · obtain ⟨directory, hleaves⟩ := leaves_of_writeBytes hname hmade hwrite
      rw [hleft]
      exact fun _ => ⟨t, directory, ht, hname, hleaves⟩

/-- A directory that is only passed through is made too; a name that leads outwards is refused. -/
theorem compile_confined_through_missing :
    let fs : FileSystem := ⟨.directory [(['t'], .file (encodeUtf8 ['x']))], []⟩
    let o : CompileOptions := { input := ⟨['t']⟩, output := ⟨"a/../b"⟩, format := .json }
    let compiled := (Task.compile o).runOn .off fs
    let refused := (Task.compile { o with name := some "../t" }).runOn .off fs
    compiled.1.exitCode = 0 ∧ FileSystem.entry? compiled.2 [['a']] = some .directory ∧
      (∃ t, template? o fs = some t ∧ Leaves o t [['b']] fs compiled.2) ∧
      refused.1.exitCode ≠ 0 ∧ refused.2 = fs := by
  intro fs o
  -- The tree is written out at each stage, as closed terms are evaluated at once.
  have hmade : (MonadFiles.createDirs ⟨"a/../b"⟩ : StateM FileSystem (Except FileError Unit))
      ⟨.directory [(['t'], .file (encodeUtf8 ['x']))], []⟩ =
      (.ok (), ⟨.directory [(['t'], .file (encodeUtf8 ['x'])), (['a'], .directory []),
        (['b'], .directory [])], []⟩) := rfl
  have hwrite (bytes content : Bytes) : FileSystem.writeBytes
      ⟨.directory [(['t'], .file bytes), (['a'], .directory []), (['b'], .directory [])], []⟩
      (o.file ['t']) content =
      .ok ⟨.directory [(['t'], .file bytes), (['a'], .directory []),
        (['b'], .directory [("t.json".toList, .file content)])], []⟩ := rfl
  let t : Template := ⟨['t'], .standard, Instruction.ofSegments [.text ['x']]⟩
  have hsource : Template.ofSource o.templateName .standard ['x'] = .ok t :=
    Template.ofSource_of_canonical [.text ['x']] (by decide) (by decide)
  have ht : template? o fs = some t := template?_eq_some_iff.mpr
    ⟨⟨.standard, by decide⟩, ['x'], rfl, by decide, FileSystem.text?_eq_some_iff.mpr rfl, hsource⟩
  have heffect : (Task.compile o).effect ⟨[], fs⟩ = (some (), _) :=
    Task.effect_compile_eq_some_iff.mpr ⟨t, _, _, ht, hmade, hwrite _ _, rfl⟩
  have hexit : ((Task.compile o).runOn .off fs).1.exitCode = 0 := by
    rw [Task.exitCode_runOn, heffect]
    rfl
  obtain ⟨-, -, -, hdone⟩ := compile_confined o .off fs
  obtain ⟨t', directory, ht', -, hleaves⟩ := hdone hexit
  cases ht.symm.trans ht'
  have hleft := (Task.compile o).runOn_snd .off fs
  rw [heffect] at hleft
  have houtput := hleaves.output
  rw [hleft] at houtput
  have hb : FileSystem.along ⟨.directory [(['t'], .file (encodeUtf8 ['x'])), (['a'], .directory []),
      (['b'], .directory [("t.json".toList, .file (encodeUtf8 (o.content t)))])], []⟩ o.output
      o.output.steps = .ok [['b']] := rfl
  cases hb.symm.trans houtput
  have hname : ¬ Name.Identifier "../t".toList := fun h => h.slash_not_mem (by decide)
  obtain ⟨-, hrefused, -⟩ := compile_confined { o with name := some "../t" } .off fs
  exact ⟨hexit, by rw [hleft]; rfl, ⟨t, ht, hleaves⟩, hrefused (.name hname)⟩

end Stencil.Command
