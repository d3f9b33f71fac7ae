import Stencil.Proofs.Files.Places

/-!
What operations on files leave as it was. Directories stay, so paths lead where they led, and files
other than the one written stay too. Directories are made where nothing was.
-/
namespace Stencil

open Text (Bytes)
open MonadFiles (createDirs isThere makeAll makeFrom)

namespace FileSystem

variable {fs fs' fs'' : FileSystem} {p : Path} {place steps : List Text} {content bytes : Bytes}
  {changed : List Text → Prop} {e : Entry}

/-- The second file system has all directories of the first, and its files but those at places that
may have changed. -/
structure Keeps (changed : List Text → Prop) (fs fs' : FileSystem) : Prop where
  workingDirectory : fs'.workingDirectory = fs.workingDirectory
  directory {place : List Text} :
    fs.entry? place = some .directory → fs'.entry? place = some .directory
  entry {place : List Text} {e : Entry} :
    ¬ changed place → fs.entry? place = some e → fs'.entry? place = some e

namespace Keeps

theorem refl (fs : FileSystem) : Keeps changed fs fs := ⟨rfl, id, fun _ => id⟩

theorem trans (h : Keeps changed fs fs') (h' : Keeps changed fs' fs'') : Keeps changed fs fs'' where
  workingDirectory := h'.workingDirectory.trans h.workingDirectory
  directory hd := h'.directory (h.directory hd)
  entry hp he := h'.entry hp (h.entry hp he)

/-- A leaf has been put where no directory was. -/
theorem of_entry?_eq {new : Entry} (hold : fs.entry? place ≠ some .directory)
    (hwork : fs'.workingDirectory = fs.workingDirectory)
    (hnew : ∀ q, fs'.entry? q = if q = place then some new else fs.entry? q) :
    Keeps (· = place) fs fs' where
  workingDirectory := hwork
  directory {q} hq := by
    have hne : q ≠ place := by
      rintro rfl
      exact hold hq
    rw [hnew, if_neg hne, hq]
  entry hne hq := by rw [hnew, if_neg hne, hq]

theorem follow (h : Keeps changed fs fs') {start : List Text}
    (hf : fs.follow start steps = .ok place) : fs'.follow start steps = .ok place := by
  induction steps generalizing start with
  | nil => exact hf
  | cons step steps ih =>
    obtain ⟨hstart, hshort, hf⟩ := follow_cons_eq_ok_iff.mp hf
    exact follow_cons_eq_ok_iff.mpr ⟨h.directory hstart, hshort, ih hf⟩

theorem along (h : Keeps changed fs fs') (hp : fs.along p steps = .ok place) :
    fs'.along p steps = .ok place := by
  rw [FileSystem.along] at hp ⊢
  rw [h.workingDirectory]
  exact h.follow hp

theorem placeOf (h : Keeps changed fs fs') (hp : fs.placeOf p steps = .ok place) :
    fs'.placeOf p steps = .ok place := by
  obtain ⟨hcheck, halong⟩ := placeOf_eq_ok_iff.mp hp
  exact placeOf_eq_ok_iff.mpr ⟨hcheck, h.along halong⟩

theorem target (h : Keeps changed fs fs') (hp : fs.target p = .ok place) :
    fs'.target p = .ok place := h.placeOf hp

theorem readBytes (h : Keeps changed fs fs') (hread : fs.readBytes p = .ok content)
    (hp : ∀ place, fs'.target p = .ok place → ¬ changed place) :
    fs'.readBytes p = .ok content := by
  obtain ⟨place, hplace, hentry⟩ := readBytes_eq_ok_iff.mp hread
  have hplace := h.target hplace
  exact readBytes_eq_ok_iff.mpr ⟨place, hplace, h.entry (hp place hplace) hentry⟩

end Keeps

/-- The second file system is the first with a file at a place where no directory was. -/
structure Stores (place : List Text) (content : Bytes) (fs fs' : FileSystem) : Prop where
  workingDirectory : fs'.workingDirectory = fs.workingDirectory
  not_directory : fs.entry? place ≠ some .directory
  entry (other : List Text) :
    fs'.entry? other = if other = place then some (.file content) else fs.entry? other

theorem Stores.keeps (h : Stores place content fs fs') : Keeps (· = place) fs fs' :=
  .of_entry?_eq h.not_directory h.workingDirectory h.entry

/-- A step to `.` asks for a directory, so no file is found behind a slash. -/
theorem not_endsInSlash_of_locateFile {trail : Trail} (h : fs.locateFile p = .ok trail) :
    endsInSlash p = false := by
  rw [Bool.eq_false_iff]
  intro hp
  obtain ⟨trail', hwalk, hnode⟩ := bind_eq_ok_iff.mp h
  rw [if_pos hp] at hwalk
  have hplace : fs.placeOf p (p.steps.dropLast ++ [".".toList]) = .ok trail'.place := by
    rw [placeOf, hwalk]
    rfl
  obtain ⟨-, halong⟩ := placeOf_eq_ok_iff.mp hplace
  obtain ⟨middle, -, hdirectory, -, henter⟩ := along_concat_eq_ok_iff.mp halong
  obtain rfl : middle = trail'.place := henter
  rw [(grounded_walkFrom hwalk).entry?_eq] at hdirectory
  obtain ⟨node, hfound, he⟩ := Option.map_eq_some_iff.mp hdirectory
  cases node with
  | file content => cases he
  | directory children =>
    rw [hfound] at hnode
    cases hnode

theorem locateFile_eq_ok {trail : Trail} (h : fs.locateFile p = .ok trail) :
    fs.Grounded trail ∧ fs.target p = .ok trail.place ∧
      fs.entry? trail.place ≠ some .directory := by
  have hp := not_endsInSlash_of_locateFile h
  obtain ⟨trail', hwalk, hnode⟩ := bind_eq_ok_iff.mp h
  have hg := grounded_walkFrom hwalk
  split at hnode
  · cases hnode
  · rename_i hne
    cases hnode
    refine ⟨hg, ?_, ?_⟩
    · simp only [hp, Bool.false_eq_true, if_false] at hwalk
      simp only [target, locate, hp, Bool.false_eq_true, if_false, hwalk]
      rfl
    · rw [hg.entry?_eq]
      intro he
      obtain ⟨node, hnode, he⟩ := Option.map_eq_some_iff.mp he
      cases node with
      | file content => cases he
      | directory children => exact hne children hnode

/-- A write that succeeds stores its content where the path leads, and there alone. -/
theorem stores_of_writeBytes (h : fs.writeBytes p content = .ok fs') :
    ∃ place, fs'.target p = .ok place ∧ Stores place content fs fs' := by
  obtain ⟨trail, hlocate, hput⟩ := bind_eq_ok_iff.mp h
  cases hput
  obtain ⟨hg, htarget, hold⟩ := locateFile_eq_ok hlocate
  have hstores : Stores trail.place content fs (fs.put trail.place (.file content)) :=
    ⟨rfl, hold, hg.entry?_put (Node.isLeaf_file content) hold⟩
  exact ⟨_, hstores.keeps.target htarget, hstores⟩

/-- A file that has been written holds what was written. -/
theorem readBytes_of_writeBytes (h : fs.writeBytes p content = .ok fs') :
    fs'.readBytes p = .ok content := by
  obtain ⟨place, htarget, hstores⟩ := stores_of_writeBytes h
  exact readBytes_eq_ok_iff.mpr ⟨place, htarget, by rw [hstores.entry, if_pos rfl]⟩

/-- Files at other places than the one written hold what they held. -/
theorem readBytes_of_writeBytes_ne {q : Path} (h : fs.writeBytes p content = .ok fs')
    (hread : fs.readBytes q = .ok bytes) (hne : fs'.target q ≠ fs'.target p) :
    fs'.readBytes q = .ok bytes := by
  obtain ⟨place, htarget, hstores⟩ := stores_of_writeBytes h
  refine hstores.keeps.readBytes hread ?_
  rintro _ hq rfl
  exact hne (hq.trans htarget.symm)

/-- Directories have been added where nothing was, at places that some paths lead to. -/
structure Adds (paths : List Path) (fs fs' : FileSystem) : Prop where
  workingDirectory : fs'.workingDirectory = fs.workingDirectory
  entry (place : List Text) :
    fs'.entry? place = fs.entry? place ∨
      fs.entry? place = none ∧ fs'.entry? place = some .directory ∧
        ∃ p ∈ paths, fs'.placeOf p p.steps = .ok place

namespace Adds

variable {paths : List Path}

theorem refl (fs : FileSystem) : Adds paths fs fs := ⟨rfl, fun _ => Or.inl rfl⟩

/-- Nothing that was there has changed, so no exception has to be made. -/
theorem keeps (h : Adds paths fs fs') : Keeps changed fs fs' := by
  have hentry {place : List Text} {e : Entry} (he : fs.entry? place = some e) :
      fs'.entry? place = some e := by
    obtain hsame | ⟨hnone, -⟩ := h.entry place
    · exact hsame.trans he
    · cases hnone.symm.trans he
  exact ⟨h.workingDirectory, hentry, fun _ => hentry⟩

theorem trans (h : Adds paths fs fs') (h' : Adds paths fs' fs'') : Adds paths fs fs'' where
  workingDirectory := h'.workingDirectory.trans h.workingDirectory
  entry place := by
    have hkeeps : Keeps (fun _ => False) fs' fs'' := h'.keeps
    obtain hsame | ⟨hnone, hnew, p, hp, hplace⟩ := h.entry place
    · obtain hsame' | ⟨hnone', hnew'⟩ := h'.entry place
      · exact Or.inl (hsame'.trans hsame)
      · exact Or.inr ⟨hsame.symm.trans hnone', hnew'⟩
    · exact Or.inr ⟨hnone, hkeeps.directory hnew, p, hp, hkeeps.placeOf hplace⟩

theorem of_makeDir (hp : p ∈ paths) (h : fs.makeDir p = .ok fs') : Adds paths fs fs' := by
  obtain ⟨trail, hwalk, hput⟩ := bind_eq_ok_iff.mp h
  have hg := grounded_walkFrom hwalk
  split at hput
  · cases hput
  · rename_i hnode
    cases hput
    have hnone : fs.entry? trail.place = none := by rw [hg.entry?_eq, hnode]; rfl
    have hold : fs.entry? trail.place ≠ some .directory := by simp [hnone]
    have hentry := hg.entry?_put Node.isLeaf_directory_nil hold
    have hkeeps : Keeps (· = trail.place) fs (fs.put trail.place (.directory [])) :=
      .of_entry?_eq hold rfl hentry
    have hplace : fs.placeOf p p.steps = .ok trail.place := by
      rw [placeOf, hwalk]
      rfl
    refine ⟨rfl, fun place => ?_⟩
    rw [hentry]
    split
    · rename_i he
      subst he
      exact Or.inr ⟨hnone, rfl, p, hp, hkeeps.placeOf hplace⟩
    · exact Or.inl rfl

end Adds

/-- An action that adds directories at most, wherever it starts. -/
def AlwaysAdds {α : Type} (paths : List Path) (action : StateM FileSystem α) : Prop :=
  ∀ fs, Adds paths fs (action fs).2

namespace AlwaysAdds

variable {α β : Type} {paths missing around : List Path}

theorem pure (a : α) : AlwaysAdds paths (Pure.pure a) := fun fs => .refl fs

theorem bind {action : StateM FileSystem α} {next : α → StateM FileSystem β}
    (h : AlwaysAdds paths action) (hnext : ∀ a, AlwaysAdds paths (next a)) :
    AlwaysAdds paths (action >>= next) := fun fs =>
  (h fs).trans (hnext (action fs).1 (action fs).2)

theorem makeDir (hp : p ∈ paths) : AlwaysAdds paths (MonadFiles.makeDir p) := by
  intro fs
  change Adds paths fs (update (·.makeDir p) fs).2
  unfold update
  split
  · rename_i h
    exact .of_makeDir hp h
  · exact .refl fs

theorem isThere (e : FileError) (p : Path) : AlwaysAdds paths (isThere e p) := by
  intro fs
  unfold MonadFiles.isThere
  split <;> exact .refl fs

theorem ifThere {action : StateM FileSystem (Except FileError Unit)} (e : FileError) (p : Path)
    (h : AlwaysAdds paths action) :
    AlwaysAdds paths (do if ← MonadFiles.isThere e p then action else return .error e) := by
  refine .bind (.isThere e p) ?_
  rintro (_ | _)
  · exact .pure _
  · exact h

theorem makeAll (h : missing ⊆ paths) : AlwaysAdds paths (makeAll missing) := by
  induction missing with
  | nil => exact .pure _
  | cons p missing ih =>
    obtain ⟨hp, hmore⟩ := List.cons_subset.mp h
    refine .bind (.makeDir hp) ?_
    rintro (e | u)
    · exact .ifThere e p (ih hmore)
    · exact ih hmore

theorem makeFrom (hmissing : missing ⊆ paths) (haround : around ⊆ paths) :
    AlwaysAdds paths (makeFrom missing around) := by
  induction around generalizing missing with
  | nil => exact .makeAll hmissing
  | cons p around ih =>
    obtain ⟨hp, hmore⟩ := List.cons_subset.mp haround
    refine .bind (.makeDir hp) ?_
    rintro (e | u)
    -- A missing parent is tried next; any other error may mean that the directory is there.
    · cases e with
      | notFound => exact ih (List.cons_subset.mpr ⟨hp, hmissing⟩) hmore
      | _ => exact .ifThere _ p (.makeAll hmissing)
    · exact .makeAll hmissing

/-- Directories are made where nothing is. -/
theorem createDirs (p : Path) : AlwaysAdds p.ancestry (createDirs p) :=
  .makeFrom (List.nil_subset _) (List.Subset.refl _)

end AlwaysAdds

theorem adds_of_createDirs {a : Except FileError Unit}
    (h : (createDirs p : StateM FileSystem (Except FileError Unit)) fs = (a, fs')) :
    Adds p.ancestry fs fs' := by
  have hadds := AlwaysAdds.createDirs p fs
  rw [h] at hadds
  exact hadds

end FileSystem

end Stencil
