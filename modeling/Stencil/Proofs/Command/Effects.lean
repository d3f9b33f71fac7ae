import Stencil.Command
import Stencil.Files.FileSystem
import Stencil.Proofs.Execution.Projection

/-!
What stages do to the world. What has been noted and how a failure is worded play no part in that,
so a stage has an effect: its result, unless it fails, with what has been printed by then and the
files that are left.
-/
namespace Stencil

namespace Command

variable {α β δ ε : Type}

/-- What a stage finds and what it leaves: the text on standard output, and the files. -/
structure World where
  printed : Text
  files : FileSystem

abbrev Effect (α : Type) := OptionT (StateM World) α

namespace Effect

/-- Only looks at files. -/
def reads (f : FileSystem → Option α) : Effect α := fun w => (f w.files, w)

/-- An operation on files whose error is not told. -/
def ofFiles (action : StateM FileSystem (Except FileError α)) : Effect α := fun w =>
  ((action w.files).1.toOption, { w with files := (action w.files).2 })

def print (s : Text) : Effect Unit := fun w => (some (), { w with printed := w.printed ++ s })

theorem bind_apply (x : Effect α) (next : α → Effect β) (w : World) :
    (x >>= next) w =
      match x w with
      | (some a, w) => next a w
      | (none, w) => (none, w) := by
  rcases h : x w with ⟨- | a, left⟩
  · simp only [bind, OptionT.bind, OptionT.mk, StateT.bind, h]
    rfl
  · simp only [bind, OptionT.bind, OptionT.mk, StateT.bind, h]

theorem reads_bind (f : FileSystem → Option α) (g : α → FileSystem → Option β) :
    (reads f >>= fun a => reads (g a)) = reads fun fs => (f fs).bind fun a => g a fs := by
  funext w
  rw [bind_apply, reads, reads]
  cases f w.files <;> rfl

variable {x : Effect α} {next : α → Effect β} {f : FileSystem → Option α} {a : α} {b : β}
  {action : StateM FileSystem (Except FileError α)} {w w' : World}

theorem bind_eq_some_iff :
    (x >>= next) w = (some b, w') ↔
      ∃ a between, x w = (some a, between) ∧ next a between = (some b, w') := by
  rw [bind_apply]
  rcases x w with ⟨- | a, between⟩
  · constructor
    · exact nofun
    · rintro ⟨_, _, ⟨⟩, -⟩
  · constructor
    · exact fun h => ⟨a, between, rfl, h⟩
    · rintro ⟨_, _, ⟨⟩, h⟩
      exact h

theorem reads_eq_some_iff : reads f w = (some a, w') ↔ f w.files = some a ∧ w = w' :=
  Prod.ext_iff

theorem ofFiles_eq_some_iff :
    ofFiles action w = (some a, w') ↔
      ∃ left, action w.files = (.ok a, left) ∧ { w with files := left } = w' := by
  rw [ofFiles]
  rcases action w.files with ⟨e | v, left⟩
  · constructor
    · exact nofun
    · rintro ⟨_, ⟨⟩, -⟩
  · constructor
    · rintro ⟨⟩
      exact ⟨left, rfl, rfl⟩
    · rintro ⟨_, ⟨⟩, rfl⟩
      rfl

theorem ofFiles_writeText (p : Path) (s : Text) (w : World) :
    ofFiles (MonadFiles.writeText p s) w =
      match w.files.writeBytes p (Text.encodeUtf8 s) with
      | .ok left => (some (), { w with files := left })
      | .error _ => (none, w) := by
  change ofFiles (FileSystem.update (·.writeBytes p (Text.encodeUtf8 s))) w = _
  rw [ofFiles, FileSystem.update]
  rcases w.files.writeBytes p (Text.encodeUtf8 s) with e | left <;> rfl

theorem writeText_eq_some_iff {p : Path} {s : Text} :
    ofFiles (MonadFiles.writeText p s) w = (some (), w') ↔
      ∃ left, w.files.writeBytes p (Text.encodeUtf8 s) = .ok left ∧
        { w with files := left } = w' := by
  rw [ofFiles_writeText]
  rcases w.files.writeBytes p (Text.encodeUtf8 s) with e | left
  · constructor
    · exact nofun
    · rintro ⟨_, ⟨⟩, -⟩
  · constructor
    · rintro ⟨⟩
      exact ⟨left, rfl, rfl⟩
    · rintro ⟨_, ⟨⟩, rfl⟩
      rfl

/-- A look that finds nothing out changes nothing. -/
theorem bind_done (x : Effect Unit) : (x >>= fun _ => reads fun _ => some ()) = x := by
  funext w
  rw [bind_apply]
  rcases x w with ⟨- | _, w⟩ <;> rfl

/-- Nor does handing on a value, and dropping it. -/
theorem bind_some_bind_done (x : Effect Unit) (b : β) :
    ((x >>= fun _ => reads fun _ => some b) >>= fun _ => reads fun _ => some ()) = x := by
  funext w
  rw [bind_apply, bind_apply]
  rcases x w with ⟨- | _, w⟩ <;> rfl

end Effect

open Effect (reads)

namespace Stage

theorem bind_apply (stage : Stage (StateM FileSystem) α) (next : α → Stage (StateM FileSystem) β)
    (transcript : Transcript) (fs : FileSystem) :
    (stage >>= next) transcript fs =
      match stage transcript fs with
      | ((.ok a, transcript), fs) => next a transcript fs
      | ((.error f, transcript), fs) => ((.error f, transcript), fs) := by
  change ExceptT.bindCont next (stage transcript fs).1.1 (stage transcript fs).1.2
    (stage transcript fs).2 = _
  rcases stage transcript fs with ⟨⟨f | a, transcript⟩, fs⟩ <;> rfl

theorem during_apply (activity : Text) (stage : Stage (StateM FileSystem) α)
    (transcript : Transcript) (fs : FileSystem) :
    during activity stage transcript fs =
      match stage transcript fs with
      | ((.ok a, transcript), fs) => ((.ok a, transcript), fs)
      | ((.error f, transcript), fs) => ((.error (f.during activity), transcript), fs) := by
  unfold during
  rcases h : stage transcript fs with ⟨⟨f | a, written⟩, left⟩
  · simp only [ExceptT.mk, ExceptT.run, bind, StateT.bind, h]
    rfl
  · simp only [ExceptT.mk, ExceptT.run, bind, StateT.bind, h]
    rfl

theorem ofFiles_apply (action : StateM FileSystem (Except FileError α)) (transcript : Transcript)
    (fs : FileSystem) :
    ofFiles action transcript fs =
      (ofExcept FileError.message (action fs).1 : Stage (StateM FileSystem) α) transcript
        (action fs).2 := by
  rw [ofFiles, bind_apply]
  rfl

theorem note_apply (e : Event) (transcript : Transcript) (fs : FileSystem) :
    (note e : Stage (StateM FileSystem) Unit) transcript fs =
      ((.ok (), transcript.push (.noted e)), fs) := rfl

theorem print_apply (s : Text) (transcript : Transcript) (fs : FileSystem) :
    (print s : Stage (StateM FileSystem) Unit) transcript fs =
      ((.ok (), transcript.push (.printed s)), fs) := rfl

/-- What is told of the end of a stage: its result, if it has one, what has been printed by then,
and the files. -/
def told (ended : (Except Failure α × Transcript) × FileSystem) : Option α × World :=
  (ended.1.1.toOption, ⟨Transcript.printed ended.1.2, ended.2⟩)

/-- Whatever has been noted, the stage has the effect. -/
def Acts (stage : Stage (StateM FileSystem) α) (effect : Effect α) : Prop :=
  ∀ transcript fs, told (stage transcript fs) = effect ⟨Transcript.printed transcript, fs⟩

namespace Acts

variable {stage : Stage (StateM FileSystem) α} {next : α → Stage (StateM FileSystem) β}
  {x : Effect α} {f : FileSystem → Option α} {g : α → FileSystem → Option β}

theorem pure (a : α) : Acts (Pure.pure a) (reads fun _ => some a) := fun _ _ => rfl

theorem bind {y : α → Effect β} (h : Acts stage x) (hnext : ∀ a, Acts (next a) (y a)) :
    Acts (stage >>= next) (x >>= y) := by
  intro transcript fs
  rw [bind_apply, Effect.bind_apply, ← h transcript fs]
  rcases stage transcript fs with ⟨⟨f | a, transcript⟩, fs⟩
  · rfl
  · exact hnext a transcript fs

theorem bind_reads (h : Acts stage (reads f)) (hnext : ∀ a, Acts (next a) (reads (g a))) :
    Acts (stage >>= next) (reads fun fs => (f fs).bind fun a => g a fs) := by
  rw [← Effect.reads_bind]
  exact h.bind hnext

/-- Stages that only look at files come to one look before what follows them. -/
theorem bind_reads_bind {y : β → Effect δ} {next : α → Stage (StateM FileSystem) δ}
    (h : Acts stage (reads f)) (hnext : ∀ a, Acts (next a) (reads (g a) >>= y)) :
    Acts (stage >>= next) ((reads fun fs => (f fs).bind fun a => g a fs) >>= y) := by
  intro transcript fs
  rw [h.bind hnext transcript fs, ← Effect.reads_bind]
  simp only [Effect.bind_apply, reads]
  rcases f fs with - | a <;> rfl

/-- What only hands a result on does not matter. -/
theorem followed {next : α → Stage (StateM FileSystem) α} (h : Acts stage (reads f))
    (hnext : ∀ a, Acts (next a) (reads fun _ => some a)) : Acts (stage >>= next) (reads f) := by
  have hbind := h.bind_reads hnext
  simp only [Option.bind_fun_some] at hbind
  exact hbind

theorem print (s : Text) : Acts (print s) (Effect.print s) := by
  intro transcript fs
  rw [print_apply, told, Transcript.printed_push_printed]
  rfl

theorem note (e : Event) : Acts (note e) (reads fun _ => some ()) := by
  intro transcript fs
  rw [note_apply, told, Transcript.printed_push_noted]
  rfl

/-- A note before a stage does not matter. -/
theorem note_bind (e : Event) {stage : Stage (StateM FileSystem) α} (h : Acts stage x) :
    Acts (Stage.note e >>= fun _ => stage) x := by
  intro transcript fs
  have hstage := h (transcript.push (.noted e)) fs
  rw [Transcript.printed_push_noted] at hstage
  rw [bind_apply, note_apply]
  exact hstage

theorem forM_note_bind (list : List β) (event : β → Event) (h : Acts stage x) :
    Acts (list.forM (fun b => Stage.note (event b)) >>= fun _ => stage) x := by
  induction list with
  | nil => exact h
  | cons b list ih => exact ih.note_bind (event b)

theorem during (activity : Text) (h : Acts stage x) : Acts (during activity stage) x := by
  intro transcript fs
  rw [← h transcript fs, during_apply]
  rcases stage transcript fs with ⟨⟨f | a, transcript⟩, fs⟩ <;> rfl

theorem ofExcept (message : ε → Text) (r : Except ε α) :
    Acts (ofExcept message r) (reads fun _ => r.toOption) := by
  cases r <;> exact fun _ _ => rfl

theorem ofFiles (action : StateM FileSystem (Except FileError α)) :
    Acts (ofFiles action) (Effect.ofFiles action) := by
  intro transcript fs
  rw [ofFiles_apply, Effect.ofFiles]
  rcases action fs with ⟨e | a, fs⟩ <;> rfl

end Acts

end Stage

end Command

end Stencil
