import Stencil.Execution

/-! Steps of a run. The first failing step ends it, in the state that the step left. -/
namespace Stencil

variable {σ ε α β : Type} {host : Host σ ε} {sink : Sink σ ε}

theorem Action.bind_apply (a : Action σ ε α) (f : α → Action σ ε β) (s : σ) :
    (a >>= f) s =
      match a s with
      | (.ok v, t) => f v t
      | (.error e, t) => (.error e, t) := by
  change (match a s with | (r, t) => ExceptT.bindCont f r t) = _
  rcases a s with ⟨e | v, t⟩ <;> rfl

theorem Action.mapError_apply {δ : Type} (f : ε → δ) (a : Action σ ε α) (s : σ) :
    a.mapError f s =
      match a s with
      | (.ok v, t) => (.ok v, t)
      | (.error e, t) => (.error (f e), t) := by
  change ((a s).1.mapError f, (a s).2) = _
  rcases a s with ⟨e | v, t⟩ <;> rfl

theorem execute_cons (i : Instruction) (instructions : List Instruction) (s : σ) :
    execute host sink (i :: instructions) s =
      match i.run host sink s with
      | (.ok _, t) => execute host sink instructions t
      | (.error e, t) => (.error e, t) := by
  change (i.run host sink >>= fun _ => execute host sink instructions) s = _
  rw [Action.bind_apply]
  rcases i.run host sink s with ⟨e | u, t⟩ <;> rfl

/-- A literal that decodes is one write without a marker. -/
theorem run_emitLiteral {bytes : Literal} {content : Text} (h : bytes.decode = .ok content) (s : σ) :
    (Instruction.emitLiteral bytes).run host sink s =
      match sink.write content none s with
      | (.ok u, t) => (.ok u, t)
      | (.error cause, t) => (.error (.write cause), t) := by
  rw [Instruction.run, h]
  change (sink.write content none).mapError RenderError.write s = _
  rw [Action.mapError_apply]
  rcases sink.write content none s with ⟨cause | u, t⟩ <;> rfl

/-- The value of an expression is written under its marker. -/
theorem run_emitEvaluated (expr : Text) (marker : Char) (s : σ) :
    (Instruction.emitEvaluated expr marker).run host sink s =
      match host.evaluate expr marker s with
      | (.error cause, t) => (.error (.host expr cause), t)
      | (.ok value, t) =>
        match sink.write value (some marker) t with
        | (.ok u, v) => (.ok u, v)
        | (.error cause, v) => (.error (.write cause), v) := by
  rw [Instruction.run, Action.bind_apply, Action.mapError_apply]
  rcases host.evaluate expr marker s with ⟨cause | value, t⟩
  · rfl
  · simp only [Action.mapError_apply]
    rcases sink.write value (some marker) t with ⟨cause | u, v⟩ <;> rfl

theorem run_splice (code : Text) (s : σ) :
    (Instruction.splice code).run host sink s =
      match host.splice code s with
      | (.ok u, t) => (.ok u, t)
      | (.error cause, t) => (.error (.splice code cause), t) := by
  rw [Instruction.run, Action.mapError_apply]
  rcases host.splice code s with ⟨cause | u, t⟩ <;> rfl

end Stencil
