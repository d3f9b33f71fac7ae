import Stencil.Proofs.Execution.Steps

/-!
Runs with more in their state. Where host and sink act on a part of the state as they do on it
alone, so does a run, whatever an observer does to the rest.
-/
namespace Stencil

variable {σ τ ε δ α β : Type} {part : τ → σ}

/-- The action does to a part of its state what the other one does to that part alone. -/
def Action.ActsOn (part : τ → σ) (wide : Action τ ε α) (a : Action σ ε α) : Prop :=
  ∀ t, ((wide t).1, part (wide t).2) = a (part t)

namespace Action.ActsOn

variable {wide : Action τ ε α} {a : Action σ ε α}

theorem bind {next : α → Action τ ε β} {f : α → Action σ ε β} (h : ActsOn part wide a)
    (hnext : ∀ v, ActsOn part (next v) (f v)) : ActsOn part (wide >>= next) (a >>= f) := by
  intro t
  rw [bind_apply, bind_apply, ← h t]
  rcases wide t with ⟨e | v, u⟩
  · rfl
  · exact hnext v u

theorem mapError (f : ε → δ) (h : ActsOn part wide a) :
    ActsOn part (wide.mapError f) (a.mapError f) := by
  intro t
  rw [mapError_apply, mapError_apply, ← h t]
  rcases wide t with ⟨e | v, u⟩ <;> rfl

end Action.ActsOn

structure Host.ActsOn (part : τ → σ) (wide : Host τ ε) (host : Host σ ε) : Prop where
  evaluate (expr : Text) (marker : Char) :
    Action.ActsOn part (wide.evaluate expr marker) (host.evaluate expr marker)
  splice (code : Text) : Action.ActsOn part (wide.splice code) (host.splice code)

def Sink.ActsOn (part : τ → σ) (wide : Sink τ ε) (sink : Sink σ ε) : Prop :=
  ∀ content marker, Action.ActsOn part (wide.write content marker) (sink.write content marker)

variable {wideHost : Host τ ε} {host : Host σ ε} {wideSink : Sink τ ε} {sink : Sink σ ε}

theorem Instruction.actsOn_run (hhost : wideHost.ActsOn part host)
    (hsink : wideSink.ActsOn part sink) (i : Instruction) :
    Action.ActsOn part (i.run wideHost wideSink) (i.run host sink) := by
  cases i with
  | emitLiteral bytes => exact .bind (fun _ => rfl) fun content => .mapError _ (hsink content none)
  | emitEvaluated expr marker =>
    exact .bind (.mapError _ (hhost.evaluate expr marker)) fun value =>
      .mapError _ (hsink value (some marker))
  | splice code => exact .mapError _ (hhost.splice code)

theorem actsOn_execute (hhost : wideHost.ActsOn part host) (hsink : wideSink.ActsOn part sink)
    (instructions : List Instruction) :
    Action.ActsOn part (execute wideHost wideSink instructions)
      (execute host sink instructions) := by
  induction instructions with
  | nil => exact fun _ => rfl
  | cons i instructions ih => exact .bind (i.actsOn_run hhost hsink) fun _ => ih

/-- An observer sees a run and has no say in it. -/
theorem actsOn_executeObserved {observe : Nat → Instruction → τ → τ}
    (hhost : wideHost.ActsOn part host) (hsink : wideSink.ActsOn part sink)
    (hobserve : ∀ pc i t, part (observe pc i t) = part t) (pc : Nat)
    (instructions : List Instruction) :
    Action.ActsOn part (executeObserved wideHost wideSink observe pc instructions)
      (execute host sink instructions) := by
  induction instructions generalizing pc with
  | nil => exact fun _ => rfl
  | cons i instructions ih =>
    intro t
    have hstep := (i.actsOn_run hhost hsink).bind (fun _ => ih (pc + 1)) (observe pc i t)
    rw [hobserve] at hstep
    exact hstep

end Stencil
