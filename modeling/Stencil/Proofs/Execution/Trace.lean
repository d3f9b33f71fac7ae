import Stencil.Proofs.Execution.Projection

/-!
The calls of a run. Instructions call the host and the sink in the order of the stream, up to the
first call that fails; what comes after it is never asked for.
-/
namespace Stencil

variable {σ ε α : Type}

/-- What is asked of the host or of the sink. -/
inductive Call
  | evaluate (expr : Text) (marker : Char)
  | splice (code : Text)
  | write (content : Text) (marker : Option Char)
  deriving DecidableEq

/-- The action behind a call, which is noted before it is carried out. -/
def Action.logged (call : Call) (a : Action σ ε α) : Action (σ × List Call) ε α :=
  fun s => ((a s.1).1, (a s.1).2, s.2 ++ [call])

def Host.logged (host : Host σ ε) : Host (σ × List Call) ε where
  evaluate expr marker := (host.evaluate expr marker).logged (.evaluate expr marker)
  splice code := (host.splice code).logged (.splice code)

def Sink.logged (sink : Sink σ ε) : Sink (σ × List Call) ε where
  write content marker := (sink.write content marker).logged (.write content marker)

variable (host : Host σ ε) (sink : Sink σ ε)

/-- An instruction makes all its calls, which lead from state to state. -/
inductive Instruction.Completes : Instruction → σ → List Call → σ → Prop
  | emitLiteral {bytes : Literal} {content : Text} {s t : σ} :
    bytes.decode = .ok content → sink.write content none s = (.ok (), t) →
      Completes (.emitLiteral bytes) s [.write content none] t
  | emitEvaluated {expr value : Text} {marker : Char} {s t u : σ} :
    host.evaluate expr marker s = (.ok value, t) → sink.write value (some marker) t = (.ok (), u) →
      Completes (.emitEvaluated expr marker) s
        [.evaluate expr marker, .write value (some marker)] u
  | splice {code : Text} {s t : σ} :
    host.splice code s = (.ok (), t) → Completes (.splice code) s [.splice code] t

/-- An instruction fails at the last of the calls, or before it makes any. -/
inductive Instruction.Fails : Instruction → σ → List Call → RenderError ε → σ → Prop
  | literal {bytes : Literal} {e : LiteralError} {s : σ} :
    bytes.decode = .error e → Fails (.emitLiteral bytes) s [] (.literal e) s
  | writeLiteral {bytes : Literal} {content : Text} {cause : ε} {s t : σ} :
    bytes.decode = .ok content → sink.write content none s = (.error cause, t) →
      Fails (.emitLiteral bytes) s [.write content none] (.write cause) t
  | evaluate {expr : Text} {marker : Char} {cause : ε} {s t : σ} :
    host.evaluate expr marker s = (.error cause, t) →
      Fails (.emitEvaluated expr marker) s [.evaluate expr marker] (.host expr cause) t
  | writeValue {expr value : Text} {marker : Char} {cause : ε} {s t u : σ} :
    host.evaluate expr marker s = (.ok value, t) →
      sink.write value (some marker) t = (.error cause, u) →
      Fails (.emitEvaluated expr marker) s
        [.evaluate expr marker, .write value (some marker)] (.write cause) u
  | splice {code : Text} {cause : ε} {s t : σ} :
    host.splice code s = (.error cause, t) →
      Fails (.splice code) s [.splice code] (.splice code cause) t

/-- Instructions complete one after the other; the calls are theirs in this order. -/
inductive Completed : List Instruction → σ → List Call → σ → Prop
  | nil {s : σ} : Completed [] s [] s
  | cons {i : Instruction} {instructions : List Instruction} {calls more : List Call} {s t u : σ} :
    i.Completes host sink s calls t → Completed instructions t more u →
      Completed (i :: instructions) s (calls ++ more) u

/-- The instruction at index `k` is the first to fail. -/
def StopsAt (k : Nat) (instructions : List Instruction) (s : σ) (calls : List Call)
    (e : RenderError ε) (t : σ) : Prop :=
  ∃ i before last u, instructions[k]? = some i ∧
    Completed host sink (instructions.take k) s before u ∧ i.Fails host sink u last e t ∧
      calls = before ++ last

variable {host sink} {i : Instruction} {instructions a b : List Instruction}
  {calls log more : List Call} {e : RenderError ε} {k : Nat} {s t u : σ}

theorem run_emitLiteral_corrupt {bytes : Literal} {e : LiteralError} (h : bytes.decode = .error e)
    (s : σ) : (Instruction.emitLiteral bytes).run host sink s = (.error (.literal e), s) := by
  rw [Instruction.run, h]
  rfl

variable (host sink) in
theorem Instruction.completes_or_fails (i : Instruction) (s : σ) :
    (∃ calls t, i.Completes host sink s calls t) ∨
      ∃ calls e t, i.Fails host sink s calls e t := by
  cases i with
  | emitLiteral bytes =>
    cases hd : bytes.decode with
    | error e => exact Or.inr ⟨_, _, _, .literal hd⟩
    | ok content =>
      rcases hw : sink.write content none s with ⟨cause | _, t⟩
      · exact Or.inr ⟨_, _, _, .writeLiteral hd hw⟩
      · exact Or.inl ⟨_, _, .emitLiteral hd hw⟩
  | emitEvaluated expr marker =>
    rcases he : host.evaluate expr marker s with ⟨cause | value, t⟩
    · exact Or.inr ⟨_, _, _, .evaluate he⟩
    · rcases hw : sink.write value (some marker) t with ⟨cause | _, u⟩
      · exact Or.inr ⟨_, _, _, .writeValue he hw⟩
      · exact Or.inl ⟨_, _, .emitEvaluated he hw⟩
  | splice code =>
    rcases hs : host.splice code s with ⟨cause | _, t⟩
    · exact Or.inr ⟨_, _, _, .splice hs⟩
    · exact Or.inl ⟨_, _, .splice hs⟩

theorem Instruction.Completes.run_logged (h : i.Completes host sink s calls t) (log : List Call) :
    i.run host.logged sink.logged (s, log) = (.ok (), t, log ++ calls) := by
  cases h with
  | emitLiteral hd hw =>
    rw [run_emitLiteral hd]
    simp [Sink.logged, Action.logged, hw]
  | emitEvaluated he hw =>
    rw [run_emitEvaluated]
    simp [Host.logged, Sink.logged, Action.logged, he, hw]
  | splice hs =>
    rw [run_splice]
    simp [Host.logged, Action.logged, hs]

theorem Instruction.Fails.run_logged (h : i.Fails host sink s calls e t) (log : List Call) :
    i.run host.logged sink.logged (s, log) = (.error e, t, log ++ calls) := by
  cases h with
  | literal hd =>
    rw [run_emitLiteral_corrupt hd, List.append_nil]
  | writeLiteral hd hw =>
    rw [run_emitLiteral hd]
    simp [Sink.logged, Action.logged, hw]
  | evaluate he =>
    rw [run_emitEvaluated]
    simp [Host.logged, Action.logged, he]
  | writeValue he hw =>
    rw [run_emitEvaluated]
    simp [Host.logged, Sink.logged, Action.logged, he, hw]
  | splice hs =>
    rw [run_splice]
    simp [Host.logged, Action.logged, hs]

/-- A run without its notes. -/
def forget {ρ : Type} (r : ρ × σ × List Call) : ρ × σ := (r.1, r.2.1)

theorem forget_execute_logged (instructions : List Instruction) (s : σ) (log : List Call) :
    forget (execute host.logged sink.logged instructions (s, log)) =
      execute host sink instructions s := by
  have hhost : host.logged.ActsOn Prod.fst host := ⟨fun _ _ _ => rfl, fun _ _ => rfl⟩
  have hsink : sink.logged.ActsOn Prod.fst sink := fun _ _ _ => rfl
  exact actsOn_execute hhost hsink instructions (s, log)

theorem execute_nil (s : σ) : execute host sink [] s = (.ok (), s) := rfl

theorem Completed.execute_logged (h : Completed host sink instructions s calls t)
    (log : List Call) :
    execute host.logged sink.logged instructions (s, log) = (.ok (), t, log ++ calls) := by
  induction h generalizing log with
  | nil => rw [execute_nil, List.append_nil]
  | cons hi _ ih =>
    rw [execute_cons, hi.run_logged]
    simp only [ih, List.append_assoc]

theorem execute_append (a b : List Instruction) (s : σ) :
    execute host sink (a ++ b) s =
      match execute host sink a s with
      | (.ok _, t) => execute host sink b t
      | (.error e, t) => (.error e, t) := by
  induction a generalizing s with
  | nil => rfl
  | cons i a ih =>
    rw [List.cons_append, execute_cons, execute_cons]
    rcases i.run host sink s with ⟨e | _, t⟩
    · rfl
    · exact ih t

theorem StopsAt.execute_logged (h : StopsAt host sink k instructions s calls e t)
    (log : List Call) :
    execute host.logged sink.logged instructions (s, log) = (.error e, t, log ++ calls) := by
  obtain ⟨i, before, last, u, hi, hbefore, hlast, rfl⟩ := h
  rw [← List.take_append_drop k instructions, execute_append, hbefore.execute_logged]
  obtain ⟨hk, hi⟩ := List.getElem?_eq_some_iff.mp hi
  rw [List.drop_eq_getElem_cons hk, hi]
  simp only [execute_cons, hlast.run_logged, List.append_assoc]

variable (host sink) in
theorem completed_or_stopsAt (instructions : List Instruction) (s : σ) :
    (∃ calls t, Completed host sink instructions s calls t) ∨
      ∃ k calls e t, StopsAt host sink k instructions s calls e t := by
  induction instructions generalizing s with
  | nil => exact Or.inl ⟨[], s, .nil⟩
  | cons i instructions ih =>
    obtain ⟨calls, t, hi⟩ | ⟨calls, e, t, hi⟩ := i.completes_or_fails host sink s
    · obtain ⟨more, u, hrest⟩ | ⟨k, _, e, v, j, before, last, u, hj, hbefore, hlast, rfl⟩ := ih t
      · exact Or.inl ⟨_, _, .cons hi hrest⟩
      · exact Or.inr ⟨k + 1, _, e, v, j, calls ++ before, last, u, hj, .cons hi hbefore, hlast, rfl⟩
    · exact Or.inr ⟨0, _, e, t, i, [], calls, s, rfl, .nil, hi, rfl⟩

theorem execute_logged_eq_ok_iff :
    execute host.logged sink.logged instructions (s, log) = (.ok (), t, more) ↔
      ∃ calls, Completed host sink instructions s calls t ∧ more = log ++ calls := by
  constructor
  · intro h
    obtain ⟨calls, t, hall⟩ | ⟨k, calls, e, t, hstop⟩ :=
      completed_or_stopsAt host sink instructions s
    · rw [hall.execute_logged] at h
      cases h
      exact ⟨calls, hall, rfl⟩
    · rw [hstop.execute_logged] at h
      cases h
  · rintro ⟨calls, hall, rfl⟩
    exact hall.execute_logged log

theorem execute_logged_eq_error_iff :
    execute host.logged sink.logged instructions (s, log) = (.error e, t, more) ↔
      ∃ k calls, StopsAt host sink k instructions s calls e t ∧ more = log ++ calls := by
  constructor
  · intro h
    obtain ⟨calls, t, hall⟩ | ⟨k, calls, e, t, hstop⟩ :=
      completed_or_stopsAt host sink instructions s
    · rw [hall.execute_logged] at h
      cases h
    · rw [hstop.execute_logged] at h
      cases h
      exact ⟨k, calls, hstop, rfl⟩
  · rintro ⟨k, calls, hstop, rfl⟩
    exact hstop.execute_logged log

theorem execute_fst_eq_ok_iff :
    (execute host sink instructions s).1 = .ok () ↔
      ¬ ∃ k calls e t, StopsAt host sink k instructions s calls e t := by
  rw [← forget_execute_logged instructions s []]
  constructor
  · rintro h ⟨k, calls, e, t, hstop⟩
    rw [hstop.execute_logged] at h
    cases h
  · intro h
    obtain ⟨calls, t, hall⟩ | hstop :=
      completed_or_stopsAt host sink instructions s
    · rw [hall.execute_logged]
      rfl
    · exact (h hstop).elim

variable (host sink) in
/-- A run makes the calls of its instructions in order, up to and with the first that fails, and
ends in the state which that call leaves. A stream in two parts is run part by part. -/
theorem execute_calls :
    (∀ instructions s log, forget (execute host.logged sink.logged instructions (s, log)) =
      execute host sink instructions s) ∧
    (∀ instructions s log t more,
      execute host.logged sink.logged instructions (s, log) = (.ok (), t, more) ↔
        ∃ calls, Completed host sink instructions s calls t ∧ more = log ++ calls) ∧
    (∀ instructions s log e t more,
      execute host.logged sink.logged instructions (s, log) = (.error e, t, more) ↔
        ∃ k calls, StopsAt host sink k instructions s calls e t ∧ more = log ++ calls) ∧
    (∀ instructions s, (execute host sink instructions s).1 = .ok () ↔
      ¬ ∃ k calls e t, StopsAt host sink k instructions s calls e t) ∧
    ∀ a b s, execute host sink (a ++ b) s =
      match execute host sink a s with
      | (.ok _, t) => execute host sink b t
      | (.error e, t) => (.error e, t) := by
  refine ⟨forget_execute_logged, ?_, ?_, ?_, execute_append⟩
  · intro instructions s log t more
    exact execute_logged_eq_ok_iff
  · intro instructions s log e t more
    exact execute_logged_eq_error_iff
  · intro instructions s
    exact execute_fst_eq_ok_iff

end Stencil
