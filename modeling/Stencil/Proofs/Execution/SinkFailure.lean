import Stencil.Proofs.Execution.Trace

/-!
Runs whose sink fails at one write. Up to that write such a run keeps in step with the run whose
sink takes everything, and the write is the last thing that it asks for.
-/
namespace Stencil

variable {σ ρ ε δ α β : Type}

/-- The pieces that the calls write, with their markers. -/
def Call.writes (calls : List Call) : List (Text × Option Char) :=
  calls.filterMap fun
    | write content marker => some (content, marker)
    | evaluate _ _ | splice _ => none

namespace Action

def onFst (a : Action σ ε α) : Action (σ × ρ) ε α := fun s => ((a s.1).1, (a s.1).2, s.2)

def onSnd (a : Action ρ ε α) : Action (σ × ρ) ε α := fun s => ((a s.2).1, s.1, (a s.2).2)

end Action

/-- The host beside a sink, of which it sees nothing. -/
def Host.onFst (host : Host σ ε) : Host (σ × ρ) ε where
  evaluate expr marker := (host.evaluate expr marker).onFst
  splice code := (host.splice code).onFst

namespace Sink

def onSnd (sink : Sink ρ ε) : Sink (σ × ρ) ε where
  write content marker := (sink.write content marker).onSnd

/-- The sink takes everything. -/
def NeverFails (sink : Sink ρ ε) : Prop :=
  ∀ content marker r, (sink.write content marker r).1 = .ok ()

/-- The sink once it has been asked for the writes. -/
def after (sink : Sink ρ ε) (r : ρ) (writes : List (Text × Option Char)) : ρ :=
  writes.foldl (fun r w => (sink.write w.1 w.2 r).2) r

/-- The same sink, but for its write number `n`, which fails and takes nothing. The state has the
number of writes so far. -/
def failingAt (sink : Sink ρ ε) (n : Nat) (cause : ε) : Sink (ρ × Nat) ε where
  write content marker s :=
    if s.2 + 1 = n then (.error cause, s.1, s.2 + 1)
    else
      let (result, r) := sink.write content marker s.1
      (result, r, s.2 + 1)

end Sink

/-- A run of a host and a sink that share no state, and its calls. -/
def executeApart (host : Host σ ε) (sink : Sink ρ ε) (instructions : List Instruction) (s : σ)
    (r : ρ) : Except (RenderError ε) Unit × (σ × ρ) × List Call :=
  execute host.onFst.logged sink.onSnd.logged instructions ((s, r), [])

/-- How a step with a failing sink ends, next to the same step with a sink that takes everything:
both start after `log` and `k` writes, and `e` is the failure. -/
inductive KeepsStep (sink : Sink ρ ε) (n : Nat) (e : δ) (r : ρ) (k : Nat) (log : List Call) :
    Except δ α × (σ × ρ) × List Call → Except δ α × (σ × ρ × Nat) × List Call → Prop
  | same {v : Except δ α} {t : σ} {r' : ρ} {k' : Nat} {log' : List Call} (calls : List Call) :
    log' = log ++ calls → r' = sink.after r (Call.writes calls) →
      k' = k + (Call.writes calls).length → k' < n →
      KeepsStep sink n e r k log (v, (t, r'), log') (v, (t, r', k'), log')
  | cut {v : Except δ α} {t t' : σ} {r' : ρ} {content : Text} {marker : Option Char}
      {log' : List Call} (before after : List Call) :
    log' = log ++ (before ++ .write content marker :: after) →
      k + (Call.writes before).length + 1 = n →
      KeepsStep sink n e r k log (v, (t, r'), log')
        (.error e, (t', sink.after r (Call.writes before), n),
          log ++ (before ++ [.write content marker]))

/-- The action with the failing sink keeps step with the other one from wherever it starts. -/
def Action.InStep (sink : Sink ρ ε) (n : Nat) (e : δ)
    (failing : Action ((σ × ρ × Nat) × List Call) δ α)
    (a : Action ((σ × ρ) × List Call) δ α) : Prop :=
  ∀ s r k log, k < n → KeepsStep sink n e r k log (a ((s, r), log)) (failing ((s, r, k), log))

variable {sink : Sink ρ ε} {n : Nat} {e : δ} {host : Host σ ε} {cause : ε}

theorem Call.writes_append (calls more : List Call) :
    writes (calls ++ more) = writes calls ++ writes more := List.filterMap_append

theorem Sink.after_append (sink : Sink ρ ε) (r : ρ) (writes more : List (Text × Option Char)) :
    sink.after r (writes ++ more) = sink.after (sink.after r writes) more := List.foldl_append

theorem KeepsStep.log_append {r : ρ} {k : Nat} {log : List Call}
    {x : Except δ α × (σ × ρ) × List Call} {y : Except δ α × (σ × ρ × Nat) × List Call}
    (h : KeepsStep sink n e r k log x y) : ∃ more, x.2.2 = log ++ more := by
  cases h with
  | same calls hlog => exact ⟨_, hlog⟩
  | cut before after hlog => exact ⟨_, hlog⟩

namespace Action.InStep

theorem pure (v : Except δ α) :
    InStep sink n e (fun s => (v, s) : Action ((σ × ρ × Nat) × List Call) δ α) fun s => (v, s) := by
  intro s r k log hk
  exact .same [] (List.append_nil log).symm rfl rfl hk

theorem bind {failing : Action ((σ × ρ × Nat) × List Call) δ α}
    {a : Action ((σ × ρ) × List Call) δ α} {next : α → Action ((σ × ρ × Nat) × List Call) δ β}
    {f : α → Action ((σ × ρ) × List Call) δ β} (h : InStep sink n e failing a)
    (hnext : ∀ v, InStep sink n e (next v) (f v)) :
    InStep sink n e (failing >>= next) (a >>= f) := by
  intro s r k log hk
  rw [bind_apply, bind_apply]
  have hstep := h s r k log hk
  generalize a ((s, r), log) = x at hstep
  generalize failing ((s, r, k), log) = y at hstep
  cases hstep with
  | @same v t r' k' log' calls hlog hr hk' hlt =>
    cases v with
    | error e' => exact .same calls hlog hr hk' hlt
    | ok v =>
      have hmore := hnext v t r' k' log' hlt
      simp only
      generalize f v ((t, r'), log') = x at hmore
      generalize next v ((t, r', k'), log') = y at hmore
      cases hmore with
      | same more hlog' hr' hk'' hlt' =>
        refine .same (calls ++ more) ?_ ?_ ?_ hlt'
        · rw [hlog', hlog, List.append_assoc]
        · rw [hr', hr, Call.writes_append, Sink.after_append]
        · rw [hk'', hk', Call.writes_append, List.length_append, Nat.add_assoc]
      | cut before after hlog' hcut =>
        rw [hlog, List.append_assoc, ← List.append_assoc calls, hr, ← Sink.after_append,
          ← Call.writes_append]
        refine .cut (calls ++ before) after ?_ ?_
        · rw [hlog', hlog]
          simp
        · rw [Call.writes_append, List.length_append, ← Nat.add_assoc, ← hk', hcut]
  | @cut v t u r' content marker log' before after hlog hcut =>
    -- The run whose sink takes the write may go on, which only adds to its calls.
    cases v with
    | error e' => exact .cut before after hlog hcut
    | ok v =>
      obtain ⟨more, hmore⟩ := (hnext v t r' k log' hk).log_append
      refine .cut before (after ++ more) ?_ hcut
      rw [hmore, hlog]
      simp

/-- A call of the host is no write. -/
theorem host_call (a : Action σ ε α) {call : Call} (hcall : Call.writes [call] = []) (f : ε → δ) :
    InStep (ρ := ρ) sink n e ((a.onFst.logged call).mapError f)
      ((a.onFst.logged call).mapError f) := by
  intro s r k log hk
  rw [mapError_apply, mapError_apply]
  simp only [onFst, logged]
  have hr : r = sink.after r (Call.writes [call]) := by rw [hcall]; rfl
  have hcount : k = k + (Call.writes [call]).length := by rw [hcall]; rfl
  rcases a s with ⟨cause | v, t⟩
  · exact .same [call] rfl hr hcount hk
  · exact .same [call] rfl hr hcount hk

theorem write (hsink : sink.NeverFails) (content : Text) (marker : Option Char) :
    InStep (σ := σ) sink n (RenderError.write cause)
      (((sink.failingAt n cause).onSnd.logged.write content marker).mapError .write)
      ((sink.onSnd.logged.write content marker).mapError .write) := by
  intro s r k log hk
  rw [mapError_apply, mapError_apply]
  simp only [Sink.logged, Sink.onSnd, Action.logged, Action.onSnd, Sink.failingAt]
  have htaken : sink.write content marker r = (.ok (), (sink.write content marker r).2) :=
    Prod.ext (hsink content marker r) rfl
  rw [htaken]
  by_cases hn : k + 1 = n
  · subst hn
    rw [if_pos rfl]
    exact .cut [] [] rfl rfl
  · rw [if_neg hn]
    exact .same [.write content marker] rfl rfl rfl (by omega)

end Action.InStep

theorem Instruction.inStep_run (hsink : sink.NeverFails) (i : Instruction) :
    Action.InStep sink n (.write cause)
      (i.run host.onFst.logged (sink.failingAt n cause).onSnd.logged)
      (i.run host.onFst.logged sink.onSnd.logged) := by
  cases i with
  | emitLiteral bytes => exact .bind (.pure _) fun content => .write hsink content none
  | emitEvaluated expr marker =>
    have hcall : Call.writes [.evaluate expr marker] = [] := rfl
    exact .bind (.host_call (host.evaluate expr marker) hcall _) fun value =>
      .write hsink value (some marker)
  | splice code =>
    have hcall : Call.writes [.splice code] = [] := rfl
    exact .host_call (host.splice code) hcall _

theorem inStep_execute (hsink : sink.NeverFails) (instructions : List Instruction) :
    Action.InStep sink n (.write cause)
      (execute host.onFst.logged (sink.failingAt n cause).onSnd.logged instructions)
      (execute host.onFst.logged sink.onSnd.logged instructions) := by
  induction instructions with
  | nil => exact .pure _
  | cons i instructions ih => exact .bind (i.inStep_run hsink) fun _ => ih

/-- A run with a sink that fails at its write number `n` is cut off there: it makes the calls of the
run whose sink takes everything, up to and with that write, and has put out what was written before.
If there is no such write, the two runs are the same. -/
theorem sink_failure_cuts_run (host : Host σ ε) (hsink : sink.NeverFails) (cause : ε) (hn : 1 ≤ n)
    (instructions : List Instruction) (s : σ) (r : ρ) :
    ∃ result t r' calls,
      executeApart host sink instructions s r = (result, (t, r'), calls) ∧
      ((Call.writes calls).length < n →
        executeApart host (sink.failingAt n cause) instructions s (r, 0) =
          (result, (t, r', (Call.writes calls).length), calls)) ∧
      (n ≤ (Call.writes calls).length → ∃ before content marker after u,
        calls = before ++ .write content marker :: after ∧ (Call.writes before).length + 1 = n ∧
        executeApart host (sink.failingAt n cause) instructions s (r, 0) =
          (.error (.write cause), (u, sink.after r (Call.writes before), n),
            before ++ [.write content marker])) := by
  have hstep : KeepsStep sink n (.write cause) r 0 [] (executeApart host sink instructions s r)
      (executeApart host (sink.failingAt n cause) instructions s (r, 0)) :=
    inStep_execute hsink instructions s r 0 [] hn
  generalize executeApart host sink instructions s r = x at hstep
  generalize executeApart host (sink.failingAt n cause) instructions s (r, 0) = y at hstep
  cases hstep with
  | @same result t r' k calls made hcalls _ hk hlt =>
    rw [Nat.zero_add] at hk
    rw [List.nil_append] at hcalls
    subst hk hcalls
    exact ⟨result, t, r', calls, rfl, fun _ => rfl, fun hle => (Nat.not_le_of_lt hlt hle).elim⟩
  | @cut result t u r' content marker calls before after hcalls hcount =>
    rw [Nat.zero_add] at hcount
    rw [List.nil_append] at hcalls
    refine ⟨result, t, r', calls, rfl, ?_, fun _ =>
      ⟨before, content, marker, after, u, hcalls, hcount, rfl⟩⟩
    intro hlt
    rw [hcalls, Call.writes_append, List.length_append] at hlt
    simp only [Call.writes, List.filterMap_cons, List.length_cons] at hlt hcount
    omega

/-- The run itself fails at a corrupt literal behind two writes. With a sink that fails at the
second one it ends there; a sink that would fail at a third one changes nothing. -/
theorem sink_failure_cuts_run_before_corrupt :
    let host : Host Nat Nat := ⟨fun expr _ s => (.ok (expr ++ expr), s + 1), fun _ s => (.ok (), s)⟩
    let sink : Sink (List Text) Nat := ⟨fun content _ r => (.ok (), r ++ [content])⟩
    let corrupt : LiteralError := .badEscape 0
    let instructions : List Instruction :=
      [.emitEvaluated ['u'] '=', .emitEvaluated ['v'] '!', .splice ['s'], .emitLiteral ⟨['?']⟩]
    let calls : List Call :=
      [.evaluate ['u'] '=', .write ['u', 'u'] (some '='), .evaluate ['v'] '!',
        .write ['v', 'v'] (some '!'), .splice ['s']]
    executeApart host sink instructions 0 [] =
      (.error (.literal corrupt), (2, [['u', 'u'], ['v', 'v']]), calls) ∧
    (∃ t, executeApart host (sink.failingAt 2 9) instructions 0 ([], 0) =
      (.error (.write 9), (t, [['u', 'u']], 2), calls.take 4)) ∧
    executeApart host (sink.failingAt 3 9) instructions 0 ([], 0) =
      (.error (.literal corrupt), (2, [['u', 'u'], ['v', 'v']], 2), calls) := by
  intro host sink corrupt instructions calls
  have hsink : sink.NeverFails := fun _ _ _ => rfl
  have hrun : executeApart host sink instructions 0 [] =
      (.error (.literal corrupt), (2, [['u', 'u'], ['v', 'v']]), calls) := rfl
  refine ⟨hrun, ?_, ?_⟩
  · obtain ⟨result, t, r', calls', hrun', -, hcut⟩ :=
      sink_failure_cuts_run host hsink 9 (n := 2) (by decide) instructions 0 []
    rw [hrun] at hrun'
    cases hrun'
    obtain ⟨before, content, marker, after, u, hcalls, hcount, hfailing⟩ := hcut (by decide)
    refine ⟨u, hfailing.trans ?_⟩
    change [_, _, _, _, _] = _ at hcalls
    rcases before with _ | ⟨c₁, _ | ⟨c₂, _ | ⟨c₃, _ | ⟨c₄, before⟩⟩⟩⟩ <;>
      simp only [List.nil_append, List.cons_append, List.cons.injEq, reduceCtorEq, false_and,
        and_false] at hcalls
    · obtain ⟨rfl, -⟩ := hcalls
      cases hcount
    · obtain ⟨rfl, rfl, rfl, hwrite, -⟩ := hcalls
      cases hwrite
      rfl
    · obtain ⟨rfl, rfl, rfl, rfl, -⟩ := hcalls
      simp [Call.writes] at hcount
  · obtain ⟨result, t, r', calls', hrun', hsame, -⟩ :=
      sink_failure_cuts_run host hsink 9 (n := 3) (by decide) instructions 0 []
    rw [hrun] at hrun'
    cases hrun'
    exact hsame (by decide)

end Stencil
