import Stencil.Proofs.Execution.Steps
import Stencil.Proofs.Literal.Grammar
import Stencil.Proofs.Scanner.Reconstruction

/-! Compilation keeps the meaning of segments, for every host and sink. -/
namespace Stencil

variable {σ ε : Type}

theorem compile_eq_ok_iff {d : Delimiters} {source : Text} {instructions : List Instruction} :
    compile d source = .ok instructions ↔
      ∃ segments, scan d source = .ok segments ∧ instructions = Instruction.ofSegments segments := by
  rw [compile]
  cases scan d source with
  | error e => simp [Except.map]
  | ok segments => simp [Except.map, eq_comm]

/-- Segments run as they are, one after the other, until one fails. -/
def Segment.interpret (host : Host σ ε) (sink : Sink σ ε) :
    List Segment → σ → Except (RenderError ε) Unit × σ
  | [], s => (.ok (), s)
  | .text content :: segments, s =>
    if content = [] then interpret host sink segments s
    else
      match sink.write content none s with
      | (.ok _, t) => interpret host sink segments t
      | (.error cause, t) => (.error (.write cause), t)
  | .eval marker code :: segments, s =>
    match host.evaluate code marker s with
    | (.error cause, t) => (.error (.host code cause), t)
    | (.ok value, t) =>
      match sink.write value (some marker) t with
      | (.ok _, u) => interpret host sink segments u
      | (.error cause, u) => (.error (.write cause), u)
  | .raw code :: segments, s =>
    match host.splice code s with
    | (.ok _, t) => interpret host sink segments t
    | (.error cause, t) => (.error (.splice code cause), t)

variable (host : Host σ ε) (sink : Sink σ ε)

theorem execute_ofSegments (segments : List Segment) (s : σ) :
    execute host sink (Instruction.ofSegments segments) s =
      Segment.interpret host sink segments s := by
  induction segments generalizing s with
  | nil => rfl
  | cons segment segments ih =>
    cases segment with
    | text content =>
      rw [Segment.interpret]
      split
      · rename_i hc
        subst hc
        exact ih s
      · rename_i hc
        have hstream : Instruction.ofSegments (.text content :: segments) =
            .emitLiteral (.encode content) :: Instruction.ofSegments segments := by
          cases content with
          | nil => exact (hc rfl).elim
          | cons c content => rfl
        rw [hstream, execute_cons, run_emitLiteral (Literal.decode_encode content)]
        rcases sink.write content none s with ⟨cause | u, t⟩
        · rfl
        · exact ih t
    | eval marker code =>
      rw [Segment.interpret]
      change execute host sink (.emitEvaluated code marker :: Instruction.ofSegments segments) s = _
      rw [execute_cons, run_emitEvaluated]
      rcases host.evaluate code marker s with ⟨cause | value, t⟩
      · rfl
      · simp only
        rcases sink.write value (some marker) t with ⟨cause | v, u⟩
        · rfl
        · exact ih u
    | raw code =>
      rw [Segment.interpret]
      change execute host sink (.splice code :: Instruction.ofSegments segments) s = _
      rw [execute_cons, run_splice]
      rcases host.splice code s with ⟨cause | u, t⟩
      · rfl
      · exact ih t

theorem interpret_ne_literal (segments : List Segment) (s : σ) (e : LiteralError) :
    (Segment.interpret host sink segments s).1 ≠ .error (.literal e) := by
  induction segments generalizing s with
  | nil => exact nofun
  | cons segment segments ih =>
    cases segment with
    | text content =>
      rw [Segment.interpret]
      split
      · exact ih s
      · rcases sink.write content none s with ⟨cause | u, t⟩
        · exact nofun
        · exact ih t
    | eval marker code =>
      rw [Segment.interpret]
      rcases host.evaluate code marker s with ⟨cause | value, t⟩
      · exact nofun
      · simp only
        rcases sink.write value (some marker) t with ⟨cause | v, u⟩
        · exact nofun
        · exact ih u
    | raw code =>
      rw [Segment.interpret]
      rcases host.splice code s with ⟨cause | u, t⟩
      · exact nofun
      · exact ih t

/-- Compiled segments run as the segments themselves: both end in the same state with the same
result. Host and sink share the state, so it may be a pair of one for each. -/
theorem execute_compiled_eq_interpret :
    (∀ segments s, execute host sink (Instruction.ofSegments segments) s =
      Segment.interpret host sink segments s) ∧
    ∀ d source instructions, compile d source = .ok instructions →
      ∃ segments, scan d source = .ok segments ∧
        ∀ s, execute host sink instructions s = Segment.interpret host sink segments s ∧
          ∀ e, (execute host sink instructions s).1 ≠ .error (.literal e) := by
  refine ⟨execute_ofSegments host sink, ?_⟩
  intro d source instructions h
  obtain ⟨segments, hscan, rfl⟩ := compile_eq_ok_iff.mp h
  refine ⟨segments, hscan, ?_⟩
  intro s
  rw [execute_ofSegments]
  exact ⟨rfl, interpret_ne_literal host sink segments s⟩

/-- A sink that takes no evaluated text ends the run before the code after it. -/
theorem execute_compiled_eq_interpret_refused :
    let host : Host (List Text) Nat := ⟨fun expr _ s => (.ok (expr ++ expr), expr :: s),
      fun code s => (.error 1, code :: s)⟩
    let sink : Sink (List Text) Nat := ⟨fun content marker s =>
      (if marker = none then .ok () else .error 2, content :: s)⟩
    let d : Delimiters := ⟨['<'], ['>'], .ofList ['=']⟩
    let source : Text := ['é', '<', '=', 'b', '>', '<', 'c', '>']
    let instructions : List Instruction :=
      [.emitLiteral (.encode ['é']), .emitEvaluated ['b'] '=', .splice ['c']]
    compile d source = .ok instructions ∧
      execute host sink instructions [] = (.error (.write 2), [['b', 'b'], ['b'], ['é']]) := by
  intro host sink d source instructions
  have hscan : scan d source = .ok [.text ['é'], .eval '=' ['b'], .raw ['c']] :=
    (scan_eq_ok_iff (by decide)).mpr ⟨rfl, by decide⟩
  have hcompile : compile d source = .ok instructions := compile_eq_ok_iff.mpr ⟨_, hscan, rfl⟩
  obtain ⟨segments, hsegments, hrun⟩ :=
    (execute_compiled_eq_interpret host sink).2 d source instructions hcompile
  rw [hscan] at hsegments
  cases hsegments
  exact ⟨hcompile, (hrun []).1⟩

end Stencil
