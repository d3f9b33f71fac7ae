import Mathlib.Data.List.TakeWhile
import Stencil.Context
import Stencil.Proofs.Execution.Compilation
import Stencil.Proofs.Output

/-!
Rendering a template against a JSON value. Each segment is accepted or refused by the value alone,
so a run writes what the accepted segments stand for, up to the first one that is refused.
-/
namespace Stencil

theorem Text.trim_eq_nil_iff {s : Text} : s.trim = [] ↔ ∀ c ∈ s, isBlank c := by
  rw [trim, List.reverse_eq_nil_iff, List.dropWhile_eq_nil_iff]
  simp only [List.mem_reverse]
  constructor
  · intro h c hc
    rw [← List.takeWhile_append_dropWhile (p := isBlank) (l := s)] at hc
    exact (List.mem_append.mp hc).elim List.mem_takeWhile_imp (h c)
  · intro h c hc
    exact h c ((List.dropWhile_sublist isBlank).subset hc)

namespace Context

variable {root : Json} {escaped : Markers} {segment : Segment} {segments before : List Segment}
  {e : RenderError HostError} {o : Output}

/-- An expression has a value, and code that is only run is blank. -/
def Accepts (root : Json) : Segment → Prop
  | .text _ => True
  | .eval _ code => ∃ v, lookup? root code = some v
  | .raw code => ∀ c ∈ code, Text.isBlank c

/-- What a segment that is accepted adds to the output. -/
def piece (root : Json) (escaped : Markers) : Segment → Text
  | .text content => content
  | .eval marker code =>
    match lookup? root code with
    | some v => if marker ∈ escaped then Output.escapeHtml (display v) else display v
    | none => []
  | .raw _ => []

/-- How a run ends at a segment that is not accepted; the error has the code with its blanks. -/
inductive Refuses (root : Json) : Segment → RenderError HostError → Prop
  | noValue {marker : Char} {code : Text} : lookup? root code = none →
    Refuses root (.eval marker code) (.host code (.noValue code.trim))
  | noControlFlow {code : Text} : (∃ c ∈ code, ¬ Text.isBlank c) →
    Refuses root (.raw code) (.splice code (.noControlFlow code.trim))

theorem accepts_or_refuses (root : Json) (segment : Segment) :
    Accepts root segment ∨ ∃ e, Refuses root segment e := by
  cases segment with
  | text content => exact Or.inl trivial
  | eval marker code =>
    cases h : lookup? root code with
    | some v => exact Or.inl ⟨v, h⟩
    | none => exact Or.inr ⟨_, .noValue h⟩
  | raw code =>
    by_cases h : ∀ c ∈ code, Text.isBlank c
    · exact Or.inl h
    · exact Or.inr ⟨_, .noControlFlow (by simpa using h)⟩

theorem Refuses.not_accepts (h : Refuses root segment e) : ¬ Accepts root segment := by
  cases h with
  | noValue h =>
    rintro ⟨v, hv⟩
    rw [h] at hv
    cases hv
  | noControlFlow h =>
    intro hall
    obtain ⟨c, hc, hblank⟩ := h
    exact hblank (hall c hc)

/-- A segment that is accepted adds its piece, and the run goes on. -/
theorem interpret_accepted (h : Accepts root segment) (segments : List Segment) (o : Output) :
    ∃ o' : Output, o'.escaped = o.escaped ∧ o'.text = o.text ++ piece root o.escaped segment ∧
      Segment.interpret (host root) Output.sink (segment :: segments) o =
        Segment.interpret (host root) Output.sink segments o' := by
  cases segment with
  | text content =>
    -- Empty text is not even written.
    by_cases hc : content = []
    · exact ⟨o, rfl, by simp [piece, hc], by rw [Segment.interpret, if_pos hc]⟩
    · refine ⟨o.write content none, rfl, o.text_write content none, ?_⟩
      rw [Segment.interpret, if_neg hc]
      rfl
  | eval marker code =>
    obtain ⟨v, hv⟩ := h
    refine ⟨o.write (display v) (some marker), rfl, ?_, ?_⟩
    · rw [Output.text_write, piece, hv]
      rfl
    · simp [Segment.interpret, host, evaluate, hv, Output.sink]
  | raw code =>
    refine ⟨o, rfl, by simp [piece], ?_⟩
    simp [Segment.interpret, host, splice, Text.trim_eq_nil_iff.mpr h]

theorem interpret_refused (h : Refuses root segment e) (segments : List Segment) (o : Output) :
    Segment.interpret (host root) Output.sink (segment :: segments) o = (.error e, o) := by
  cases h with
  | noValue h => simp [Segment.interpret, host, evaluate, h]
  | @noControlFlow code h =>
    have hblank : ¬ ∀ c ∈ code, Text.isBlank c := by simpa using h
    simp [Segment.interpret, host, splice, Text.trim_eq_nil_iff, hblank]

/-- Segments that are accepted add their pieces in turn, and the run goes on behind them. -/
theorem interpret_accepted_append (h : ∀ s ∈ before, Accepts root s) (segments : List Segment)
    (o : Output) :
    ∃ o' : Output, o'.text = o.text ++ before.flatMap (piece root o.escaped) ∧
      Segment.interpret (host root) Output.sink (before ++ segments) o =
        Segment.interpret (host root) Output.sink segments o' := by
  induction before generalizing o with
  | nil => exact ⟨o, by simp, rfl⟩
  | cons segment before ih =>
    obtain ⟨hsegment, hbefore⟩ := List.forall_mem_cons.mp h
    obtain ⟨o₁, hescaped, htext₁, hrun₁⟩ := interpret_accepted hsegment (before ++ segments) o
    obtain ⟨o₂, htext₂, hrun₂⟩ := ih hbefore o₁
    refine ⟨o₂, ?_, hrun₁.trans hrun₂⟩
    rw [htext₂, htext₁, hescaped, List.flatMap_cons, List.append_assoc]

/-- All segments are accepted, or there is a first one that is not. -/
theorem accepted_or_refused (root : Json) (segments : List Segment) :
    (∀ s ∈ segments, Accepts root s) ∨
      ∃ before segment after e, segments = before ++ segment :: after ∧
        (∀ s ∈ before, Accepts root s) ∧ Refuses root segment e := by
  induction segments with
  | nil => exact Or.inl nofun
  | cons segment segments ih =>
    obtain hsegment | ⟨e, hrefused⟩ := accepts_or_refuses root segment
    · obtain hall | ⟨before, first, after, e, rfl, hbefore, hrefused⟩ := ih
      · exact Or.inl (List.forall_mem_cons.mpr ⟨hsegment, hall⟩)
      · exact Or.inr ⟨segment :: before, first, after, e, rfl,
          List.forall_mem_cons.mpr ⟨hsegment, hbefore⟩, hrefused⟩
    · exact Or.inr ⟨[], segment, segments, e, rfl, nofun, hrefused⟩

theorem execute_accepted (h : ∀ s ∈ segments, Accepts root s) (o : Output) :
    ∃ o' : Output, o'.text = o.text ++ segments.flatMap (piece root o.escaped) ∧
      execute (host root) Output.sink (Instruction.ofSegments segments) o = (.ok (), o') := by
  obtain ⟨o', htext, hrun⟩ := interpret_accepted_append h [] o
  rw [List.append_nil] at hrun
  exact ⟨o', htext, (execute_ofSegments _ _ segments o).trans hrun⟩

theorem execute_refused (hbefore : ∀ s ∈ before, Accepts root s) (h : Refuses root segment e)
    (after : List Segment) (o : Output) :
    ∃ o' : Output, o'.text = o.text ++ before.flatMap (piece root o.escaped) ∧
      execute (host root) Output.sink (Instruction.ofSegments (before ++ segment :: after)) o =
        (.error e, o') := by
  obtain ⟨o', htext, hrun⟩ := interpret_accepted_append hbefore (segment :: after) o
  refine ⟨o', htext, ?_⟩
  rw [execute_ofSegments, hrun, interpret_refused h]

theorem text_of_execute_ok {o o' : Output}
    (h : execute (host root) Output.sink (Instruction.ofSegments segments) o = (.ok (), o')) :
    o'.text = o.text ++ segments.flatMap (piece root o.escaped) := by
  obtain hall | ⟨before, segment, after, e, rfl, hbefore, hrefused⟩ :=
    accepted_or_refused root segments
  · obtain ⟨o₁, htext, hrun⟩ := execute_accepted hall o
    rw [hrun] at h
    cases h
    exact htext
  · obtain ⟨o₁, -, hrun⟩ := execute_refused hbefore hrefused after o
    rw [hrun] at h
    cases h

/-- A template renders exactly if the value accepts all of its segments. Otherwise the error is that
of the first one refused, behind the output of the segments before it. -/
theorem execute_in_context {d : Delimiters} {source : Text} (h : scan d source = .ok segments)
    (root : Json) (escaped : Markers) :
    ∃ instructions result o, compile d source = .ok instructions ∧
      execute (host root) Output.sink instructions { escaped := escaped } = (result, o) ∧
      (result = .ok () ↔ ∀ s ∈ segments, Accepts root s) ∧
      ((∀ s ∈ segments, Accepts root s) → o.text = segments.flatMap (piece root escaped)) ∧
      ((¬ ∀ s ∈ segments, Accepts root s) → ∃ before segment after e,
        segments = before ++ segment :: after ∧ (∀ s ∈ before, Accepts root s) ∧
          Refuses root segment e ∧ result = .error e ∧
            o.text = before.flatMap (piece root escaped)) := by
  have hcompile : compile d source = .ok (Instruction.ofSegments segments) :=
    compile_eq_ok_iff.mpr ⟨segments, h, rfl⟩
  obtain hall | ⟨before, segment, after, e, rfl, hbefore, hrefused⟩ :=
    accepted_or_refused root segments
  · obtain ⟨o, htext, hrun⟩ := execute_accepted hall { escaped := escaped }
    exact ⟨_, _, o, hcompile, hrun, iff_of_true rfl hall, fun _ => htext, fun hn => (hn hall).elim⟩
  · have hn : ¬ ∀ s ∈ before ++ segment :: after, Accepts root s :=
      fun hall => hrefused.not_accepts (hall segment (by simp))
    obtain ⟨o, htext, hrun⟩ := execute_refused hbefore hrefused after { escaped := escaped }
    exact ⟨_, _, o, hcompile, hrun, iff_of_false nofun hn, fun hall => (hn hall).elim,
      fun _ => ⟨before, segment, after, e, rfl, hbefore, hrefused, rfl, htext⟩⟩

/-- Two segments are refused; the first of them ends the run behind an escaped value. -/
theorem execute_in_context_two_offences :
    let d : Delimiters := ⟨['<'], ['>'], .ofList ['=']⟩
    let source : Text := ['é', '<', '=', ' ', 'a', '>', '<', ' ', 'b', '>', '<', '=', 'c', '>']
    let segments : List Segment :=
      [.text ['é'], .eval '=' [' ', 'a'], .raw [' ', 'b'], .eval '=' ['c']]
    let root : Json := .object [(['a'], .string ['<', '&'])]
    scan d source = .ok segments ∧
      ∃ instructions o, compile d source = .ok instructions ∧
        execute (host root) Output.sink instructions { escaped := .ofList ['='] } =
          (.error (.splice [' ', 'b'] (.noControlFlow ['b'])), o) ∧
        o.text = 'é' :: "&lt;&amp;".toList := by
  intro d source segments root
  have hscan : scan d source = .ok segments := (scan_eq_ok_iff (by decide)).mpr ⟨rfl, by decide⟩
  have hraw : ¬ Accepts root (.raw [' ', 'b']) := by
    intro hblank
    have hb := hblank 'b' (by simp)
    revert hb
    decide
  obtain ⟨instructions, result, o, hcompile, hrun, -, -, hfirst⟩ :=
    execute_in_context hscan root (.ofList ['='])
  obtain ⟨before, segment, after, e, hsplit, hbefore, hsegment, rfl, htext⟩ :=
    hfirst fun hall => hraw (hall _ (by simp [segments]))
  refine ⟨hscan, instructions, o, hcompile, ?_⟩
  change [_, _, _, _] = _ at hsplit
  rcases before with _ | ⟨first, _ | ⟨second, _ | ⟨third, before⟩⟩⟩ <;>
    simp only [List.nil_append, List.cons_append, List.cons.injEq] at hsplit
  · obtain ⟨rfl, -⟩ := hsplit
    cases hsegment
  · obtain ⟨-, rfl, -⟩ := hsplit
    cases hsegment with
    | noValue hnone => cases hnone
  · obtain ⟨rfl, rfl, rfl, -⟩ := hsplit
    cases hsegment
    exact ⟨hrun, htext⟩
  · obtain ⟨-, -, rfl, -⟩ := hsplit
    exact (hraw (hbefore _ (by simp))).elim

end Context

end Stencil
