import Stencil.Proofs.Scanner.Reconstruction

/-!
The scanner call by call. What has been yielded and what is left to read make up the source after
any number of calls, and what is still to come does not depend on where the scanner has come from.
-/
namespace Stencil

open Segment (spans Cuts Leads Unclosed)

/-- The error of a source that has `n` more characters before it. -/
def CompileError.shift (n : Nat) : CompileError → CompileError
  | unterminated start stop offset => unterminated start stop (offset + n)
  | emptyDelimiter side => emptyDelimiter side

namespace Scanner

/-- What one call of `next` returns. -/
abbrev Result := Option (Except CompileError Segment)

variable {d : Delimiters} {hd : d.Valid} {source : Text} {segments : List Segment}
  {results : List Result} {s t : Scanner} {segment : Segment}

/-- The results of `n` calls in turn, and the scanner that they leave. -/
def calls (s : Scanner) : Nat → List Result × Scanner
  | 0 => ([], s)
  | n + 1 =>
    let (results, t) := s.calls n
    (results ++ [t.next.1], t.next.2)

/-- The results of calls that yield the segments. -/
def yields (segments : List Segment) : List Result := segments.map fun segment => some (.ok segment)

def yielded (results : List Result) : List Segment := results.filterMap (·.bind Except.toOption)

/-- The scanner with `n` more characters before what it has read. -/
def advance (n : Nat) (s : Scanner) : Scanner := { s with offset := s.offset + n }

/-- All that a call can do. -/
theorem next_cases (s : Scanner) :
    ((s.finished = true ∨ s.rest = []) ∧ s.next = (none, s.finish)) ∨
    (s.finished = false ∧ ∃ segment rest, Leads s.delimiters segment s.rest rest ∧
      s.next = (some (.ok segment), s.pass rest)) ∨
    (s.finished = false ∧ ∃ tail, s.rest = s.delimiters.start ++ tail ∧
      Unclosed s.delimiters tail ∧
      s.next = (some (.error (.unterminated s.delimiters.start s.delimiters.stop s.offset)),
        s.finish)) := by
  by_cases hstop : s.finished = true ∨ s.rest = []
  · exact Or.inl ⟨hstop, by rw [next, if_pos hstop]⟩
  obtain ⟨hf, hr⟩ := not_or.mp hstop
  rw [Bool.not_eq_true] at hf
  right
  obtain ⟨segment, rest, hlead⟩ | ⟨tail, htail, hu⟩ := Segment.leads_or_unclosed s.valid hr
  · exact Or.inl ⟨hf, segment, rest, hlead, next_of_leads hf hlead⟩
  · exact Or.inr ⟨hf, tail, htail, hu, next_of_unclosed hf htail hu⟩

theorem rest_next_shorter (h : s.next.1 = some (.ok segment)) :
    s.next.2.rest.length < s.rest.length := by
  obtain ⟨-, hn⟩ | ⟨-, segment', rest, hlead, hn⟩ | ⟨-, tail, -, -, hn⟩ := next_cases s
  · simp [hn] at h
  · rw [hn]
    exact hlead.rest_shorter s.valid
  · simp [hn] at h

theorem next_advance (n : Nat) (s : Scanner) :
    (s.advance n).next = (s.next.1.map (·.mapError (.shift n)), s.next.2.advance n) := by
  obtain ⟨hstop, hn⟩ | ⟨hf, segment, rest, hlead, hn⟩ | ⟨hf, tail, htail, hu, hn⟩ := next_cases s
  · rw [hn, next, if_pos (show (s.advance n).finished = true ∨ (s.advance n).rest = [] from hstop)]
    rfl
  · rw [hn, next_of_leads (s := s.advance n) hf hlead]
    simp [advance, pass, Except.mapError, Nat.add_right_comm]
  · rw [hn, next_of_unclosed (s := s.advance n) hf htail hu]
    rfl

theorem items_advance (n : Nat) (s : Scanner) :
    (s.advance n).items = s.items.map (·.mapError (.shift n)) := by
  have hadvance := next_advance n s
  rcases h : s.next with ⟨_ | item, t⟩
  · rw [h] at hadvance
    rw [items_of_next_none h, items_of_next_none hadvance, List.map_nil]
  · rw [h] at hadvance
    rw [items_of_next_some h, items_of_next_some hadvance, items_advance n t, List.map_cons]
termination_by s.left
decreasing_by exact left_next_lt h

/-- The results and the scanner after some calls on a source: segments have been yielded, and then
perhaps the end was met, or a region without end. -/
inductive Reached (d : Delimiters) (hd : d.Valid) (source : Text) : List Result → Scanner → Prop
  | reading {segments : List Segment} {rest : Text} : Cuts d segments source rest →
    Reached d hd source (yields segments) ⟨d, hd, rest, (spans d segments).length, false⟩
  | ended {segments : List Segment} (more : Nat) : Cuts d segments source [] →
    Reached d hd source (yields segments ++ none :: List.replicate more none)
      ⟨d, hd, [], (spans d segments).length, true⟩
  | failed {segments : List Segment} {tail : Text} (more : Nat) :
    Cuts d segments source (d.start ++ tail) → Unclosed d tail →
    Reached d hd source
      (yields segments ++
        some (.error (.unterminated d.start d.stop (spans d segments).length)) ::
          List.replicate more none)
      ⟨d, hd, d.start ++ tail, (spans d segments).length, true⟩

theorem Reached.next (h : Reached d hd source results t) :
    Reached d hd source (results ++ [t.next.1]) t.next.2 := by
  cases h with
  | @reading segments rest hcuts =>
    obtain ⟨hstop, hn⟩ | ⟨-, segment, rest', hlead, hn⟩ | ⟨-, tail, htail, hu, hn⟩ :=
      next_cases ⟨d, hd, rest, (spans d segments).length, false⟩
    · obtain rfl : rest = [] := hstop.resolve_left Bool.false_ne_true
      rw [hn]
      exact .ended 0 hcuts
    · have hmore : Reached d hd source (yields (segments ++ [segment])) _ :=
        .reading (hcuts.append (.cons hlead .nil))
      rw [hn, pass_of_leads hlead]
      simpa [spans, after, yields] using hmore
    · obtain rfl : rest = d.start ++ tail := htail
      rw [hn]
      exact .failed 0 hcuts hu
  | @ended segments more hcuts =>
    rw [next, if_pos (Or.inl rfl), List.append_assoc, List.cons_append, ← List.replicate_succ']
    exact .ended (more + 1) hcuts
  | @failed segments tail more hcuts hu =>
    rw [next, if_pos (Or.inl rfl), List.append_assoc, List.cons_append, ← List.replicate_succ']
    exact .failed (more + 1) hcuts hu

theorem reached_calls (d : Delimiters) (hd : d.Valid) (source : Text) (n : Nat) :
    Reached d hd source (calls ⟨d, hd, source, 0, false⟩ n).1
      (calls ⟨d, hd, source, 0, false⟩ n).2 := by
  induction n with
  | zero => exact .reading .nil
  | succ n ih => exact ih.next

/-- Nothing comes after the call: it has met the end or a failure. -/
def Stops (r : Result) : Prop := r = none ∨ ∃ e, r = some (.error e)

theorem yielded_yields_append (segments : List Segment) (results : List Result) :
    yielded (yields segments ++ results) = segments ++ yielded results := by
  simp [yielded, yields, List.filterMap_append, List.filterMap_map, Function.comp_def,
    Except.toOption]

theorem yielded_yields (segments : List Segment) : yielded (yields segments) = segments := by
  simpa [yielded] using yielded_yields_append segments []

theorem countP_yields_append (segments : List Segment) (results : List Result) :
    (yields segments ++ results).countP Option.isSome =
      segments.length + results.countP Option.isSome := by
  simp [yields, List.countP_append, List.countP_map, Function.comp_def]

theorem countP_nones (n : Nat) :
    (List.replicate n none : List Result).countP Option.isSome = 0 := by
  simp [List.countP_replicate]

theorem pairwise_yields_append (segments : List Segment)
    (h : results.Pairwise fun earlier later => Stops earlier → later = none) :
    (yields segments ++ results).Pairwise fun earlier later => Stops earlier → later = none := by
  have hok : ∀ segment : Segment, ¬ Stops (some (.ok segment)) := by
    rintro segment (h | ⟨e, h⟩) <;> cases h
  induction segments with
  | nil => exact h
  | cons segment segments ih => exact .cons (fun _ _ hstop => (hok segment hstop).elim) ih

theorem pairwise_cons_nones (r : Result) (n : Nat) :
    (r :: List.replicate n none).Pairwise fun earlier later => Stops earlier → later = none := by
  refine .cons ?_ (List.pairwise_replicate.mpr (Or.inr fun _ => rfl))
  intro later hlater _
  exact List.eq_of_mem_replicate hlater

/-- What holds after any number of calls, which gave the results and left the scanner `t`. -/
structure RunInvariant (d : Delimiters) (source : Text) (results : List Result) (t : Scanner) :
    Prop where
  spans_rest : (∀ e, some (.error e) ∉ results) → spans d (yielded results) ++ t.rest = source
  offset_eq : (∀ e, some (.error e) ∉ results) → t.offset = (spans d (yielded results)).length
  /-- What is still to come is what the rest yields on its own, but for the places of failures. -/
  items_eq : (∀ e, some (.error e) ∉ results) →
    ∃ fresh, ofText d t.rest = .ok fresh ∧
      t.items = fresh.items.map (·.mapError (.shift t.offset))
  rest_shorter : ∀ segment, t.next.1 = some (.ok segment) → t.next.2.rest.length < t.rest.length
  count_le : results.countP Option.isSome ≤ source.length
  stays_stopped : results.Pairwise fun earlier later => Stops earlier → later = none

theorem Reached.runInvariant (h : Reached d hd source results t) :
    RunInvariant d source results t := by
  cases h with
  | @reading segments rest hcuts =>
    have hlength := hcuts.length_le hd
    refine ⟨?_, ?_, ?_, fun _ => rest_next_shorter, ?_, ?_⟩
    · intro _
      rw [yielded_yields, hcuts.source_eq]
    · intro _
      rw [yielded_yields]
    · intro _
      refine ⟨_, ofText_eq hd rest, ?_⟩
      rw [← items_advance, advance, Nat.zero_add]
    · rw [← List.append_nil (yields segments), countP_yields_append, List.countP_nil]
      omega
    · simpa using pairwise_yields_append segments .nil
  | @ended segments more hcuts =>
    have hyielded : yielded (yields segments ++ none :: List.replicate more none) = segments := by
      rw [yielded_yields_append]
      simp [yielded]
    refine ⟨?_, ?_, ?_, fun _ => rest_next_shorter, ?_, ?_⟩
    · intro _
      rw [hyielded, hcuts.source_eq]
    · intro _
      rw [hyielded]
    · intro _
      refine ⟨_, ofText_eq hd [], ?_⟩
      rw [items_of_finished rfl, items_of_next_none (next_of_rest_nil rfl), List.map_nil]
    · rw [countP_yields_append, List.countP_cons_of_neg Bool.false_ne_true, countP_nones]
      exact hcuts.length_le hd
    · exact pairwise_yields_append segments (pairwise_cons_nones none more)
  | @failed segments tail more hcuts _ =>
    -- The failure is among the results, which leaves nothing to say of what was read.
    have hfailed {e : CompileError} {results : List Result} {p : Prop}
        (h : ∀ e', some (.error e') ∉ yields segments ++ some (.error e) :: results) : p :=
      (h e (by simp)).elim
    have hlength := hcuts.length_le hd
    have hstart := List.length_pos_iff.mpr hd.1
    rw [List.length_append] at hlength
    refine ⟨hfailed, hfailed, hfailed, fun _ => rest_next_shorter, ?_, ?_⟩
    · rw [countP_yields_append, List.countP_cons_of_pos rfl, countP_nones]
      omega
    · exact pairwise_yields_append segments (pairwise_cons_nones _ more)

/-- Every run of a scanner keeps the invariant, from the first call on. -/
theorem runInvariant_calls (d : Delimiters) (hd : d.Valid) (source : Text) :
    ∃ s, ofText d source = .ok s ∧
      ∀ n, RunInvariant d source (s.calls n).1 (s.calls n).2 := by
  refine ⟨_, ofText_eq hd source, ?_⟩
  intro n
  exact (reached_calls d hd source n).runInvariant

/-- Two segments are yielded before a region without end is met, and then nothing more. -/
theorem runInvariant_calls_unclosed :
    let d : Delimiters := ⟨['<'], ['>'], .ofList ['=']⟩
    let source : Text := ['é', '<', '=', 'b', '>', '<', 'x']
    d.Valid ∧ ∃ s, ofText d source = .ok s ∧
      (s.calls 4).1 = [some (.ok (.text ['é'])), some (.ok (.eval '=' ['b'])),
        some (.error (.unterminated d.start d.stop 5)), none] ∧
      (s.calls 2).2.items = [.error (.unterminated d.start d.stop 5)] ∧
      RunInvariant d source (s.calls 4).1 (s.calls 4).2 := by
  intro d source
  have hd : d.Valid := by decide
  obtain ⟨s, hs, hrun⟩ := runInvariant_calls d hd source
  obtain rfl : ⟨d, hd, source, 0, false⟩ = s := Except.ok.inj ((ofText_eq hd source).symm.trans hs)
  have hok : ∀ e, some (.error e) ∉ (calls ⟨d, hd, source, 0, false⟩ 2).1 := by
    intro e he
    change some (.error e) ∈ yields [.text ['é'], .eval '=' ['b']] at he
    simp [yields] at he
  obtain ⟨fresh, hfresh, hitems⟩ := (hrun 2).items_eq hok
  obtain rfl : ⟨d, hd, ['<', 'x'], 0, false⟩ = fresh :=
    Except.ok.inj ((ofText_eq hd _).symm.trans hfresh)
  have hopen : Unclosed d ['x'] := by decide
  refine ⟨hd, _, hs, rfl, ?_, hrun 4⟩
  rw [hitems, items_of_unclosed rfl rfl hopen]
  rfl

end Scanner

end Stencil
