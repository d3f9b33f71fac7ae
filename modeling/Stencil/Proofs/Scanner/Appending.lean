import Stencil.Proofs.Scanner.Runs

/-!
Scans of a source that goes on. Where no piece of the first part can grow, the parts are scanned
apart; a failure in the first part stays where it was found or moves on.
-/
namespace Stencil

open Segment (spans Cuts Leads)

variable {d : Delimiters} {segments : List Segment} {a b t source rest : Text}

namespace Segment

/-- A text takes up the text that follows it. -/
def joinText (t : Text) : List Segment → List Segment
  | text u :: segments => text (t ++ u) :: segments
  | segments => text t :: segments

theorem joinText_of_not_text (h : ∀ next ∈ segments.head?, ¬ next.isText) :
    joinText t segments = text t :: segments := by
  unfold joinText
  split
  · exact (h _ rfl rfl).elim
  · rfl

end Segment

theorem CompileError.shift_shift (m n : Nat) (e : CompileError) :
    (e.shift m).shift n = e.shift (n + m) := by
  cases e with
  | unterminated start stop offset => simp [shift, Nat.add_assoc, Nat.add_comm m n]
  | emptyDelimiter side => rfl

theorem mapM_mapError (f : CompileError → CompileError)
    (items : List (Except CompileError Segment)) :
    (items.map (·.mapError f)).mapM id = (items.mapM id).mapError f := by
  induction items with
  | nil => rfl
  | cons item items ih =>
    rw [List.map_cons, List.mapM_cons, List.mapM_cons, ih]
    cases item with
    | error e => rfl
    | ok segment => cases items.mapM id <;> rfl

theorem cuts_of_scan (h : scan d source = .ok segments) : Cuts d segments source [] := by
  obtain ⟨rfl, hL⟩ := (scan_eq_ok_iff (valid_of_scan h)).mp h
  simpa using hL.cuts (Or.inl rfl)

/-- What is left after segments have been cut off is scanned as a source of its own. -/
theorem scan_of_cuts (hd : d.Valid) (h : Cuts d segments source rest) :
    scan d source =
      ((scan d rest).map (segments ++ ·)).mapError (.shift (spans d segments).length) := by
  have hafter : (Scanner.mk d hd source 0 false).after segments rest =
      (Scanner.mk d hd rest 0 false).advance (spans d segments).length := rfl
  rw [scan_eq_mapM_items hd, Scanner.items_of_cuts rfl h, hafter, Scanner.items_advance,
    mapM_ok_append, mapM_mapError, scan_eq_mapM_items hd]
  cases (Scanner.mk d hd rest 0 false).items.mapM id <;> rfl

/-- A text is read on to the next region, so it takes up the text that begins what follows it. -/
theorem scan_text_append (hd : d.Valid) (ht : t ≠ []) (hclear : Text.Clear d.start t b) :
    scan d (t ++ b) = ((scan d b).map (Segment.joinText t)).mapError (.shift t.length) := by
  by_cases hb : b = [] ∨ d.start <+: b
  · have hlead : Leads d (.text t) (t ++ b) b := ⟨rfl, ⟨ht, hclear⟩, fun _ => hb⟩
    rw [scan_of_cuts hd (.cons hlead .nil)]
    cases hscan : scan d b with
    | error e => simp [Except.map, Except.mapError, spans, Segment.sourceText]
    | ok segments =>
      have hjoin := Segment.joinText_of_not_text (t := t) ((cuts_of_scan hscan).head_not_text hb)
      exact congrArg Except.ok hjoin.symm
  · obtain ⟨hb, hstart⟩ := not_or.mp hb
    -- No region stands at the seam, so what follows begins with a text `u`, and `t ++ u` is read.
    obtain ⟨segment, rest, hlead⟩ | ⟨tail, rfl, -⟩ := Segment.leads_or_unclosed hd hb
    · cases segment with
      | eval _ _ | raw _ => exact (hstart (by simp [hlead.source_eq, Segment.sourceText])).elim
      | text u =>
        obtain rfl : b = u ++ rest := hlead.source_eq
        obtain ⟨-, ⟨-, hclear'⟩, hends⟩ := id hlead
        have hjoined : Leads d (.text (t ++ u)) (t ++ (u ++ rest)) rest :=
          ⟨(List.append_assoc _ _ _).symm, ⟨by simp [ht], Text.clear_append.mpr ⟨hclear, hclear'⟩⟩,
            hends⟩
        rw [scan_of_cuts hd (.cons hjoined .nil), scan_of_cuts hd (.cons hlead .nil)]
        cases scan d rest with
        | ok segments => rfl
        | error e =>
          simp [Except.map, Except.mapError, spans, Segment.sourceText,
            CompileError.shift_shift]
    · exact (hstart (List.prefix_append _ _)).elim

/-- Every failure of a scan is a region without end. -/
theorem error_of_scan (hd : d.Valid) {e : CompileError} (h : scan d source = .error e) :
    ∃ segments tail, Segment.StuckAfter d segments source tail ∧
      e = .unterminated d.start d.stop (spans d segments).length := by
  obtain ⟨segments, rfl, hL⟩ | ⟨segments, tail, hstuck⟩ := Segment.canonical_or_stuck hd source
  · rw [scan_of_canonical hd hL] at h
    cases h
  · rw [scan_of_stuck hd hstuck] at h
    exact ⟨segments, tail, hstuck, (Except.error.inj h).symm⟩

theorem scan_append_of_code_last (h : scan d a = .ok segments)
    (hlast : ∀ last ∈ segments.getLast?, ¬ last.isText) (b : Text) :
    scan d (a ++ b) = ((scan d b).map (segments ++ ·)).mapError (.shift a.length) := by
  have hd := valid_of_scan h
  have hcuts := cuts_of_scan h
  have hextended := hcuts.extend hd (fun last hl ht => (hlast last hl ht).elim) b
  rw [scan_of_cuts hd hextended, List.nil_append, hcuts.source_eq, List.append_nil]

theorem scan_append_of_text_last (h : scan d a = .ok (segments ++ [.text t]))
    (hclear : Text.Clear d.start t b) :
    scan d (a ++ b) =
      ((scan d b).map (segments ++ Segment.joinText t ·)).mapError (.shift a.length) := by
  have hd := valid_of_scan h
  obtain ⟨middle, hcuts, hlast⟩ := (cuts_of_scan h).of_append
  obtain _ | ⟨hlead, hnil⟩ := hlast
  cases hnil
  -- The pieces before the text are cut off as before, since the text stands behind them.
  have hextended := hcuts.extend hd (fun _ _ _ => hlead.source_ne_nil hd) b
  obtain rfl : middle = t := hlead.source_eq.trans (List.append_nil t)
  rw [scan_of_cuts hd hextended, scan_text_append hd hlead.fits.1 hclear, hcuts.source_eq]
  cases scan d b with
  | ok segments => rfl
  | error e =>
    simp only [Except.map, Except.mapError, CompileError.shift_shift, List.length_append]

theorem error_place_of_cuts (hd : d.Valid) (h : Cuts d segments source rest) {e : CompileError}
    (he : scan d source = .error e) :
    ∃ place, (spans d segments).length ≤ place ∧ e = .unterminated d.start d.stop place := by
  rw [scan_of_cuts hd h] at he
  cases hrest : scan d rest with
  | ok more =>
    rw [hrest] at he
    cases he
  | error e' =>
    obtain ⟨more, tail, -, rfl⟩ := error_of_scan hd hrest
    rw [hrest] at he
    cases he
    exact ⟨_, Nat.le_add_left _ _, rfl⟩

/-- Scanning goes on where it has come to: behind code, within a text that goes on, and at the
region where it failed. -/
theorem scan_append (d : Delimiters) (hd : d.Valid) (a b : Text) :
    (∀ segments, scan d a = .ok segments → (∀ last ∈ segments.getLast?, ¬ last.isText) →
      scan d (a ++ b) = ((scan d b).map (segments ++ ·)).mapError (.shift a.length)) ∧
    (∀ segments t, scan d a = .ok (segments ++ [.text t]) → Text.Clear d.start t b →
      scan d (a ++ b) =
        ((scan d b).map (segments ++ Segment.joinText t ·)).mapError (.shift a.length)) ∧
    ∀ start stop offset, scan d a = .error (.unterminated start stop offset) →
      ∃ segments : List Segment,
        (Scanner.mk d hd a 0 false).items =
          segments.map .ok ++ [.error (.unterminated start stop offset)] ∧
        segments.map .ok <+: (Scanner.mk d hd (a ++ b) 0 false).items ∧
        ∀ e, scan d (a ++ b) = .error e →
          ∃ place, offset ≤ place ∧ e = .unterminated d.start d.stop place := by
  refine ⟨?_, ?_, ?_⟩
  · intro segments h hlast
    exact scan_append_of_code_last h hlast b
  · intro segments t h hclear
    exact scan_append_of_text_last h hclear
  · intro start stop offset h
    obtain ⟨segments, tail, hstuck, he⟩ := error_of_scan hd h
    cases he
    have hextended := hstuck.cuts.extend hd (fun _ _ _ => by simp [hd.1]) b
    refine ⟨segments, Scanner.items_of_stuck hd hstuck, ?_, ?_⟩
    · exact ⟨_, (Scanner.items_of_cuts rfl hextended).symm⟩
    · intro e he
      exact error_place_of_cuts hd hextended he

/-- A region that opens in the second part, a text that goes on there, and a region that is closed
there. -/
theorem scan_append_seams :
    let d : Delimiters := ⟨['<', '<'], ['>'], .ofList ['=']⟩
    d.Valid ∧
      scan d (['<', '<', 'x', '>'] ++ ['é', '<', '<']) = .error (.unterminated d.start d.stop 5) ∧
      scan d (['<', '<', 'x', '>', 't'] ++ ['u', '<', '<', '=', 'y', '>']) =
        .ok [.raw ['x'], .text ['t', 'u'], .eval '=' ['y']] ∧
      scan d ['é', '<', '<', 'x'] = .error (.unterminated d.start d.stop 1) ∧
      ∃ place, 1 ≤ place ∧
        scan d (['é', '<', '<', 'x'] ++ ['>', '<', '<']) =
          .error (.unterminated d.start d.stop place) := by
  intro d
  have hd : d.Valid := by decide
  have hcode : scan d ['<', '<', 'x', '>'] = .ok [.raw ['x']] :=
    (scan_eq_ok_iff hd).mpr ⟨rfl, by decide⟩
  have hstuck : Segment.StuckAfter d [.text ['é']] ['é', '<', '<'] [] :=
    ⟨rfl, by decide, by decide⟩
  have htext : scan d ['<', '<', 'x', '>', 't'] = .ok ([.raw ['x']] ++ [.text ['t']]) :=
    (scan_eq_ok_iff hd).mpr ⟨rfl, by decide⟩
  have hmore : scan d ['u', '<', '<', '=', 'y', '>'] = .ok [.text ['u'], .eval '=' ['y']] :=
    (scan_eq_ok_iff hd).mpr ⟨rfl, by decide⟩
  have hopen : Segment.StuckAfter d [.text ['é']] ['é', '<', '<', 'x'] ['x'] :=
    ⟨rfl, by decide, by decide⟩
  have hfails : scan d ['é', '<', '<', 'x'] = .error (.unterminated d.start d.stop 1) :=
    scan_of_stuck hd hopen
  have hclosed : Segment.StuckAfter d [.text ['é'], .raw ['x']]
      (['é', '<', '<', 'x'] ++ ['>', '<', '<']) [] := ⟨rfl, by decide, by decide⟩
  refine ⟨hd, ?_, ?_, hfails, ?_⟩
  · rw [(scan_append d hd _ _).1 _ hcode (by decide), scan_of_stuck hd hstuck]
    rfl
  · rw [(scan_append d hd _ _).2.1 _ _ htext (by decide), hmore]
    rfl
  · obtain ⟨segments, -, -, herrors⟩ := (scan_append d hd _ ['>', '<', '<']).2.2 _ _ _ hfails
    have hlater := scan_of_stuck hd hclosed
    obtain ⟨place, hle, he⟩ := herrors _ hlater
    exact ⟨place, hle, hlater.trans (congrArg Except.error he)⟩

end Stencil
