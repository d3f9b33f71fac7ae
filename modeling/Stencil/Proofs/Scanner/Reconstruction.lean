import Stencil.Proofs.Scanner.Cuts
import Stencil.Scanner

/-!
Runs of the scanner. It yields a canonical list one segment at a time, so a scan and the joining of
spans undo each other, and an unclosed region is reported where its start delimiter stands.
-/
namespace Stencil

open Segment (spans Canonical Cuts Leads Unclosed)

namespace Scanner

variable {s t : Scanner} {item : Except CompileError Segment} {segment : Segment}
  {segments : List Segment} {rest tail : Text}

/-- The scanner once the spans of `segments` have been read. -/
def after (s : Scanner) (segments : List Segment) (rest : Text) : Scanner :=
  { s with rest := rest, offset := s.offset + (spans s.delimiters segments).length }

theorem ofText_eq {d : Delimiters} (hd : d.Valid) (source : Text) :
    ofText d source = .ok ⟨d, hd, source, 0, false⟩ := by
  simp only [ofText, Delimiters.validate, dif_pos hd]
  rfl

theorem next_of_rest_nil (hs : s.rest = []) : s.next = (none, s.finish) := by
  rw [next, if_pos (Or.inr hs)]

/-- The characters that a scanner counts when it goes past a segment are those of its span. -/
theorem pass_of_leads (h : Leads s.delimiters segment s.rest rest) :
    s.pass rest = s.after [segment] rest := by
  have hlength := congrArg List.length h.source_eq
  rw [List.length_append] at hlength
  have hcount : s.rest.length - rest.length = (segment.sourceText s.delimiters).length := by omega
  rw [pass, hcount, after, Segment.spans_cons, spans, List.flatMap_nil, List.append_nil]

theorem next_of_leads (hf : s.finished = false) (h : Leads s.delimiters segment s.rest rest) :
    s.next = (some (.ok segment), s.pass rest) := by
  have hne : s.rest ≠ [] := by
    intro he
    have := h.rest_shorter s.valid
    simp [he] at this
  rw [next, if_neg (by simp [hf, hne])]
  obtain ⟨hs, hfit, hends⟩ := h
  cases segment with
  | text content =>
    obtain ⟨hcontent, hclear⟩ := hfit
    have hstart : s.rest.dropPrefix? s.delimiters.start = none := by
      rw [Option.eq_none_iff_forall_ne_some]
      intro body hbody
      refine hclear 0 (List.length_pos_iff.mpr hcontent) ⟨body, ?_⟩
      rw [← Text.dropPrefix?_eq_some.mp hbody, hs]
      rfl
    have hcut : s.rest.breakAt s.delimiters.start = (content, rest) :=
      Text.breakAt_eq_iff.mpr ⟨hs, hclear, hends rfl⟩
    simp only [hstart, hcut]
  | eval _ _ | raw _ =>
    obtain ⟨body, hbody⟩ : s.delimiters.start <+: s.rest := by simp [hs, Segment.sourceText]
    have hregion := (Segment.readRegion?_eq_some_iff s.valid).mpr ⟨rfl, hbody.trans hs, hfit⟩
    simp only [Text.dropPrefix?_eq_some.mpr hbody.symm, hregion]

theorem next_of_unclosed (hf : s.finished = false) (hs : s.rest = s.delimiters.start ++ tail)
    (hu : Unclosed s.delimiters tail) :
    s.next =
      (some (.error (.unterminated s.delimiters.start s.delimiters.stop s.offset)), s.finish) := by
  rw [next, if_neg (by simp [hf, hs, s.valid.1])]
  simp only [Text.dropPrefix?_eq_some.mpr hs, (Segment.readRegion?_eq_none_iff s.valid).mpr hu]

theorem items_of_next_none (h : s.next = (none, t)) : s.items = [] := by
  rw [items]
  split
  · rfl
  · simp_all

theorem items_of_next_some (h : s.next = (some item, t)) : s.items = item :: t.items := by
  rw [items]
  split
  · simp_all
  · simp_all

theorem items_of_finished (hf : s.finished = true) : s.items = [] := by
  apply items_of_next_none (t := s.finish)
  rw [next, if_pos (Or.inl hf)]

theorem items_of_unclosed (hf : s.finished = false) (hs : s.rest = s.delimiters.start ++ tail)
    (hu : Unclosed s.delimiters tail) :
    s.items = [.error (.unterminated s.delimiters.start s.delimiters.stop s.offset)] := by
  rw [items_of_next_some (next_of_unclosed hf hs hu), items_of_finished rfl]

/-- The segments that can be cut off are yielded in turn, and then the scanner stands behind them. -/
theorem items_of_cuts (hf : s.finished = false) (h : Cuts s.delimiters segments s.rest rest) :
    s.items = segments.map .ok ++ (s.after segments rest).items := by
  induction segments generalizing s with
  | nil =>
    have : s = s.after [] rest := by
      cases h
      simp [after, spans]
    rw [← this]
    rfl
  | cons segment segments ih =>
    obtain _ | ⟨hlead, hmore⟩ := h
    have hnext := next_of_leads hf hlead
    rw [pass_of_leads hlead] at hnext
    rw [items_of_next_some hnext, ih (s := s.after [segment] _) hf hmore]
    simp [after, spans, Nat.add_assoc]

end Scanner

variable {d : Delimiters} {segments : List Segment} {source tail : Text}

theorem Scanner.items_of_stuck (hd : d.Valid) (h : Segment.StuckAfter d segments source tail) :
    (Scanner.mk d hd source 0 false).items =
      segments.map .ok ++ [.error (.unterminated d.start d.stop (spans d segments).length)] := by
  have hlast := items_of_unclosed (s := after (.mk d hd source 0 false) segments (d.start ++ tail))
    rfl rfl h.unclosed
  rw [items_of_cuts rfl h.cuts, hlast]
  simp [after]

theorem mapM_ok_append (segments : List Segment) (items : List (Except CompileError Segment)) :
    (segments.map Except.ok ++ items).mapM id = (items.mapM id).map (segments ++ ·) := by
  induction segments with
  | nil =>
    rw [List.map_nil, List.nil_append]
    cases items.mapM id <;> rfl
  | cons segment segments ih =>
    rw [List.map_cons, List.cons_append, List.mapM_cons, ih]
    cases items.mapM id <;> rfl

theorem scan_eq_mapM_items (hd : d.Valid) (source : Text) :
    scan d source = (Scanner.mk d hd source 0 false).items.mapM id := by
  rw [scan, Scanner.ofText_eq hd]
  rfl

theorem scan_of_canonical (hd : d.Valid) (hL : Canonical d [] segments) :
    scan d (spans d segments) = .ok segments := by
  have hcuts := hL.cuts (Or.inl rfl)
  rw [List.append_nil] at hcuts
  rw [scan_eq_mapM_items hd, Scanner.items_of_cuts rfl hcuts,
    Scanner.items_of_next_none (Scanner.next_of_rest_nil rfl), mapM_ok_append]
  exact congrArg Except.ok (List.append_nil segments)

theorem scan_of_stuck (hd : d.Valid) (h : Segment.StuckAfter d segments source tail) :
    scan d source = .error (.unterminated d.start d.stop (spans d segments).length) := by
  rw [scan_eq_mapM_items hd, Scanner.items_of_stuck hd h, mapM_ok_append]
  rfl

theorem scan_eq_ok_iff (hd : d.Valid) :
    scan d source = .ok segments ↔ source = spans d segments ∧ Canonical d [] segments := by
  constructor
  · intro h
    obtain ⟨segments', rfl, hL⟩ | ⟨segments', tail, hstuck⟩ := Segment.canonical_or_stuck hd source
    · rw [scan_of_canonical hd hL] at h
      cases h
      exact ⟨rfl, hL⟩
    · rw [scan_of_stuck hd hstuck] at h
      cases h
  · rintro ⟨rfl, hL⟩
    exact scan_of_canonical hd hL

theorem valid_of_scan (h : scan d source = .ok segments) : d.Valid := by
  by_contra hd
  simp only [scan, Scanner.ofText, Delimiters.validate, dif_neg hd] at h
  cases h

/-- Scanning and joining spans are inverse to each other on exactly the canonical lists. -/
theorem scan_inverts_spans (d : Delimiters) (hd : d.Valid) :
    (∀ source segments, scan d source = .ok segments → spans d segments = source) ∧
      ∀ segments, scan d (spans d segments) = .ok segments ↔ Canonical d [] segments := by
  constructor
  · intro source segments h
    exact ((scan_eq_ok_iff hd).mp h).1.symm
  · intro segments
    rw [scan_eq_ok_iff hd]
    exact and_iff_right rfl

/-- Delimiters that overlap themselves: code may begin with a half of the end delimiter, but it may
not end with one. -/
theorem scan_inverts_spans_overlapping :
    let d : Delimiters := ⟨['a', 'a'], ['b', 'b'], .ofList ['=']⟩
    let source : Text := ['a', 'a', 'b', 'x', 'b', 'b', 'a', 'y', 'a', 'a', '=', 'a', 'b', 'b']
    let segments : List Segment := [.raw ['b', 'x'], .text ['a', 'y'], .eval '=' ['a']]
    d.Valid ∧ scan d source = .ok segments ∧ spans d segments = source ∧
      scan d (spans d [.raw ['x', 'b']]) ≠ .ok [.raw ['x', 'b']] := by
  intro d source segments
  have hd : d.Valid := by decide
  have hscan : scan d source = .ok segments :=
    ((scan_inverts_spans d hd).2 segments).mpr (by decide)
  refine ⟨hd, hscan, (scan_inverts_spans d hd).1 source segments hscan, ?_⟩
  intro h
  have hL := ((scan_inverts_spans d hd).2 _).mp h
  revert hL
  decide

/-- A scan fails just where canonical segments lead to a region without end. It reports how many
characters stand before the region. -/
theorem scan_eq_unterminated_iff (d : Delimiters) (hd : d.Valid) (source : Text) :
    (∀ start stop offset, scan d source = .error (.unterminated start stop offset) ↔
      start = d.start ∧ stop = d.stop ∧
        ∃ segments tail, Segment.StuckAfter d segments source tail ∧
          offset = (spans d segments).length) ∧
    (∀ segments tail, Segment.StuckAfter d segments source tail →
      (Scanner.mk d hd source 0 false).items =
        segments.map .ok ++ [.error (.unterminated d.start d.stop (spans d segments).length)]) ∧
    ((∃ segments, scan d source = .ok segments) ∨
      ∃ segments tail, Segment.StuckAfter d segments source tail) := by
  refine ⟨?_, fun _ _ => Scanner.items_of_stuck hd, ?_⟩
  · intro start stop offset
    constructor
    · intro h
      obtain ⟨segments, rfl, hL⟩ | ⟨segments, tail, hstuck⟩ := Segment.canonical_or_stuck hd source
      · rw [scan_of_canonical hd hL] at h
        cases h
      · rw [scan_of_stuck hd hstuck] at h
        cases h
        exact ⟨rfl, rfl, segments, tail, hstuck, rfl⟩
    · rintro ⟨rfl, rfl, segments, tail, hstuck, rfl⟩
      exact scan_of_stuck hd hstuck
  · obtain ⟨segments, rfl, hL⟩ | hstuck := Segment.canonical_or_stuck hd source
    · exact Or.inl ⟨segments, scan_of_canonical hd hL⟩
    · exact Or.inr hstuck

/-- A marker that is the first character of the end delimiter keeps the region open. -/
theorem scan_eq_unterminated_marker_first :
    let d : Delimiters := ⟨['<', '%'], ['%', '>'], .ofList ['%']⟩
    let source : Text := ['é', '<', '%', '%', '>']
    ∃ hd : d.Valid, scan d source = .error (.unterminated d.start d.stop 1) ∧
      (Scanner.mk d hd source 0 false).items =
        [.ok (.text ['é']), .error (.unterminated d.start d.stop 1)] := by
  intro d source
  have hd : d.Valid := by decide
  have hstuck : Segment.StuckAfter d [.text ['é']] source ['%', '>'] :=
    ⟨rfl, by decide, by decide⟩
  obtain ⟨hfails, hitems, -⟩ := scan_eq_unterminated_iff d hd source
  exact ⟨hd, (hfails _ _ _).mpr ⟨rfl, rfl, _, _, hstuck, rfl⟩, hitems _ _ hstuck⟩

end Stencil
