import Stencil.Proofs.Context.Rendering

/-!
Escaped values cannot bring markup into an output: all of it stands in the static text, whatever the
values are.
-/
namespace Stencil

/-- What a segment writes without asking the context. -/
def Segment.staticText : Segment → Text
  | text content => content
  | eval _ _ | raw _ => []

namespace Context

variable {d : Delimiters} {source : Text} {segments : List Segment}
  {instructions : List Instruction} {escaped : Markers} {root : Json}

/-- Under an escaped marker a value adds no markup, and code adds nothing at all. -/
theorem filter_isMarkup_piece {segment : Segment}
    (h : ∀ marker code, segment = .eval marker code → marker ∈ escaped) :
    (piece root escaped segment).filter Text.isMarkup =
      segment.staticText.filter Text.isMarkup := by
  cases segment with
  | text content => rfl
  | raw code => rfl
  | eval marker code =>
    rw [piece]
    cases lookup? root code with
    | none => rfl
    | some v =>
      simp only [if_pos (h marker code rfl)]
      exact Output.filter_isMarkup_escapeHtml _

theorem marker_mem_of_scan (h : scan d source = .ok segments) {marker : Char} {code : Text}
    (hmem : .eval marker code ∈ segments) : marker ∈ d.markers := by
  obtain ⟨-, hL⟩ := (scan_eq_ok_iff (valid_of_scan h)).mp h
  obtain ⟨-, hmarker, -⟩ := hL.exists_fits hmem
  exact hmarker

theorem filter_isMarkup_output (hscan : scan d source = .ok segments)
    (hescaped : ∀ marker ∈ d.markers, marker ∈ escaped) {o : Output}
    (h : execute (host root) Output.sink (Instruction.ofSegments segments) { escaped := escaped } =
      (.ok (), o)) :
    o.text.filter Text.isMarkup =
      (segments.flatMap Segment.staticText).filter Text.isMarkup := by
  have htext : o.text = segments.flatMap (piece root escaped) := text_of_execute_ok h
  rw [htext, List.filter_flatMap, List.filter_flatMap]
  refine List.flatMap_congr fun segment hmem => filter_isMarkup_piece ?_
  rintro marker code rfl
  exact hescaped marker (marker_mem_of_scan hscan hmem)

/-- If all markers are escaped, outputs for different values show the same markup, which is that of
the static text. -/
theorem markup_of_static_text (hcompile : compile d source = .ok instructions)
    (hescaped : ∀ marker ∈ d.markers, marker ∈ escaped) {root root' : Json} {o o' : Output}
    (h : execute (host root) Output.sink instructions { escaped := escaped } = (.ok (), o))
    (h' : execute (host root') Output.sink instructions { escaped := escaped } = (.ok (), o')) :
    o.text.filter Text.isMarkup = o'.text.filter Text.isMarkup ∧
      ∃ segments, scan d source = .ok segments ∧
        o.text.filter Text.isMarkup =
          (segments.flatMap Segment.staticText).filter Text.isMarkup := by
  obtain ⟨segments, hscan, rfl⟩ := compile_eq_ok_iff.mp hcompile
  have ho := filter_isMarkup_output hscan hescaped h
  have ho' := filter_isMarkup_output hscan hescaped h'
  exact ⟨ho.trans ho'.symm, segments, hscan, ho⟩

/-- A tag and a list with quotes are two values that leave the one quote of the static text. -/
theorem markup_of_static_text_hostile :
    let d : Delimiters := ⟨['<'], ['>'], .ofList ['=']⟩
    let source : Text := ['"', '<', '=', 'a', '>']
    let root : Json := .object [(['a'], .string ['<', 'b', '>'])]
    let root' : Json := .object [(['a'], .array [.string ['x']])]
    let o : Output := ⟨["&lt;b&gt;".toList, ['"']], d.markers⟩
    let o' : Output := ⟨["[&quot;x&quot;]".toList, ['"']], d.markers⟩
    ∃ instructions, compile d source = .ok instructions ∧
      execute (host root) Output.sink instructions { escaped := d.markers } = (.ok (), o) ∧
      execute (host root') Output.sink instructions { escaped := d.markers } = (.ok (), o') ∧
      o.text.filter Text.isMarkup = o'.text.filter Text.isMarkup ∧
      o.text.filter Text.isMarkup = ['"'] := by
  intro d source root root' o o'
  have hscan : scan d source = .ok [.text ['"'], .eval '=' ['a']] :=
    (scan_eq_ok_iff (by decide)).mpr ⟨rfl, by decide⟩
  have hcompile := compile_eq_ok_iff.mpr ⟨_, hscan, rfl⟩
  have hrun : execute (host root) Output.sink _ { escaped := d.markers } = (.ok (), o) :=
    (execute_ofSegments _ _ [.text ['"'], .eval '=' ['a']] _).trans rfl
  have hrun' : execute (host root') Output.sink _ { escaped := d.markers } = (.ok (), o') :=
    (execute_ofSegments _ _ [.text ['"'], .eval '=' ['a']] _).trans rfl
  obtain ⟨hsame, segments, hsegments, hstatic⟩ :=
    markup_of_static_text hcompile (fun _ hmarker => hmarker) hrun hrun'
  rw [hscan] at hsegments
  cases hsegments
  exact ⟨_, hcompile, hrun, hrun', hsame, hstatic⟩

end Context

end Stencil
