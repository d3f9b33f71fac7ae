import Stencil.Proofs.Template.Recovery
import Stencil.Proofs.Text.CharLiteral
import Stencil.Template.RustSource

/-!
Templates in generated code. Texts, markers and delimiters are escaped in four ways, and none of
them leaves its place there; only code stands as it is.
-/
namespace Stencil

open Text (IsCharLiteral OneLine)

namespace Literal

theorem digitChar_mem_alphabet : ∀ k < 16, Nat.digitChar k ∈ "\\x0123456789abcdef".toList := by
  decide

/-- The characters of encoded literals mean nothing but escapes in a byte string. -/
theorem mem_alphabet_of_mem_encode {s : Text} {c : Char} (h : c ∈ (encode s).encoded) :
    c ∈ "\\x0123456789abcdef".toList := by
  obtain ⟨b, -, hc⟩ := List.mem_flatMap.mp h
  have hb := b.toNat_lt
  simp only [escapeByte, List.mem_cons, List.not_mem_nil, or_false] at hc
  rcases hc with rfl | rfl | rfl | rfl
  · decide
  · decide
  · exact digitChar_mem_alphabet _ (by omega)
  · exact digitChar_mem_alphabet _ (by omega)

end Literal

namespace Template

variable {name source blocks : Text} {d : Delimiters} {t : Template} {segment : Segment}
  {segments : List Segment} {i : Instruction} {instructions : List Instruction}

/-- Running an instruction for code that has a value writes the value under the marker. -/
def WritesUnder (marker : Char) (code : Text) (i : Instruction) : Prop :=
  ∀ {σ ε : Type} (host : Host σ ε) (sink : Sink σ ε) (s between : σ) (value : Text),
    host.evaluate code marker s = (.ok value, between) →
      (i.run host sink s).2 = (sink.write value (some marker) between).2

/-- The lines that an instruction is turned into, by the segment that it comes from. -/
inductive Block : Segment → Instruction → Text → Prop
  | text {content : Text} {bytes : Literal} :
    (∀ c ∈ bytes.encoded, c ∈ "\\x0123456789abcdef".toList) → bytes.decode = .ok content →
      Block (.text content) (.emitLiteral bytes)
        ("    write(__literal!(b\"" ++ bytes.encoded ++ "\"), None)?;" ++ ['\n'])
  | eval {marker : Char} {code literal : Text} :
    IsCharLiteral literal marker → WritesUnder marker code (.emitEvaluated code marker) →
      Block (.eval marker code) (.emitEvaluated code marker)
        ("    write(&::std::format!(\"\x7b\x7d\", \x7b" ++ '\n' :: code ++
          '\n' :: "    \x7d), Some(" ++ literal ++ "))?;" ++ ['\n'])
  | raw {code : Text} : Block (.raw code) (.splice code) (code ++ ['\n'])

/-- One block for each segment and its instruction, in their order. -/
inductive Blocks : List Segment → List Instruction → Text → Prop
  | nil : Blocks [] [] []
  | cons {segment : Segment} {segments : List Segment} {i : Instruction}
    {instructions : List Instruction} {block blocks : Text} :
    Block segment i block → Blocks segments instructions blocks →
      Blocks (segment :: segments) (i :: instructions) (block ++ blocks)

theorem lines_cons (l : Text) (ls : List Text) : lines (l :: ls) = l ++ '\n' :: lines ls := by
  simp [lines]

theorem writesUnder_emitEvaluated (marker : Char) (code : Text) :
    WritesUnder marker code (.emitEvaluated code marker) := by
  intro σ ε host sink s between value h
  rw [run_emitEvaluated, h]
  simp only
  rcases sink.write value (some marker) between with ⟨cause | u, left⟩ <;> rfl

theorem block_of_ofSegment? (h : Instruction.ofSegment? segment = some i) :
    Block segment i (block i) := by
  cases segment with
  | text content =>
    cases content with
    | nil => cases h
    | cons c content =>
      cases h
      rw [block, lines_cons]
      exact .text (fun _ => Literal.mem_alphabet_of_mem_encode) (Literal.decode_encode _)
  | eval marker code =>
    cases h
    have hlines : block (.emitEvaluated code marker) =
        "    write(&::std::format!(\"\x7b\x7d\", \x7b" ++ '\n' :: code ++
          '\n' :: "    \x7d), Some(" ++ ('\'' :: Text.charLiteralBody marker ++ ['\'']) ++ "))?;" ++
            ['\n'] := by
      simp [block, lines]
    rw [hlines]
    exact .eval (Text.isCharLiteral_charLiteralBody marker) (writesUnder_emitEvaluated marker code)
  | raw code =>
    cases h
    rw [block, lines_cons]
    exact .raw

/-- No instruction is left out but that for empty text. -/
theorem exists_ofSegment? (h : segment ≠ .text []) :
    ∃ i, Instruction.ofSegment? segment = some i := by
  cases segment with
  | text content =>
    cases content with
    | nil => exact (h rfl).elim
    | cons c content => exact ⟨_, rfl⟩
  | eval marker code => exact ⟨_, rfl⟩
  | raw code => exact ⟨_, rfl⟩

theorem blocks_ofSegments (h : ∀ segment ∈ segments, segment ≠ .text []) :
    Blocks segments (Instruction.ofSegments segments)
      ((Instruction.ofSegments segments).flatMap block) := by
  induction segments with
  | nil => exact .nil
  | cons segment segments ih =>
    obtain ⟨hsegment, hsegments⟩ := List.forall_mem_cons.mp h
    obtain ⟨i, hi⟩ := exists_ofSegment? hsegment
    have hcons : Instruction.ofSegments (segment :: segments) =
        i :: Instruction.ofSegments segments := List.filterMap_cons_some hi
    rw [hcons, List.flatMap_cons]
    exact .cons (block_of_ofSegment? hi) (ih hsegments)

theorem oneLine_markersText (m : Markers) : OneLine (markersText m) := by
  have hbody : OneLine (List.intercalate ", ".toList (m.toList.map Text.quotedChar)) := by
    refine Text.oneLine_intercalate (by decide) fun s hs => ?_
    obtain ⟨c, -, rfl⟩ := List.mem_map.mp hs
    exact Text.oneLine_quotedChar c
  rw [markersText, Text.oneLine_append, Text.oneLine_cons]
  exact ⟨⟨by decide, hbody⟩, by decide⟩

theorem oneLine_headerLine (d : Delimiters) : OneLine (headerLine d) := by
  have hstart := Text.oneLine_quoted d.start
  have hstop := Text.oneLine_quoted d.stop
  have hmarkers := oneLine_markersText d.markers
  have hfirst : OneLine "// delimiters: ".toList := by decide
  have hbetween : OneLine " … ".toList := by decide
  have hlast : OneLine ", eval markers: ".toList := by decide
  unfold headerLine
  iterate 5 rw [Text.oneLine_append]
  exact ⟨⟨⟨⟨⟨hfirst, hstart⟩, hbetween⟩, hstop⟩, hlast⟩, hmarkers⟩

/-- Before the blocks, one comment alone depends on the delimiters. -/
theorem exists_preamble (name contextType : Text) :
    ∃ rest, ∀ d, preamble name d contextType =
      "// Auto-generated by tmplc – DO NOT EDIT" ++ '\n' :: headerLine d ++ '\n' :: rest := by
  obtain ⟨after, hlines⟩ : ∃ after, ∀ d, preamble name d contextType =
      lines ("// Auto-generated by tmplc – DO NOT EDIT" :: headerLine d :: after) :=
    ⟨_, fun _ => rfl⟩
  refine ⟨lines after, fun d => ?_⟩
  rw [hlines, lines_cons, lines_cons, List.append_assoc]
  rfl

theorem ne_empty_of_scan (h : scan d source = .ok segments) (hmem : segment ∈ segments) :
    segment ≠ .text [] := by
  rintro rfl
  obtain ⟨-, hL⟩ := (scan_eq_ok_iff (valid_of_scan h)).mp h
  obtain ⟨following, hne, -⟩ := hL.exists_fits hmem
  exact hne rfl

/-- The code of a template is a preamble, a block for each segment and a fixed end. Before the
blocks the delimiters show in one comment on one line; in the blocks texts and markers show in
literals that hold them, and code as it is. -/
theorem rustSource_keeps_data_in_place :
    (∀ name contextType, ∃ rest, ∀ d,
      preamble name d contextType =
        "// Auto-generated by tmplc – DO NOT EDIT" ++ '\n' :: headerLine d ++ '\n' :: rest ∧
      "// ".toList <+: headerLine d ∧ OneLine (headerLine d)) ∧
    ∀ name d source t contextType, ofSource name d source = .ok t →
      ∃ segments blocks, scan d source = .ok segments ∧ Blocks segments t.instructions blocks ∧
        t.rustSource contextType =
          preamble name d contextType ++ blocks ++ "    Ok(())\n\x7d\n" := by
  constructor
  · intro name contextType
    obtain ⟨rest, hpreamble⟩ := exists_preamble name contextType
    exact ⟨rest, fun d => ⟨hpreamble d, ⟨_, rfl⟩, oneLine_headerLine d⟩⟩
  · intro name d source t contextType h
    obtain ⟨rfl, rfl, hcompile⟩ := ofSource_eq_ok_iff.mp h
    obtain ⟨segments, hscan, hinstructions⟩ := compile_eq_ok_iff.mp hcompile
    refine ⟨segments, _, hscan, ?_, rfl⟩
    rw [hinstructions]
    exact blocks_ofSegments fun _ hmem => ne_empty_of_scan hscan hmem

/-- Delimiters that end lines, the quote as a marker, a text that would close its literal, and code
of two lines. -/
theorem rustSource_keeps_data_in_place_hostile :
    let d : Delimiters := ⟨['\n'], ['\r'], .ofList ['\'']⟩
    let source : Text := ['"', ')', '\n', '\'', 'a', '\n', 'b', '\r']
    ∃ t blocks, ofSource ['t'] d source = .ok t ∧
      Blocks [.text ['"', ')'], .eval '\'' ['a', '\n', 'b']] t.instructions blocks ∧
      t.rustSource defaultContextType =
        preamble ['t'] d defaultContextType ++ blocks ++ "    Ok(())\n\x7d\n" ∧
      OneLine (headerLine d) := by
  intro d source
  have hcanonical : Segment.Canonical d [] [.text ['"', ')'], .eval '\'' ['a', '\n', 'b']] := by
    decide
  have hd : d.Valid := by decide
  have hsource : ofSource ['t'] d source = .ok _ :=
    ofSource_of_canonical [.text ['"', ')'], .eval '\'' ['a', '\n', 'b']] hd hcanonical
  obtain ⟨hpreamble, hblocks⟩ := rustSource_keeps_data_in_place
  obtain ⟨segments, blocks, hscan, hsegments, hrust⟩ :=
    hblocks ['t'] d source _ defaultContextType hsource
  cases (scan_of_canonical hd hcanonical).symm.trans hscan
  obtain ⟨rest, hheader⟩ := hpreamble ['t'] defaultContextType
  exact ⟨_, blocks, hsource, hsegments, hrust, (hheader d).2.2⟩

end Template

end Stencil
