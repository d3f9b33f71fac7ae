import Stencil.Proofs.Template.RustSource

/-!
Instructions from generated code. The lines of a block say what its instruction is, and they are
counted, so code that looks like a line of another block is not taken for one.
-/
namespace Stencil

variable {s t u v : Text} {d : Delimiters} {i j : Instruction}
  {instructions instructions' : List Instruction}

/-- Texts without line feeds are told apart by the first one behind them. -/
theorem Text.append_newline_inj (hs : '\n' ∉ s) (ht : '\n' ∉ t)
    (h : s ++ '\n' :: u = t ++ '\n' :: v) : s = t ∧ u = v := by
  induction s generalizing t with
  | nil =>
    cases t with
    | nil => exact ⟨rfl, (List.cons.inj h).2⟩
    | cons c t =>
      obtain ⟨rfl, -⟩ := List.cons.inj h
      exact (ht List.mem_cons_self).elim
  | cons c s ih =>
    cases t with
    | nil =>
      obtain ⟨rfl, -⟩ := List.cons.inj h
      exact (hs List.mem_cons_self).elim
    | cons e t =>
      obtain ⟨rfl, htail⟩ := List.cons.inj h
      obtain ⟨rfl, rfl⟩ := ih (fun hc => hs (List.mem_cons_of_mem c hc))
        (fun hc => ht (List.mem_cons_of_mem c hc)) htail
      exact ⟨rfl, rfl⟩

theorem Text.charLiteralBody_injective : Function.Injective charLiteralBody := by
  intro c e h
  have hc := (isCharLiteral_charLiteralBody c).reads []
  rw [h, (isCharLiteral_charLiteralBody e).reads []] at hc
  cases hc
  rfl

theorem Text.newline_not_mem_charLiteralBody (c : Char) : '\n' ∉ charLiteralBody c := by
  intro h
  have hprintable := (isCharLiteral_charLiteralBody c).printable '\n'
    (List.mem_append_left _ (List.mem_cons_of_mem _ h))
  exact absurd hprintable (by decide)

theorem Literal.newline_not_mem_encode (s : Text) : '\n' ∉ (encode s).encoded := by
  intro h
  exact absurd (mem_alphabet_of_mem_encode h) (by decide)

namespace Instruction

/-- An instruction without lines of its own: no code stands as it is, and code that is evaluated
does not end its line. -/
def KeepsToLines : Instruction → Prop
  | emitLiteral _ => True
  | emitEvaluated expr _ => '\n' ∉ expr
  | splice _ => False

instance : DecidablePred KeepsToLines
  | emitLiteral _ => inferInstanceAs (Decidable True)
  | emitEvaluated expr _ => inferInstanceAs (Decidable ('\n' ∉ expr))
  | splice _ => inferInstanceAs (Decidable False)

/-- An instruction that is found again by the lines of its block. -/
inductive Lined : Instruction → Prop
  | literal (content : Text) : Lined (.emitLiteral (.encode content))
  | evaluated {expr : Text} (marker : Char) : '\n' ∉ expr → Lined (.emitEvaluated expr marker)

theorem lined_of_compile (h : compile d s = .ok instructions) (hi : i ∈ instructions)
    (hkeeps : i.KeepsToLines) : i.Lined := by
  obtain ⟨segments, -, rfl⟩ := compile_eq_ok_iff.mp h
  obtain ⟨segment, -, hsegment⟩ := List.mem_filterMap.mp hi
  cases segment with
  | text content =>
    cases content with
    | nil => cases hsegment
    | cons c content =>
      cases hsegment
      exact .literal _
  | eval marker code =>
    cases hsegment
    exact .evaluated marker hkeeps
  | raw code =>
    cases hsegment
    exact hkeeps.elim

end Instruction

namespace Template

open Instruction (Lined)

/-- The line of a literal. -/
def literalLine (bytes : Literal) : Text :=
  "    write(__literal!(b\"" ++ bytes.encoded ++ "\"), None)?;"

/-- The line before code that is evaluated. -/
def openingLine : Text := "    write(&::std::format!(\"\x7b\x7d\", \x7b"

/-- The line after code that is evaluated. -/
def closingLine (marker : Char) : Text :=
  "    \x7d), Some('" ++ Text.charLiteralBody marker ++ "'))?;"

theorem block_literal (bytes : Literal) (u : Text) :
    block (.emitLiteral bytes) ++ u = literalLine bytes ++ '\n' :: u := by
  unfold literalLine
  simp [block, lines]

theorem block_evaluated (expr : Text) (marker : Char) (u : Text) :
    block (.emitEvaluated expr marker) ++ u =
      openingLine ++ '\n' :: (expr ++ '\n' :: (closingLine marker ++ '\n' :: u)) := by
  unfold openingLine closingLine
  simp [block, lines]

theorem newline_not_mem_literalLine (content : Text) :
    '\n' ∉ literalLine (.encode content) := by
  unfold literalLine
  rw [List.mem_append, List.mem_append, not_or, not_or]
  exact ⟨⟨by decide, Literal.newline_not_mem_encode content⟩, by decide⟩

theorem newline_not_mem_closingLine (marker : Char) : '\n' ∉ closingLine marker := by
  unfold closingLine
  rw [List.mem_append, List.mem_append, not_or, not_or]
  exact ⟨⟨by decide, Text.newline_not_mem_charLiteralBody marker⟩, by decide⟩

theorem literalLine_injective : Function.Injective literalLine := by
  intro bytes bytes' h
  exact congrArg Literal.mk (List.append_cancel_left (List.append_cancel_right h))

theorem closingLine_injective : Function.Injective closingLine := by
  intro marker marker' h
  exact Text.charLiteralBody_injective (List.append_cancel_left (List.append_cancel_right h))

theorem block_literal_ne_evaluated (bytes : Literal) (expr : Text) (marker : Char) (u v : Text) :
    block (.emitLiteral bytes) ++ u ≠ block (.emitEvaluated expr marker) ++ v := by
  intro h
  have hchar : some '_' = some '&' := congrArg (·[10]?) h
  cases hchar

/-- The first block of a text gives its instruction back. -/
theorem block_append_inj (hi : i.Lined) (hj : j.Lined) (h : block i ++ u = block j ++ v) :
    i = j ∧ u = v := by
  cases hi with
  | literal content =>
    cases hj with
    | literal content' =>
      rw [block_literal, block_literal] at h
      obtain ⟨hline, rfl⟩ := Text.append_newline_inj (newline_not_mem_literalLine content)
        (newline_not_mem_literalLine content') h
      exact ⟨congrArg _ (literalLine_injective hline), rfl⟩
    | evaluated marker _ => exact (block_literal_ne_evaluated _ _ _ _ _ h).elim
  | @evaluated expr marker hexpr =>
    cases hj with
    | literal content => exact (block_literal_ne_evaluated _ _ _ _ _ h.symm).elim
    | @evaluated expr' marker' hexpr' =>
      rw [block_evaluated, block_evaluated] at h
      -- The first line is the same in all these blocks; the code is the second one.
      obtain ⟨-, hrest⟩ := List.cons.inj (List.append_cancel_left h)
      obtain ⟨rfl, hlast⟩ := Text.append_newline_inj hexpr hexpr' hrest
      obtain ⟨hline, rfl⟩ := Text.append_newline_inj (newline_not_mem_closingLine marker)
        (newline_not_mem_closingLine marker') hlast
      rw [closingLine_injective hline]
      exact ⟨rfl, rfl⟩

theorem block_ne_nil (i : Instruction) : block i ≠ [] := by
  cases i <;> simp [block, lines]

/-- Blocks in a row give their instructions back, one after the other. -/
theorem flatMap_block_inj (hinstructions : ∀ i ∈ instructions, i.Lined)
    (hinstructions' : ∀ i ∈ instructions', i.Lined)
    (h : instructions.flatMap block = instructions'.flatMap block) :
    instructions = instructions' := by
  induction instructions generalizing instructions' with
  | nil =>
    cases instructions' with
    | nil => rfl
    | cons j instructions' =>
      rw [List.flatMap_nil, List.flatMap_cons] at h
      exact (block_ne_nil j (List.append_eq_nil_iff.mp h.symm).1).elim
  | cons i instructions ih =>
    cases instructions' with
    | nil =>
      rw [List.flatMap_nil, List.flatMap_cons] at h
      exact (block_ne_nil i (List.append_eq_nil_iff.mp h).1).elim
    | cons j instructions' =>
      obtain ⟨hi, htail⟩ := List.forall_mem_cons.mp hinstructions
      obtain ⟨hj, htail'⟩ := List.forall_mem_cons.mp hinstructions'
      rw [List.flatMap_cons, List.flatMap_cons] at h
      obtain ⟨rfl, hrest⟩ := block_append_inj hi hj h
      rw [ih htail htail' hrest]

/-- Templates of one name and the same delimiters that paste no code and evaluate only code of one
line are the same if their Rust code is, and so are their sources. -/
theorem eq_of_rustSource_eq {name source source' contextType : Text} {t t' : Template}
    (ht : ofSource name d source = .ok t) (ht' : ofSource name d source' = .ok t')
    (hkeeps : ∀ i ∈ t.instructions, i.KeepsToLines)
    (hkeeps' : ∀ i ∈ t'.instructions, i.KeepsToLines)
    (h : t.rustSource contextType = t'.rustSource contextType) :
    t.instructions = t'.instructions ∧ source = source' := by
  obtain ⟨hname, hd, hcompile⟩ := ofSource_eq_ok_iff.mp ht
  obtain ⟨hname', hd', hcompile'⟩ := ofSource_eq_ok_iff.mp ht'
  have hblocks : t.instructions.flatMap block = t'.instructions.flatMap block := by
    rw [rustSource, rustSource, hname, hname', hd, hd'] at h
    exact List.append_cancel_left (List.append_cancel_right h)
  have hinstructions : t.instructions = t'.instructions :=
    flatMap_block_inj (fun i hi => Instruction.lined_of_compile hcompile hi (hkeeps i hi))
      (fun i hi => Instruction.lined_of_compile hcompile' hi (hkeeps' i hi)) hblocks
  refine ⟨hinstructions, ?_⟩
  have hspans := spans_of_compile hcompile
  rw [hinstructions, spans_of_compile hcompile'] at hspans
  cases hspans
  rfl

/-- Code that looks like the end of its block and the write of a literal; that template and the one
whose literal it shows are told apart. -/
theorem eq_of_rustSource_eq_lookalike :
    let d : Delimiters := ⟨['<'], ['>'], .ofList ['=']⟩
    let code : Text := "    \x7d), Some('='))?;    write(__literal!(b\"\\x61\"), None)?;"
    let source : Text := '<' :: '=' :: code ++ ['>', 'a']
    let spans := Segment.spans d [.eval '=' code, .text ['a']]
    ∃ t t' other, ofSource ['t'] d source = .ok t ∧ ofSource ['t'] d spans = .ok t' ∧
      ofSource ['t'] d ['a'] = .ok other ∧ (∀ i ∈ t.instructions, i.KeepsToLines) ∧
      (∀ i ∈ other.instructions, i.KeepsToLines) ∧ t.instructions = t'.instructions ∧
      source = spans ∧ t.rustSource defaultContextType ≠ other.rustSource defaultContextType := by
  intro d code source spans
  have hd : d.Valid := by decide
  have ht : ofSource ['t'] d spans = .ok _ :=
    ofSource_of_canonical [.eval '=' code, .text ['a']] hd (by decide)
  have hother : ofSource ['t'] d ['a'] = .ok _ := ofSource_of_canonical [.text ['a']] hd (by decide)
  have hkeeps : ∀ i ∈ Instruction.ofSegments [.eval '=' code, .text ['a']], i.KeepsToLines := by
    decide
  have hkeeps' : ∀ i ∈ Instruction.ofSegments [.text ['a']], i.KeepsToLines := by decide
  have hsource : ofSource ['t'] d source = .ok _ := ht
  obtain ⟨hsame, hspans⟩ := eq_of_rustSource_eq hsource ht hkeeps hkeeps
    (rfl : rustSource _ defaultContextType = _)
  refine ⟨_, _, _, hsource, ht, hother, hkeeps, hkeeps', hsame, hspans, ?_⟩
  intro h
  exact absurd (eq_of_rustSource_eq hsource hother hkeeps hkeeps' h).2 (by decide)

end Template

end Stencil
