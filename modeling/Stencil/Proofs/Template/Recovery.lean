import Stencil.Proofs.Delimiters.Document
import Stencil.Proofs.Execution.Compilation
import Stencil.Proofs.Template.Artifact

/-!
What an artifact was made from. Its text alone gives the delimiters and the source back, so an
artifact is never that of two different templates.
-/
namespace Stencil

open Json (Style)

variable {name : Text} {d : Delimiters} {source : Text} {t : Template}

namespace Delimiters

/-- The members of a configuration as the reader of JSON sorts them. -/
def members (d : Delimiters) : List Member :=
  [.stop d.stop, .markers d.markers.toList, .start d.start]

theorem members_pairwise (d : Delimiters) : d.members.Pairwise fun a b => a.key ≠ b.key := by
  have hkeys : List.Pairwise (· ≠ ·) ["end".toList, "eval_markers".toList, "start".toList] := by
    decide
  exact (List.pairwise_map (f := Member.key) (R := (· ≠ ·)) (l := d.members)).mp hkeys

theorem sorted_toJson (d : Delimiters) :
    Json.sorted d.toJson = .object (d.members.map Member.entry) := by
  have hmarkers : Json.sorted (Member.markers d.markers.toList).value =
      (Member.markers d.markers.toList).value := by
    rw [Member.value, Json.sorted, Json.sortedItems_eq_map, List.map_map]
    rfl
  have hsorted : Json.sorted d.toJson = .object [("end", .string d.stop),
      ("eval_markers", Json.sorted (Member.markers d.markers.toList).value),
      ("start", .string d.start)] := rfl
  rw [hsorted, hmarkers]
  rfl

theorem ofDocument_sorted_toJson (d : Delimiters) {style : Style} (hstyle : style.Blank) :
    ofDocument ((Json.sorted d.toJson).render style 0) = .ok d := by
  rw [sorted_toJson, ofDocument_render hstyle d.members_pairwise]
  simp [members, Member.addTo, Draft.complete, Markers.ofList_toList]

end Delimiters

namespace Instruction

/-- The span of the source that an instruction stands for, if its literal decodes. -/
def sourceText (d : Delimiters) : Instruction → Except LiteralError Text
  | emitLiteral bytes => bytes.decode
  | emitEvaluated expr marker => .ok (d.start ++ marker :: expr ++ d.stop)
  | splice code => .ok (d.start ++ code ++ d.stop)

/-- The spans of all instructions, joined in order. -/
def spans (d : Delimiters) : List Instruction → Except LiteralError Text
  | [] => .ok []
  | i :: instructions => return (← i.sourceText d) ++ (← spans d instructions)

/-- The text that is left out of a stream is empty. -/
theorem spans_ofSegments (d : Delimiters) (segments : List Segment) :
    spans d (ofSegments segments) = .ok (Segment.spans d segments) := by
  induction segments with
  | nil => rfl
  | cons segment segments ih =>
    have hcons {i : Instruction} (hi : i.sourceText d = .ok (segment.sourceText d)) :
        spans d (i :: ofSegments segments) = .ok (Segment.spans d (segment :: segments)) := by
      rw [spans, hi, ih, Segment.spans_cons]
      rfl
    cases segment with
    | text content =>
      cases content with
      | nil => exact ih
      | cons c content => exact hcons (Literal.decode_encode _)
    | eval marker code => exact hcons rfl
    | raw code => exact hcons rfl

end Instruction

theorem spans_of_compile {instructions : List Instruction}
    (h : compile d source = .ok instructions) : Instruction.spans d instructions = .ok source := by
  obtain ⟨segments, hscan, rfl⟩ := compile_eq_ok_iff.mp h
  obtain ⟨rfl, -⟩ := (scan_eq_ok_iff (valid_of_scan hscan)).mp hscan
  exact Instruction.spans_ofSegments d segments

namespace Template

theorem ofSource_eq_ok_iff :
    ofSource name d source = .ok t ↔
      t.name = name ∧ t.delimiters = d ∧ compile d source = .ok t.instructions := by
  rw [ofSource, map_eq_ok_iff]
  constructor
  · rintro ⟨instructions, hcompile, rfl⟩
    exact ⟨rfl, rfl, hcompile⟩
  · rintro ⟨rfl, rfl, hcompile⟩
    exact ⟨t.instructions, hcompile, rfl⟩

theorem ofSource_of_canonical (segments : List Segment) (hd : d.Valid)
    (h : Segment.Canonical d [] segments) :
    ofSource name d (Segment.spans d segments) =
      .ok ⟨name, d, Instruction.ofSegments segments⟩ := by
  refine ofSource_eq_ok_iff.mpr ⟨rfl, rfl, ?_⟩
  exact compile_eq_ok_iff.mpr ⟨segments, scan_of_canonical hd h, rfl⟩

/-- The `config` member gives the delimiters back, however it is printed. -/
theorem config_of_artifact (h : ofSource name d source = .ok t) :
    ∃ members config, Json.ofText t.artifact = .ok (.object members) ∧
      Json.member? "config" members = some config ∧
      ∀ style : Style, style.Blank → Delimiters.ofDocument (config.render style 0) = .ok d := by
  obtain ⟨-, rfl, -⟩ := ofSource_eq_ok_iff.mp h
  obtain ⟨members, htext, hconfig, -⟩ := t.artifact_members
  exact ⟨members, _, htext, hconfig, fun _ => t.delimiters.ofDocument_sorted_toJson⟩

/-- The loaded instructions give the source back. -/
theorem source_of_artifact (h : ofSource name d source = .ok t) :
    ∃ instructions, loadInstructions t.artifact = .ok instructions ∧
      Instruction.spans d instructions = .ok source := by
  obtain ⟨-, -, hcompile⟩ := ofSource_eq_ok_iff.mp h
  exact ⟨t.instructions, t.load_artifact, spans_of_compile hcompile⟩

/-- Nothing of a template is lost in its artifact, so templates with other delimiters or another
source have another artifact. -/
theorem artifact_lossless :
    (∀ name d source t, ofSource name d source = .ok t →
      (∃ members config, Json.ofText t.artifact = .ok (.object members) ∧
        Json.member? "config" members = some config ∧
        ∀ style : Style, style.Blank → Delimiters.ofDocument (config.render style 0) = .ok d) ∧
      ∃ instructions, loadInstructions t.artifact = .ok instructions ∧
        Instruction.spans d instructions = .ok source) ∧
    ∀ name₁ d₁ source₁ t₁ name₂ d₂ source₂ t₂, ofSource name₁ d₁ source₁ = .ok t₁ →
      ofSource name₂ d₂ source₂ = .ok t₂ → (d₁, source₁) ≠ (d₂, source₂) →
      t₁.artifact ≠ t₂.artifact := by
  refine ⟨fun _ _ _ _ h => ⟨config_of_artifact h, source_of_artifact h⟩, ?_⟩
  intro name₁ d₁ source₁ t₁ name₂ d₂ source₂ t₂ h₁ h₂ hne he
  -- Equal artifacts have the same members, and these give the same inputs.
  obtain ⟨members₁, config₁, htext₁, hconfig₁, hd₁⟩ := config_of_artifact h₁
  obtain ⟨members₂, config₂, htext₂, hconfig₂, hd₂⟩ := config_of_artifact h₂
  cases htext₁.symm.trans ((congrArg Json.ofText he).trans htext₂)
  cases hconfig₁.symm.trans hconfig₂
  cases (hd₁ _ Json.compact_blank).symm.trans (hd₂ _ Json.compact_blank)
  obtain ⟨instructions₁, hload₁, hsource₁⟩ := source_of_artifact h₁
  obtain ⟨instructions₂, hload₂, hsource₂⟩ := source_of_artifact h₂
  cases hload₁.symm.trans ((congrArg loadInstructions he).trans hload₂)
  cases hsource₁.symm.trans hsource₂
  exact hne rfl

/-- Two templates of one name with the same instructions; only the delimiters differ. -/
theorem artifact_lossless_other_delimiters :
    let d₁ : Delimiters := ⟨['<'], ['>'], .ofList ['=', '"', '=']⟩
    let d₂ : Delimiters := ⟨['{'], ['}'], .ofList ['"', '=']⟩
    let instructions : List Instruction := [.emitEvaluated ['é'] '"', .emitLiteral (.encode ['\n'])]
    ofSource ['t'] d₁ ['<', '"', 'é', '>', '\n'] = .ok ⟨['t'], d₁, instructions⟩ ∧
      ofSource ['t'] d₂ ['{', '"', 'é', '}', '\n'] = .ok ⟨['t'], d₂, instructions⟩ ∧
      artifact ⟨['t'], d₁, instructions⟩ ≠ artifact ⟨['t'], d₂, instructions⟩ := by
  intro d₁ d₂ instructions
  have h₁ : ofSource ['t'] d₁ ['<', '"', 'é', '>', '\n'] = .ok ⟨['t'], d₁, instructions⟩ :=
    ofSource_of_canonical [.eval '"' ['é'], .text ['\n']] (by decide) (by decide)
  have h₂ : ofSource ['t'] d₂ ['{', '"', 'é', '}', '\n'] = .ok ⟨['t'], d₂, instructions⟩ :=
    ofSource_of_canonical [.eval '"' ['é'], .text ['\n']] (by decide) (by decide)
  exact ⟨h₁, h₂, artifact_lossless.2 _ _ _ _ _ _ _ _ h₁ h₂ (by decide)⟩

end Template

end Stencil
