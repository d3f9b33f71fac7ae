import Stencil.Name

/-! Names of templates, by what they are made of. -/
namespace Stencil.Name

variable {s : Text} {c : Char}

/-- An ASCII letter. -/
def IsLetter (c : Char) : Prop := ('a' ≤ c ∧ c ≤ 'z') ∨ ('A' ≤ c ∧ c ≤ 'Z')

/-- An ASCII digit. -/
def IsDigit (c : Char) : Prop := '0' ≤ c ∧ c ≤ '9'

/-- An ASCII identifier that the language of the generated code does not keep for itself. -/
structure Identifier (s : Text) : Prop where
  first : ∃ c rest, s = c :: rest ∧ (IsLetter c ∨ c = '_')
  char (c : Char) : c ∈ s → IsLetter c ∨ IsDigit c ∨ c = '_'
  not_underscore : s ≠ ['_']
  not_keyword : s ∉ keywords

theorem isUpper_iff : c.isUpper ↔ 'A' ≤ c ∧ c ≤ 'Z' := decide_eq_true_iff

theorem isLower_iff : c.isLower ↔ 'a' ≤ c ∧ c ≤ 'z' :=
  Bool.and_eq_true_iff.trans (and_congr decide_eq_true_iff decide_eq_true_iff)

theorem isAlpha_iff : c.isAlpha ↔ IsLetter c :=
  Bool.or_eq_true_iff.trans ((or_congr isUpper_iff isLower_iff).trans or_comm)

theorem isDigit_iff : c.isDigit ↔ IsDigit c :=
  Bool.and_eq_true_iff.trans (and_congr decide_eq_true_iff decide_eq_true_iff)

theorem isFirstChar_iff : isFirstChar c ↔ IsLetter c ∨ c = '_' := by
  simp only [isFirstChar, Bool.or_eq_true, isAlpha_iff, decide_eq_true_eq]

theorem isNameChar_iff : isNameChar c ↔ IsLetter c ∨ IsDigit c ∨ c = '_' := by
  simp only [isNameChar, Char.isAlphanum, Bool.or_eq_true, isAlpha_iff, isDigit_iff,
    decide_eq_true_eq, or_assoc]

theorem isName_iff : isName s ↔ Identifier s := by
  cases s with
  | nil =>
    refine iff_of_false Bool.false_ne_true fun h => ?_
    obtain ⟨c, rest, hs, -⟩ := h.first
    cases hs
  | cons c rest =>
    have hkeyword : (!isKeyword (c :: rest)) = true ↔ c :: rest ∉ keywords := by
      simp [isKeyword]
    simp only [isName, Bool.and_eq_true, isFirstChar_iff, bne_iff_ne, hkeyword, List.all_eq_true,
      isNameChar_iff]
    constructor
    · rintro ⟨⟨⟨hfirst, hunderscore⟩, hkeyword⟩, hrest⟩
      refine ⟨⟨c, rest, rfl, hfirst⟩, ?_, hunderscore, hkeyword⟩
      intro c' hmem
      rcases List.mem_cons.mp hmem with rfl | hmem
      · exact hfirst.imp_right Or.inr
      · exact hrest c' hmem
    · intro h
      obtain ⟨c', rest', ⟨⟩, hfirst⟩ := h.first
      exact ⟨⟨⟨hfirst, h.not_underscore⟩, h.not_keyword⟩,
        fun c' hmem => h.char c' (List.mem_cons_of_mem c hmem)⟩

theorem Identifier.ne_nil (h : Identifier s) : s ≠ [] := by
  obtain ⟨c, rest, rfl, -⟩ := h.first
  exact List.cons_ne_nil c rest

/-- Nothing in a name could lead elsewhere. -/
theorem Identifier.slash_not_mem (h : Identifier s) : '/' ∉ s := by
  intro hmem
  have hslash : ¬ isNameChar '/' := by decide
  exact hslash (isNameChar_iff.mpr (h.char '/' hmem))

end Stencil.Name
