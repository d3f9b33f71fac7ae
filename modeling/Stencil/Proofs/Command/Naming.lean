import Stencil.Proofs.Command.Stages

/-!
The name that a template gets. A name is derived in three repairs; what they leave is a name but for
a lone underscore, and a text without need of repair is left as it is.
-/
namespace Stencil

namespace Name

variable {s : Text} {c : Char}

/-- What is left when a stem has been repaired. -/
structure Repaired (s : Text) : Prop where
  first : ∃ c rest, s = c :: rest ∧ ¬ IsDigit c
  char (c : Char) : c ∈ s → isNameChar c
  not_keyword : s ∉ keywords

/-- A stem that is empty or a single character, which is no letter and no digit. -/
inductive Nameless : Text → Prop
  | empty : Nameless []
  | other {c : Char} : ¬ IsLetter c → ¬ IsDigit c → Nameless [c]

theorem not_isDigit_of_isLetter (h : IsLetter c) : ¬ IsDigit c := by
  rintro ⟨-, hdigit⟩
  rcases h with ⟨hlow, -⟩ | ⟨hlow, -⟩
  all_goals exact absurd (Char.le_trans hlow hdigit) (by decide)

theorem not_isDigit_underscore : ¬ IsDigit '_' := by
  rintro ⟨-, hdigit⟩
  exact absurd hdigit (by decide)

theorem isNameChar_underscore : isNameChar '_' := by decide

theorem not_isLetter_underscore : ¬ IsLetter '_' := by
  rw [← isAlpha_iff]
  decide

theorem underscore_not_mem_keywords : ['_'] ∉ keywords := by decide

/-- No keyword ends in the character that is put behind keywords. -/
theorem append_underscore_not_mem_keywords (s : Text) : s ++ ['_'] ∉ keywords := by
  have hlast : ∀ keyword ∈ keywords, keyword.getLast? ≠ some '_' := by decide
  intro h
  exact hlast _ h List.getLast?_concat

theorem char_plain (h : c ∈ plain s) : isNameChar c := by
  obtain ⟨a, -, rfl⟩ := List.mem_map.mp h
  split
  · assumption
  · exact isNameChar_underscore

theorem plain_of_char (h : ∀ c ∈ s, isNameChar c) : plain s = s := by
  have hid : ∀ c ∈ s, (if isNameChar c then c else '_') = id c := fun c hc => if_pos (h c hc)
  rw [plain, List.map_congr_left hid, List.map_id]

theorem guardFirst_of_first (h : ¬ IsDigit c) (s : Text) : guardFirst (c :: s) = c :: s :=
  if_neg fun hc => h (isDigit_iff.mp hc)

theorem first_guardFirst (s : Text) : ∃ c rest, guardFirst s = c :: rest ∧ ¬ IsDigit c := by
  cases s with
  | nil => exact ⟨'_', [], rfl, not_isDigit_underscore⟩
  | cons c s =>
    by_cases hc : IsDigit c
    · exact ⟨'_', c :: s, if_pos (isDigit_iff.mpr hc), not_isDigit_underscore⟩
    · exact ⟨c, s, guardFirst_of_first hc s, hc⟩

theorem char_guardFirst (h : ∀ c ∈ s, isNameChar c) : ∀ c ∈ guardFirst s, isNameChar c := by
  cases s with
  | nil => exact List.forall_mem_singleton.mpr isNameChar_underscore
  | cons c s =>
    rw [guardFirst]
    split
    · exact List.forall_mem_cons.mpr ⟨isNameChar_underscore, h⟩
    · exact h

theorem guardKeyword_of_not_keyword (h : s ∉ keywords) : guardKeyword s = s :=
  if_neg fun hs => h (List.contains_iff_mem.mp hs)

theorem guardKeyword_of_keyword (h : s ∈ keywords) : guardKeyword s = s ++ ['_'] :=
  if_pos (List.contains_iff_mem.mpr h)

/-- A keyword is repaired at its end, which touches nothing that the repairs before it are about. -/
theorem repaired_guardKeyword (hfirst : ∃ c rest, s = c :: rest ∧ ¬ IsDigit c)
    (hchar : ∀ c ∈ s, isNameChar c) : Repaired (guardKeyword s) := by
  obtain ⟨c, rest, rfl, hc⟩ := hfirst
  by_cases hkeyword : c :: rest ∈ keywords
  · rw [guardKeyword_of_keyword hkeyword]
    exact
      { first := ⟨c, rest ++ ['_'], rfl, hc⟩
        char := List.forall_mem_append.mpr
          ⟨hchar, List.forall_mem_singleton.mpr isNameChar_underscore⟩
        not_keyword := append_underscore_not_mem_keywords _ }
  · rw [guardKeyword_of_not_keyword hkeyword]
    exact ⟨⟨c, rest, rfl, hc⟩, hchar, hkeyword⟩

theorem repaired_ofStem (s : Text) : Repaired (ofStem s) :=
  repaired_guardKeyword (first_guardFirst _) (char_guardFirst fun _ => char_plain)

/-- There is nothing to repair a second time. -/
theorem ofStem_of_repaired (h : Repaired s) : ofStem s = s := by
  obtain ⟨c, rest, rfl, hc⟩ := h.first
  rw [ofStem, plain_of_char h.char, guardFirst_of_first hc,
    guardKeyword_of_not_keyword h.not_keyword]

theorem Identifier.repaired (h : Identifier s) : Repaired s := by
  obtain ⟨c, rest, hs, hc⟩ := h.first
  refine ⟨⟨c, rest, hs, ?_⟩, fun c hc => isNameChar_iff.mpr (h.char c hc), h.not_keyword⟩
  rcases hc with hc | rfl
  · exact not_isDigit_of_isLetter hc
  · exact not_isDigit_underscore

theorem Repaired.identifier (h : Repaired s) (hs : s ≠ ['_']) : Identifier s := by
  have hchar : ∀ c ∈ s, IsLetter c ∨ IsDigit c ∨ c = '_' :=
    fun c hc => isNameChar_iff.mp (h.char c hc)
  obtain ⟨c, rest, rfl, hc⟩ := h.first
  refine ⟨⟨c, rest, rfl, ?_⟩, hchar, hs, h.not_keyword⟩
  rcases hchar c List.mem_cons_self with hletter | hdigit | hunderscore
  · exact .inl hletter
  · exact (hc hdigit).elim
  · exact .inr hunderscore

theorem isName_ofStem_eq_false_iff (s : Text) : isName (ofStem s) = false ↔ ofStem s = ['_'] := by
  rw [← Bool.not_eq_true, isName_iff]
  constructor
  · intro h
    exact Decidable.byContradiction fun hs => h ((repaired_ofStem s).identifier hs)
  · intro hs h
    exact h.not_underscore hs

theorem guardKeyword_eq_underscore_iff : guardKeyword s = ['_'] ↔ s = ['_'] := by
  constructor
  · intro h
    by_cases hkeyword : s ∈ keywords
    · rw [guardKeyword_of_keyword hkeyword] at h
      have hnil : s = [] := List.append_cancel_right h
      subst s
      exact absurd hkeyword (by decide)
    · rwa [guardKeyword_of_not_keyword hkeyword] at h
  · rintro rfl
    exact guardKeyword_of_not_keyword underscore_not_mem_keywords

theorem guardFirst_eq_underscore_iff : guardFirst s = ['_'] ↔ s = [] ∨ s = ['_'] := by
  cases s with
  | nil => exact iff_of_true rfl (.inl rfl)
  | cons c s =>
    rw [guardFirst]
    split
    · rename_i hc
      constructor
      · rintro ⟨⟩
      · rintro (⟨⟨⟩⟩ | ⟨⟨⟩⟩)
        exact absurd hc (by decide)
    · simp

theorem plainChar_eq_underscore_iff :
    (if isNameChar c then c else '_') = '_' ↔ ¬ IsLetter c ∧ ¬ IsDigit c := by
  constructor
  · intro h
    split at h
    · subst c
      exact ⟨not_isLetter_underscore, not_isDigit_underscore⟩
    · rename_i hc
      rw [isNameChar_iff] at hc
      exact ⟨fun hletter => hc (.inl hletter), fun hdigit => hc (.inr (.inl hdigit))⟩
  · rintro ⟨hletter, hdigit⟩
    split
    · rename_i hc
      rcases isNameChar_iff.mp hc with h | h | h
      · exact (hletter h).elim
      · exact (hdigit h).elim
      · exact h
    · rfl

theorem ofStem_eq_underscore_iff : ofStem s = ['_'] ↔ Nameless s := by
  rw [ofStem, guardKeyword_eq_underscore_iff, guardFirst_eq_underscore_iff, plain,
    List.map_eq_nil_iff, List.map_eq_singleton_iff]
  constructor
  · rintro (rfl | ⟨c, rfl, hc⟩)
    · exact .empty
    · obtain ⟨hletter, hdigit⟩ := plainChar_eq_underscore_iff.mp hc
      exact .other hletter hdigit
  · rintro (_ | ⟨hletter, hdigit⟩)
    · exact .inl rfl
    · exact .inr ⟨_, rfl, plainChar_eq_underscore_iff.mpr ⟨hletter, hdigit⟩⟩

end Name

namespace Command

open Name (IsDigit IsLetter Nameless isName keywords ofStem)

/-- What a name or the lack of one comes to, when some of the run has been written already. -/
def named (name : Option Text) (input : Path) (transcript : Transcript) (fs : FileSystem) :
    Except Failure Text :=
  ((templateName name input : Stage (StateM FileSystem) Text) transcript fs).1.1

variable {name : Option Text} {input : Path} {transcript : Transcript} {fs : FileSystem} {n : Text}

theorem named_eq_ok_iff :
    named name input transcript fs = .ok n ↔
      name.getD (ofStem (input.stem?.getD [])) = n ∧ isName n := by
  unfold named templateName
  split
  · rename_i hname
    constructor
    · rintro ⟨⟩
      exact ⟨rfl, hname⟩
    · rintro ⟨rfl, -⟩
      rfl
  · rename_i hname
    constructor
    · rintro ⟨⟩
    · rintro ⟨rfl, h⟩
      exact (hname h).elim

theorem named_eq_error_iff :
    (∃ f, named none input transcript fs = .error f) ↔
      isName (ofStem (input.stem?.getD [])) = false := by
  rw [← Bool.not_eq_true]
  rcases h : named none input transcript fs with f | n
  · refine iff_of_true ⟨f, rfl⟩ fun hname => ?_
    cases h.symm.trans (named_eq_ok_iff.mpr ⟨rfl, hname⟩)
  · obtain ⟨rfl, hname⟩ := named_eq_ok_iff.mp h
    exact iff_of_false nofun fun hnot => hnot hname

/-- The names that are derived are those that are accepted, but for the underscore that is left of
a stem without any character of a name. Without a name a template fails to get one for such stems
alone, and whichever it gets is accepted. -/
theorem derived_names_are_accepted :
    (∀ s, ofStem s ≠ [] ∧ (∀ c ∈ ofStem s, IsLetter c ∨ IsDigit c ∨ c = '_') ∧
      (∀ c rest, ofStem s = c :: rest → ¬ IsDigit c) ∧ ofStem s ∉ keywords) ∧
    (∀ s, (isName (ofStem s) = false ↔ ofStem s = ['_']) ∧ (ofStem s = ['_'] ↔ Nameless s)) ∧
    (∀ s, isName s → ofStem s = s) ∧ (∀ s, ofStem (ofStem s) = ofStem s) ∧
    ∀ input transcript fs,
      ((∃ f, named none input transcript fs = .error f) ↔ Nameless (input.stem?.getD [])) ∧
        ∀ name n, named name input transcript fs = .ok n → isName n := by
  refine ⟨fun s => ?_, fun s => ?_, fun s hs => ?_, fun s => ?_,
    fun input transcript fs => ⟨?_, ?_⟩⟩
  · have hrepaired := Name.repaired_ofStem s
    obtain ⟨c, rest, hs, hc⟩ := hrepaired.first
    refine ⟨by simp [hs], fun c hc => Name.isNameChar_iff.mp (hrepaired.char c hc), ?_,
      hrepaired.not_keyword⟩
    intro c' rest' hs'
    cases hs.symm.trans hs'
    exact hc
  · exact ⟨Name.isName_ofStem_eq_false_iff s, Name.ofStem_eq_underscore_iff⟩
  · exact Name.ofStem_of_repaired (Name.isName_iff.mp hs).repaired
  · exact Name.ofStem_of_repaired (Name.repaired_ofStem s)
  · rw [named_eq_error_iff, Name.isName_ofStem_eq_false_iff, Name.ofStem_eq_underscore_iff]
  · intro name n h
    exact (named_eq_ok_iff.mp h).2

/-- A keyword and a number as stems, and a stem that leaves no name. -/
theorem derived_names_are_accepted_keyword :
    ofStem ['f', 'n'] = ['f', 'n', '_'] ∧ ofStem (ofStem ['f', 'n']) = ofStem ['f', 'n'] ∧
      isName ['f', 'n', '_'] ∧ ofStem ['f', 'n', '_'] = ['f', 'n', '_'] ∧
      ¬ IsDigit '_' ∧ ofStem ['4'] = ['_', '4'] ∧
      named none ⟨['4', '.', 'x']⟩ #[] ⟨.directory [], []⟩ = .ok ['_', '4'] ∧
      isName ['_', '4'] ∧
      ∃ f, named none ⟨['é', '.', 'x']⟩ #[] ⟨.directory [], []⟩ = .error f := by
  obtain ⟨hrepaired, hunderscore, hkept, hidempotent, hnamed⟩ := derived_names_are_accepted
  have hname : isName ['f', 'n', '_'] := by decide
  have hfour : ofStem ['4'] = ['_', '4'] := by decide
  have hok : named none ⟨['4', '.', 'x']⟩ #[] ⟨.directory [], []⟩ = .ok ['_', '4'] := rfl
  have hnameless : Nameless ['é'] := (hunderscore ['é']).2.mp (by decide)
  exact ⟨by decide, hidempotent _, hname, hkept _ hname, (hrepaired ['4']).2.2.1 _ _ hfour, hfour,
    hok, (hnamed _ _ _).2 _ _ hok, (hnamed _ _ _).1.mpr hnameless⟩

end Command

end Stencil
