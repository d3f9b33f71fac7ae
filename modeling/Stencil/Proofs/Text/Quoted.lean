import Mathlib.Data.Nat.Digits.Defs
import Stencil.Text.Quoted

/-! Quoted texts stay on their line, whatever characters are quoted. -/
namespace Stencil.Text

variable {s t : Text} {c : Char} {n : Nat}

/-- A text without the characters that end a line. -/
def OneLine (s : Text) : Prop := ∀ c ∈ s, c ≠ '\n' ∧ c ≠ '\r'

instance (s : Text) : Decidable (OneLine s) := List.decidableBAll _ s

theorem oneLine_append : OneLine (s ++ t) ↔ OneLine s ∧ OneLine t := List.forall_mem_append

theorem oneLine_cons : OneLine (c :: s) ↔ (c ≠ '\n' ∧ c ≠ '\r') ∧ OneLine s := List.forall_mem_cons

theorem oneLine_flatMap {α : Type} {f : α → Text} {l : List α} (h : ∀ a ∈ l, OneLine (f a)) :
    OneLine (l.flatMap f) := by
  intro c hc
  obtain ⟨a, ha, hc⟩ := List.mem_flatMap.mp hc
  exact h a ha c hc

theorem oneLine_intercalate {separator : Text} {texts : List Text} (hseparator : OneLine separator)
    (h : ∀ s ∈ texts, OneLine s) : OneLine (List.intercalate separator texts) := by
  induction texts with
  | nil => exact nofun
  | cons s texts ih =>
    obtain ⟨hs, htexts⟩ := List.forall_mem_cons.mp h
    cases texts with
    | nil => simpa [List.intercalate] using hs
    | cons t texts =>
      rw [List.intercalate_cons_cons]
      exact oneLine_append.mpr ⟨oneLine_append.mpr ⟨hs, hseparator⟩, ih htexts⟩

/-- All that hex digits can be. -/
theorem exists_digitChar_of_mem_ofHex (h : c ∈ ofHex n) : ∃ k < 16, c = Nat.digitChar k := by
  induction n using Nat.strongRecOn with
  | ind n ih =>
    rw [ofHex] at h
    by_cases hn : n < 16
    · rw [Nat.toDigits_of_lt_base hn, List.mem_singleton] at h
      exact ⟨n, hn, h⟩
    · rw [Nat.toDigits_of_base_le (by decide) (Nat.le_of_not_lt hn)] at h
      rcases List.mem_append.mp h with h | h
      · exact ih (n / 16) (by omega) h
      · exact ⟨n % 16, Nat.mod_lt n (by decide), List.mem_singleton.mp h⟩

theorem digitChar_ne_newline : ∀ k < 16, Nat.digitChar k ≠ '\n' ∧ Nat.digitChar k ≠ '\r' := by
  decide

theorem oneLine_codePointEscape (c : Char) : OneLine (codePointEscape c) := by
  have hdigits : OneLine (ofHex c.toNat) := by
    intro a ha
    obtain ⟨k, hk, rfl⟩ := exists_digitChar_of_mem_ofHex ha
    exact digitChar_ne_newline k hk
  exact oneLine_append.mpr ⟨oneLine_append.mpr ⟨by decide, hdigits⟩, by decide⟩

theorem oneLine_escapeIn (quote c : Char) : OneLine (escapeIn quote c) := by
  unfold escapeIn
  iterate 4
    split
    · decide
  rename_i hr hn
  split
  · exact oneLine_cons.mpr ⟨by decide, oneLine_cons.mpr ⟨⟨hn, hr⟩, nofun⟩⟩
  split
  · exact oneLine_codePointEscape c
  · exact oneLine_cons.mpr ⟨⟨hn, hr⟩, nofun⟩

theorem oneLine_quoted (s : Text) : OneLine (quoted s) := by
  have hbody : OneLine (s.flatMap (escapeIn '"')) :=
    oneLine_flatMap fun c _ => oneLine_escapeIn '"' c
  exact oneLine_append.mpr ⟨oneLine_cons.mpr ⟨by decide, hbody⟩, by decide⟩

theorem oneLine_quotedChar (c : Char) : OneLine (quotedChar c) :=
  oneLine_append.mpr ⟨oneLine_cons.mpr ⟨by decide, oneLine_escapeIn '\'' c⟩, by decide⟩

end Stencil.Text
