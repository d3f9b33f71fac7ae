import Stencil.Proofs.Json.Quoted
import Stencil.Proofs.Text.Quoted

/-!
Character literals of the language of the generated code. The reader follows the rules of that
language; it takes the literals that are written for what they were written from.
-/
namespace Stencil.Text

variable {s t rest : Text} {c : Char} {n k value count : Nat}

/-- The rest of the number of a code point, to the brace that closes it: one to six hex digits of
either case, with underscores after the first one. -/
def readCodePoint? (value count : Nat) : Text → Option (Nat × Text)
  | [] => none
  | c :: s =>
    if c = '}' then if count = 0 then none else some (value, s)
    else if c = '_' then if count = 0 then none else readCodePoint? value count s
    else
      match Json.hexDigit? c with
      | none => none
      | some k => if count < 6 then readCodePoint? (value * 16 + k) (count + 1) s else none

def simpleEscape? : Char → Option Char
  | 'n' => some '\n'
  | 'r' => some '\r'
  | 't' => some '\t'
  | '0' => some '\x00'
  | '\\' => some '\\'
  | '\'' => some '\''
  | '"' => some '"'
  | _ => none

/-- What follows a backslash. Two hex digits give ASCII only, and no surrogate is a character. -/
def readEscape? : Text → Option (Char × Text)
  | 'x' :: high :: low :: s =>
    match Json.hexDigit? high, Json.hexDigit? low with
    | some h, some l => if h < 8 then some (Char.ofNat (h * 16 + l), s) else none
    | _, _ => none
  | 'u' :: '{' :: s =>
    match readCodePoint? 0 0 s with
    | some (n, s) => if n.isValidChar then some (Char.ofNat n, s) else none
    | none => none
  | c :: s => (simpleEscape? c).map fun c => (c, s)
  | [] => none

/-- A literal ends at the quote after its one character. -/
def closeQuote? : Char × Text → Option (Char × Text)
  | (c, '\'' :: s) => some (c, s)
  | _ => none

/-- The character of a literal, and what stands after the literal. -/
def readCharLiteral? : Text → Option (Char × Text)
  | '\'' :: c :: s =>
    if c = '\\' then (readEscape? s).bind closeQuote?
    else if c = '\'' ∨ c = '\n' ∨ c = '\r' ∨ c = '\t' then none
    else closeQuote? (c, s)
  | _ => none

/-- A text in which every quote and every backslash stands behind a backslash of its own. -/
inductive Escaped : Text → Prop
  | nil : Escaped []
  | plain {c : Char} {s : Text} : c ≠ '\'' → c ≠ '\\' → Escaped s → Escaped (c :: s)
  | escape (c : Char) {s : Text} : Escaped s → Escaped ('\\' :: c :: s)

/-- A text in printable ASCII. -/
def Printable (s : Text) : Prop := ∀ c ∈ s, 0x20 ≤ c.toNat ∧ c.toNat ≤ 0x7e

instance (s : Text) : Decidable (Printable s) := List.decidableBAll _ s

/-- A literal in printable ASCII that is read as its character and cannot end early. -/
structure IsCharLiteral (literal : Text) (c : Char) : Prop where
  quotes : ∃ body, literal = '\'' :: body ++ ['\''] ∧ Escaped body
  printable : Printable literal
  reads (after : Text) : readCharLiteral? (literal ++ after) = some (c, after)

theorem readCodePoint?_digitChar (hk : k < 16) (hcount : count < 6) :
    readCodePoint? value count (Nat.digitChar k :: rest) =
      readCodePoint? (value * 16 + k) (count + 1) rest := by
  have hne : ∀ k < 16, Nat.digitChar k ≠ '}' ∧ Nat.digitChar k ≠ '_' := by decide
  rw [readCodePoint?, if_neg (hne k hk).1, if_neg (hne k hk).2, Json.hexDigit?_digitChar k hk]
  simp only [hcount, if_true]

theorem readCodePoint?_ofHex (hn : (ofHex n).length ≤ 6) :
    readCodePoint? 0 0 (ofHex n ++ rest) = readCodePoint? n (ofHex n).length rest := by
  induction n using Nat.strongRecOn generalizing rest with
  | ind n ih =>
    rw [ofHex] at hn ⊢
    by_cases hsmall : n < 16
    · rw [Nat.toDigits_of_lt_base hsmall, List.singleton_append,
        readCodePoint?_digitChar hsmall (by decide), Nat.zero_mul, Nat.zero_add]
      rfl
    · rw [Nat.toDigits_of_base_le (by decide) (Nat.le_of_not_lt hsmall)] at hn ⊢
      rw [List.length_append, List.length_singleton] at hn
      rw [List.append_assoc, ← ofHex, ih (n / 16) (by omega) (by rw [ofHex]; omega),
        List.singleton_append,
        readCodePoint?_digitChar (Nat.mod_lt n (by decide)) (by rw [ofHex]; omega),
        Nat.div_add_mod', List.length_append, List.length_singleton]

theorem length_ofHex_toNat_le (c : Char) : (ofHex c.toNat).length ≤ 6 := by
  refine Nat.toDigits_length 16 c.toNat 6 (by decide) ?_
  obtain h | ⟨-, h⟩ : c.toNat < 0xd800 ∨ 0xdfff < c.toNat ∧ c.toNat < 0x110000 := c.valid
  · omega
  · omega

theorem readEscape?_codePoint (c : Char) (after : Text) :
    readEscape? ('u' :: '{' :: (ofHex c.toNat ++ '}' :: after)) = some (c, after) := by
  have hdigits : (ofHex c.toNat).length ≠ 0 := Nat.ne_of_gt Nat.length_toDigits_pos
  have hread : readCodePoint? 0 0 (ofHex c.toNat ++ '}' :: after) = some (c.toNat, after) := by
    rw [readCodePoint?_ofHex (length_ofHex_toNat_le c), readCodePoint?, if_pos rfl, if_neg hdigits]
  rw [readEscape?, hread]
  simp only [Char.ofNat_toNat]
  exact if_pos c.valid

theorem printable_append : Printable (s ++ t) ↔ Printable s ∧ Printable t := List.forall_mem_append

theorem printable_cons :
    Printable (c :: s) ↔ (0x20 ≤ c.toNat ∧ c.toNat ≤ 0x7e) ∧ Printable s := List.forall_mem_cons

theorem printable_digitChar : ∀ k < 16,
    (0x20 ≤ (Nat.digitChar k).toNat ∧ (Nat.digitChar k).toNat ≤ 0x7e) ∧
      Nat.digitChar k ≠ '\'' ∧ Nat.digitChar k ≠ '\\' := by decide

/-- A character that stands for itself. -/
theorem isCharLiteral_plain (hc : 0x20 ≤ c.toNat ∧ c.toNat ≤ 0x7e) (hquote : c ≠ '\'')
    (hbackslash : c ≠ '\\') : IsCharLiteral ['\'', c, '\''] c where
  quotes := ⟨[c], rfl, .plain hquote hbackslash .nil⟩
  printable := printable_cons.mpr ⟨by decide, printable_cons.mpr ⟨hc, by decide⟩⟩
  reads after := by
    have hcontrol : ¬ (c = '\'' ∨ c = '\n' ∨ c = '\r' ∨ c = '\t') := by
      rintro (rfl | rfl | rfl | rfl)
      · exact hquote rfl
      all_goals exact absurd hc (by decide)
    change (if c = '\\' then _ else _) = _
    rw [if_neg hbackslash, if_neg hcontrol]
    rfl

theorem isCharLiteral_escape {a : Char} (ha : Printable ['\\', a])
    (hescape : simpleEscape? a = some c) :
    IsCharLiteral ['\'', '\\', a, '\''] c where
  quotes := ⟨['\\', a], rfl, .escape a .nil⟩
  printable := printable_cons.mpr ⟨by decide, printable_append.mpr ⟨ha, by decide⟩⟩
  reads after := by
    unfold simpleEscape? at hescape
    split at hescape
    case h_8 => cases hescape
    all_goals
      cases hescape
      rfl

theorem escaped_of_forall (h : ∀ a ∈ s, a ≠ '\'' ∧ a ≠ '\\') : Escaped s := by
  induction s with
  | nil => exact .nil
  | cons a s ih =>
    obtain ⟨⟨hquote, hbackslash⟩, h⟩ := List.forall_mem_cons.mp h
    exact .plain hquote hbackslash (ih h)

/-- What stands between the braces needs no backslash of its own. -/
theorem plain_of_mem_ofHex {a : Char} (h : a ∈ ofHex n) :
    (0x20 ≤ a.toNat ∧ a.toNat ≤ 0x7e) ∧ a ≠ '\'' ∧ a ≠ '\\' := by
  obtain ⟨k, hk, rfl⟩ := exists_digitChar_of_mem_ofHex h
  exact printable_digitChar k hk

theorem isCharLiteral_codePoint (c : Char) :
    IsCharLiteral ('\'' :: codePointEscape c ++ ['\'']) c where
  quotes := by
    refine ⟨_, rfl, .escape 'u' (.plain (by decide) (by decide) (escaped_of_forall ?_))⟩
    exact List.forall_mem_append.mpr ⟨fun a ha => (plain_of_mem_ofHex ha).2,
      List.forall_mem_singleton.mpr (by decide)⟩
  printable := by
    have hdigits : Printable (ofHex c.toNat) := fun a ha => (plain_of_mem_ofHex ha).1
    have hescape : Printable (codePointEscape c) := by
      rw [codePointEscape, printable_append, printable_append]
      exact ⟨⟨by decide, hdigits⟩, by decide⟩
    rw [printable_append, printable_cons]
    exact ⟨⟨by decide, hescape⟩, by decide⟩
  reads after := by
    have hbody : readEscape? ('u' :: '{' :: (ofHex c.toNat ++ '}' :: '\'' :: after)) =
        some (c, '\'' :: after) := readEscape?_codePoint c _
    have htext : '\'' :: codePointEscape c ++ ['\''] ++ after =
        '\'' :: '\\' :: 'u' :: '{' :: (ofHex c.toNat ++ '}' :: '\'' :: after) := by
      simp [codePointEscape]
    rw [htext, readCharLiteral?, if_pos rfl, hbody]
    rfl

/-- A quoted body is a literal of its character. -/
theorem isCharLiteral_charLiteralBody (c : Char) :
    IsCharLiteral ('\'' :: charLiteralBody c ++ ['\'']) c := by
  unfold charLiteralBody
  iterate 3
    split
    · subst c
      exact isCharLiteral_escape (by decide) rfl
  split
  · rename_i hc
    rcases hc with rfl | rfl | rfl
    all_goals exact isCharLiteral_escape (by decide) rfl
  rename_i hc
  simp only [not_or] at hc
  obtain ⟨hquote, -, hbackslash⟩ := hc
  split
  · rename_i hprintable
    exact isCharLiteral_plain hprintable hquote hbackslash
  · exact isCharLiteral_codePoint c

end Stencil.Text
