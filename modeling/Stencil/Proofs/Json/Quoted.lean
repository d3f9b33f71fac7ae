import Mathlib.Data.Nat.Init
import Stencil.Json.Printer
import Stencil.Json.Reader.Quoted

/-!
JSON strings as they may be written, their characters escaped or not. Each of these texts is read as
what it spells, whatever follows it, and a printed string is one of them.
-/
namespace Stencil.Json

variable {α β : Type} {n value : Nat} {a c : Char} {s t rest before body digits : Text}

/-- A reader got `v` and left `rest`. -/
def Reads (r : Except Fault (Taken α n)) (v : α) (rest : Text) : Prop :=
  ∃ h, r = .ok ⟨v, rest, h⟩

theorem Reads.map {r : Except Fault (Taken α n)} {v : α} (f : α → β) (h : Reads r v rest) :
    Reads (r.map (·.map f)) (f v) rest := by
  obtain ⟨h, rfl⟩ := h
  exact ⟨h, rfl⟩

/-- Four hex digits of either case, and their value. -/
inductive HexDigits : Text → Nat → Prop
  | four {a b c d : Char} {i j k l : Nat} : hexDigit? a = some i → hexDigit? b = some j →
    hexDigit? c = some k → hexDigit? d = some l →
      HexDigits [a, b, c, d] (((i * 16 + j) * 16 + k) * 16 + l)

/-- What may stand between quotes for a text. -/
inductive Spells : Text → Text → Prop
  | nil : Spells [] []
  | plain {c : Char} {body s : Text} : c ≠ '"' → c ≠ '\\' → ¬ c.toNat < 0x20 → Spells body s →
    Spells (c :: body) (c :: s)
  | escape {a c : Char} {body s : Text} : simpleEscape? a = some c → Spells body s →
    Spells ('\\' :: a :: body) (c :: s)
  | unit {value : Nat} {digits body s : Text} : HexDigits digits value →
    value < 0xd800 ∨ 0xdfff < value → Spells body s →
      Spells ('\\' :: 'u' :: (digits ++ body)) (Char.ofNat value :: s)
  | pair {high low : Nat} {digits digits' body s : Text} : HexDigits digits high →
    HexDigits digits' low → 0xd800 ≤ high ∧ high ≤ 0xdbff → 0xdc00 ≤ low ∧ low ≤ 0xdfff →
      Spells body s →
      Spells ('\\' :: 'u' :: (digits ++ '\\' :: 'u' :: (digits' ++ body)))
        (Char.ofNat ((high - 0xd800) * 0x400 + (low - 0xdc00) + 0x10000) :: s)

/-- A text in quotes. -/
inductive IsString : Text → Text → Prop
  | quoted {body s : Text} : Spells body s → IsString ('"' :: (body ++ ['"'])) s

/-- Characters that need no escape may stand for themselves. -/
theorem Spells.self (h : ∀ c ∈ s, c ≠ '"' ∧ c ≠ '\\' ∧ ¬ c.toNat < 0x20) : Spells s s := by
  induction s with
  | nil => exact .nil
  | cons c s ih =>
    obtain ⟨⟨hquote, hbackslash, hcontrol⟩, hs⟩ := List.forall_mem_cons.mp h
    exact .plain hquote hbackslash hcontrol (ih hs)

theorem HexDigits.reads (hdigits : HexDigits digits value) (h : (digits ++ s).length < n) :
    Reads (readUnit (digits ++ s) h) value s := by
  cases hdigits with
  | @four a b c d _ _ _ _ ha hb hc hd =>
    change Reads (readUnit (a :: b :: c :: d :: s) h) _ s
    rw [readUnit, ha, hb, hc, hd]
    exact ⟨_, rfl⟩

theorem reads_readEscape (hu : a ≠ 'u') (ha : simpleEscape? a = some c)
    (h : (a :: s).length < n) : Reads (readEscape (a :: s) h) c s := by
  rw [readEscape, if_neg hu, ha]
  exact ⟨_, rfl⟩

theorem reads_readEscape_unit (hdigits : HexDigits digits value)
    (hvalue : value < 0xd800 ∨ 0xdfff < value) (h : ('u' :: (digits ++ s)).length < n) :
    Reads (readEscape ('u' :: (digits ++ s)) h) (Char.ofNat value) s := by
  obtain ⟨hshort, hunit⟩ := hdigits.reads (tail_short h)
  rw [readEscape, if_pos rfl, readCodePoint, hunit]
  refine ⟨hshort, ?_⟩
  change (if 0xdc00 ≤ value ∧ value ≤ 0xdfff then _ else _) = _
  rw [if_neg (by omega)]
  change (if 0xd800 ≤ value ∧ value ≤ 0xdbff then _ else _) = _
  rw [if_neg (by omega)]
  rfl

theorem reads_readEscape_pair {high low : Nat} {digits' : Text} (hhigh : HexDigits digits high)
    (hlow : HexDigits digits' low) (hh : 0xd800 ≤ high ∧ high ≤ 0xdbff)
    (hl : 0xdc00 ≤ low ∧ low ≤ 0xdfff)
    (h : ('u' :: (digits ++ '\\' :: 'u' :: (digits' ++ s))).length < n) :
    Reads (readEscape ('u' :: (digits ++ '\\' :: 'u' :: (digits' ++ s))) h)
      (Char.ofNat ((high - 0xd800) * 0x400 + (low - 0xdc00) + 0x10000)) s := by
  obtain ⟨hshort, hunit⟩ := hhigh.reads (tail_short h)
  obtain ⟨hshort', hunit'⟩ := hlow.reads (tail_short (tail_short hshort))
  rw [readEscape, if_pos rfl, readCodePoint, hunit]
  refine ⟨hshort', ?_⟩
  change (if 0xdc00 ≤ high ∧ high ≤ 0xdfff then _ else _) = _
  rw [if_neg (by omega)]
  change (if 0xd800 ≤ high ∧ high ≤ 0xdbff then _ else _) = _
  rw [if_pos hh]
  change ((readUnit (digits' ++ s) _ >>= _) >>= _) = _
  rw [hunit']
  change ((if 0xdc00 ≤ low ∧ low ≤ 0xdfff then _ else _) >>= _) = _
  rw [if_pos hl]
  rfl

theorem readStringFrom_escape (h : ('\\' :: s).length < n) (h' : rest.length < n)
    (he : ∀ h, Reads (readEscape (n := s.length + 1) s h) c rest) :
    readStringFrom before ('\\' :: s) h = readStringFrom (c :: before) rest h' := by
  obtain ⟨hshort, he⟩ := he (self_short s)
  rw [readStringFrom, if_neg (by decide), if_pos rfl, he]

theorem readStringFrom_plain (hq : c ≠ '"') (hb : c ≠ '\\') (hc : ¬ c.toNat < 0x20)
    (h : (c :: s).length < n) (h' : s.length < n) :
    readStringFrom before (c :: s) h = readStringFrom (c :: before) s h' := by
  rw [readStringFrom, if_neg hq, if_neg hb, if_neg hc]

/-- One character more of a string, whatever it is written as. -/
theorem reads_readStringFrom_step {left spelt : Text} (hleft : left.length < n)
    (hspelt : ∀ h, readStringFrom (n := n) before spelt h = readStringFrom (c :: before) left hleft)
    (hrest : Reads (readStringFrom (c :: before) left hleft) ((c :: before).reverse ++ s) rest)
    (h : spelt.length < n) :
    Reads (readStringFrom before spelt h) (before.reverse ++ c :: s) rest := by
  rw [hspelt h]
  simpa using hrest

/-- What follows an opening quote is read as what it spells. -/
theorem Spells.reads (hs : Spells body s) (before rest : Text)
    (h : (body ++ '"' :: rest).length < n) :
    Reads (readStringFrom before (body ++ '"' :: rest) h) (before.reverse ++ s) rest := by
  generalize ht : body ++ '"' :: rest = t at h
  induction hs generalizing before t with
  | nil =>
    rw [List.nil_append] at ht
    subst ht
    rw [List.append_nil, readStringFrom, if_pos rfl]
    exact ⟨tail_short h, rfl⟩
  | @plain c body s hquote hbackslash hcontrol _ ih =>
    subst ht
    have hleft : (body ++ '"' :: rest).length < n := tail_short h
    exact reads_readStringFrom_step hleft
      (fun h => readStringFrom_plain hquote hbackslash hcontrol h hleft) (ih _ _ rfl hleft) h
  | @escape a c body s ha _ ih =>
    subst ht
    have hleft : (body ++ '"' :: rest).length < n := tail_short (tail_short h)
    have hu : a ≠ 'u' := by
      rintro rfl
      cases ha
    exact reads_readStringFrom_step hleft
      (fun h => readStringFrom_escape h hleft (reads_readEscape hu ha)) (ih _ _ rfl hleft) h
  | @unit value digits body s hdigits hvalue _ ih =>
    simp only [List.cons_append, List.append_assoc] at ht
    subst ht
    have hleft : (body ++ '"' :: rest).length < n := by
      simp only [List.length_cons, List.length_append] at h ⊢
      omega
    exact reads_readStringFrom_step hleft
      (fun h => readStringFrom_escape h hleft (reads_readEscape_unit hdigits hvalue))
      (ih _ _ rfl hleft) h
  | @pair high low digits digits' body s hhigh hlow hh hl _ ih =>
    simp only [List.cons_append, List.append_assoc] at ht
    subst ht
    have hleft : (body ++ '"' :: rest).length < n := by
      simp only [List.length_cons, List.length_append] at h ⊢
      omega
    exact reads_readStringFrom_step hleft
      (fun h => readStringFrom_escape h hleft (reads_readEscape_pair hhigh hlow hh hl))
      (ih _ _ rfl hleft) h

theorem IsString.exists_reads (ht : IsString t s) (rest : Text) :
    ∃ u, t ++ rest = '"' :: u ∧ ∀ {n : Nat} (h : u.length < n), Reads (readString u h) s rest := by
  obtain @⟨body, _, hbody⟩ := ht
  exact ⟨body ++ '"' :: rest, by simp, hbody.reads [] rest⟩

theorem hexDigit?_digitChar : ∀ k < 16, hexDigit? (Nat.digitChar k) = some k := by decide

/-- A control character is written by the four hex digits of its code. -/
theorem hexDigits_control (hc : c.toNat < 0x20) :
    HexDigits ['0', '0', Nat.digitChar (c.toNat / 16), Nat.digitChar (c.toNat % 16)] c.toNat := by
  have hdigits : HexDigits ['0', '0', Nat.digitChar (c.toNat / 16), Nat.digitChar (c.toNat % 16)]
      (((0 * 16 + 0) * 16 + c.toNat / 16) * 16 + c.toNat % 16) :=
    .four rfl rfl (hexDigit?_digitChar _ (by omega)) (hexDigit?_digitChar _ (by omega))
  have hvalue : ((0 * 16 + 0) * 16 + c.toNat / 16) * 16 + c.toNat % 16 = c.toNat := by omega
  rwa [hvalue] at hdigits

theorem Spells.escapeChar (c : Char) (hs : Spells body s) :
    Spells (escapeChar c ++ body) (c :: s) := by
  unfold Json.escapeChar
  split
  · rename_i hc
    rcases hc with rfl | rfl
    · exact .escape rfl hs
    · exact .escape rfl hs
  iterate 5
    split
    · subst c
      exact .escape rfl hs
  split
  · rename_i hc
    have hunit := Spells.unit (hexDigits_control hc) (.inl (by omega)) hs
    rwa [Char.ofNat_toNat] at hunit
  · rename_i hq _ _ _ _ _ hc
    rw [not_or] at hq
    exact .plain hq.1 hq.2 hc hs

theorem spells_escaped (s : Text) : Spells (s.flatMap Json.escapeChar) s := by
  induction s with
  | nil => exact .nil
  | cons c s ih =>
    rw [List.flatMap_cons]
    exact ih.escapeChar c

theorem isString_stringText (s : Text) : IsString (stringText s) s := .quoted (spells_escaped s)

end Stencil.Json
