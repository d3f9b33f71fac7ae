import Stencil.Literal
import Stencil.Proofs.Results
import Stencil.Proofs.Text.Utf8

/-!
The grammar of encoded literals. Decoding accepts just the escapes of UTF-8 bytes, with hex digits
of either case, and up to that case a text has one encoded form.
-/
namespace Stencil.Literal

open Text (Bytes encodeUtf8)

variable {c h l : Char} {e t : Text} {bytes before : Bytes} {b v : UInt8} {n i j k : Nat}

/-- A hex digit of either case, and its value. -/
def IsHexDigit (c : Char) (n : Nat) : Prop :=
  n < 16 ∧ (c = Nat.digitChar n ∨ c = (Nat.digitChar n).toUpper)

instance (c : Char) (n : Nat) : Decidable (IsHexDigit c n) := inferInstanceAs (Decidable (_ ∧ _))

/-- A text that is one escape after the other, and the bytes that they stand for. -/
inductive Escapes : Text → Bytes → Prop
  | nil : Escapes [] []
  | cons {h l : Char} {j k : Nat} {e : Text} {bytes : Bytes} :
    IsHexDigit h j → IsHexDigit l k → Escapes e bytes →
      Escapes ('\\' :: 'x' :: h :: l :: e) ((j * 16 + k).toUInt8 :: bytes)

def lowerHexChar : Char → Char
  | 'A' => 'a'
  | 'B' => 'b'
  | 'C' => 'c'
  | 'D' => 'd'
  | 'E' => 'e'
  | 'F' => 'f'
  | c => c

/-- The text with the hex digits `A` to `F` in lower case. -/
def lowerHex (e : Text) : Text := e.map lowerHexChar

theorem lowerHexChar_eq_backslash_iff : lowerHexChar c = '\\' ↔ c = '\\' := by
  unfold lowerHexChar
  split <;> simp

theorem lowerHexChar_eq_x_iff : lowerHexChar c = 'x' ↔ c = 'x' := by
  unfold lowerHexChar
  split <;> simp

theorem toUpper_digitChar : ∀ n < 16, (Nat.digitChar n).toUpper = Nat.digitChar n ∨
    (Nat.digitChar n).toUpper ∈ ['A', 'B', 'C', 'D', 'E', 'F'] := by decide

theorem lowerHexChar_eq_digitChar_iff (hn : n < 16) :
    lowerHexChar c = Nat.digitChar n ↔ IsHexDigit c n := by
  unfold lowerHexChar
  split
  iterate 6
    revert n
    decide
  · have hupper := toUpper_digitChar n hn
    simp only [IsHexDigit, hn, true_and]
    constructor
    · exact Or.inl
    · rintro (h | h)
      · exact h
      · rw [← h] at hupper
        simp_all

theorem byte_div (hj : j < 16) (hk : k < 16) :
    (j * 16 + k).toUInt8.toNat / 16 = j ∧ (j * 16 + k).toUInt8.toNat % 16 = k := by
  have hb : (j * 16 + k).toUInt8.toNat = j * 16 + k := by
    simp
    omega
  omega

theorem byte_eq (b : UInt8) : (b.toNat / 16 * 16 + b.toNat % 16).toUInt8 = b := by
  rw [Nat.div_add_mod']
  exact UInt8.ofNat_toNat

/-- Lower case makes a string of escapes the one that encoding writes. -/
theorem escapes_iff : Escapes e bytes ↔ lowerHex e = bytes.flatMap escapeByte := by
  constructor
  · intro he
    induction he with
    | nil => rfl
    | cons hh hl _ ih =>
      obtain ⟨hj, hk⟩ := byte_div hh.1 hl.1
      rw [List.flatMap_cons, ← ih, escapeByte, hj, hk,
        ← (lowerHexChar_eq_digitChar_iff hh.1).mpr hh,
        ← (lowerHexChar_eq_digitChar_iff hl.1).mpr hl]
      rfl
  · intro he
    induction bytes generalizing e with
    | nil =>
      rw [List.map_eq_nil_iff.mp he]
      exact .nil
    | cons b bytes ih =>
      obtain ⟨a, e, rfl, ha, he⟩ := List.map_eq_cons_iff.mp he
      obtain ⟨x, e, rfl, hx, he⟩ := List.map_eq_cons_iff.mp he
      obtain ⟨h, e, rfl, hh, he⟩ := List.map_eq_cons_iff.mp he
      obtain ⟨l, e, rfl, hl, htail⟩ := List.map_eq_cons_iff.mp he
      rw [lowerHexChar_eq_backslash_iff] at ha
      rw [lowerHexChar_eq_x_iff] at hx
      subst ha hx
      have hb := b.toNat_lt
      rw [← byte_eq b]
      exact .cons ((lowerHexChar_eq_digitChar_iff (by omega)).mp hh)
        ((lowerHexChar_eq_digitChar_iff (by omega)).mp hl) (ih htail)

theorem hexValue?_ofNat : ∀ k < 256, ∀ v ∈ hexValue? (UInt8.ofNat k),
    IsHexDigit (Char.ofNat k) v.toNat ∧
      String.utf8EncodeChar (Char.ofNat k) = [UInt8.ofNat k] := by decide +kernel

theorem hexDigit_of_hexValue (h : hexValue b i = .ok v) :
    ∃ c, IsHexDigit c v.toNat ∧ String.utf8EncodeChar c = [b] := by
  have hv : v ∈ hexValue? b := by
    unfold hexValue at h
    split at h
    · cases h
      assumption
    · cases h
  refine ⟨Char.ofNat b.toNat, ?_⟩
  have hb := hexValue?_ofNat b.toNat b.toNat_lt
  rw [UInt8.ofNat_toNat] at hb
  exact hb v hv

theorem hexValue?_digitChar : ∀ n < 16,
    hexValue? (Nat.digitChar n).toNat.toUInt8 = some n.toUInt8 ∧
      String.utf8EncodeChar (Nat.digitChar n) = [(Nat.digitChar n).toNat.toUInt8] := by decide

theorem hexValue?_toUpper_digitChar : ∀ n < 16,
    hexValue? (Nat.digitChar n).toUpper.toNat.toUInt8 = some n.toUInt8 ∧
      String.utf8EncodeChar (Nat.digitChar n).toUpper =
        [(Nat.digitChar n).toUpper.toNat.toUInt8] := by decide

theorem IsHexDigit.hexValue (hc : IsHexDigit c n) :
    ∃ b, String.utf8EncodeChar c = [b] ∧ ∀ i, hexValue b i = .ok n.toUInt8 := by
  obtain ⟨hvalue, hbyte⟩ : hexValue? c.toNat.toUInt8 = some n.toUInt8 ∧
      String.utf8EncodeChar c = [c.toNat.toUInt8] := by
    obtain ⟨hn, rfl | rfl⟩ := hc
    · exact hexValue?_digitChar n hn
    · exact hexValue?_toUpper_digitChar n hn
  refine ⟨_, hbyte, ?_⟩
  intro i
  rw [Literal.hexValue, hvalue]

/-- An escape is read as its byte, whatever follows it. -/
theorem readEscapes_escape (hh : IsHexDigit h j) (hl : IsHexDigit l k) (before : Bytes)
    (i : Nat) (e : Text) :
    readEscapes before i (encodeUtf8 ('\\' :: 'x' :: h :: l :: e)) =
      readEscapes ((j * 16 + k).toUInt8 :: before) (i + 4) (encodeUtf8 e) := by
  obtain ⟨hbyte, hutf8, hvalue⟩ := hh.hexValue
  obtain ⟨lbyte, lutf8, lvalue⟩ := hl.hexValue
  have henc : encodeUtf8 ('\\' :: 'x' :: h :: l :: e) =
      0x5c :: 0x78 :: hbyte :: lbyte :: encodeUtf8 e := by
    simp only [encodeUtf8, List.flatMap_cons, hutf8, lutf8]
    rfl
  have hsum : j.toUInt8 * 16 + k.toUInt8 = (j * 16 + k).toUInt8 := by
    simp [Nat.toUInt8]
  simp only [henc, readEscapes, and_self, if_true, hvalue, lvalue, hsum]

theorem readEscapes_of_escapes (he : Escapes e bytes) (before : Bytes) (i : Nat) :
    readEscapes before i (encodeUtf8 e) = .ok (before.reverse ++ bytes) := by
  induction he generalizing before i with
  | nil => simp [encodeUtf8, readEscapes]
  | cons hh hl _ ih =>
    rw [readEscapes_escape hh hl, ih]
    simp

/-- Nothing but escapes is read to the end. -/
theorem escapes_of_readEscapes {input : Bytes} (he : encodeUtf8 e = input)
    (h : readEscapes before i input = .ok bytes) :
    ∃ more, bytes = before.reverse ++ more ∧ Escapes e more := by
  fun_induction readEscapes before i input generalizing e with
  | case1 before i =>
    cases h
    rw [Text.encodeUtf8_injective (t := []) he]
    exact ⟨[], by simp, .nil⟩
  | case4 before i a x h l rest hax high low hlow hhigh ih =>
    obtain ⟨rfl, rfl⟩ := hax
    obtain ⟨hchar, hhex, hutf8⟩ := hexDigit_of_hexValue hhigh
    obtain ⟨lchar, lhex, lutf8⟩ := hexDigit_of_hexValue hlow
    obtain ⟨e, rfl, hx⟩ := Text.encodeUtf8_eq_utf8EncodeChar_append (c := '\\') he
    obtain ⟨e, rfl, hh⟩ := Text.encodeUtf8_eq_utf8EncodeChar_append (c := 'x') hx
    rw [← List.singleton_append, ← hutf8] at hh
    obtain ⟨e, rfl, hl⟩ := Text.encodeUtf8_eq_utf8EncodeChar_append hh
    rw [← List.singleton_append, ← lutf8] at hl
    obtain ⟨e, rfl, hrest⟩ := Text.encodeUtf8_eq_utf8EncodeChar_append hl
    obtain ⟨more, rfl, hmore⟩ := ih hrest ‹_›
    have hsum : (high.toNat * 16 + low.toNat).toUInt8 = high * 16 + low := by
      simp [Nat.toUInt8]
    refine ⟨_, ?_, .cons hhex lhex hmore⟩
    simp [hsum]
  -- Every other way to read on is a failure.
  | _ => cases h

theorem decode_eq_ok_iff {s : Literal} : s.decode = .ok t ↔ Escapes s.encoded (encodeUtf8 t) := by
  simp only [decode, bind_eq_ok_iff, mapError_eq_ok_iff, Text.decodeUtf8_eq_ok_iff]
  constructor
  · rintro ⟨_, hread, rfl⟩
    obtain ⟨bytes, hbytes, hescapes⟩ := escapes_of_readEscapes rfl hread
    rw [hbytes]
    exact hescapes
  · intro he
    exact ⟨_, readEscapes_of_escapes he [] 0, rfl⟩

theorem isHexDigit_digitChar (hn : n < 16) : IsHexDigit (Nat.digitChar n) n := ⟨hn, Or.inl rfl⟩

theorem escapes_flatMap_escapeByte (bytes : Bytes) : Escapes (bytes.flatMap escapeByte) bytes := by
  induction bytes with
  | nil => exact .nil
  | cons b bytes ih =>
    have hb := b.toNat_lt
    have h := Escapes.cons (isHexDigit_digitChar (n := b.toNat / 16) (by omega))
      (isHexDigit_digitChar (n := b.toNat % 16) (by omega)) ih
    rw [byte_eq] at h
    exact h

theorem decode_encode (s : Text) : (encode s).decode = .ok s :=
  decode_eq_ok_iff.mpr (escapes_flatMap_escapeByte _)

theorem decode_eq_ok_iff_lowerHex {s : Literal} :
    s.decode = .ok t ↔ lowerHex s.encoded = (encode t).encoded :=
  decode_eq_ok_iff.trans escapes_iff

/-- Decoding undoes encoding and accepts just the escapes of UTF-8 bytes. The encoded forms of a text
differ from one another in the case of their hex digits alone. -/
theorem decode_exact_up_to_case :
    (∀ s, (encode s).decode = .ok s) ∧
    (∀ (l : Literal) t, l.decode = .ok t ↔ Escapes l.encoded (encodeUtf8 t)) ∧
    ∀ (l : Literal) t, l.decode = .ok t →
      (encode t).encoded = lowerHex l.encoded ∧
        ∀ m : Literal, m.decode = .ok t ↔ lowerHex m.encoded = lowerHex l.encoded := by
  refine ⟨decode_encode, fun _ _ => decode_eq_ok_iff, ?_⟩
  intro s t h
  rw [decode_eq_ok_iff_lowerHex] at h
  refine ⟨h.symm, ?_⟩
  intro r
  rw [decode_eq_ok_iff_lowerHex, h]

/-- Two forms of one letter: upper and lower case change places. -/
theorem decode_exact_up_to_case_mixed :
    let s : Literal := ⟨['\\', 'x', 'C', '3', '\\', 'x', 'a', '9']⟩
    let r : Literal := ⟨['\\', 'x', 'c', '3', '\\', 'x', 'A', '9']⟩
    s.decode = .ok ['é'] ∧ r.decode = .ok ['é'] ∧
      (encode ['é']).encoded = ['\\', 'x', 'c', '3', '\\', 'x', 'a', '9'] := by
  intro s r
  obtain ⟨-, haccepts, hforms⟩ := decode_exact_up_to_case
  have hs : s.decode = .ok ['é'] :=
    (haccepts s _).mpr (.cons (j := 12) (k := 3) (by decide) (by decide)
      (.cons (j := 10) (k := 9) (by decide) (by decide) .nil))
  obtain ⟨hencode, hsame⟩ := hforms s _ hs
  exact ⟨hs, (hsame r).mpr (by decide), hencode⟩

end Stencil.Literal
