import Stencil.Text.Utf8

/-! Reading UTF-8 accepts exactly the UTF-8 forms of texts, and each of them as its text. -/
namespace Stencil.Text

variable {s t : Text} {c : Char} {bytes rest : Bytes}

/-- Four bytes are enough to tell a character, whatever follows it. -/
theorem firstChar?_utf8EncodeChar (c : Char) (rest : Bytes) :
    firstChar? (String.utf8EncodeChar c ++ rest) = some c := by
  have hlen : (String.utf8EncodeChar c).length ≤ 4 := by
    rw [String.length_utf8EncodeChar]
    exact c.utf8Size_le_four
  rw [firstChar?, List.take_append, List.take_of_length_le hlen, List.toByteArray_append]
  exact ByteArray.utf8DecodeChar?_utf8EncodeChar_append

theorem firstChar?_eq_some_iff :
    firstChar? bytes = some c ↔ ∃ rest, bytes = String.utf8EncodeChar c ++ rest := by
  constructor
  · intro h
    obtain ⟨l, hl⟩ := ByteArray.exists_of_utf8DecodeChar?_eq_some h
    have htake : bytes.take 4 = String.utf8EncodeChar c ++ l.data.toList := by
      simpa using congrArg (fun b => b.data.toList) hl
    refine ⟨l.data.toList ++ bytes.drop 4, ?_⟩
    rw [← List.append_assoc, ← htake, List.take_append_drop]
  · rintro ⟨rest, rfl⟩
    exact firstChar?_utf8EncodeChar c rest

/-- A text whose form begins with that of a character begins with the character. -/
theorem encodeUtf8_eq_utf8EncodeChar_append
    (h : encodeUtf8 s = String.utf8EncodeChar c ++ rest) :
    ∃ t, s = c :: t ∧ encodeUtf8 t = rest := by
  have hc := firstChar?_eq_some_iff.mpr ⟨rest, h⟩
  cases s with
  | nil => cases hc
  | cons a t =>
    have ha : firstChar? (encodeUtf8 (a :: t)) = some a := firstChar?_utf8EncodeChar a _
    obtain rfl : a = c := Option.some.inj (ha.symm.trans hc)
    exact ⟨t, rfl, List.append_cancel_left h⟩

theorem decodeUtf8From_utf8EncodeChar (before : Text) (i : Nat) (c : Char) (rest : Bytes) :
    decodeUtf8From before i (String.utf8EncodeChar c ++ rest) =
      decodeUtf8From (c :: before) (i + c.utf8Size) rest := by
  have hfirst := firstChar?_utf8EncodeChar c rest
  have hlen := String.length_utf8EncodeChar c
  have hpos := c.utf8Size_pos
  cases he : String.utf8EncodeChar c with
  | nil => simp [he, ← hlen] at hpos
  | cons b bytes =>
    rw [he] at hfirst hlen
    rw [List.cons_append] at hfirst ⊢
    have hdrop : (bytes ++ rest).drop (c.utf8Size - 1) = rest := by
      rw [← hlen]
      simp
    rw [decodeUtf8From]
    simp only [hfirst, hdrop]

theorem decodeUtf8From_encodeUtf8 (before : Text) (i : Nat) (s : Text) :
    decodeUtf8From before i (encodeUtf8 s) = .ok (before.reverse ++ s) := by
  induction s generalizing before i with
  | nil => simp [encodeUtf8, decodeUtf8From]
  | cons c s ih =>
    rw [encodeUtf8, List.flatMap_cons, decodeUtf8From_utf8EncodeChar, ← encodeUtf8, ih]
    simp

theorem decodeUtf8_encodeUtf8 (s : Text) : decodeUtf8 (encodeUtf8 s) = .ok s :=
  decodeUtf8From_encodeUtf8 [] 0 s

theorem encodeUtf8_injective (h : encodeUtf8 s = encodeUtf8 t) : s = t := by
  have hs := decodeUtf8_encodeUtf8 s
  rw [h, decodeUtf8_encodeUtf8] at hs
  cases hs
  rfl

theorem eq_encodeUtf8_of_decodeUtf8From {before t : Text} {i : Nat} {bytes : Bytes}
    (h : decodeUtf8From before i bytes = .ok t) :
    ∃ s, t = before.reverse ++ s ∧ bytes = encodeUtf8 s := by
  cases bytes with
  | nil =>
    rw [decodeUtf8From] at h
    cases h
    exact ⟨[], (List.append_nil _).symm, rfl⟩
  | cons b bytes =>
    cases hf : firstChar? (b :: bytes) with
    | none => simp [decodeUtf8From, hf] at h
    | some c =>
      obtain ⟨rest, hrest⟩ := firstChar?_eq_some_iff.mp hf
      have hshorter : rest.length < (b :: bytes).length := by
        rw [hrest, List.length_append, String.length_utf8EncodeChar]
        have := c.utf8Size_pos
        omega
      rw [hrest, decodeUtf8From_utf8EncodeChar] at h
      obtain ⟨s, rfl, rfl⟩ := eq_encodeUtf8_of_decodeUtf8From h
      exact ⟨c :: s, by simp, hrest⟩
termination_by bytes.length

theorem decodeUtf8_eq_ok_iff : decodeUtf8 bytes = .ok t ↔ bytes = encodeUtf8 t := by
  constructor
  · intro h
    obtain ⟨s, rfl, hs⟩ := eq_encodeUtf8_of_decodeUtf8From h
    exact hs
  · rintro rfl
    exact decodeUtf8_encodeUtf8 t

end Stencil.Text
