import Mathlib.Logic.Basic
import Stencil.Proofs.Literal.Grammar

/-!
What is reported about a corrupt literal. Its bytes are taken in groups of four, and the first group
that is no escape decides the error.
-/
namespace Stencil.Literal

open LiteralError (latin1)
open Text (Bytes encodeUtf8)

variable {input before bytes group : Bytes} {good more : List Bytes} {a x b : UInt8}
  {e : LiteralError} {i : Nat}

/-- Reads escapes from position `i` on, where each byte is asked for when it is needed; none if a
byte is asked for that is not there. -/
def readFrom? (input before : Bytes) (i : Nat) : Option (Except LiteralError Bytes) :=
  if i < input.length then do
    let a ← input[i]?
    if a ≠ 0x5c ∨ input[i + 1]? ≠ some 0x78 then return .error (.badEscape i)
    else if input.length < i + 4 then return .error (.truncated i)
    else
      let h ← input[i + 2]?
      match hexValue h (i + 2) with
      | .error e => return .error e
      | .ok high =>
        let l ← input[i + 3]?
        match hexValue l (i + 3) with
        | .error e => return .error e
        | .ok low => readFrom? input ((high * 16 + low) :: before) (i + 4)
  else return .ok before.reverse
termination_by input.length - i

/-- Groups of four bytes from the left; the last one may be shorter. -/
def groups : Bytes → List Bytes
  | a :: x :: h :: l :: rest => [a, x, h, l] :: groups rest
  | [] => []
  | short => [short]

/-- The byte of a hex digit of either case. -/
def IsHexByte (b : UInt8) : Prop := latin1 b ∈ "0123456789abcdefABCDEF".toList

instance (b : UInt8) : Decidable (IsHexByte b) := inferInstanceAs (Decidable (_ ∈ _))

/-- A backslash, an `x` and two hex digits. -/
inductive IsEscape : Bytes → Prop
  | intro {h l : UInt8} : IsHexByte h → IsHexByte l → IsEscape [0x5c, 0x78, h, l]

/-- What is wrong with a group that stands at position `i`. -/
inductive Defect (i : Nat) : Bytes → LiteralError → Prop
  | noBackslash {a : UInt8} {group : Bytes} : a ≠ 0x5c → Defect i (a :: group) (.badEscape i)
  | noX {group : Bytes} : group.head? ≠ some 0x78 → Defect i (0x5c :: group) (.badEscape i)
  | truncated {group : Bytes} : group.length < 2 →
    Defect i (0x5c :: 0x78 :: group) (.truncated i)
  | highDigit {h l : UInt8} : ¬ IsHexByte h →
    Defect i [0x5c, 0x78, h, l] (.badHexDigit h (i + 2))
  | lowDigit {h l : UInt8} : IsHexByte h → ¬ IsHexByte l →
    Defect i [0x5c, 0x78, h, l] (.badHexDigit l (i + 3))

theorem hexValue?_isSome_ofNat : ∀ k < 256,
    (hexValue? (UInt8.ofNat k)).isSome ↔ IsHexByte (UInt8.ofNat k) := by decide +kernel

theorem hexValue?_isSome : (hexValue? b).isSome ↔ IsHexByte b := by
  have hb := hexValue?_isSome_ofNat b.toNat b.toNat_lt
  rwa [UInt8.ofNat_toNat] at hb

theorem IsHexByte.hexValue (hb : IsHexByte b) : ∃ v, ∀ i, hexValue b i = .ok v := by
  obtain ⟨v, hv⟩ := Option.isSome_iff_exists.mp (hexValue?_isSome.mpr hb)
  refine ⟨v, ?_⟩
  intro i
  rw [Literal.hexValue, hv]

theorem hexValue_of_not_isHexByte (hb : ¬ IsHexByte b) (i : Nat) :
    hexValue b i = .error (.badHexDigit b i) := by
  have hv : hexValue? b = none := Option.not_isSome_iff_eq_none.mp (mt hexValue?_isSome.mp hb)
  rw [hexValue, hv]

theorem readEscapes_badEscape (hax : ¬ (a = 0x5c ∧ x = 0x78)) (rest : Bytes) :
    readEscapes before i (a :: x :: rest) = .error (.badEscape i) := by
  rcases rest with _ | ⟨h, _ | ⟨l, rest⟩⟩ <;> simp [readEscapes, hax]

/-- No byte is asked for behind the end, so reading by position is reading the list. -/
theorem readFrom?_eq (input before : Bytes) (i : Nat) :
    readFrom? input before i = some (readEscapes before i (input.drop i)) := by
  have hbyte (k : Nat) : input[i + k]? = (input.drop i)[k]? := List.getElem?_drop.symm
  have hfirst : input[i]? = (input.drop i)[0]? := hbyte 0
  have hlen := List.length_drop (i := i) (l := input)
  rw [readFrom?]
  by_cases hi : i < input.length
  · simp only [if_pos hi, hfirst, hbyte]
    rcases hd : input.drop i with _ | ⟨a, _ | ⟨x, rest⟩⟩ <;>
      simp only [hd, List.length_cons, List.length_nil] at hlen
    · omega
    · simp [readEscapes]
    · by_cases hax : a = 0x5c ∧ x = 0x78
      · rcases rest with _ | ⟨h, _ | ⟨l, rest⟩⟩ <;>
          simp only [List.length_cons, List.length_nil] at hlen
        · have hshort : input.length < i + 4 := by omega
          simp [readEscapes, hax, hshort]
        · have hshort : input.length < i + 4 := by omega
          simp [readEscapes, hax, hshort]
        · have hlong : ¬ input.length < i + 4 := by omega
          have hrest : input.drop (i + 4) = rest := by
            rw [← List.drop_drop, hd]
            rfl
          rcases hh : hexValue h (i + 2) with e | high
          · simp [readEscapes, hax, hlong, hh]
          · rcases hl : hexValue l (i + 3) with e | low
            · simp [readEscapes, hax, hlong, hh, hl]
            · have ih := readFrom?_eq input ((high * 16 + low) :: before) (i + 4)
              simp [readEscapes, hax, hlong, hh, hl, ih, hrest]
      · simp [readEscapes_badEscape hax, not_and_or.mp hax]
  · rw [if_neg hi, List.drop_eq_nil_of_le (Nat.not_lt.mp hi)]
    rfl
termination_by input.length - i

theorem isEscape_or_defect (hne : group ≠ []) (hlen : group.length ≤ 4) (i : Nat) :
    IsEscape group ∨ ∃ e, Defect i group e := by
  obtain ⟨a, group, rfl⟩ := List.exists_cons_of_ne_nil hne
  by_cases ha : a = 0x5c
  · subst ha
    by_cases hx : group.head? = some 0x78
    · obtain ⟨group, rfl⟩ := List.head?_eq_some_iff.mp hx
      rcases group with _ | ⟨h, _ | ⟨l, _ | ⟨b, group⟩⟩⟩
      · exact Or.inr ⟨_, .truncated (by decide)⟩
      · exact Or.inr ⟨_, .truncated (by simp)⟩
      · by_cases hh : IsHexByte h
        · by_cases hl : IsHexByte l
          · exact Or.inl ⟨hh, hl⟩
          · exact Or.inr ⟨_, .lowDigit hh hl⟩
        · exact Or.inr ⟨_, .highDigit hh⟩
      · simp only [List.length_cons] at hlen
        omega
    · exact Or.inr ⟨_, .noX hx⟩
  · exact Or.inr ⟨_, .noBackslash ha⟩

theorem flatten_groups (input : Bytes) : (groups input).flatten = input := by
  fun_induction groups input with
  | case1 a x h l rest ih => simp [ih]
  | case2 => rfl
  | case3 short => simp

theorem ne_nil_and_length_le_of_mem_groups (h : group ∈ groups input) :
    group ≠ [] ∧ group.length ≤ 4 := by
  fun_induction groups input with
  | case1 a x h l rest ih =>
    obtain rfl | h := List.mem_cons.mp h
    · simp
    · exact ih h
  | case2 => cases h
  | case3 short hlong hne =>
    obtain rfl := List.mem_singleton.mp h
    refine ⟨hne, Nat.le_of_not_gt fun hlen => ?_⟩
    rcases group with _ | ⟨a, _ | ⟨x, _ | ⟨h', _ | ⟨l, rest⟩⟩⟩⟩ <;>
      simp only [List.length_cons, List.length_nil] at hlen
    · omega
    · omega
    · omega
    · omega
    · exact hlong a x h' l rest rfl

theorem group_eq_take (h : groups input = group :: more) : group = input.take 4 := by
  rcases input with _ | ⟨a, _ | ⟨x, _ | ⟨h', _ | ⟨l, rest⟩⟩⟩⟩ <;> cases h <;> rfl

/-- A group that is an escape is read as one byte. -/
theorem readEscapes_group (h : groups input = group :: more) (hg : IsEscape group) :
    ∃ b rest, groups rest = more ∧
      ∀ before i, readEscapes before i input = readEscapes (b :: before) (i + 4) rest := by
  obtain ⟨hh, hl⟩ := hg
  obtain ⟨high, hhigh⟩ := hh.hexValue
  obtain ⟨low, hlow⟩ := hl.hexValue
  rcases input with _ | ⟨a, _ | ⟨x, _ | ⟨h, _ | ⟨l, rest⟩⟩⟩⟩ <;> cases h
  exact ⟨high * 16 + low, rest, rfl, fun before i => by simp [readEscapes, hhigh, hlow]⟩

/-- Groups that are escapes are read one after the other. -/
theorem readEscapes_groups (h : groups input = good ++ more) (hgood : ∀ g ∈ good, IsEscape g)
    (before : Bytes) (i : Nat) :
    ∃ read rest, groups rest = more ∧
      readEscapes before i input = readEscapes read (i + 4 * good.length) rest := by
  induction good generalizing input before i with
  | nil => exact ⟨before, input, h, rfl⟩
  | cons g good ih =>
    obtain ⟨hg, hgood⟩ := List.forall_mem_cons.mp hgood
    obtain ⟨b, middle, hmiddle, hstep⟩ := readEscapes_group h hg
    obtain ⟨read, rest, hrest, hrun⟩ := ih hmiddle hgood (b :: before) (i + 4)
    refine ⟨read, rest, hrest, ?_⟩
    rw [hstep, hrun, List.length_cons]
    congr 1
    omega

theorem readEscapes_defect (h : groups input = group :: more) (hg : Defect i group e)
    (before : Bytes) : readEscapes before i input = .error e := by
  rcases input with _ | ⟨a, _ | ⟨x, rest⟩⟩
  · cases h
  · cases h
    cases hg <;> rfl
  · have hgroup : group = a :: x :: rest.take 2 := group_eq_take h
    generalize htail : rest.take 2 = tail at hgroup
    subst hgroup
    cases hg with
    | noBackslash ha => exact readEscapes_badEscape (fun hax => ha hax.1) rest
    | noX hx => exact readEscapes_badEscape (fun hax => hx (congrArg some hax.2)) rest
    | truncated hlen =>
      rcases rest with _ | ⟨h', _ | ⟨l, rest⟩⟩
      · simp [readEscapes]
      · simp [readEscapes]
      · cases htail
        exact (Nat.lt_irrefl 2 hlen).elim
    | highDigit hh =>
      rcases rest with _ | ⟨h', _ | ⟨l, rest⟩⟩ <;> cases htail
      simp [readEscapes, hexValue_of_not_isHexByte hh]
    | lowDigit hh hl =>
      rcases rest with _ | ⟨h', _ | ⟨l, rest⟩⟩ <;> cases htail
      obtain ⟨high, hhigh⟩ := hh.hexValue
      simp [readEscapes, hhigh, hexValue_of_not_isHexByte hl]

/-- The error is that of the first group that is no escape. -/
theorem readEscapes_of_first_defect (h : groups input = good ++ group :: more)
    (hgood : ∀ g ∈ good, IsEscape g) (hgroup : Defect (4 * good.length) group e) :
    readEscapes [] 0 input = .error e := by
  obtain ⟨read, rest, hrest, hrun⟩ := readEscapes_groups h hgood [] 0
  rw [hrun, Nat.zero_add]
  exact readEscapes_defect hrest hgroup read

theorem readEscapes_of_all_escapes (h : ∀ g ∈ groups input, IsEscape g) :
    ∃ bytes, readEscapes [] 0 input = .ok bytes := by
  obtain ⟨read, rest, hrest, hrun⟩ := readEscapes_groups (List.append_nil _).symm h [] 0
  have hnil : rest = [] := by rw [← flatten_groups rest, hrest]; rfl
  rw [hrun, hnil]
  exact ⟨read.reverse, rfl⟩

theorem decode_of_readEscapes_error {s : Literal}
    (h : readEscapes [] 0 (encodeUtf8 s.encoded) = .error e) : s.decode = .error e := by
  rw [decode, h]
  rfl

theorem decode_of_readEscapes_ok {s : Literal}
    (h : readEscapes [] 0 (encodeUtf8 s.encoded) = .ok bytes) :
    (∃ t, bytes = encodeUtf8 t ∧ s.decode = .ok t) ∨
      (∀ t, bytes ≠ encodeUtf8 t) ∧ ∃ fault, s.decode = .error (.utf8 fault) := by
  have hdecode : s.decode = (Text.decodeUtf8 bytes).mapError .utf8 := by
    rw [decode, h]
    rfl
  rw [hdecode]
  cases hutf8 : Text.decodeUtf8 bytes with
  | ok t => exact Or.inl ⟨t, Text.decodeUtf8_eq_ok_iff.mp hutf8, rfl⟩
  | error fault =>
    refine Or.inr ⟨?_, fault, rfl⟩
    rintro t rfl
    rw [Text.decodeUtf8_encodeUtf8] at hutf8
    cases hutf8

theorem length_flatten_escapes (h : ∀ g ∈ good, IsEscape g) :
    good.flatten.length = 4 * good.length := by
  induction good with
  | nil => rfl
  | cons g good ih =>
    obtain ⟨⟨-, -⟩, hgood⟩ := List.forall_mem_cons.mp h
    rw [List.flatten_cons, List.length_append, ih hgood, List.length_cons]
    simp
    omega

/-- A group stands where the groups before it end. -/
theorem group_prefix_drop (h : groups input = good ++ group :: more)
    (hgood : ∀ g ∈ good, IsEscape g) : group <+: input.drop (4 * good.length) := by
  refine ⟨more.flatten, ?_⟩
  rw [← flatten_groups input, h, List.flatten_append, List.flatten_cons,
    ← length_flatten_escapes hgood, List.drop_left]

theorem toNat_latin1 (b : UInt8) : (latin1 b).toNat = b.toNat := by
  have hb := b.toNat_lt
  rw [latin1, Char.ofNat, dif_pos (Or.inl (by omega))]
  rfl

/-- Decoding asks for no byte behind the end. A malformed literal is reported where its first group
that is no escape stands, by what is wrong with that group, and a literal of escapes fails just for
bytes that are not UTF-8. -/
theorem decode_diagnosis (s : Literal) :
    let input := encodeUtf8 s.encoded
    (∃ read, readFrom? input [] 0 = some read ∧
      s.decode = read.bind fun bytes => (Text.decodeUtf8 bytes).mapError .utf8) ∧
    (∀ good group more, groups input = good ++ group :: more → (∀ g ∈ good, IsEscape g) →
      ¬ IsEscape group → group <+: input.drop (4 * good.length) ∧
        (∃ e, s.decode = .error e) ∧ ∀ e, s.decode = .error e ↔ Defect (4 * good.length) group e) ∧
    ((∀ g ∈ groups input, IsEscape g) →
      ∃ bytes, Escapes s.encoded bytes ∧
        ((∃ e, s.decode = .error e) ↔ ∀ t, bytes ≠ encodeUtf8 t) ∧
          ∀ e, s.decode = .error e → ∃ fault, e = .utf8 fault) ∧
    ∀ b, (latin1 b).toNat = b.toNat := by
  intro input
  refine ⟨⟨_, readFrom?_eq input [] 0, rfl⟩, ?_, ?_, toNat_latin1⟩
  · intro good group more h hgood hgroup
    obtain ⟨hne, hlen⟩ := ne_nil_and_length_le_of_mem_groups (h ▸ List.mem_append_cons_self)
    obtain ⟨e, he⟩ := (isEscape_or_defect hne hlen _).resolve_left hgroup
    have hdecode {e : LiteralError} (he : Defect (4 * good.length) group e) :
        s.decode = .error e :=
      decode_of_readEscapes_error (readEscapes_of_first_defect h hgood he)
    refine ⟨group_prefix_drop h hgood, ⟨e, hdecode he⟩, ?_⟩
    intro e'
    refine ⟨fun h' => ?_, hdecode⟩
    rw [hdecode he] at h'
    cases h'
    exact he
  · intro h
    obtain ⟨bytes, hbytes⟩ := readEscapes_of_all_escapes h
    obtain ⟨more, rfl, hescapes⟩ := escapes_of_readEscapes rfl hbytes
    refine ⟨_, hescapes, ?_⟩
    obtain ⟨t, ht, hok⟩ | ⟨hnot, fault, herror⟩ := decode_of_readEscapes_ok hbytes
    · rw [hok]
      exact ⟨iff_of_false nofun fun hnot => hnot t ht, nofun⟩
    · rw [herror]
      refine ⟨iff_of_true ⟨_, rfl⟩ hnot, ?_⟩
      rintro _ ⟨⟩
      exact ⟨fault, rfl⟩

/-- A letter that is no hex digit is met at its first byte, and is reported as what that byte is in
Latin-1; a well-formed escape can still stand for a byte that is in no text. -/
theorem decode_diagnosis_beyond_ascii :
    let s : Literal := ⟨['\\', 'x', '4', '1', '\\', 'x', '4', 'é']⟩
    let r : Literal := ⟨['\\', 'x', 'f', 'F']⟩
    s.decode = .error (.badHexDigit 0xc3 7) ∧ latin1 0xc3 = 'Ã' ∧
      ∃ fault, r.decode = .error (.utf8 fault) := by
  intro s r
  obtain ⟨-, hfirst, -⟩ := decode_diagnosis s
  obtain ⟨-, -, hall, -⟩ := decode_diagnosis r
  have hescape : ∀ g ∈ [[0x5c, 0x78, 0x34, 0x31]], IsEscape g := by
    rintro _ (_ | ⟨_, ⟨⟩⟩)
    exact ⟨by decide, by decide⟩
  have hgroup : ¬ IsEscape [0x5c, 0x78, 0x34, 0xc3] := by
    rintro ⟨-, hl⟩
    revert hl
    decide
  obtain ⟨-, -, hreported⟩ := hfirst _ _ [[0xa9]] rfl hescape hgroup
  refine ⟨(hreported _).mpr (.lowDigit (by decide) (by decide)), rfl, ?_⟩
  obtain ⟨bytes, hbytes, hfails, hutf8⟩ := hall <| by
    rintro _ (_ | ⟨_, ⟨⟩⟩)
    exact ⟨by decide, by decide⟩
  have hread : readEscapes [] 0 (encodeUtf8 r.encoded) = .ok [0xff] := rfl
  rw [readEscapes_of_escapes hbytes] at hread
  obtain ⟨e, he⟩ := hfails.mpr <| by
    rintro t rfl
    have hbyte : encodeUtf8 t = [0xff] := Except.ok.inj hread
    cases t with
    | nil => cases hbyte
    | cons c t =>
      have hc : Text.firstChar? (encodeUtf8 (c :: t)) = some c :=
        Text.firstChar?_utf8EncodeChar c _
      have hnone : Text.firstChar? [0xff] = none := by decide
      rw [hbyte, hnone] at hc
      cases hc
  obtain ⟨fault, rfl⟩ := hutf8 e he
  exact ⟨fault, he⟩

end Stencil.Literal
