import Stencil.Segment

/-!
The scanner cuts a template into segments from left to right. Delimiters match at the first place
where they can, also inside quotes of the code; nothing escapes them.
-/
namespace Stencil

structure Scanner where
  delimiters : Delimiters
  valid : delimiters.Valid
  /-- What has not been read. -/
  rest : Text
  /-- The number of characters read. -/
  offset : Nat
  finished : Bool

namespace Scanner

def ofText (d : Delimiters) (source : Text) : Except CompileError Scanner := do
  let ⟨d, h⟩ ← d.validate
  return ⟨d, h, source, 0, false⟩

def finish (s : Scanner) : Scanner := { s with finished := true }

/-- Goes on to `rest` and counts the characters before it. -/
def pass (s : Scanner) (rest : Text) : Scanner :=
  { s with rest := rest, offset := s.offset + (s.rest.length - rest.length) }

/-- The next segment, or why there is none; nothing at the end and after a failure. -/
def next (s : Scanner) : Option (Except CompileError Segment) × Scanner :=
  if s.finished ∨ s.rest = [] then (none, s.finish)
  else
    match s.rest.dropPrefix? s.delimiters.start with
    | none =>
      let (content, rest) := s.rest.breakAt s.delimiters.start
      (some (.ok (.text content)), s.pass rest)
    | some body =>
      match Segment.readRegion? s.delimiters body with
      | some (segment, rest) => (some (.ok segment), s.pass rest)
      | none =>
        (some (.error (.unterminated s.delimiters.start s.delimiters.stop s.offset)), s.finish)

/-- One more than the characters left to read, until the scanner has finished. -/
def left (s : Scanner) : Nat := if s.finished then 0 else s.rest.length + 1

end Scanner

theorem Text.breakAtFrom_shorter {d s : Text} (before : Text) (hs : s ≠ [])
    (h : s.dropPrefix? d = none) : (Text.breakAtFrom d before s).2.length < s.length := by
  cases s with
  | nil => exact absurd rfl hs
  | cons c s =>
    have hd : d.isPrefixOf (c :: s) = false := by
      rw [Bool.eq_false_iff]
      intro hp
      obtain ⟨t, ht⟩ := List.isPrefixOf_iff_prefix.1 hp
      rw [Text.dropPrefix?_eq_some.2 ht.symm] at h
      cases h
    simp only [Text.breakAtFrom, hd, List.length_cons]
    have := congrArg List.length (Text.breakAtFrom_append d (c :: before) s)
    simp only [List.length_append, List.length_reverse, List.length_cons] at this
    have hb : before.length + 1 ≤ (Text.breakAtFrom d (c :: before) s).1.length := by
      clear this hd h hs
      induction s generalizing c before with
      | nil => simp [Text.breakAtFrom]
      | cons e s ih =>
        simp only [Text.breakAtFrom]
        split
        · simp
        · exact Nat.le_trans (by simp) (ih (c :: before) e)
    simp
    omega

theorem Segment.readCode?_shorter {d : Delimiters} {make : Text → Segment} {s rest : Text}
    {segment : Segment} (h : Segment.readCode? d make s = some (segment, rest)) :
    rest.length ≤ s.length := by
  simp only [Segment.readCode?, Option.map_eq_some_iff] at h
  obtain ⟨t, ht, he⟩ := h
  cases he
  have h1 := congrArg List.length (Text.dropPrefix?_eq_some.1 ht)
  have h2 := congrArg List.length (Text.breakAt_append s d.stop)
  simp at h1 h2
  omega

theorem Segment.readRegion?_shorter {d : Delimiters} {s rest : Text} {segment : Segment}
    (h : Segment.readRegion? d s = some (segment, rest)) : rest.length ≤ s.length := by
  cases s with
  | nil => cases h
  | cons c s =>
    simp only [Segment.readRegion?] at h
    split at h
    · exact Nat.le_succ_of_le (Segment.readCode?_shorter h)
    · exact Segment.readCode?_shorter h

namespace Scanner

theorem left_next_lt {s : Scanner} {item : Except CompileError Segment} {t : Scanner}
    (h : s.next = (some item, t)) : t.left < s.left := by
  unfold next at h
  split at h
  · cases h
  · rename_i hs
    obtain ⟨hf, hr⟩ := not_or.1 hs
    split at h
    · rename_i hd
      cases h
      have := Text.breakAtFrom_shorter [] hr hd
      simp [left, pass, hf, this]
    · rename_i body hd
      have hl := congrArg List.length (Text.dropPrefix?_eq_some.1 hd)
      have hp := List.length_pos_iff.2 s.valid.1
      simp only [List.length_append] at hl
      split at h
      · rename_i hg
        cases h
        have := Segment.readRegion?_shorter hg
        simp [left, pass, hf]
        omega
      · cases h
        simp [left, finish, hf]

/-- All items still to come; only the last can be a failure. -/
def items (s : Scanner) : List (Except CompileError Segment) :=
  match _h : s.next with
  | (none, _) => []
  | (some item, t) => item :: items t
termination_by s.left
decreasing_by exact left_next_lt _h

end Scanner

/-- The segments of a template; a region without end fails the whole. -/
def scan (d : Delimiters) (source : Text) : Except CompileError (List Segment) := do
  (← Scanner.ofText d source).items.mapM id

end Stencil
