import Stencil.Text

/-! First occurrences of a delimiter. Overlaps count: one may begin in a text and end beyond it. -/
namespace Stencil.Text

variable {c : Char} {d s t r : Text}

/-- No occurrence of `d` in `t ++ s` begins inside `t`. -/
def Clear (d t s : Text) : Prop := ∀ i < t.length, ¬ d <+: (t ++ s).drop i

instance (d t s : Text) : Decidable (Clear d t s) :=
  inferInstanceAs (Decidable (∀ i < t.length, ¬ d <+: (t ++ s).drop i))

theorem clear_nil : Clear d [] s := by
  intro i hi
  cases hi

theorem clear_cons : Clear d (c :: t) s ↔ ¬ d <+: c :: (t ++ s) ∧ Clear d t s := by
  constructor
  · intro h
    exact ⟨h 0 (Nat.succ_pos _), fun i hi => h (i + 1) (Nat.succ_lt_succ hi)⟩
  · rintro ⟨hc, ht⟩ i hi
    cases i with
    | zero => exact hc
    | succ i => exact ht i (Nat.lt_of_succ_lt_succ hi)

theorem clear_append : Clear d (t ++ r) s ↔ Clear d t (r ++ s) ∧ Clear d r s := by
  induction t with
  | nil => exact (and_iff_right clear_nil).symm
  | cons c t ih => rw [List.cons_append, clear_cons, clear_cons, ih, List.append_assoc, and_assoc]

theorem prefix_append_iff (h : d.length ≤ s.length) : d <+: s ++ r ↔ d <+: s :=
  ⟨fun hd => List.prefix_of_prefix_length_le hd (List.prefix_append s r) h,
    fun hd => hd.trans (List.prefix_append s r)⟩

/-- Before an occurrence of `d` itself, what follows that occurrence does not matter. -/
theorem clear_append_iff : Clear d t (d ++ r) ↔ Clear d t d := by
  refine forall₂_congr fun i hi => not_congr ?_
  have hlen : d.length ≤ ((t ++ d).drop i).length := by
    simp only [List.length_drop, List.length_append]
    omega
  rw [← List.append_assoc, List.drop_append_of_le_length (by simp; omega), prefix_append_iff hlen]

theorem breakAtFrom_eq (d before s : Text) :
    breakAtFrom d before s = (before.reverse ++ (s.breakAt d).1, (s.breakAt d).2) := by
  induction s generalizing before with
  | nil => simp [breakAt, breakAtFrom]
  | cons c s ih =>
    simp only [breakAt, breakAtFrom]
    split
    · simp
    · rw [ih, ih [c]]
      simp

theorem breakAt_here (h : d <+: c :: s) : breakAt (c :: s) d = ([], c :: s) := by
  simp [breakAt, breakAtFrom, List.isPrefixOf_iff_prefix.mpr h]

theorem breakAt_later (h : ¬ d <+: c :: s) :
    breakAt (c :: s) d = (c :: (s.breakAt d).1, (s.breakAt d).2) := by
  have hd : d.isPrefixOf (c :: s) = false := by
    rw [Bool.eq_false_iff, ne_eq, List.isPrefixOf_iff_prefix]
    exact h
  rw [breakAt, breakAtFrom, if_neg (by simp [hd]), breakAtFrom_eq]
  rfl

/-- A text is cut where the first occurrence begins, or not at all. -/
theorem breakAt_clear (s d : Text) :
    Clear d (s.breakAt d).1 (s.breakAt d).2 ∧ ((s.breakAt d).2 = [] ∨ d <+: (s.breakAt d).2) := by
  induction s with
  | nil => exact ⟨clear_nil, Or.inl rfl⟩
  | cons c s ih =>
    by_cases h : d <+: c :: s
    · rw [breakAt_here h]
      exact ⟨clear_nil, Or.inr h⟩
    · rw [breakAt_later h]
      refine ⟨clear_cons.mpr ⟨?_, ih.1⟩, ih.2⟩
      rw [breakAt_append]
      exact h

theorem breakAt_append_of_clear (ht : Clear d t r) (hr : r = [] ∨ d <+: r) :
    breakAt (t ++ r) d = (t, r) := by
  induction t with
  | nil =>
    cases r with
    | nil => rfl
    | cons c r =>
      obtain hr | hr := hr
      · cases hr
      · exact breakAt_here hr
  | cons c t ih =>
    obtain ⟨hc, ht⟩ := clear_cons.mp ht
    rw [List.cons_append, breakAt_later hc, ih ht]

theorem breakAt_eq_iff :
    s.breakAt d = (t, r) ↔ s = t ++ r ∧ Clear d t r ∧ (r = [] ∨ d <+: r) := by
  constructor
  · intro h
    have hs := breakAt_append s d
    have hc := breakAt_clear s d
    rw [h] at hs hc
    exact ⟨hs.symm, hc⟩
  · rintro ⟨rfl, ht, hr⟩
    exact breakAt_append_of_clear ht hr

theorem not_infix_iff_clear (hd : d ≠ []) : ¬ d <:+: s ↔ Clear d s [] := by
  rw [List.infix_iff_prefix_suffix]
  constructor
  · intro h i _ hp
    rw [List.append_nil] at hp
    exact h ⟨_, hp, List.drop_suffix i s⟩
  · rintro h ⟨u, hp, b, rfl⟩
    have hu : u ≠ [] := by
      rintro rfl
      exact hd (List.prefix_nil.mp hp)
    refine h b.length ?_ ?_
    · have := List.length_pos_iff.mpr hu
      rw [List.length_append]
      omega
    · simpa using hp

/-- What follows the first occurrence of `d` is found unless `d` occurs nowhere. -/
theorem dropPrefix?_breakAt_eq_none_iff (hd : d ≠ []) :
    (s.breakAt d).2.dropPrefix? d = none ↔ ¬ d <:+: s := by
  have hs := breakAt_append s d
  obtain ⟨hc, hr | hr⟩ := breakAt_clear s d
  · rw [hr, List.append_nil] at hs
    rw [hr, hs] at hc
    rw [hr, not_infix_iff_clear hd]
    refine iff_of_true ?_ hc
    cases d with
    | nil => exact (hd rfl).elim
    | cons p ps => rfl
  · obtain ⟨u, hu⟩ := hr
    rw [dropPrefix?_eq_some.mpr hu.symm]
    refine iff_of_false (Option.some_ne_none u) (not_not_intro ?_)
    exact ⟨(s.breakAt d).1, u, by rw [List.append_assoc, hu, hs]⟩

end Stencil.Text
