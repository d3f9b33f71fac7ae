/-! Sets of eval markers. Each set is its ascending list, so equal sets are equal values. -/
namespace Stencil

structure Markers where
  toList : List Char
  ascending : toList.Pairwise (· < ·)
  deriving DecidableEq

namespace Markers

def insertInto (c : Char) : List Char → List Char
  | [] => [c]
  | d :: s => if c < d then c :: d :: s else if c = d then d :: s else d :: insertInto c s

theorem mem_insertInto {a c : Char} {s : List Char} : a ∈ insertInto c s ↔ a = c ∨ a ∈ s := by
  induction s with
  | nil => simp [insertInto]
  | cons d s ih =>
    simp only [insertInto]
    split
    · simp
    · split
      · subst c
        simp
      · simp [ih, or_left_comm]

theorem insertInto_ascending {c : Char} {s : List Char} (h : s.Pairwise (· < ·)) :
    (insertInto c s).Pairwise (· < ·) := by
  induction s with
  | nil => simp [insertInto]
  | cons d s ih =>
    obtain ⟨hd, hs⟩ := List.pairwise_cons.1 h
    simp only [insertInto]
    split
    · rename_i hc
      refine List.pairwise_cons.2 ⟨fun a ha => ?_, h⟩
      rcases List.mem_cons.1 ha with rfl | ha
      · exact hc
      · exact Char.lt_trans hc (hd a ha)
    · split
      · exact h
      · rename_i hc hne
        refine List.pairwise_cons.2 ⟨fun a ha => ?_, ih hs⟩
        rcases mem_insertInto.1 ha with rfl | ha
        · exact Std.lt_of_le_of_ne (Char.not_lt.1 hc) (Ne.symm hne)
        · exact hd a ha

def empty : Markers := ⟨[], .nil⟩

def insert (m : Markers) (c : Char) : Markers :=
  ⟨insertInto c m.toList, insertInto_ascending m.ascending⟩

/-- The set of the characters of a list, which may repeat. -/
def ofList (s : List Char) : Markers := s.foldr (fun c m => m.insert c) empty

instance : Membership Char Markers := ⟨fun m c => c ∈ m.toList⟩

instance (c : Char) (m : Markers) : Decidable (c ∈ m) := inferInstanceAs (Decidable (c ∈ m.toList))

theorem mem_insert {a c : Char} {m : Markers} : a ∈ m.insert c ↔ a = c ∨ a ∈ m := mem_insertInto

theorem mem_ofList {a : Char} {s : List Char} : a ∈ ofList s ↔ a ∈ s := by
  induction s with
  | nil => exact Iff.rfl
  | cons c s ih => exact mem_insert.trans ((or_congr_right ih).trans List.mem_cons.symm)

theorem insertInto_of_forall_lt {c : Char} {s : List Char} (h : ∀ d ∈ s, c < d) :
    insertInto c s = c :: s := by
  cases s with
  | nil => rfl
  | cons d s => exact if_pos (h d List.mem_cons_self)

theorem toList_ofList {s : List Char} (h : s.Pairwise (· < ·)) : (ofList s).toList = s := by
  induction s with
  | nil => rfl
  | cons c s ih =>
    obtain ⟨hc, hs⟩ := List.pairwise_cons.1 h
    exact (congrArg (insertInto c) (ih hs)).trans (insertInto_of_forall_lt hc)

theorem ofList_toList (m : Markers) : ofList m.toList = m :=
  (mk.injEq ..).mpr (toList_ofList m.ascending)

end Markers

end Stencil
