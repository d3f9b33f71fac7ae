import Stencil.Json.Reader
import Stencil.Proofs.Json.Quoted

/-! What the JSON readers do at each kind of first character, apart from blanks before it. -/
namespace Stencil.Json

variable {α : Type} {n : Nat} {c : Char} {s t u v key rest : Text} {first : Bool}
  {item : Reader α} {inner : Reader Json} {nested : Option (Reader Json)}

theorem skipSpace_append {blank : Text} (hb : blank.all isSpace) (s : Text) :
    skipSpace (blank ++ s) = skipSpace s := by
  rw [skipSpace, List.dropWhile_append_of_pos (List.all_eq_true.mp hb)]
  rfl

theorem skipSpace_cons (hc : isSpace c = false) : skipSpace (c :: s) = c :: s := by
  rw [skipSpace, List.dropWhile_cons_of_neg (by simp [hc])]

theorem reads_nextItem_close (first : Bool) (hs : skipSpace s = ']' :: t) (h : s.length < n) :
    Reads (nextItem first s h) false t := by
  rw [nextItem]
  split
  · rename_i he
    cases hs.symm.trans he
  · rename_i he
    cases hs.symm.trans he
    exact ⟨_, rfl⟩
  · rename_i hne he
    cases hs.symm.trans he
    exact (hne rfl).elim

theorem reads_nextItem_first (hs : skipSpace s = c :: t) (hc : c ≠ ']') (h : s.length < n) :
    Reads (nextItem true s h) true s := by
  rw [nextItem]
  split
  · rename_i he
    cases hs.symm.trans he
  · rename_i he
    cases hs.symm.trans he
    exact (hc rfl).elim
  · exact ⟨h, rfl⟩

theorem reads_nextItem_comma (hs : skipSpace s = ',' :: t) (ht : skipSpace t = c :: u)
    (hc : c ≠ ']') (h : s.length < n) : Reads (nextItem false s h) true t := by
  rw [nextItem]
  split
  · rename_i he
    cases hs.symm.trans he
  · rename_i he
    cases hs.symm.trans he
  · rename_i he
    cases hs.symm.trans he
    simp only [Bool.false_eq_true, if_false, if_true]
    split
    · rename_i he
      cases ht.symm.trans he
    · rename_i he
      cases ht.symm.trans he
      exact (hc rfl).elim
    · exact ⟨_, rfl⟩

theorem reads_readItems_close {before : List α} (hs : skipSpace s = ']' :: t) (h : s.length < n) :
    Reads (readItems item before first s h) before.reverse t := by
  obtain ⟨hshort, hnext⟩ := reads_nextItem_close first hs (self_short s)
  rw [readItems, hnext]
  exact ⟨_, rfl⟩

theorem reads_readItems_step {before items : List α} {x : α}
    (hnext : Reads (nextItem first s (self_short s)) true t) (hitem : Reads (item t) x u)
    (hrest : ∀ {m : Nat} (h : u.length < m),
      Reads (readItems item (x :: before) false u h) items rest) (h : s.length < n) :
    Reads (readItems item before first s h) items rest := by
  obtain ⟨ht, hnext⟩ := hnext
  obtain ⟨hu, hitem⟩ := hitem
  rw [readItems, hnext]
  simp only [hitem]
  exact hrest _

theorem reads_nextKey_close (first : Bool) (hs : skipSpace s = '}' :: t) (h : s.length < n) :
    Reads (nextKey first s h) none t := by
  rw [nextKey]
  split
  · rename_i he
    cases hs.symm.trans he
  · rename_i he
    cases hs.symm.trans he
    exact ⟨_, rfl⟩
  · rename_i hne he
    cases hs.symm.trans he
    exact (hne rfl).elim

theorem reads_nextKey_first (hs : skipSpace s = '"' :: t)
    (hkey : ∀ {m : Nat} (h : t.length < m), Reads (readString t h) key rest) (h : s.length < n) :
    Reads (nextKey true s h) (some key) rest := by
  rw [nextKey]
  split
  · rename_i he
    cases hs.symm.trans he
  · rename_i he
    cases hs.symm.trans he
  · rename_i he
    cases hs.symm.trans he
    rw [if_pos rfl, if_pos rfl]
    exact (hkey _).map some

theorem reads_nextKey_comma (hs : skipSpace s = ',' :: t) (ht : skipSpace t = '"' :: u)
    (hkey : ∀ {m : Nat} (h : u.length < m), Reads (readString u h) key rest) (h : s.length < n) :
    Reads (nextKey false s h) (some key) rest := by
  rw [nextKey]
  split
  · rename_i he
    cases hs.symm.trans he
  · rename_i he
    cases hs.symm.trans he
  · rename_i he
    cases hs.symm.trans he
    rw [if_neg Bool.false_ne_true, if_pos rfl]
    split
    · rename_i he
      cases ht.symm.trans he
    · rename_i he
      cases ht.symm.trans he
      exact (hkey _).map some
    · rename_i he
      cases ht.symm.trans he
    · rename_i hne _
      exact (hne _ ht).elim

theorem reads_readColon (hs : skipSpace s = ':' :: t) (h : s.length < n) :
    Reads (readColon s h) () t := by
  rw [readColon]
  split
  · rename_i he
    cases hs.symm.trans he
  · rename_i he
    cases hs.symm.trans he
    rw [if_pos rfl]
    exact ⟨_, rfl⟩

theorem reads_readMembers_close {before : List (Text × Json)} (hs : skipSpace s = '}' :: t)
    (h : s.length < n) : Reads (readMembers inner before first s h) before t := by
  obtain ⟨hshort, hnext⟩ := reads_nextKey_close first hs (self_short s)
  rw [readMembers, hnext]
  exact ⟨_, rfl⟩

theorem reads_readMembers_step {before members : List (Text × Json)} {x : Json}
    (hnext : Reads (nextKey first s (self_short s)) (some key) t) (hcolon : skipSpace t = ':' :: u)
    (hitem : Reads (inner u) x v)
    (hrest : ∀ {m : Nat} (h : v.length < m),
      Reads (readMembers inner (insertMember key x before) false v h) members rest)
    (h : s.length < n) :
    Reads (readMembers inner before first s h) members rest := by
  obtain ⟨ht, hnext⟩ := hnext
  obtain ⟨hu, hcolon⟩ := reads_readColon hcolon ht
  obtain ⟨hv, hitem⟩ := hitem
  rw [readMembers, hnext]
  simp only [hcolon, hitem]
  exact hrest _

theorem reads_readWord (word rest : Text) (h : (word ++ rest).length < n) :
    Reads (readWord word (word ++ rest) h) () rest := by
  induction word with
  | nil => exact ⟨h, rfl⟩
  | cons c word ih =>
    simp only [List.cons_append, readWord, if_true]
    exact ih (tail_short h)

/-- The first character apart from blanks says which reader goes on. -/
theorem readValueWith_eq (hs : skipSpace s = c :: t) :
    readValueWith nested s =
      have ht : t.length < s.length := skipSpace_cons_lt hs
      if c = '"' then (readString t ht).map (·.map string)
      else if c = '{' then
        match nested with
        | none => .error (.at .tooDeep (c :: t))
        | some inner => (readMembers inner [] true t ht).map (·.map object)
      else if c = '[' then
        match nested with
        | none => .error (.at .tooDeep (c :: t))
        | some inner => (readItems inner [] true t ht).map (·.map array)
      else if c = 'n' then (readWord ['u', 'l', 'l'] t ht).map (·.map fun _ => null)
      else if c = 't' then (readWord ['r', 'u', 'e'] t ht).map (·.map fun _ => boolean true)
      else if c = 'f' then (readWord ['a', 'l', 's', 'e'] t ht).map (·.map fun _ => boolean false)
      else if c = '-' then (readNegative t ht).map (·.map number)
      else if c.isDigit then (readNumber false c t ht).map (·.map number)
      else .error (.at .expectedValue (c :: t)) := by
  rw [readValueWith]
  split
  · rename_i he
    cases hs.symm.trans he
  · rename_i he
    cases hs.symm.trans he
    rfl

theorem reads_string (hs : skipSpace s = '"' :: t)
    (ht : ∀ {m : Nat} (h : t.length < m), Reads (readString t h) v rest) :
    Reads (readValueWith nested s) (string v) rest := by
  rw [readValueWith_eq hs, if_pos rfl]
  exact (ht _).map string

theorem reads_object {members : List (Text × Json)} (hs : skipSpace s = '{' :: t)
    (ht : ∀ {m : Nat} (h : t.length < m), Reads (readMembers inner [] true t h) members rest) :
    Reads (readValueWith (some inner) s) (object members) rest := by
  rw [readValueWith_eq hs, if_neg (by decide), if_pos rfl]
  exact (ht _).map object

theorem reads_array {items : List Json} (hs : skipSpace s = '[' :: t)
    (ht : ∀ {m : Nat} (h : t.length < m), Reads (readItems inner [] true t h) items rest) :
    Reads (readValueWith (some inner) s) (array items) rest := by
  rw [readValueWith_eq hs, if_neg (by decide), if_neg (by decide), if_pos rfl]
  exact (ht _).map array

theorem reads_null (hs : skipSpace s = ['n', 'u', 'l', 'l'] ++ rest) :
    Reads (readValueWith nested s) null rest := by
  rw [readValueWith_eq hs]
  exact (reads_readWord ['u', 'l', 'l'] rest (skipSpace_cons_lt hs)).map fun _ => null

theorem reads_true (hs : skipSpace s = ['t', 'r', 'u', 'e'] ++ rest) :
    Reads (readValueWith nested s) (boolean true) rest := by
  rw [readValueWith_eq hs]
  exact (reads_readWord ['r', 'u', 'e'] rest (skipSpace_cons_lt hs)).map fun _ => boolean true

theorem reads_false (hs : skipSpace s = ['f', 'a', 'l', 's', 'e'] ++ rest) :
    Reads (readValueWith nested s) (boolean false) rest := by
  rw [readValueWith_eq hs]
  exact (reads_readWord ['a', 'l', 's', 'e'] rest (skipSpace_cons_lt hs)).map
    fun _ => boolean false

end Stencil.Json
