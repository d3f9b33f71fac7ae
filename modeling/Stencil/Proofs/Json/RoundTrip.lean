import Stencil.Proofs.Json.Spelling

/-!
Printed JSON values read back. The reader sorts the members of objects by key, so a value comes back
in its sorted form; numbers are left out.
-/
namespace Stencil.Json

variable {style : Style} {depth n : Nat} {v : Json} {inner : Reader Json} {s t rest : Text}
  {members : List (Text × Json)}

mutual

/-- The value with the members of all objects sorted by key; of one key, the last member stays. -/
def sorted : Json → Json
  | null => null
  | boolean b => boolean b
  | number n => number n
  | string s => string s
  | array items => array (sortedItems items)
  | object members => object (sortedMembers [] members)

def sortedItems : List Json → List Json
  | [] => []
  | x :: items => sorted x :: sortedItems items

/-- Puts members among those that are sorted already. -/
def sortedMembers (before : List (Text × Json)) : List (Text × Json) → List (Text × Json)
  | [] => before
  | (key, x) :: members => sortedMembers (insertMember key (sorted x) before) members

end

theorem sortedItems_eq_map (items : List Json) : sortedItems items = items.map sorted := by
  induction items with
  | nil => rfl
  | cons x items ih => rw [sortedItems, ih, List.map_cons]

theorem sortedMembers_eq_foldl (before members : List (Text × Json)) :
    sortedMembers before members =
      (members.map fun m => (m.1, sorted m.2)).foldl (fun before m => insertMember m.1 m.2 before)
        before := by
  induction members generalizing before with
  | nil => rfl
  | cons m members ih => rw [sortedMembers, ih, List.map_cons, List.foldl_cons]

theorem member?_cons (key k : Text) (v : Json) (members : List (Text × Json)) :
    member? key ((k, v) :: members) = if key = k then some v else member? key members := by
  rw [member?, member?, List.lookup_cons]
  by_cases h : key = k
  · simp [h]
  · rw [beq_false_of_ne h, if_neg h]

theorem member?_insertMember (key k : Text) (v : Json) (members : List (Text × Json)) :
    member? key (insertMember k v members) = if key = k then some v else member? key members := by
  induction members with
  | nil => exact member?_cons key k v []
  | cons m members ih =>
    obtain ⟨k', v'⟩ := m
    rw [insertMember, member?_cons key k' v']
    split
    · rw [member?_cons, member?_cons]
    split
    · rename_i hk
      subst hk
      rw [member?_cons]
      by_cases h : key = k <;> simp [h]
    · rename_i hk
      rw [member?_cons, ih]
      by_cases h : key = k'
      · subst h
        simp [Ne.symm hk]
      · simp [h]

/-- A value without numbers that has at most so many containers around one another. -/
inductive Plain : Nat → Json → Prop
  | null {depth : Nat} : Plain depth null
  | boolean {depth : Nat} (b : Bool) : Plain depth (boolean b)
  | string {depth : Nat} (s : Text) : Plain depth (string s)
  | array {depth : Nat} {items : List Json} :
    (∀ x ∈ items, Plain depth x) → Plain (depth + 1) (array items)
  | object {depth : Nat} {members : List (Text × Json)} :
    (∀ m ∈ members, Plain depth m.2) → Plain (depth + 1) (object members)

/-- Members are read one after the other, and each is put among those before it. -/
theorem Separated.reads_members {first : Bool}
    (ht : Separated (Keyed Prod.fst fun t m => IsRead inner t m.2) t members)
    (before : List (Text × Json)) (hahead : Ahead first s (t ++ '}' :: rest)) (h : s.length < n) :
    Reads (readMembers inner before first s h)
      (members.foldl (fun before m => insertMember m.1 m.2 before) before) rest := by
  induction ht generalizing before first s n with
  | @last blank t after m hblank hafter hm =>
    simp only [List.append_assoc] at hahead
    obtain ⟨u, v, value, hvalue, hkey, hcolon, hv⟩ := hm.exists_reads hblank hahead
    refine reads_readMembers_step (hkey _) hcolon (hvalue.reads_skipSpace hv) ?_ h
    intro _ h
    exact reads_readMembers_close (skipSpace_blank_cons hafter rfl) h
  | @cons blank t after more m members hblank hafter hm hmore ih =>
    simp only [List.append_assoc, List.cons_append] at hahead
    obtain ⟨u, v, value, hvalue, hkey, hcolon, hv⟩ := hm.exists_reads hblank hahead
    exact reads_readMembers_step (hkey _) hcolon (hvalue.reads_skipSpace hv)
      (ih _ (ahead_comma hafter _)) h

theorem Enclosed.exists_reads_members
    (ht : Enclosed '{' '}' (Keyed Prod.fst fun t m => IsRead inner t m.2) t members)
    (rest : Text) :
    ∃ u, t ++ rest = '{' :: u ∧ ∀ {n : Nat} (h : u.length < n),
      Reads (readMembers inner [] true u h)
        (members.foldl (fun before m => insertMember m.1 m.2 before) []) rest := by
  refine ht.exists_behind rfl ?_ ?_
  · rintro u rfl hu n h
    exact reads_readMembers_close hu h
  · intro t ht n h
    exact ht.reads_members [] (ahead_first _) h

theorem readValue_eq_readValueWith (depth : Nat) :
    ∃ nested, readValue depth = readValueWith nested := by
  cases depth with
  | zero => exact ⟨none, rfl⟩
  | succ depth => exact ⟨some (readValue depth), rfl⟩

/-- A printed value comes back sorted, whatever stands around it. -/
theorem isRead_render (hstyle : style.Blank) (h : Plain depth v) (k : Nat) :
    IsRead (readValue depth) (v.render style k) (sorted v) := by
  induction h generalizing k with
  | null =>
    obtain ⟨nested, hn⟩ := readValue_eq_readValueWith _
    rw [hn]
    exact ⟨⟨'n', _, rfl, rfl, by decide⟩, reads_null⟩
  | boolean b =>
    obtain ⟨nested, hn⟩ := readValue_eq_readValueWith _
    rw [hn]
    cases b with
    | false => exact ⟨⟨'f', _, rfl, rfl, by decide⟩, reads_false⟩
    | true => exact ⟨⟨'t', _, rfl, rfl, by decide⟩, reads_true⟩
  | string v =>
    obtain ⟨nested, hn⟩ := readValue_eq_readValueWith _
    rw [hn]
    exact isRead_of_first rfl (by decide) (isString_stringText v).exists_reads reads_string
  | @array depth items hplain ih =>
    -- What is printed is one way to write the items, and the reader takes each of them.
    rw [sorted, sortedItems_eq_map]
    have hitems : Enclosed '[' ']' (IsRead (readValue depth)) ((array items).render style k)
        (items.map sorted) :=
      enclosed_render_array hstyle
        (List.forall₂_map_right_iff.mpr (List.forall₂_same.mpr ih)) k
    exact isRead_of_first rfl (by decide) hitems.exists_reads reads_array
  | @object depth members hplain ih =>
    rw [sorted, sortedMembers_eq_foldl]
    have hread : List.Forall₂
        (fun m a => m.1 = a.1 ∧ ∀ k, IsRead (readValue depth) (m.2.render style k) a.2)
        members (members.map fun m => (m.1, sorted m.2)) :=
      List.forall₂_map_right_iff.mpr (List.forall₂_same.mpr fun m hm => ⟨rfl, ih m hm⟩)
    have hmembers : Enclosed '{' '}' (Keyed Prod.fst fun t m => IsRead (readValue depth) t m.2)
        ((object members).render style k) (members.map fun m => (m.1, sorted m.2)) :=
      enclosed_render_object hstyle hread k
    exact isRead_of_first rfl (by decide) hmembers.exists_reads_members reads_object

/-- A document that is a printed value is read as that value, sorted. -/
theorem ofText_render (hstyle : style.Blank) (h : Plain maxDepth v) :
    ofText (v.render style 0) = .ok (sorted v) := by
  have hread : readDocument (readValue maxDepth) ([] ++ (v.render style 0 ++ [])) = _ :=
    (isRead_render hstyle h 0).readDocument rfl rfl
  rwa [List.nil_append, List.append_nil] at hread

end Stencil.Json
