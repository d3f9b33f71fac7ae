import Mathlib.Data.List.Basic
import Mathlib.Data.List.Forall2
import Stencil.Context

/-!
Paths into a JSON value. A path is the steps to a value with dots between them, and white space
around it; nothing else leads anywhere.
-/
namespace Stencil

/-- A text that is not empty and has no white space at its ends. -/
structure Text.Stripped (s : Text) : Prop where
  ne_nil : s ≠ []
  first (c : Char) : c ∈ s.head? → ¬ Text.isBlank c
  last (c : Char) : c ∈ s.getLast? → ¬ Text.isBlank c

theorem Text.dropWhile_isBlank_append {before s : Text} (hbefore : ∀ c ∈ before, isBlank c)
    (hs : ∀ c ∈ s.head?, ¬ isBlank c) : (before ++ s).dropWhile isBlank = s := by
  rw [List.dropWhile_append_of_pos hbefore]
  cases s with
  | nil => rfl
  | cons c s => exact List.dropWhile_cons_of_neg (hs c rfl)

theorem Text.trim_append {before s after : Text} (hs : Stripped s)
    (hbefore : ∀ c ∈ before, isBlank c) (hafter : ∀ c ∈ after, isBlank c) :
    (before ++ s ++ after).trim = s := by
  have hhead : ∀ c ∈ (s ++ after).head?, ¬ isBlank c := by
    intro c hc
    rw [List.head?_append_of_ne_nil _ hs.ne_nil] at hc
    exact hs.first c hc
  have hlast : ∀ c ∈ s.reverse.head?, ¬ isBlank c := by
    intro c hc
    rw [List.head?_reverse] at hc
    exact hs.last c hc
  have hreverse : ∀ c ∈ after.reverse, isBlank c := fun c hc => hafter c (List.mem_reverse.mp hc)
  rw [trim, List.append_assoc, dropWhile_isBlank_append hbefore hhead, List.reverse_append,
    dropWhile_isBlank_append hreverse hlast, List.reverse_reverse]

namespace Context

variable {root v w : Json} {part : Text} {parts : List Text} {i : Nat}

/-- A step from a value to one inside it. -/
inductive Step
  | member (key : Text)
  | item (i : Nat)
  deriving DecidableEq

namespace Step

/-- The first member of a key counts, and items are counted from zero. -/
inductive Leads : Step → Json → Json → Prop
  | member {key : Text} {v : Json} {before after : List (Text × Json)} :
    (∀ m ∈ before, m.1 ≠ key) → Leads (.member key) (.object (before ++ (key, v) :: after)) v
  | item {i : Nat} {v : Json} {items : List Json} :
    items[i]? = some v → Leads (.item i) (.array items) v

/-- A key stands for itself. An index is written in decimal, where a plus sign may come first and
zeros may lead; it has at most 64 bits. -/
def NamedBy (part : Text) : Step → Prop
  | member key => part = key
  | item i =>
    ∃ digits, (part = digits ∨ part = '+' :: digits) ∧ digits ≠ [] ∧ (∀ c ∈ digits, c.isDigit) ∧
      Nat.ofDigitChars 10 digits 0 = i ∧ i < UInt64.size

def text : Step → Text
  | member key => key
  | item i => Text.ofNat i

/-- A step that its own text names also inside a path. -/
def Writable : Step → Prop
  | member key => '.' ∉ key
  | item i => i < UInt64.size

theorem digits_text (i : Nat) : ∀ c ∈ (item i).text, c.isDigit :=
  fun _ hc => Nat.isDigit_of_mem_toDigits (by decide) (by decide) hc

theorem Writable.namedBy_text {step : Step} (h : step.Writable) : step.NamedBy step.text := by
  cases step with
  | member key => rfl
  | item i =>
    exact ⟨_, Or.inl rfl, Nat.toDigits_ne_nil, digits_text i,
      Nat.ofDigitChars_toDigits (by decide) (by decide), h⟩

theorem Writable.dot_not_mem_text {step : Step} (h : step.Writable) : '.' ∉ step.text := by
  cases step with
  | member key => exact h
  | item i =>
    have hdot : ¬ '.'.isDigit := by decide
    exact fun hmem => hdot (digits_text i '.' hmem)

end Step

/-- Steps that lead from a value to another one. -/
inductive Reaches : List Step → Json → Json → Prop
  | here (v : Json) : Reaches [] v v
  | step {step : Step} {steps : List Step} {root v w : Json} :
    step.Leads root v → Reaches steps v w → Reaches (step :: steps) root w

/-- The texts of steps with dots between them. -/
def pathText (steps : List Step) : Text := List.intercalate ['.'] (steps.map Step.text)

/-- The parts of a path, white space at its ends apart, name steps from one value to another. -/
def Addresses (path : Text) (root v : Json) : Prop :=
  path.trim ≠ [] ∧
    ∃ steps, List.Forall₂ Step.NamedBy (path.trim.splitOn '.') steps ∧ Reaches steps root v

theorem foldl_digits (digits : Text) :
    digits.foldl (fun n c => n * 10 + (c.toNat - '0'.toNat)) 0 = Nat.ofDigitChars 10 digits 0 := by
  simp only [Nat.ofDigitChars_eq_foldl, Nat.mul_comm]

theorem index?_of_digits {digits : Text} (hpart : part = digits ∨ part = '+' :: digits)
    (hne : digits ≠ []) (hdigits : ∀ c ∈ digits, c.isDigit) :
    index? part =
      if Nat.ofDigitChars 10 digits 0 < UInt64.size then some (Nat.ofDigitChars 10 digits 0)
      else none := by
  have hguard : ¬ (digits = [] ∨ ¬ digits.all Char.isDigit) := by
    simpa [hne] using hdigits
  unfold index?
  split
  · rename_i rest
    -- A text of digits does not begin with a plus sign.
    obtain rfl | hplus := hpart
    · have hsign : ¬ '+'.isDigit := by decide
      exact (hsign (hdigits '+' List.mem_cons_self)).elim
    · cases hplus
      simp only [if_neg hguard, foldl_digits]
  · rename_i hplain
    obtain rfl | rfl := hpart
    · simp only [if_neg hguard, foldl_digits]
    · exact (hplain digits rfl).elim

theorem exists_digits_of_index? (h : index? part = some i) :
    ∃ digits, (part = digits ∨ part = '+' :: digits) ∧ digits ≠ [] ∧
      ∀ c ∈ digits, c.isDigit := by
  have hdigits {digits : Text} {j : Option Nat}
      (h : (if digits = [] ∨ ¬ digits.all Char.isDigit then none else j) = some i) :
      digits ≠ [] ∧ ∀ c ∈ digits, c.isDigit := by
    split at h
    · cases h
    · rename_i hguard
      rw [not_or, not_not, List.all_eq_true] at hguard
      exact hguard
  unfold index? at h
  split at h
  · rename_i digits
    exact ⟨digits, Or.inr rfl, hdigits h⟩
  · exact ⟨part, Or.inl rfl, hdigits h⟩

theorem index?_eq_some_iff : index? part = some i ↔ (Step.item i).NamedBy part := by
  constructor
  · intro h
    obtain ⟨digits, hpart, hne, hdigits⟩ := exists_digits_of_index? h
    rw [index?_of_digits hpart hne hdigits] at h
    split at h
    · rename_i hsize
      cases h
      exact ⟨digits, hpart, hne, hdigits, rfl, hsize⟩
    · cases h
  · rintro ⟨digits, hpart, hne, hdigits, rfl, hsize⟩
    rw [index?_of_digits hpart hne hdigits, if_pos hsize]

/-- One part of a path leads where the step that it names leads. -/
theorem child?_eq_some_iff :
    child? part root = some v ↔ ∃ step : Step, step.NamedBy part ∧ step.Leads root v := by
  constructor
  · intro h
    cases root with
    | object members =>
      obtain ⟨before, after, rfl, hbefore⟩ := List.lookup_eq_some_iff.mp h
      exact ⟨.member part, rfl, .member fun m hm => Ne.symm (bne_iff_ne.mp (hbefore m hm))⟩
    | array items =>
      obtain ⟨i, hi, hv⟩ := Option.bind_eq_some_iff.mp h
      exact ⟨.item i, index?_eq_some_iff.mp hi, .item hv⟩
    | null | boolean _ | number _ | string _ => cases h
  · rintro ⟨step, hname, hleads⟩
    cases hleads with
    | @member key v before after hbefore =>
      cases hname
      refine List.lookup_eq_some_iff.mpr ⟨before, after, rfl, fun m hm => ?_⟩
      exact bne_iff_ne.mpr (Ne.symm (hbefore m hm))
    | item hv => exact Option.bind_eq_some_iff.mpr ⟨_, index?_eq_some_iff.mpr hname, hv⟩

/-- The parts of a path lead where the steps that they name lead. -/
theorem descend?_eq_some_iff :
    descend? parts root = some v ↔
      ∃ steps, List.Forall₂ Step.NamedBy parts steps ∧ Reaches steps root v := by
  induction parts generalizing root with
  | nil =>
    constructor
    · intro h
      cases h
      exact ⟨[], .nil, .here _⟩
    · rintro ⟨steps, ⟨⟩, ⟨⟩⟩
      rfl
  | cons part parts ih =>
    rw [descend?, Option.bind_eq_some_iff]
    constructor
    · rintro ⟨between, hchild, hrest⟩
      obtain ⟨step, hname, hleads⟩ := child?_eq_some_iff.mp hchild
      obtain ⟨steps, hnames, hreaches⟩ := ih.mp hrest
      exact ⟨step :: steps, .cons hname hnames, .step hleads hreaches⟩
    · rintro ⟨steps, hnames, hreaches⟩
      obtain _ | ⟨hname, hnames⟩ := hnames
      obtain _ | ⟨hleads, hreaches⟩ := hreaches
      exact ⟨_, child?_eq_some_iff.mpr ⟨_, hname, hleads⟩, ih.mpr ⟨_, hnames, hreaches⟩⟩

theorem lookup?_eq_some_iff {path : Text} :
    lookup? root path = some v ↔ Addresses path root v := by
  rw [lookup?, Addresses, ← descend?_eq_some_iff]
  split
  · rename_i hempty
    exact iff_of_false nofun fun h => h.1 hempty
  · rename_i hne
    exact (and_iff_right hne).symm

theorem splitOn_pathText {steps : List Step} (hne : steps ≠ [])
    (hsteps : ∀ step ∈ steps, step.Writable) :
    (pathText steps).splitOn '.' = steps.map Step.text := by
  refine List.splitOn_intercalate '.' ?_ (List.map_eq_nil_iff.not.mpr hne)
  intro part hpart
  obtain ⟨step, hstep, rfl⟩ := List.mem_map.mp hpart
  exact (hsteps step hstep).dot_not_mem_text

/-- The paths to a value are the texts that name the steps to it, and all else leads nowhere. -/
theorem lookup?_addresses_nodes (root : Json) :
    (∀ steps v before after, Reaches steps root v → steps ≠ [] →
      (∀ step ∈ steps, step.Writable) → Text.Stripped (pathText steps) →
      (∀ c ∈ before, Text.isBlank c) → (∀ c ∈ after, Text.isBlank c) →
      lookup? root (before ++ pathText steps ++ after) = some v) ∧
    (∀ path v, lookup? root path = some v ↔ Addresses path root v) ∧
    ∀ path, (¬ ∃ v, Addresses path root v) → lookup? root path = none := by
  refine ⟨?_, fun _ _ => lookup?_eq_some_iff, ?_⟩
  · intro steps v before after hreaches hne hsteps hstripped hbefore hafter
    rw [lookup?_eq_some_iff, Addresses, Text.trim_append hstripped hbefore hafter,
      splitOn_pathText hne hsteps]
    refine ⟨hstripped.ne_nil, steps, ?_, hreaches⟩
    rw [List.forall₂_map_left_iff, List.forall₂_same]
    exact fun step hstep => (hsteps step hstep).namedBy_text
  · intro path hnowhere
    exact Option.eq_none_iff_forall_ne_some.mpr fun v hv =>
      hnowhere ⟨v, lookup?_eq_some_iff.mp hv⟩

/-- An empty key, an index, a key with a space and a key of digits. The index may be written with a
plus sign and zeros, but not with a minus sign. -/
theorem lookup?_addresses_nodes_odd_names :
    let inner : Json := .object [(['0', '1'], .string ['x'])]
    let root : Json := .object [([], .array [.object [(['a', ' ', 'b'], inner)], .null])]
    let steps : List Step := [.member [], .item 0, .member ['a', ' ', 'b'], .member ['0', '1']]
    pathText steps = ['.', '0', '.', 'a', ' ', 'b', '.', '0', '1'] ∧
      lookup? root (['\u3000', '\n'] ++ pathText steps ++ [' ']) = some (.string ['x']) ∧
      lookup? root ['.', '+', '0', '0', '.', 'a', ' ', 'b', ' '] = some inner ∧
      lookup? root ['.', '-', '0'] = none := by
  intro inner root steps
  obtain ⟨hwritten, hnamed, hnowhere⟩ := lookup?_addresses_nodes root
  have hinner : Reaches [.member [], .item 0, .member ['a', ' ', 'b']] root inner :=
    .step (@Step.Leads.member _ _ [] _ nofun)
      (.step (.item rfl) (.step (@Step.Leads.member _ _ [] _ nofun) (.here inner)))
  have hsteps : Reaches steps root (.string ['x']) :=
    .step (@Step.Leads.member _ _ [] _ nofun) (.step (.item rfl)
      (.step (@Step.Leads.member _ _ [] _ nofun)
        (.step (@Step.Leads.member _ _ [] _ nofun) (.here _))))
  have hstripped : Text.Stripped (pathText steps) :=
    ⟨by decide, by rintro c ⟨⟩; decide, by rintro c ⟨⟩; decide⟩
  have hwritable : ∀ step ∈ steps, step.Writable := by
    simp [steps, Step.Writable, UInt64.size]
  refine ⟨rfl, ?_, ?_, ?_⟩
  · exact hwritten steps _ _ _ hsteps (by decide) hwritable hstripped
      (List.all_eq_true.mp (by decide)) (List.all_eq_true.mp (by decide))
  · have hparts : (Text.trim ['.', '+', '0', '0', '.', 'a', ' ', 'b', ' ']).splitOn '.' =
        [[], ['+', '0', '0'], ['a', ' ', 'b']] := rfl
    have hindex : (Step.item 0).NamedBy ['+', '0', '0'] :=
      ⟨['0', '0'], Or.inr rfl, by decide, List.all_eq_true.mp (by decide), rfl, by decide⟩
    refine (hnamed _ _).mpr ⟨by decide, _, ?_, hinner⟩
    rw [hparts]
    exact .cons rfl (.cons hindex (.cons rfl .nil))
  · have hparts : (Text.trim ['.', '-', '0']).splitOn '.' = [[], ['-', '0']] := rfl
    refine hnowhere _ ?_
    rintro ⟨v, -, steps, hnames, hreaches⟩
    rw [hparts] at hnames
    obtain _ | ⟨hkey, _ | ⟨hindex, _⟩⟩ := hnames
    obtain _ | ⟨hfirst, _ | ⟨hsecond, -⟩⟩ := hreaches
    -- The empty key leads to the list, and no index is called `-0`.
    cases child?_eq_some_iff.mpr ⟨_, hkey, hfirst⟩
    cases child?_eq_some_iff.mpr ⟨_, hindex, hsecond⟩

end Context

end Stencil
