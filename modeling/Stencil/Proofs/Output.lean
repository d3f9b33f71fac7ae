import Mathlib.Data.List.Sort
import Stencil.Output

/-!
What an output holds. It keeps every write in order, and a value that it escapes is hidden from
markup and yet can be told from its escaped form.
-/
namespace Stencil

/-- The characters that open, close or quote markup. -/
def Text.isMarkup (c : Char) : Bool := c = '<' || c = '>' || c = '"' || c = '\''

theorem Text.suffix_of_cons_suffix_append {c : Char} {s t after : Text} (hc : c ∉ s)
    (h : c :: after <:+ s ++ t) : c :: after <:+ t := by
  induction s with
  | nil => exact h
  | cons a s ih =>
    obtain ⟨ha, hs⟩ := List.ne_and_not_mem_of_not_mem_cons hc
    obtain heq | hrest := List.suffix_cons_iff.mp h
    · exact (ha (List.cons.inj heq).1).elim
    · exact ih hs hrest

namespace Markers

theorem ext {m m' : Markers} (h : ∀ c, c ∈ m ↔ c ∈ m') : m = m' := by
  obtain ⟨s, hs⟩ := m
  obtain ⟨s', hs'⟩ := m'
  obtain rfl : s = s' := hs.eq_of_mem_iff hs' h
  rfl

theorem mem_foldl_insert {markers : List Char} {m : Markers} {c : Char} :
    c ∈ markers.foldl insert m ↔ c ∈ markers ∨ c ∈ m := by
  induction markers generalizing m with
  | nil => simp
  | cons a markers ih =>
    rw [List.foldl_cons, ih, mem_insert, List.mem_cons]
    tauto

theorem ofList_congr {markers markers' : List Char} (h : ∀ c, c ∈ markers ↔ c ∈ markers') :
    ofList markers = ofList markers' :=
  ext fun c => mem_ofList.trans ((h c).trans mem_ofList.symm)

end Markers

namespace Output

variable {c : Char} {s after : Text}

theorem text_write (o : Output) (content : Text) (marker : Option Char) :
    (o.write content marker).text = o.text ++ contribution o.escaped content marker := by
  simp [text, write]

/-- The writes of a sequence one after the other. -/
def writeAll (o : Output) (writes : List (Text × Option Char)) : Output :=
  writes.foldl (fun o w => o.write w.1 w.2) o

theorem sink_writes {ε : Type} (writes : List (Text × Option Char)) (o : Output) :
    (writes.forM fun w => (sink (ε := ε)).write w.1 w.2) o = (.ok (), o.writeAll writes) := by
  induction writes generalizing o with
  | nil => rfl
  | cons w writes ih => exact ih (o.write w.1 w.2)

theorem text_writeAll (writes : List (Text × Option Char)) (o : Output) :
    (o.writeAll writes).text =
      o.text ++ writes.flatMap fun w => contribution o.escaped w.1 w.2 := by
  induction writes generalizing o with
  | nil => exact (List.append_nil _).symm
  | cons w writes ih =>
    have hstep : o.writeAll (w :: writes) = (o.write w.1 w.2).writeAll writes := rfl
    rw [hstep, ih, text_write, List.append_assoc]
    rfl

theorem foldl_escaping (markers : List Char) (o : Output) :
    markers.foldl escaping o = { o with escaped := markers.foldl Markers.insert o.escaped } := by
  induction markers generalizing o with
  | nil => rfl
  | cons m markers ih => exact ih (o.escaping m)

/-- An output that is told its markers one by one has the set of them. -/
theorem foldl_escaping_eq (markers : List Char) (pieces : List Text) :
    markers.foldl escaping { pieces } = { pieces, escaped := .ofList markers } := by
  have hset : markers.foldl Markers.insert .empty = .ofList markers := by
    refine Markers.ext fun c => ?_
    rw [Markers.mem_foldl_insert, Markers.mem_ofList]
    exact or_iff_left (List.not_mem_nil)
  rw [foldl_escaping, hset]

theorem contribution_ofList (markers : List Char) (content : Text) (marker : Option Char) :
    contribution (.ofList markers) content marker =
      if marker.any (· ∈ markers) then escapeHtml content else content := by
  cases marker with
  | none => rfl
  | some m => simp [contribution, Markers.mem_ofList]

/-- What escaping writes for the characters that it does not leave as they are. -/
def entities : List Text := ["&amp;", "&lt;", "&gt;", "&quot;", "&#39;"]

theorem escapeChar_cases (c : Char) :
    escapeChar c ∈ entities ∨ escapeChar c = [c] ∧ c ≠ '&' ∧ Text.isMarkup c = false := by
  unfold escapeChar
  split
  · exact Or.inl (by decide)
  · exact Or.inl (by decide)
  · exact Or.inl (by decide)
  · exact Or.inl (by decide)
  · exact Or.inl (by decide)
  · rename_i hamp hlt hgt hquot hapos
    refine Or.inr ⟨rfl, hamp, ?_⟩
    simpa [Text.isMarkup] using ⟨⟨⟨hlt, hgt⟩, hquot⟩, hapos⟩

theorem filter_isMarkup_entity : ∀ entity ∈ entities, entity.filter Text.isMarkup = [] := by
  decide

theorem entity_ampersand : ∀ entity ∈ entities, entity.head? = some '&' ∧ '&' ∉ entity.tail := by
  decide

theorem filter_isMarkup_escapeChar (c : Char) :
    (escapeChar c).filter Text.isMarkup = [] := by
  obtain hentity | ⟨hself, -, hc⟩ := escapeChar_cases c
  · exact filter_isMarkup_entity _ hentity
  · rw [hself, List.filter_cons_of_neg (by simp [hc]), List.filter_nil]

theorem filter_isMarkup_escapeHtml (s : Text) :
    (escapeHtml s).filter Text.isMarkup = [] := by
  simp [escapeHtml, List.filter_flatMap, filter_isMarkup_escapeChar]

/-- Replaces the entities from left to right by their characters. -/
def unescapeHtml : Text → Text
  | '&' :: 'a' :: 'm' :: 'p' :: ';' :: s => '&' :: unescapeHtml s
  | '&' :: 'l' :: 't' :: ';' :: s => '<' :: unescapeHtml s
  | '&' :: 'g' :: 't' :: ';' :: s => '>' :: unescapeHtml s
  | '&' :: 'q' :: 'u' :: 'o' :: 't' :: ';' :: s => '"' :: unescapeHtml s
  | '&' :: '#' :: '3' :: '9' :: ';' :: s => '\'' :: unescapeHtml s
  | c :: s => c :: unescapeHtml s
  | [] => []

theorem escapeHtml_cons (c : Char) (s : Text) :
    escapeHtml (c :: s) = escapeChar c ++ escapeHtml s := List.flatMap_cons

theorem unescapeHtml_cons (hc : c ≠ '&') (s : Text) :
    unescapeHtml (c :: s) = c :: unescapeHtml s := by
  conv_lhs => unfold unescapeHtml
  split <;> simp_all

theorem unescapeHtml_escapeChar (c : Char) (s : Text) :
    unescapeHtml (escapeChar c ++ s) = c :: unescapeHtml s := by
  unfold escapeChar
  split
  · rfl
  · rfl
  · rfl
  · rfl
  · rfl
  · rename_i hamp _ _ _ _
    exact unescapeHtml_cons hamp s

theorem unescapeHtml_escapeHtml (s : Text) : unescapeHtml (escapeHtml s) = s := by
  induction s with
  | nil => rfl
  | cons c s ih => rw [escapeHtml_cons, unescapeHtml_escapeChar, ih]

/-- An ampersand of an escaped text is the first character of an entity. -/
theorem entity_of_ampersand (h : '&' :: after <:+ escapeHtml s) :
    ∃ entity ∈ entities, entity <+: '&' :: after := by
  induction s with
  | nil => cases List.suffix_nil.mp h
  | cons c s ih =>
    rw [escapeHtml_cons] at h
    obtain hentity | ⟨hself, hc, -⟩ := escapeChar_cases c
    · obtain ⟨hhead, htail⟩ := entity_ampersand _ hentity
      obtain ⟨tail, hchar⟩ := List.head?_eq_some_iff.mp hhead
      rw [hchar] at h htail hentity
      obtain heq | hrest := List.suffix_cons_iff.mp h
      · exact ⟨_, hentity, escapeHtml s, heq.symm⟩
      · exact ih (Text.suffix_of_cons_suffix_append htail hrest)
    · rw [hself] at h
      exact ih (Text.suffix_of_cons_suffix_append (by simpa using hc.symm) h)

/-- An output is what was there and then what each write contributes, whatever list tells it the set
of its markers; escaping leaves no markup but entities, undoes itself from left to right, and goes
character by character. -/
theorem writes_escape_reversibly {ε : Type} :
    (∀ (markers : List Char) (pieces : List Text) (writes : List (Text × Option Char)),
      ∃ o, (writes.forM fun w => (sink (ε := ε)).write w.1 w.2)
          (markers.foldl escaping { pieces }) = (.ok (), o) ∧
        o.text = ({ pieces } : Output).text ++ writes.flatMap fun w =>
          if w.2.any (· ∈ markers) then escapeHtml w.1 else w.1) ∧
    (∀ (markers markers' : List Char) (pieces : List Text),
      (∀ c, c ∈ markers ↔ c ∈ markers') →
        markers.foldl escaping { pieces } = markers'.foldl escaping { pieces }) ∧
    ∀ s,
      (∀ c ∈ escapeHtml s, c ≠ '<' ∧ c ≠ '>' ∧ c ≠ '"' ∧ c ≠ '\'') ∧
      (∀ after, '&' :: after <:+ escapeHtml s → ∃ entity ∈ entities, entity <+: '&' :: after) ∧
      unescapeHtml (escapeHtml s) = s ∧
      (∀ t, escapeHtml s = escapeHtml t → s = t) ∧
      ∀ t, escapeHtml (s ++ t) = escapeHtml s ++ escapeHtml t := by
  refine ⟨?_, ?_, ?_⟩
  · intro markers pieces writes
    refine ⟨_, sink_writes writes _, ?_⟩
    rw [text_writeAll, foldl_escaping_eq]
    refine congrArg (_ ++ ·) (List.flatMap_congr fun w _ => ?_)
    exact contribution_ofList markers w.1 w.2
  · intro markers markers' pieces hset
    rw [foldl_escaping_eq, foldl_escaping_eq, Markers.ofList_congr hset]
  · intro s
    refine ⟨?_, fun _ => entity_of_ampersand, unescapeHtml_escapeHtml s, ?_, ?_⟩
    · intro c hc
      have hmarkup := List.filter_eq_nil_iff.mp (filter_isMarkup_escapeHtml s) c hc
      simpa [Text.isMarkup, and_assoc] using hmarkup
    · intro t h
      rw [← unescapeHtml_escapeHtml s, h, unescapeHtml_escapeHtml]
    · intro t
      exact List.flatMap_append

/-- A value that is an entity already is escaped once more, and comes back as it was. -/
theorem writes_escape_reversibly_nested :
    let writes : List (Text × Option Char) :=
      [(['<', 'é'], some '='), (['<'], none), ("&lt;".toList, some '='), (['&'], some '#')]
    let start : Output := ['!', '=', '!'].foldl escaping { pieces := [['b'], ['a']] }
    start = ['=', '!'].foldl escaping { pieces := [['b'], ['a']] } ∧
      (∃ o, (writes.forM fun w => (sink (ε := Nat)).write w.1 w.2) start = (.ok (), o) ∧
        o.text = "ab&lt;é<&amp;lt;&".toList) ∧
      unescapeHtml "&amp;lt;".toList = "&lt;".toList ∧
      ∃ entity ∈ entities, entity <+: "&amp;lt;".toList := by
  intro writes start
  obtain ⟨hwrites, hset, hescape⟩ := writes_escape_reversibly (ε := Nat)
  obtain ⟨-, hentity, hundo, -, -⟩ := hescape "&lt;".toList
  refine ⟨hset _ _ _ (by simp), ?_, hundo, hentity _ (List.suffix_refl _)⟩
  obtain ⟨o, hrun, htext⟩ := hwrites ['!', '=', '!'] [['b'], ['a']] writes
  exact ⟨o, hrun, htext.trans rfl⟩

end Output

end Stencil
