import Mathlib.Data.List.Chain
import Mathlib.Data.List.Infix
import Stencil.Proofs.Scanner.Markers

/-!
Delimiters that do not overlap themselves. An occurrence of such a delimiter cannot reach over the
seam between a text and the delimiter behind it, so every segment is checked on its own.
-/
namespace Stencil

namespace Text

variable {d t s : Text}

/-- Only the empty text and `d` itself are both a beginning and an end of `d`. -/
def Unbordered (d : Text) : Prop := ∀ b, b <+: d → b <:+ d → b = [] ∨ b = d

instance (d : Text) : Decidable (Unbordered d) :=
  decidable_of_iff (∀ b ∈ d.inits, b <:+ d → b = [] ∨ b = d) (by simp [Unbordered])

theorem Unbordered.prefix_append_self_iff (hd : Unbordered d) (ht : t ≠ []) :
    d <+: t ++ d ↔ d <+: t := by
  constructor
  · intro h
    by_cases hlen : d.length ≤ t.length
    · exact (prefix_append_iff hlen).mp h
    · -- The occurrence goes on into the delimiter behind `t`, by a border of it.
      have htd : t <+: d :=
        List.prefix_of_prefix_length_le (List.prefix_append t d) h (by omega)
      obtain ⟨b, rfl⟩ := htd
      obtain ⟨r, hr⟩ := h
      have hb : b ++ r = t ++ b := by simpa using hr
      obtain rfl | hself := hd b ⟨r, hb⟩ (List.suffix_append t b)
      · simp at hlen
      · exact (ht (List.self_eq_append_left.mp hself)).elim
  · intro h
    exact h.trans (List.prefix_append t d)

theorem Unbordered.clear_self_iff (hd : Unbordered d) : Clear d t d ↔ Clear d t [] := by
  refine forall₂_congr fun i hi => not_congr ?_
  have ht : t.drop i ≠ [] := by simpa using hi
  rw [List.append_nil, List.drop_append_of_le_length (Nat.le_of_lt hi)]
  exact hd.prefix_append_self_iff ht

/-- Before another occurrence of `d`, or at the end, a text is clear if it does not contain `d`. -/
theorem Unbordered.clear_iff (hd : Unbordered d) (hne : d ≠ []) (hs : s = [] ∨ d <+: s) :
    Clear d t s ↔ ¬ d <:+: t := by
  rw [not_infix_iff_clear hne]
  obtain rfl | ⟨r, rfl⟩ := hs
  · exact Iff.rfl
  · exact clear_append_iff.trans hd.clear_self_iff

end Text

/-- Neither delimiter overlaps itself, and no marker begins the end delimiter. -/
structure Delimiters.Unbordered (d : Delimiters) : Prop where
  start : Text.Unbordered d.start
  stop : Text.Unbordered d.stop
  marker : d.Unclashing

theorem Delimiters.unbordered_standard : standard.Unbordered where
  start := by decide
  stop := by decide
  marker := by
    rintro c ⟨⟩
    decide

namespace Segment

variable {d : Delimiters} {segment : Segment} {segments : List Segment} {following : Text}

/-- What a segment must meet by itself, whatever stands around it. -/
def Local (d : Delimiters) : Segment → Prop
  | text content => content ≠ [] ∧ ¬ d.start <:+: content
  | eval marker code => marker ∈ d.markers ∧ ¬ d.stop <:+: code
  | raw code => (∀ c ∈ code.head?, c ∉ d.markers) ∧ ¬ d.stop <:+: code

instance decidableLocal (d : Delimiters) : (segment : Segment) → Decidable (segment.Local d)
  | text content =>
    have : Decidable (d.start <:+: content) := List.instDecidableIsInfixOfDecidableEq _ _
    inferInstanceAs (Decidable (_ ∧ _))
  | eval _ code =>
    have : Decidable (d.stop <:+: code) := List.instDecidableIsInfixOfDecidableEq _ _
    inferInstanceAs (Decidable (_ ∧ _))
  | raw code =>
    have : Decidable (∀ c ∈ code.head?, c ∉ d.markers) := Option.decidableForallMem _
    have : Decidable (d.stop <:+: code) := List.instDecidableIsInfixOfDecidableEq _ _
    inferInstanceAs (Decidable (_ ∧ _))

theorem raw_head_iff (hd : d.Unclashing) {code : Text} :
    (∀ c ∈ (code ++ d.stop).head?, c ∉ d.markers) ↔ ∀ c ∈ code.head?, c ∉ d.markers := by
  cases code with
  | nil => exact iff_of_true hd nofun
  | cons c code => exact Iff.rfl

theorem fits_iff_local (hd : d.Valid) (h : d.Unbordered)
    (hends : segment.isText → following = [] ∨ d.start <+: following) :
    segment.Fits d following ↔ segment.Local d := by
  have hstop {code : Text} : Text.Clear d.stop code d.stop ↔ ¬ d.stop <:+: code :=
    h.stop.clear_iff hd.2 (Or.inr (List.prefix_refl _))
  cases segment with
  | text content => exact and_congr_right' (h.start.clear_iff hd.1 (hends rfl))
  | eval marker code => exact and_congr_right' hstop
  | raw code => exact and_congr (raw_head_iff h.marker) hstop

theorem canonical_iff_local (hd : d.Valid) (h : d.Unbordered) :
    Canonical d [] segments ↔
      (∀ segment ∈ segments, segment.Local d) ∧
        segments.IsChain fun first next => first.isText → ¬ next.isText := by
  induction segments with
  | nil => exact iff_of_true trivial ⟨nofun, .nil⟩
  | cons segment segments ih =>
    rw [Canonical, ih, List.forall_mem_cons, List.isChain_cons]
    constructor
    · rintro ⟨hfit, hnext, hlocal, hchain⟩
      have hsegment := (fits_iff_local hd h fun ht => spans_at_cut (hnext ht) (Or.inl rfl)).mp hfit
      exact ⟨⟨hsegment, hlocal⟩, fun next hmem ht => hnext ht next hmem, hchain⟩
    · rintro ⟨⟨hsegment, hlocal⟩, hadjacent, hchain⟩
      have hnext : segment.isText → ∀ next ∈ segments.head?, ¬ next.isText :=
        fun ht next hmem => hadjacent next hmem ht
      have hfit := (fits_iff_local hd h fun ht => spans_at_cut (hnext ht) (Or.inl rfl)).mpr hsegment
      exact ⟨hfit, hnext, hlocal, hchain⟩

end Segment

open Segment (spans)

/-- If neither delimiter overlaps itself and no marker begins the end delimiter, as in the standard
delimiters, then joined spans are scanned into their segments if each segment meets the local
conditions and no two texts are adjacent. -/
theorem scan_spans_iff_local :
    (∀ d : Delimiters, d.Valid → d.Unbordered → ∀ segments,
      scan d (spans d segments) = .ok segments ↔
        (∀ segment ∈ segments, segment.Local d) ∧
          segments.IsChain fun first next => first.isText → ¬ next.isText) ∧
    Delimiters.standard.Valid ∧ Delimiters.standard.Unbordered := by
  refine ⟨?_, by decide, Delimiters.unbordered_standard⟩
  intro d hd h segments
  rw [scan_eq_ok_iff hd, and_iff_right rfl]
  exact Segment.canonical_iff_local hd h

/-- Each delimiter ends with what the other one begins with, and still no seam matters; a marker at
the front of code that is only run is found out. -/
theorem scan_spans_iff_local_interlocked :
    let d : Delimiters := ⟨['a', 'b'], ['b', 'a'], .ofList ['=']⟩
    let source : Text := ['b', 'a', 'a', 'b', 'a', 'b', 'a', 'a', 'b', '=', 'b', 'b', 'a', 'a']
    let segments : List Segment := [.text ['b', 'a'], .raw ['a'], .eval '=' ['b'], .text ['a']]
    d.Valid ∧ d.Unbordered ∧ scan d source = .ok segments ∧
      scan d (spans d [.raw ['=']]) ≠ .ok [.raw ['=']] := by
  intro d source segments
  have hd : d.Valid := by decide
  have h : d.Unbordered := ⟨by decide, by decide, by rintro c ⟨⟩; decide⟩
  refine ⟨hd, h, (scan_spans_iff_local.1 d hd h segments).mpr ⟨?_, ?_⟩, ?_⟩
  · decide
  · decide
  · intro hscan
    obtain ⟨hlocal, -⟩ := (scan_spans_iff_local.1 d hd h _).mp hscan
    revert hlocal
    decide

end Stencil
