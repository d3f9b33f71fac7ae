import Stencil.Delimiters.Ambiguity
import Stencil.Proofs.Scanner.Markers

/-!
What the warnings on delimiters foretell. There is one on the two delimiters just where both can
match at one place, and one on a marker just where a region without code is not closed, since the
marker takes the first character of the end delimiter away.
-/
namespace Stencil

/-- Two texts can stand at one place only if one of them begins with the other. -/
theorem Text.exists_both_at_iff {p q : Text} :
    (∃ (s : Text) (i : Nat), p <+: s.drop i ∧ q <+: s.drop i) ↔ p <+: q ∨ q <+: p := by
  constructor
  · rintro ⟨s, i, hp, hq⟩
    exact List.prefix_or_prefix_of_prefix hp hq
  · rintro (hpq | hqp)
    · exact ⟨q, 0, hpq, List.prefix_refl q⟩
    · exact ⟨p, 0, List.prefix_refl p, hqp⟩

namespace Ambiguity

inductive Kind
  | delimiters
  | marker
  deriving DecidableEq

/-- What a warning is about: the two delimiters, or a marker and the end delimiter. -/
def kind : Ambiguity → Kind
  | sameDelimiters _ | overlappingDelimiters _ _ => .delimiters
  | markerStartsStop _ _ => .marker

/-- What a warning says is so for the delimiters. -/
def Of (d : Delimiters) : Ambiguity → Prop
  | sameDelimiters delimiter => d.start = delimiter ∧ d.stop = delimiter
  | overlappingDelimiters start stop =>
    d.start = start ∧ d.stop = stop ∧ start ≠ stop ∧ (start <+: stop ∨ stop <+: start)
  | markerStartsStop marker stop => d.stop = stop ∧ marker ∈ stop.head? ∧ marker ∈ d.markers

theorem kinds_toList_sublist {o : Option Ambiguity} {k : Kind} (h : ∀ a, o = some a → a.kind = k) :
    (o.toList.map kind).Sublist [k] := by
  cases o with
  | none => exact List.nil_sublist _
  | some a => simp [h a rfl]

end Ambiguity

variable {d : Delimiters} {a : Ambiguity}

namespace Delimiters

/-- One of the warnings is of the kind. -/
def WarnedOf (d : Delimiters) (kind : Ambiguity.Kind) : Prop :=
  ∃ a ∈ d.ambiguities, a.kind = kind

instance (d : Delimiters) (kind : Ambiguity.Kind) : Decidable (d.WarnedOf kind) :=
  inferInstanceAs (Decidable (∃ a ∈ d.ambiguities, a.kind = kind))

theorem not_unclashing_iff : ¬ d.Unclashing ↔ ∃ c ∈ d.stop.head?, c ∈ d.markers := by
  simp [Unclashing]

theorem sharedBeginning?_eq_some_iff :
    d.sharedBeginning? = some a ↔ a.kind = .delimiters ∧ a.Of d := by
  rw [sharedBeginning?]
  split
  · rename_i hsame
    constructor
    · rintro ⟨⟩
      exact ⟨rfl, rfl, hsame.symm⟩
    · rintro ⟨hkind, ha⟩
      cases a with
      | sameDelimiters delimiter => rw [ha.1]
      | overlappingDelimiters start stop =>
        obtain ⟨rfl, rfl, hne, -⟩ := ha
        exact (hne hsame).elim
      | markerStartsStop marker stop => cases hkind
  · rename_i hne
    simp only [Bool.or_eq_true, List.isPrefixOf_iff_prefix, Option.ite_none_right_eq_some]
    constructor
    · rintro ⟨hbegins, ⟨⟩⟩
      exact ⟨rfl, rfl, rfl, hne, hbegins⟩
    · rintro ⟨hkind, ha⟩
      cases a with
      | sameDelimiters delimiter => exact (hne (ha.1.trans ha.2.symm)).elim
      | overlappingDelimiters start stop =>
        obtain ⟨rfl, rfl, -, hbegins⟩ := ha
        exact ⟨hbegins, rfl⟩
      | markerStartsStop marker stop => cases hkind

theorem markerClash?_eq_some_iff : d.markerClash? = some a ↔ a.kind = .marker ∧ a.Of d := by
  rw [markerClash?]
  split
  · rename_i hstop
    refine iff_of_false nofun ?_
    rintro ⟨hkind, ha⟩
    cases a with
    | sameDelimiters _ | overlappingDelimiters _ _ => cases hkind
    | markerStartsStop marker stop =>
      obtain ⟨rfl, hhead, -⟩ := ha
      rw [hstop] at hhead
      cases hhead
  · rename_i c rest hstop
    rw [Option.ite_none_right_eq_some]
    constructor
    · rintro ⟨hc, ⟨⟩⟩
      exact ⟨rfl, rfl, by rw [hstop]; rfl, hc⟩
    · rintro ⟨hkind, ha⟩
      cases a with
      | sameDelimiters _ | overlappingDelimiters _ _ => cases hkind
      | markerStartsStop marker stop =>
        obtain ⟨rfl, hhead, hmarker⟩ := ha
        rw [hstop] at hhead
        cases hhead
        exact ⟨hmarker, rfl⟩

/-- There is a warning for all that can be warned of, and for nothing else. -/
theorem mem_ambiguities_iff : a ∈ d.ambiguities ↔ a.Of d := by
  rw [ambiguities, List.mem_append, Option.mem_toList, Option.mem_toList,
    sharedBeginning?_eq_some_iff, markerClash?_eq_some_iff, ← or_and_right]
  refine and_iff_right ?_
  cases a.kind with
  | delimiters => exact Or.inl rfl
  | marker => exact Or.inr rfl

theorem warnedOf_delimiters_iff :
    d.WarnedOf .delimiters ↔ d.start <+: d.stop ∨ d.stop <+: d.start := by
  constructor
  · rintro ⟨a, ha, hkind⟩
    have hof := mem_ambiguities_iff.mp ha
    cases a with
    | sameDelimiters delimiter =>
      obtain ⟨hstart, hstop⟩ := hof
      rw [hstart, hstop]
      exact Or.inl (List.prefix_refl delimiter)
    | overlappingDelimiters start stop =>
      obtain ⟨rfl, rfl, -, hbegins⟩ := hof
      exact hbegins
    | markerStartsStop marker stop => cases hkind
  · intro hbegins
    by_cases hsame : d.start = d.stop
    · exact ⟨.sameDelimiters d.start, mem_ambiguities_iff.mpr ⟨rfl, hsame.symm⟩, rfl⟩
    · exact ⟨.overlappingDelimiters d.start d.stop,
        mem_ambiguities_iff.mpr ⟨rfl, rfl, hsame, hbegins⟩, rfl⟩

theorem warnedOf_marker_iff : d.WarnedOf .marker ↔ ¬ d.Unclashing := by
  rw [not_unclashing_iff]
  constructor
  · rintro ⟨a, ha, hkind⟩
    have hof := mem_ambiguities_iff.mp ha
    cases a with
    | sameDelimiters _ | overlappingDelimiters _ _ => cases hkind
    | markerStartsStop marker stop =>
      obtain ⟨rfl, hhead, hmarker⟩ := hof
      exact ⟨marker, hhead, hmarker⟩
  · rintro ⟨c, hhead, hc⟩
    exact ⟨.markerStartsStop c d.stop, mem_ambiguities_iff.mpr ⟨rfl, hhead, hc⟩, rfl⟩

/-- The warning on the delimiters, if there is one, comes before the one on a marker. -/
theorem kinds_ambiguities_sublist (d : Delimiters) :
    (d.ambiguities.map Ambiguity.kind).Sublist [.delimiters, .marker] := by
  have hdelimiters : (d.sharedBeginning?.toList.map Ambiguity.kind).Sublist [.delimiters] :=
    Ambiguity.kinds_toList_sublist fun a ha => (sharedBeginning?_eq_some_iff.mp ha).1
  have hmarker : (d.markerClash?.toList.map Ambiguity.kind).Sublist [.marker] :=
    Ambiguity.kinds_toList_sublist fun a ha => (markerClash?_eq_some_iff.mp ha).1
  rw [ambiguities, List.map_append]
  exact hdelimiters.append hmarker

end Delimiters

open Segment (Unclosed StuckAfter Canonical)

/-- A marker that begins the end delimiter leaves too little of it to close the region. -/
theorem Segment.unclosed_stop (h : ¬ d.Unclashing) : Unclosed d d.stop := by
  obtain ⟨c, hhead, hc⟩ := Delimiters.not_unclashing_iff.mp h
  obtain ⟨rest, hstop⟩ := List.head?_eq_some_iff.mp hhead
  -- What the marker leaves is shorter than the delimiter that is searched for in it.
  intro hcloses
  have hlen := hcloses.length_le
  rw [hstop, afterMarker, if_pos hc, List.length_cons] at hlen
  omega

theorem scan_empty_region (hd : d.Valid) (h : d.Unclashing) :
    scan d (d.start ++ d.stop) = .ok [.raw []] := by
  have hcanonical : Canonical d [] [.raw []] := ⟨⟨h, Text.clear_nil⟩, nofun, trivial⟩
  have hscan := scan_of_canonical hd hcanonical
  simpa [Segment.spans, Segment.sourceText] using hscan

theorem scan_empty_region_of_clash (hd : d.Valid) (h : ¬ d.Unclashing) :
    scan d (d.start ++ d.stop) = .error (.unterminated d.start d.stop 0) := by
  have hstuck : StuckAfter d [] (d.start ++ d.stop) d.stop :=
    ⟨rfl, trivial, Segment.unclosed_stop h⟩
  exact scan_of_stuck hd hstuck

/-- The warnings say what is so, each kind at most once. There is one on the delimiters just if both
match at one place of some text, and one on a marker just if an empty region is not read as such;
the region then counts as never closed. -/
theorem ambiguities_foretell_scans (d : Delimiters) (hd : d.Valid) :
    (d.WarnedOf .delimiters ↔
      ∃ (s : Text) (i : Nat), d.start <+: s.drop i ∧ d.stop <+: s.drop i) ∧
    (d.WarnedOf .marker ↔ scan d (d.start ++ d.stop) ≠ .ok [.raw []]) ∧
    (scan d (d.start ++ d.stop) ≠ .ok [.raw []] →
      scan d (d.start ++ d.stop) = .error (.unterminated d.start d.stop 0)) ∧
    (∀ a, a ∈ d.ambiguities ↔ a.Of d) ∧ (d.ambiguities.map Ambiguity.kind).Nodup := by
  have hmisread : scan d (d.start ++ d.stop) ≠ .ok [.raw []] ↔ ¬ d.Unclashing := by
    refine ⟨mt (scan_empty_region hd), ?_⟩
    intro h hok
    cases hok.symm.trans (scan_empty_region_of_clash hd h)
  refine ⟨?_, ?_, ?_, fun a => Delimiters.mem_ambiguities_iff, ?_⟩
  · rw [Delimiters.warnedOf_delimiters_iff, Text.exists_both_at_iff]
  · rw [Delimiters.warnedOf_marker_iff, hmisread]
  · intro h
    exact scan_empty_region_of_clash hd (hmisread.mp h)
  · exact (Delimiters.kinds_ambiguities_sublist d).nodup (by decide)

/-- Delimiters and a marker with the same first character, so that there are both warnings. Another
marker leaves an empty region as it is. -/
theorem ambiguities_foretell_scans_both_kinds :
    let d : Delimiters := ⟨['é'], ['é', '='], .ofList ['é']⟩
    let d' : Delimiters := { d with markers := .ofList ['='] }
    d.Valid ∧ Ambiguity.overlappingDelimiters d.start d.stop ∈ d.ambiguities ∧
      (∃ (s : Text) (i : Nat), d.start <+: s.drop i ∧ d.stop <+: s.drop i) ∧
      scan d (d.start ++ d.stop) = .error (.unterminated d.start d.stop 0) ∧
      (d.ambiguities.map Ambiguity.kind).Nodup ∧
      d'.Valid ∧ scan d' (d'.start ++ d'.stop) = .ok [.raw []] := by
  intro d d'
  have hd : d.Valid := by decide
  have hd' : d'.Valid := by decide
  obtain ⟨hplaces, hmarker, hfails, hof, hkinds⟩ := ambiguities_foretell_scans d hd
  obtain ⟨-, hmarker', -⟩ := ambiguities_foretell_scans d' hd'
  refine ⟨hd, (hof _).mpr ⟨rfl, rfl, by decide, by decide⟩, hplaces.mp (by decide),
    hfails (hmarker.mp (by decide)), hkinds, hd', ?_⟩
  by_contra hmisread
  exact absurd (hmarker'.mpr hmisread) (by decide)

end Stencil
