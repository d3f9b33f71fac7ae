import Stencil.Proofs.Scanner.Canonical

/-! Segments cut off a source one after the other, and the same cuts in a source that goes on. -/
namespace Stencil.Segment

variable {d : Delimiters} {segment : Segment} {segments others : List Segment}
  {t source middle rest : Text}

/-- Scanning cuts the segments off the source in turn and leaves the rest. -/
inductive Cuts (d : Delimiters) : List Segment → Text → Text → Prop
  | nil {source : Text} : Cuts d [] source source
  | cons {segment : Segment} {segments : List Segment} {source middle rest : Text} :
    Leads d segment source middle → Cuts d segments middle rest →
      Cuts d (segment :: segments) source rest

theorem Leads.source_ne_nil (hd : d.Valid) (h : Leads d segment source rest) : source ≠ [] := by
  rintro rfl
  exact Nat.not_lt_zero _ (h.rest_shorter hd)

/-- A text does not lead where another region or the end has come. -/
theorem Leads.text_not_at_cut (h : Leads d (text t) source rest) :
    ¬ (source = [] ∨ d.start <+: source) := by
  obtain ⟨rfl, ⟨ht, hclear⟩, -⟩ := h
  rintro (he | hstart)
  · exact ht (List.append_eq_nil_iff.mp he).1
  · exact hclear 0 (List.length_pos_iff.mpr ht) hstart

namespace Cuts

theorem source_eq (h : Cuts d segments source rest) : source = spans d segments ++ rest := by
  induction h with
  | nil => rfl
  | cons hlead _ ih => rw [hlead.source_eq, ih, spans_cons, List.append_assoc]

theorem append (h : Cuts d segments source middle) (h' : Cuts d others middle rest) :
    Cuts d (segments ++ others) source rest := by
  induction h with
  | nil => exact h'
  | cons hlead _ ih => exact .cons hlead (ih h')

theorem of_append (h : Cuts d (segments ++ others) source rest) :
    ∃ middle, Cuts d segments source middle ∧ Cuts d others middle rest := by
  induction segments generalizing source with
  | nil => exact ⟨source, .nil, h⟩
  | cons segment segments ih =>
    obtain _ | ⟨hlead, hmore⟩ := h
    obtain ⟨middle, hsegments, hothers⟩ := ih hmore
    exact ⟨middle, .cons hlead hsegments, hothers⟩

/-- Every segment takes at least one character. -/
theorem length_le (hd : d.Valid) (h : Cuts d segments source rest) :
    segments.length + rest.length ≤ source.length := by
  induction h with
  | nil => simp
  | cons hlead _ ih =>
    have := hlead.rest_shorter hd
    rw [List.length_cons]
    omega

theorem head_not_text (h : Cuts d segments source rest) (hs : source = [] ∨ d.start <+: source) :
    ∀ next ∈ segments.head?, ¬ next.isText := by
  cases h with
  | nil => exact nofun
  | @cons segment _ _ _ _ hlead _ =>
    rintro _ ⟨⟩ ht
    cases segment with
    | text t => exact hlead.text_not_at_cut hs
    | eval _ _ | raw _ => cases ht

end Cuts

theorem Canonical.cuts (h : Canonical d rest segments) (hr : rest = [] ∨ d.start <+: rest) :
    Cuts d segments (spans d segments ++ rest) rest := by
  induction segments with
  | nil => exact .nil
  | cons segment segments ih => exact .cons (h.leads hr) (ih h.2.2)

theorem StuckAfter.cuts {tail : Text} (h : StuckAfter d segments source tail) :
    Cuts d segments source (d.start ++ tail) := by
  rw [h.source_eq]
  exact h.canonical.cuts (Or.inr (List.prefix_append _ _))

/-- What comes after a region does not touch it, and a text that has ended has met a region. -/
theorem Leads.extend (h : Leads d segment source rest) (hrest : segment.isText → rest ≠ [])
    (more : Text) : Leads d segment (source ++ more) (rest ++ more) := by
  obtain ⟨rfl, hfit, hends⟩ := h
  cases segment with
  | eval _ _ | raw _ => exact ⟨List.append_assoc _ _ _, hfit, nofun⟩
  | text t =>
    obtain ⟨ht, hclear⟩ := hfit
    obtain ⟨r, rfl⟩ := (hends rfl).resolve_left (hrest rfl)
    have hstart : d.start <+: d.start ++ r ++ more := by simp
    refine ⟨List.append_assoc _ _ _, ⟨ht, ?_⟩, fun _ => Or.inr hstart⟩
    rw [List.append_assoc]
    exact Text.clear_append_iff.mpr (Text.clear_append_iff.mp hclear)

/-- A source that goes on is cut in the same places, unless its last piece may have to grow. -/
theorem Cuts.extend (hd : d.Valid) (h : Cuts d segments source rest)
    (hlast : ∀ last ∈ segments.getLast?, last.isText → rest ≠ []) (more : Text) :
    Cuts d segments (source ++ more) (rest ++ more) := by
  induction h with
  | nil => exact .nil
  | @cons segment segments source middle rest hlead hmore ih =>
    -- Only the last piece can stand at the end; behind any other one the next piece begins.
    cases hmore with
    | nil => exact .cons (hlead.extend (hlast segment rfl) more) .nil
    | cons hnext hmore =>
      exact .cons (hlead.extend (fun _ => hnext.source_ne_nil hd) more) (ih hlast)

end Stencil.Segment
