import Mathlib.Data.List.Basic
import Stencil.Proofs.Text.FirstOccurrence
import Stencil.Segment

/-! Canonical segment lists, and how every text begins with the spans of one. -/
namespace Stencil.Segment

variable {d : Delimiters} {segment : Segment} {segments : List Segment} {s source rest tail : Text}

/-- The spans of segments one after the other. -/
def spans (d : Delimiters) (segments : List Segment) : Text := segments.flatMap (sourceText d)

def isText : Segment → Bool
  | text _ => true
  | eval _ _ | raw _ => false

/-- A segment that is told from its own span, if `following` comes after it. -/
def Fits (d : Delimiters) (following : Text) : Segment → Prop
  | text content => content ≠ [] ∧ Text.Clear d.start content following
  | eval marker code => marker ∈ d.markers ∧ Text.Clear d.stop code d.stop
  | raw code => (∀ c ∈ (code ++ d.stop).head?, c ∉ d.markers) ∧ Text.Clear d.stop code d.stop

/-- Every segment fits before the spans after it and `rest`, and no two texts are adjacent. -/
def Canonical (d : Delimiters) (rest : Text) : List Segment → Prop
  | [] => True
  | segment :: segments =>
    segment.Fits d (spans d segments ++ rest) ∧
      (segment.isText → ∀ next ∈ segments.head?, ¬ next.isText) ∧ Canonical d rest segments

/-- What is left of a code region without its start delimiter and marker. -/
def afterMarker (d : Delimiters) : Text → Text
  | [] => []
  | c :: s => if c ∈ d.markers then s else c :: s

/-- The region whose start delimiter stands before `tail` has no end. -/
def Unclosed (d : Delimiters) (tail : Text) : Prop := ¬ d.stop <:+: afterMarker d tail

/-- The source reads as canonical segments, and then a region opens that has no end. -/
structure StuckAfter (d : Delimiters) (segments : List Segment) (source tail : Text) : Prop where
  source_eq : source = spans d segments ++ (d.start ++ tail)
  canonical : Canonical d (d.start ++ tail) segments
  unclosed : Unclosed d tail

instance decidableFits (d : Delimiters) (following : Text) :
    (segment : Segment) → Decidable (segment.Fits d following)
  | text _ | eval _ _ => inferInstanceAs (Decidable (_ ∧ _))
  | raw code =>
    have : Decidable (∀ c ∈ (code ++ d.stop).head?, c ∉ d.markers) := Option.decidableForallMem _
    inferInstanceAs (Decidable (_ ∧ _))

instance decidableCanonical (d : Delimiters) (rest : Text) :
    (segments : List Segment) → Decidable (Canonical d rest segments)
  | [] => isTrue trivial
  | segment :: segments =>
    have := decidableCanonical d rest segments
    inferInstanceAs (Decidable (segment.Fits d (spans d segments ++ rest) ∧
      (segment.isText → ∀ next ∈ segments.head?, ¬ next.isText) ∧ Canonical d rest segments))

instance (d : Delimiters) (tail : Text) : Decidable (Unclosed d tail) :=
  have : Decidable (d.stop <:+: afterMarker d tail) := List.instDecidableIsInfixOfDecidableEq _ _
  inferInstanceAs (Decidable (¬ _))

theorem spans_cons : spans d (segment :: segments) = segment.sourceText d ++ spans d segments :=
  List.flatMap_cons

theorem readCode?_eq_some_iff {make : Text → Segment} :
    readCode? d make s = some (segment, rest) ↔
      ∃ code, segment = make code ∧ s = code ++ d.stop ++ rest ∧ Text.Clear d.stop code d.stop := by
  simp only [readCode?, Option.map_eq_some_iff]
  constructor
  · rintro ⟨t, ht, he⟩
    obtain ⟨rfl, rfl⟩ := Prod.mk.inj he
    have hr := Text.dropPrefix?_eq_some.mp ht
    have hs := Text.breakAt_append s d.stop
    have hc := (Text.breakAt_clear s d.stop).1
    rw [hr] at hs hc
    exact ⟨_, rfl, by rw [List.append_assoc, hs], Text.clear_append_iff.mp hc⟩
  · rintro ⟨code, rfl, rfl, hc⟩
    rw [List.append_assoc, Text.breakAt_append_of_clear (Text.clear_append_iff.mpr hc)
      (Or.inr (List.prefix_append _ _))]
    exact ⟨rest, Text.dropPrefix?_eq_some.mpr rfl, rfl⟩

theorem readCode?_eq_none_iff {make : Text → Segment} (hd : d.Valid) :
    readCode? d make s = none ↔ ¬ d.stop <:+: s := by
  rw [← Text.dropPrefix?_breakAt_eq_none_iff hd.2]
  exact Option.map_eq_none_iff

theorem readRegion?_eq_some_iff (hd : d.Valid) :
    readRegion? d s = some (segment, rest) ↔
      segment.isText = false ∧ d.start ++ s = segment.sourceText d ++ rest ∧
        segment.Fits d rest := by
  constructor
  · intro h
    cases s with
    | nil => cases h
    | cons c s =>
      rw [readRegion?] at h
      split at h
      · rename_i hc
        obtain ⟨code, rfl, rfl, hcode⟩ := readCode?_eq_some_iff.mp h
        exact ⟨rfl, by simp [sourceText], hc, hcode⟩
      · rename_i hc
        obtain ⟨code, rfl, hs, hcode⟩ := readCode?_eq_some_iff.mp h
        refine ⟨rfl, by simp [sourceText, hs], ?_, hcode⟩
        intro a ha
        have hh := congrArg List.head? hs
        rw [List.head?_append_of_ne_nil _ (by simp [hd.2]), ha] at hh
        cases hh
        exact hc
  · rintro ⟨hcode, hs, hfit⟩
    cases segment with
    | text content => cases hcode
    | eval marker code =>
      obtain ⟨hm, hc⟩ := hfit
      have hs : s = marker :: (code ++ d.stop ++ rest) := by simpa [sourceText] using hs
      rw [hs, readRegion?, if_pos hm]
      exact readCode?_eq_some_iff.mpr ⟨code, rfl, rfl, hc⟩
    | raw code =>
      obtain ⟨hm, hc⟩ := hfit
      have hs : s = code ++ d.stop ++ rest := by simpa [sourceText] using hs
      cases s with
      | nil =>
        obtain ⟨hspan, -⟩ := List.append_eq_nil_iff.mp hs.symm
        exact (hd.2 (List.append_eq_nil_iff.mp hspan).2).elim
      | cons c s =>
        have hc' : c ∉ d.markers := by
          apply hm
          rw [← List.head?_append_of_ne_nil (code ++ d.stop) (by simp [hd.2]), ← hs]
          rfl
        rw [readRegion?, if_neg hc']
        exact readCode?_eq_some_iff.mpr ⟨code, rfl, hs, hc⟩

theorem readRegion?_eq_none_iff (hd : d.Valid) : readRegion? d s = none ↔ Unclosed d s := by
  cases s with
  | nil => exact iff_of_true rfl (fun h => hd.2 (List.infix_nil.mp h))
  | cons c s =>
    rw [readRegion?, Unclosed, afterMarker]
    split
    · exact readCode?_eq_none_iff hd
    · exact readCode?_eq_none_iff hd

/-- The source begins with the span of a segment that a scan cuts off there. -/
structure Leads (d : Delimiters) (segment : Segment) (source rest : Text) : Prop where
  source_eq : source = segment.sourceText d ++ rest
  fits : segment.Fits d rest
  text_ends : segment.isText → rest = [] ∨ d.start <+: rest

theorem Leads.rest_shorter (hd : d.Valid) (h : Leads d segment source rest) :
    rest.length < source.length := by
  have hs := List.length_pos_iff.mpr hd.1
  obtain ⟨rfl, hfit, -⟩ := h
  cases segment with
  | text content =>
    have := List.length_pos_iff.mpr hfit.1
    simp only [sourceText, List.length_append]
    omega
  | eval _ _ | raw _ =>
    simp only [sourceText, List.length_append, List.length_cons]
    omega

/-- A scan can always go on: with a segment, or with a region that has no end. -/
theorem leads_or_unclosed (hd : d.Valid) (hs : source ≠ []) :
    (∃ segment rest, Leads d segment source rest) ∨
      ∃ tail, source = d.start ++ tail ∧ Unclosed d tail := by
  by_cases hp : d.start <+: source
  · obtain ⟨tail, rfl⟩ := hp
    cases hr : readRegion? d tail with
    | none => exact Or.inr ⟨tail, rfl, (readRegion?_eq_none_iff hd).mp hr⟩
    | some r =>
      obtain ⟨hcode, hspan, hfit⟩ := (readRegion?_eq_some_iff hd).mp hr
      exact Or.inl ⟨r.1, r.2, hspan, hfit, by simp [hcode]⟩
  · have ha := Text.breakAt_append source d.start
    obtain ⟨hc, hends⟩ := Text.breakAt_clear source d.start
    refine Or.inl ⟨text (source.breakAt d.start).1, (source.breakAt d.start).2, ha.symm, ⟨?_, hc⟩,
      fun _ => hends⟩
    intro he
    rw [he, List.nil_append] at ha
    rw [ha] at hends
    exact hends.elim hs hp

/-- Where no text comes first, a region opens, or there is nothing. -/
theorem spans_at_cut (h : ∀ next ∈ segments.head?, ¬ next.isText)
    (hr : rest = [] ∨ d.start <+: rest) :
    spans d segments ++ rest = [] ∨ d.start <+: spans d segments ++ rest := by
  cases segments with
  | nil => exact hr
  | cons next segments =>
    right
    rw [spans_cons, List.append_assoc]
    cases next with
    | text content => exact (h _ rfl rfl).elim
    | eval _ _ | raw _ => simp [sourceText]

/-- Before spans of a canonical list, or before the rest, a text ends where it should. -/
theorem Canonical.leads (h : Canonical d rest (segment :: segments))
    (hr : rest = [] ∨ d.start <+: rest) :
    Leads d segment (spans d (segment :: segments) ++ rest) (spans d segments ++ rest) := by
  obtain ⟨hfit, hadj, -⟩ := h
  refine ⟨by rw [spans_cons, List.append_assoc], hfit, ?_⟩
  intro ht
  exact spans_at_cut (hadj ht) hr

theorem Canonical.exists_fits (h : Canonical d rest segments) (hmem : segment ∈ segments) :
    ∃ following, segment.Fits d following := by
  induction segments with
  | nil => cases hmem
  | cons first segments ih =>
    obtain ⟨hfit, -, hmore⟩ := h
    obtain rfl | hmem := List.mem_cons.mp hmem
    · exact ⟨_, hfit⟩
    · exact ih hmore hmem

theorem Leads.canonical (h : Leads d segment source (spans d segments ++ rest))
    (hs : Canonical d rest segments) : Canonical d rest (segment :: segments) := by
  refine ⟨h.fits, ?_, hs⟩
  intro ht next hnext hnt
  cases segments with
  | nil => cases hnext
  | cons next' segments =>
    cases hnext
    cases next with
    | eval _ _ | raw _ => cases hnt
    | text content =>
      obtain ⟨⟨hne, hclear⟩, -⟩ := hs
      obtain hnil | hstart := h.text_ends ht
      · simp [spans_cons, sourceText, hne] at hnil
      · rw [spans_cons, List.append_assoc] at hstart
        exact hclear 0 (List.length_pos_iff.mpr hne) hstart

/-- Every text is the spans of a canonical list, or is stuck in a region behind such spans. -/
theorem canonical_or_stuck (hd : d.Valid) (source : Text) :
    (∃ segments, source = spans d segments ∧ Canonical d [] segments) ∨
      ∃ segments tail, StuckAfter d segments source tail := by
  by_cases hs : source = []
  · exact Or.inl ⟨[], hs, trivial⟩
  obtain ⟨segment, rest, h⟩ | ⟨tail, rfl, hu⟩ := leads_or_unclosed hd hs
  · have hshorter := h.rest_shorter hd
    obtain ⟨segments, rfl, hL⟩ | ⟨segments, tail, rfl, hL, hu⟩ := canonical_or_stuck hd rest
    · rw [← List.append_nil (spans d segments)] at h
      exact Or.inl ⟨segment :: segments, by simpa [spans_cons] using h.source_eq, h.canonical hL⟩
    · refine Or.inr ⟨segment :: segments, tail, ?_, h.canonical hL, hu⟩
      rw [h.source_eq, spans_cons, List.append_assoc]
  · exact Or.inr ⟨[], tail, rfl, trivial, hu⟩
termination_by source.length

end Stencil.Segment
