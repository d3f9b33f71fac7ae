import Mathlib.Data.List.Forall2
import Stencil.Proofs.Scanner.Reconstruction

/-!
The choice of eval markers. As long as no marker begins the end delimiter, a region ends in the same
place under any markers, and these decide only whether its code is evaluated.
-/
namespace Stencil

variable {d : Delimiters} {m : Markers} {source tail rest : Text} {segment : Segment}
  {segments : List Segment}

namespace Delimiters

/-- No marker is the first character of the end delimiter. -/
def Unclashing (d : Delimiters) : Prop := ∀ c ∈ d.stop.head?, c ∉ d.markers

theorem Unclashing.not_prefix (h : d.Unclashing) (hd : d.Valid) {c : Char} (hc : c ∈ d.markers)
    (s : Text) : ¬ d.stop <+: c :: s := by
  intro hp
  cases hstop : d.stop with
  | nil => exact hd.2 hstop
  | cons first stop =>
    rw [hstop, List.cons_prefix_cons] at hp
    obtain ⟨rfl, -⟩ := hp
    exact h first (by rw [hstop]; rfl) hc

end Delimiters

namespace Segment

open Text (Clear)

/-- The region around what stands between two delimiters. -/
def region (m : Markers) : Text → Segment
  | [] => raw []
  | c :: code => if c ∈ m then eval c code else raw (c :: code)

/-- The segment of the same span under other markers. -/
def remark (m : Markers) : Segment → Segment
  | text content => text content
  | eval marker code => region m (marker :: code)
  | raw code => region m code

theorem sourceText_region (d : Delimiters) (m : Markers) (s : Text) :
    (region m s).sourceText d = d.start ++ s ++ d.stop := by
  cases s with
  | nil => rfl
  | cons c code =>
    rw [region]
    split <;> rfl

theorem isText_region (m : Markers) (s : Text) : (region m s).isText = false := by
  cases s with
  | nil => rfl
  | cons c code =>
    rw [region]
    split <;> rfl

theorem isText_remark (m : Markers) (segment : Segment) :
    (segment.remark m).isText = segment.isText := by
  cases segment with
  | text content => rfl
  | eval marker code => exact isText_region m (marker :: code)
  | raw code => exact isText_region m code

theorem sourceText_remark (d : Delimiters) (m : Markers) (segment : Segment) :
    (segment.remark m).sourceText { d with markers := m } = segment.sourceText d := by
  cases segment with
  | text content => rfl
  | eval marker code => exact sourceText_region _ m (marker :: code)
  | raw code => exact sourceText_region _ m code

theorem spans_remark (d : Delimiters) (m : Markers) (segments : List Segment) :
    spans { d with markers := m } (segments.map (remark m)) = spans d segments := by
  rw [spans, spans, List.flatMap_map]
  exact List.flatMap_congr fun segment _ => sourceText_remark d m segment

/-- A region fits if the end delimiter is not met before its end. -/
theorem fits_region (h : d.Unclashing) {s : Text} (hs : Clear d.stop s d.stop) (following : Text) :
    (region d.markers s).Fits d following := by
  cases s with
  | nil => exact ⟨h, hs⟩
  | cons c code =>
    rw [region]
    split
    · rename_i hc
      exact ⟨hc, (Text.clear_cons.mp hs).2⟩
    · rename_i hc
      refine ⟨?_, hs⟩
      rintro _ ⟨⟩
      exact hc

/-- The end delimiter does not begin at a marker, so it can be searched for from there. -/
theorem clear_of_fits_eval (hd : d.Valid) (h : d.Unclashing) {marker : Char} {code following : Text}
    (hfit : (eval marker code).Fits d following) : Clear d.stop (marker :: code) d.stop :=
  Text.clear_cons.mpr ⟨h.not_prefix hd hfit.1 _, hfit.2⟩

theorem Fits.remark (hd : d.Valid) (h : d.Unclashing)
    (hm : Delimiters.Unclashing { d with markers := m }) {following : Text}
    (hfit : segment.Fits d following) :
    (segment.remark m).Fits { d with markers := m } following := by
  cases segment with
  | text content => exact hfit
  | eval marker code => exact fits_region hm (clear_of_fits_eval hd h hfit) following
  | raw code => exact fits_region hm hfit.2 following

/-- Under other markers the spans of a canonical list are those of a canonical list again. -/
theorem Canonical.remark (hd : d.Valid) (h : d.Unclashing)
    (hm : Delimiters.Unclashing { d with markers := m }) (hL : Canonical d rest segments) :
    Canonical { d with markers := m } rest (segments.map (Segment.remark m)) := by
  induction segments with
  | nil => trivial
  | cons segment segments ih =>
    obtain ⟨hfit, hadj, hmore⟩ := hL
    refine ⟨?_, ?_, ih hmore⟩
    · rw [spans_remark]
      exact hfit.remark hd h hm
    · intro ht next hnext
      rw [List.head?_map] at hnext
      obtain ⟨first, hfirst, rfl⟩ := Option.map_eq_some_iff.mp hnext
      rw [isText_remark] at ht ⊢
      exact hadj ht first hfirst

theorem unclosed_iff (hd : d.Valid) (h : d.Unclashing) :
    Unclosed d tail ↔ ¬ d.stop <:+: tail := by
  cases tail with
  | nil => rfl
  | cons c tail =>
    rw [Unclosed, afterMarker]
    split
    · rename_i hc
      rw [List.infix_cons_iff, or_iff_right (h.not_prefix hd hc tail)]
    · rfl

theorem StuckAfter.remark (hd : d.Valid) (h : d.Unclashing)
    (hm : Delimiters.Unclashing { d with markers := m })
    (hstuck : StuckAfter d segments source tail) :
    StuckAfter { d with markers := m } (segments.map (Segment.remark m)) source tail where
  source_eq := by
    rw [spans_remark]
    exact hstuck.source_eq
  canonical := hstuck.canonical.remark hd h hm
  unclosed := (unclosed_iff (d := { d with markers := m }) hd hm).mpr
    ((unclosed_iff hd h).mp hstuck.unclosed)

/-- Two segments that the same span gives under two sets of markers. -/
structure SameRegion (d₁ d₂ : Delimiters) (a b : Segment) : Prop where
  sourceText_eq : a.sourceText d₁ = b.sourceText d₂
  isText_eq : a.isText = b.isText
  /-- A marker that is none for the other set is the first character of the code. -/
  code_right : ∀ marker code code', a = eval marker code → b = raw code' → code' = marker :: code
  code_left : ∀ marker code code', b = eval marker code → a = raw code' → code' = marker :: code

theorem sameRegion_remark (d : Delimiters) (m : Markers) (segment : Segment) :
    SameRegion d { d with markers := m } segment (segment.remark m) where
  sourceText_eq := (sourceText_remark d m segment).symm
  isText_eq := (isText_remark m segment).symm
  code_right := by
    rintro marker code code' rfl hraw
    rw [Segment.remark, region] at hraw
    split at hraw
    · cases hraw
    · cases hraw
      rfl
  code_left := by
    rintro marker code code' heval rfl
    cases code' with
    | nil => cases heval
    | cons c code' =>
      rw [Segment.remark, region] at heval
      split at heval
      · cases heval
        rfl
      · cases heval

end Segment

/-- A source is cut in the same places under all markers that do not begin the end delimiter, and a
region without end is met in the same place. -/
theorem scan_under_markers {start stop : Text} (hstart : start ≠ []) (hstop : stop ≠ [])
    {m₁ m₂ : Markers} (h₁ : ∀ c ∈ stop.head?, c ∉ m₁) (h₂ : ∀ c ∈ stop.head?, c ∉ m₂)
    (source : Text) :
    (∃ offset, scan ⟨start, stop, m₁⟩ source = .error (.unterminated start stop offset) ∧
      scan ⟨start, stop, m₂⟩ source = .error (.unterminated start stop offset)) ∨
    ∃ segments₁ segments₂, scan ⟨start, stop, m₁⟩ source = .ok segments₁ ∧
      scan ⟨start, stop, m₂⟩ source = .ok segments₂ ∧
      List.Forall₂ (Segment.SameRegion ⟨start, stop, m₁⟩ ⟨start, stop, m₂⟩)
        segments₁ segments₂ := by
  let d : Delimiters := ⟨start, stop, m₁⟩
  have hd : d.Valid := ⟨hstart, hstop⟩
  have hd' : Delimiters.Valid { d with markers := m₂ } := hd
  obtain ⟨segments, rfl, hL⟩ | ⟨segments, tail, hstuck⟩ := Segment.canonical_or_stuck hd source
  · right
    have hscan := scan_of_canonical hd' (hL.remark hd h₁ h₂)
    rw [Segment.spans_remark] at hscan
    refine ⟨segments, segments.map (Segment.remark m₂), scan_of_canonical hd hL, hscan, ?_⟩
    rw [List.forall₂_map_right_iff, List.forall₂_same]
    exact fun segment _ => Segment.sameRegion_remark d m₂ segment
  · left
    have hscan := scan_of_stuck hd' (hstuck.remark hd h₁ h₂)
    rw [Segment.spans_remark] at hscan
    exact ⟨_, scan_of_stuck hd hstuck, hscan⟩

/-- One region is evaluated under the first markers and spliced under the second, and another one
the other way round. -/
theorem scan_under_markers_differing :
    let start : Text := ['<', '<']
    let stop : Text := ['>', '=', '>']
    let d₁ : Delimiters := ⟨start, stop, .ofList ['=']⟩
    let d₂ : Delimiters := ⟨start, stop, .ofList ['!', '<']⟩
    let source : Text := ['é', '<', '<', '=', '=', '>', '=', '>', '<', '<', '<', '>', '=', '>']
    let segments₁ : List Segment := [.text ['é'], .eval '=' ['='], .raw ['<']]
    let segments₂ : List Segment := [.text ['é'], .raw ['=', '='], .eval '<' []]
    scan d₁ source = .ok segments₁ ∧ scan d₂ source = .ok segments₂ ∧
      List.Forall₂ (Segment.SameRegion d₁ d₂) segments₁ segments₂ := by
  intro start stop d₁ d₂ source segments₁ segments₂
  have hscan₁ : scan d₁ source = .ok segments₁ := (scan_eq_ok_iff (by decide)).mpr ⟨rfl, by decide⟩
  have hscan₂ : scan d₂ source = .ok segments₂ := (scan_eq_ok_iff (by decide)).mpr ⟨rfl, by decide⟩
  refine ⟨hscan₁, hscan₂, ?_⟩
  obtain ⟨offset, herror, -⟩ | ⟨found₁, found₂, hok₁, hok₂, hsame⟩ :=
    scan_under_markers (show start ≠ [] by decide) (show stop ≠ [] by decide)
      (show ∀ c ∈ stop.head?, c ∉ d₁.markers by rintro _ ⟨⟩; decide)
      (show ∀ c ∈ stop.head?, c ∉ d₂.markers by rintro _ ⟨⟩; decide) source
  · cases hscan₁.symm.trans herror
  · cases hscan₁.symm.trans hok₁
    cases hscan₂.symm.trans hok₂
    exact hsame

end Stencil
