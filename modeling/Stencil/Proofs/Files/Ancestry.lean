import Stencil.Proofs.Files.Places

/-!
The directories around a path. They are found by the components of the path, which leave out the
steps to `.`; still each of them is at a place that the path itself leads through.
-/
namespace Stencil

namespace Path

variable {p q : Path} {names : List Text} {s step : Text}

theorem slash_not_mem_of_mem_splitOn (h : step ∈ s.splitOn '/') : '/' ∉ step := by
  induction s generalizing step with
  | nil =>
    rw [List.splitOn_nil, List.mem_singleton] at h
    simp [h]
  | cons c s ih =>
    rw [List.splitOn_cons_eq_if_modifyHead] at h
    split at h
    · rcases List.mem_cons.mp h with rfl | h
      · exact List.not_mem_nil
      · exact ih h
    · rename_i hc
      obtain ⟨first, others, hs⟩ := List.exists_cons_of_ne_nil (List.splitOn_ne_nil '/' s)
      rw [hs, List.modifyHead_cons] at h
      rw [hs] at ih
      rcases List.mem_cons.mp h with rfl | h
      · rw [List.mem_cons, not_or]
        exact ⟨fun he => hc (beq_iff_eq.mpr he.symm), ih List.mem_cons_self⟩
      · exact ih (List.mem_cons_of_mem _ h)

theorem of_mem_steps (h : step ∈ p.steps) : step ≠ [] ∧ '/' ∉ step := by
  obtain ⟨hmem, hne⟩ := List.mem_filter.mp h
  exact ⟨of_decide_eq_true hne, slash_not_mem_of_mem_splitOn hmem⟩

theorem components_subset_steps (p : Path) : p.components ⊆ p.steps := by
  rw [components]
  split
  · exact List.nil_subset _
  · rename_i c steps hsteps
    rw [hsteps]
    split
    · exact List.subset_cons_of_subset c List.filter_sublist.subset
    · exact List.cons_subset_cons c List.filter_sublist.subset

/-- The path of some names, starting where `p` starts. -/
def ofNames (p : Path) (names : List Text) : Path :=
  let text := List.intercalate ['/'] names
  ⟨if p.isAbsolute then '/' :: text else text⟩

theorem eq_or_eq_ofNames_of_mem_ancestry (h : q ∈ p.ancestry) :
    q = p ∨ ∃ names, names ≠ [] ∧ names <+: p.components ∧ q = p.ofNames names := by
  rw [ancestry] at h
  split at h
  · cases h
  · rcases List.mem_cons.mp h with rfl | h
    · exact Or.inl rfl
    · obtain ⟨k, hk, rfl⟩ := List.mem_map.mp h
      refine Or.inr ⟨_, ?_, (List.take_prefix _ _).trans (List.dropLast_prefix _), rfl⟩
      rw [List.mem_range] at hk
      rw [← List.length_pos_iff, List.length_take]
      omega

theorem splitOn_intercalate_of_subset (hne : names ≠ []) (hnames : names ⊆ p.steps) :
    (List.intercalate ['/'] names).splitOn '/' = names :=
  List.splitOn_intercalate '/' (fun _ hname => (of_mem_steps (hnames hname)).2) hne

theorem splitOn_slash_cons (s : Text) : ('/' :: s).splitOn '/' = [] :: s.splitOn '/' := by
  rw [List.splitOn_cons_eq_if_modifyHead, if_pos (beq_self_eq_true _)]

theorem steps_ofNames (hne : names ≠ []) (hnames : names ⊆ p.steps) :
    (p.ofNames names).steps = names := by
  have hfilter : names.filter (· ≠ []) = names :=
    List.filter_eq_self.mpr fun name hname => decide_eq_true (of_mem_steps (hnames hname)).1
  simp only [steps, ofNames]
  split
  · rw [splitOn_slash_cons, splitOn_intercalate_of_subset hne hnames,
      List.filter_cons_of_neg (by simp), hfilter]
  · rw [splitOn_intercalate_of_subset hne hnames, hfilter]

theorem isAbsolute_ofNames (hne : names ≠ []) (hnames : names ⊆ p.steps) :
    (p.ofNames names).isAbsolute = p.isAbsolute := by
  rw [ofNames]
  split
  · rename_i hp
    rw [hp]
    rfl
  · rename_i hp
    rw [Bool.not_eq_true] at hp
    rw [hp]
    refine decide_eq_false fun hslash => ?_
    -- A slash in front would be cut off as a name without characters.
    obtain ⟨text, htext : List.intercalate ['/'] names = '/' :: text⟩ :=
      List.head?_eq_some_iff.mp hslash
    have hsplit := splitOn_intercalate_of_subset hne hnames
    rw [htext, splitOn_slash_cons] at hsplit
    have hempty : [] ∈ names := hsplit ▸ List.mem_cons_self
    exact (of_mem_steps (hnames hempty)).1 rfl

end Path

namespace FileSystem

variable {fs : FileSystem} {p q : Path} {start place names steps : List Text}

/-- A place that a path leads through, or to. -/
def OnTheWay (fs : FileSystem) (p : Path) (place : List Text) : Prop :=
  ∃ steps, steps <+: p.steps ∧ fs.along p steps = .ok place

/-- Steps to `.` can be put back: where a step can be taken, there is a directory to stay in. -/
theorem exists_follow_of_filter (h : names <+: steps.filter (· ≠ "."))
    (hfollow : fs.follow start names = .ok place) :
    ∃ before, before <+: steps ∧ fs.follow start before = .ok place := by
  induction steps generalizing start names with
  | nil =>
    obtain rfl := List.prefix_nil.mp h
    exact ⟨[], List.nil_prefix, hfollow⟩
  | cons step steps ih =>
    cases names with
    | nil => exact ⟨[], List.nil_prefix, hfollow⟩
    | cons name names =>
      obtain ⟨hstart, hshort, hrest⟩ := follow_cons_eq_ok_iff.mp hfollow
      by_cases hdot : step = "."
      · subst hdot
        rw [List.filter_cons_of_neg (by simp)] at h
        obtain ⟨before, hbefore, hfollow⟩ := ih h hfollow
        refine ⟨_ :: before, List.cons_prefix_cons.mpr ⟨rfl, hbefore⟩, ?_⟩
        exact follow_cons_eq_ok_iff.mpr ⟨hstart, by decide, hfollow⟩
      · rw [List.filter_cons_of_pos (by simpa using hdot)] at h
        obtain ⟨rfl, hnames⟩ := List.cons_prefix_cons.mp h
        obtain ⟨before, hbefore, hfollow⟩ := ih hnames hrest
        refine ⟨name :: before, List.cons_prefix_cons.mpr ⟨rfl, hbefore⟩, ?_⟩
        exact follow_cons_eq_ok_iff.mpr ⟨hstart, hshort, hfollow⟩

theorem onTheWay_of_components (h : names <+: p.components)
    (halong : fs.along p names = .ok place) : fs.OnTheWay p place := by
  rw [Path.components] at h
  rw [OnTheWay]
  cases hsteps : p.steps with
  | nil =>
    rw [hsteps] at h
    exact ⟨names, h, halong⟩
  | cons step steps =>
    simp only [hsteps] at h
    split at h
    · rename_i hdot
      -- The first step is left out too, as it is a step to `.`.
      have hnames : names <+: (step :: steps).filter (· ≠ ".".toList) := by
        rwa [List.filter_cons_of_neg (by simp [hdot.1])]
      obtain ⟨start, hstart, hfollow⟩ :=
        along_append_eq_ok_iff.mp (show fs.along p ([] ++ names) = .ok place from halong)
      obtain ⟨before, hbefore, hfollow⟩ := exists_follow_of_filter hnames hfollow
      exact ⟨before, hbefore, along_append_eq_ok_iff.mpr ⟨start, hstart, hfollow⟩⟩
    · cases names with
      | nil => exact ⟨[], List.nil_prefix, halong⟩
      | cons name names =>
        obtain ⟨rfl, hnames⟩ := List.cons_prefix_cons.mp h
        obtain ⟨start, hstart, hfollow⟩ :=
          along_append_eq_ok_iff.mp (show fs.along p ([name] ++ names) = .ok place from halong)
        obtain ⟨before, hbefore, hfollow⟩ := exists_follow_of_filter hnames hfollow
        exact ⟨name :: before, List.cons_prefix_cons.mpr ⟨rfl, hbefore⟩,
          along_append_eq_ok_iff.mpr ⟨start, hstart, hfollow⟩⟩

/-- The directories around a path are on the way to it. -/
theorem onTheWay_of_ancestry (hq : q ∈ p.ancestry) (h : fs.placeOf q q.steps = .ok place) :
    fs.OnTheWay p place := by
  obtain ⟨-, halong⟩ := placeOf_eq_ok_iff.mp h
  obtain rfl | ⟨names, hne, hprefix, rfl⟩ := Path.eq_or_eq_ofNames_of_mem_ancestry hq
  · exact ⟨_, List.prefix_rfl, halong⟩
  · have hnames := List.Subset.trans hprefix.subset p.components_subset_steps
    rw [along, Path.steps_ofNames hne hnames, Path.isAbsolute_ofNames hne hnames] at halong
    exact onTheWay_of_components hprefix halong

end FileSystem

end Stencil
