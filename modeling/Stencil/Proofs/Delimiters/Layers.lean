import Stencil.Delimiters.Overrides
import Stencil.Proofs.Delimiters.Document
import Stencil.Proofs.Output

/-!
Delimiters in layers: what is standard, what a document says and what overrides say. Each layer
replaces single members of the one below it.
-/
namespace Stencil.Delimiters

variable {t : Text} {draft : Draft} {m : Member} {members : List Member} {base c : Delimiters}
  {o : Overrides}

/-- What a member says is so for the delimiters; markers may repeat and stand in any order. -/
def Member.Of (d : Delimiters) : Member → Prop
  | start delimiter => delimiter = d.start
  | stop delimiter => delimiter = d.stop
  | markers list => ∀ a, a ∈ list ↔ a ∈ d.markers

/-- The members that `keys` names are those of `d`; the others are as they were. -/
def replacing (base d : Delimiters) (keys : List Text) : Delimiters where
  start := if "start".toList ∈ keys then d.start else base.start
  stop := if "end".toList ∈ keys then d.stop else base.stop
  markers := if "eval_markers".toList ∈ keys then d.markers else base.markers

theorem replacing_cons (hm : m.Of c) (keys : List Text) :
    (m.addTo draft).complete.replacing c keys =
      draft.complete.replacing c (m.key :: keys) := by
  have hstart : "start".toList ≠ "end".toList := by decide
  have hstop : "end".toList ≠ "eval_markers".toList := by decide
  have hmarkers : "eval_markers".toList ≠ "start".toList := by decide
  cases m with
  | start delimiter =>
    obtain rfl : delimiter = c.start := hm
    change _ = draft.complete.replacing c ("start".toList :: keys)
    simp only [replacing, Draft.complete, Member.addTo, List.mem_cons, true_or, if_true,
      hstart.symm, hmarkers, false_or, Option.getD_some, ite_self]
  | stop delimiter =>
    obtain rfl : delimiter = c.stop := hm
    change _ = draft.complete.replacing c ("end".toList :: keys)
    simp only [replacing, Draft.complete, Member.addTo, List.mem_cons, true_or, if_true,
      hstart, hstop.symm, false_or, Option.getD_some, ite_self]
  | markers list =>
    have hlist : Markers.ofList list = c.markers :=
      Markers.ext fun a => Markers.mem_ofList.trans (hm a)
    change _ = draft.complete.replacing c ("eval_markers".toList :: keys)
    simp only [replacing, Draft.complete, Member.addTo, List.mem_cons, true_or, if_true,
      hstop, hmarkers.symm, false_or, Option.map_some, Option.getD_some, hlist, ite_self]

/-- Members that say what is so for some delimiters take what they say from these, and leave the
rest of a draft alone. -/
theorem complete_foldl_addTo (hmembers : ∀ m ∈ members, m.Of c) :
    (members.foldl Member.addTo draft).complete =
      draft.complete.replacing c (members.map Member.key) := by
  induction members generalizing draft with
  | nil => rfl
  | cons m members ih =>
    obtain ⟨hm, hmembers⟩ := List.forall_mem_cons.mp hmembers
    rw [List.foldl_cons, ih hmembers, List.map_cons, replacing_cons hm]

/-- What a document leaves out is standard. -/
theorem ofDocument_of_members (ht : IsDocument t members)
    (hkeys : members.Pairwise fun a b => a.key ≠ b.key) (hmembers : ∀ m ∈ members, m.Of c) :
    ofDocument t = .ok (standard.replacing c (members.map Member.key)) := by
  rw [ofDocument_of_isDocument ht hkeys, complete_foldl_addTo hmembers]
  rfl

theorem resolve_of_valid (h : (base.override o).Valid) :
    base.resolve o = .ok ⟨base.override o, h⟩ := dif_pos h

theorem resolve_of_not_valid (h : ¬ (base.override o).Valid) :
    base.resolve o = .error (.emptyDelimiter (base.override o).emptySide) := dif_neg h

theorem mem_markers_override {a : Char} :
    a ∈ (base.override o).markers ↔
      match o.markers with
      | some list => a ∈ list
      | none => a ∈ base.markers := by
  rw [override]
  cases o.markers with
  | some list => exact Markers.mem_ofList
  | none => rfl

end Stencil.Delimiters
