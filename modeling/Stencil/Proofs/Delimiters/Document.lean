import Stencil.Delimiters.Document
import Stencil.Proofs.Json.RoundTrip

/-!
Documents of delimiters. Members are read in whatever order they stand and however they are written,
printed documents among them, and a member that is left out keeps its standard value.
-/
namespace Stencil.Delimiters

open Json (Ahead Enclosed IsRead IsString Keyed Plain Reads Separated Style isSpace skipSpace)

variable {style : Style} {n : Nat} {s t u rest : Text} {d : Draft} {m : Member}
  {members : List Member}

/-- A member that a document of delimiters may have; markers may repeat and stand in any order. -/
inductive Member
  | start (delimiter : Text)
  | stop (delimiter : Text)
  | markers (list : List Char)

namespace Member

def key : Member → Text
  | start _ => "start"
  | stop _ => "end"
  | markers _ => "eval_markers"

def value : Member → Json
  | start delimiter | stop delimiter => .string delimiter
  | markers list => .array (list.map fun c => .string [c])

def entry (m : Member) : Text × Json := (m.key, m.value)

def addTo (d : Draft) : Member → Draft
  | start delimiter => { d with start := some delimiter }
  | stop delimiter => { d with stop := some delimiter }
  | markers list => { d with markers := some list }

/-- A text for the value of a member. -/
def IsValue (t : Text) : Member → Prop
  | start delimiter | stop delimiter => IsString t delimiter
  | markers list => Enclosed '[' ']' (fun t a => IsString t [a]) t list

/-- A text for a member: its key, a colon and its value. -/
def Written : Text → Member → Prop := Keyed key IsValue

/-- A draft has no member of this key so far. -/
def IsNew (d : Draft) : Member → Prop
  | start _ => d.start = none
  | stop _ => d.stop = none
  | markers _ => d.markers = none

theorem isNew_addTo {a b : Member} (hb : b.IsNew d) (h : a.key ≠ b.key) : b.IsNew (a.addTo d) := by
  cases a <;> cases b <;> first | exact hb | exact (h rfl).elim

theorem plain_value (m : Member) (depth : Nat) : Plain (depth + 1) m.value := by
  cases m with
  | start _ | stop _ => exact .string _
  | markers list =>
    apply Plain.array
    intro x hx
    obtain ⟨c, -, rfl⟩ := List.mem_map.mp hx
    exact .string _

theorem isValue_render (m : Member) (hstyle : style.Blank) (k : Nat) :
    m.IsValue (m.value.render style k) := by
  cases m with
  | start delimiter | stop delimiter => exact Json.isString_stringText delimiter
  | markers list =>
    refine Json.enclosed_render_array hstyle (List.forall₂_map_left_iff.mpr ?_) k
    exact List.forall₂_same.mpr fun c _ _ => Json.isString_stringText [c]

end Member

/-- A document of members, written in any way that JSON allows. -/
inductive IsDocument : Text → List Member → Prop
  | object {before t after : Text} {members : List Member} : before.all isSpace →
    after.all isSpace → Enclosed '{' '}' Member.Written t members →
      IsDocument (before ++ (t ++ after)) members

/-- A printed document is one way to write its members. -/
theorem isDocument_render (members : List Member) (hstyle : style.Blank) :
    IsDocument ((Json.object (members.map Member.entry)).render style 0) members := by
  have hvalues : List.Forall₂
      (fun e m => e.1 = m.key ∧ ∀ k, m.IsValue (e.2.render style k))
      (members.map Member.entry) members :=
    List.forall₂_map_left_iff.mpr
      (List.forall₂_same.mpr fun m _ => ⟨rfl, m.isValue_render hstyle⟩)
  have hmembers : Enclosed '{' '}' Member.Written _ members :=
    Json.enclosed_render_object hstyle hvalues 0
  have hdocument := @IsDocument.object [] _ [] members rfl rfl hmembers
  rwa [List.nil_append, List.append_nil] at hdocument

theorem isRead_readText {delimiter : Text} (ht : IsString t delimiter) :
    IsRead readText t delimiter := by
  refine Json.isRead_of_first rfl (by decide) ht.exists_reads fun hs hread => ?_
  unfold readText
  split
  · rename_i he
    cases hs.symm.trans he
    exact hread _
  · rename_i hne
    exact (hne _ hs).elim

theorem isRead_readChar {a : Char} (ht : IsString t [a]) : IsRead readChar t a := by
  refine Json.isRead_of_first rfl (by decide) ht.exists_reads fun hs hread => ?_
  unfold readChar
  split
  · rename_i he
    cases hs.symm.trans he
    obtain ⟨hshort, hread⟩ := hread (Json.skipSpace_cons_lt he)
    rw [hread]
    exact ⟨hshort, rfl⟩
  · rename_i hne
    exact (hne _ hs).elim

theorem isRead_readMarkers {list : List Char}
    (ht : Enclosed '[' ']' (fun t a => IsString t [a]) t list) : IsRead readMarkers t list := by
  have ht : Enclosed '[' ']' (IsRead readChar) t list := ht.imp fun _ _ => isRead_readChar
  refine Json.isRead_of_first rfl (by decide) ht.exists_reads fun hs hread => ?_
  unfold readMarkers
  split
  · rename_i he
    cases hs.symm.trans he
    exact hread _
  · rename_i hne
    exact (hne _ hs).elim

/-- A value that is read behind a colon. -/
theorem reads_value {α : Type} {reader : Json.Reader α} {x : α} (f : α → Draft)
    (hx : IsRead reader t x) (hcolon : skipSpace s = ':' :: u)
    (hu : skipSpace u = skipSpace (t ++ rest)) :
    Reads (readMember.value reader f s) (f x) rest := by
  obtain ⟨hcolon, hs⟩ := Json.reads_readColon hcolon (Json.self_short s)
  obtain ⟨hshort, hread⟩ := hx.reads_skipSpace hu
  rw [readMember.value, hs]
  simp only [bind, Except.bind, hread]
  exact ⟨_, rfl⟩

theorem readMember_start (hd : d.start = none) :
    readMember d "start" s =
      readMember.value readText (fun v => { d with start := some v }) s := by
  rw [readMember, if_pos rfl, if_neg (by simp [hd])]

theorem readMember_stop (hd : d.stop = none) :
    readMember d "end" s =
      readMember.value readText (fun v => { d with stop := some v }) s := by
  rw [readMember, if_neg (by decide), if_pos rfl, if_neg (by simp [hd])]

theorem readMember_markers (hd : d.markers = none) :
    readMember d "eval_markers" s =
      readMember.value readMarkers (fun v => { d with markers := some v }) s := by
  rw [readMember, if_neg (by decide), if_neg (by decide), if_pos rfl, if_neg (by simp [hd])]

/-- The value of a new member is read into the draft. -/
theorem reads_readMember (hnew : m.IsNew d) (hvalue : m.IsValue t) (hcolon : skipSpace s = ':' :: u)
    (hu : skipSpace u = skipSpace (t ++ rest)) :
    Reads (readMember d m.key s) (m.addTo d) rest := by
  cases m with
  | start delimiter =>
    change Reads (readMember d "start" s) _ rest
    rw [readMember_start hnew]
    exact reads_value (fun v => { d with start := some v }) (isRead_readText hvalue) hcolon hu
  | stop delimiter =>
    change Reads (readMember d "end" s) _ rest
    rw [readMember_stop hnew]
    exact reads_value (fun v => { d with stop := some v }) (isRead_readText hvalue) hcolon hu
  | markers list =>
    change Reads (readMember d "eval_markers" s) _ rest
    rw [readMember_markers hnew]
    exact reads_value (fun v => { d with markers := some v }) (isRead_readMarkers hvalue) hcolon hu

theorem reads_readMembers_close {first : Bool} (hs : skipSpace s = '}' :: rest)
    (h : s.length < n) : Reads (readMembers d first s h) d rest := by
  obtain ⟨hshort, hnext⟩ := Json.reads_nextKey_close first hs (Json.self_short s)
  rw [readMembers, hnext]
  exact ⟨_, rfl⟩

theorem reads_readMembers_step {first : Bool} {blank : Text} {draft : Draft} (hnew : m.IsNew d)
    (hblank : blank.all isSpace) (hm : m.Written t) (hahead : Ahead first s (blank ++ (t ++ rest)))
    (hrest : ∀ {n : Nat} (h : rest.length < n),
      Reads (readMembers (m.addTo d) false rest h) draft u)
    (h : s.length < n) : Reads (readMembers d first s h) draft u := by
  obtain ⟨after, v, value, hvalue, hkey, hcolon, hv⟩ := hm.exists_reads hblank hahead
  obtain ⟨hshort, hkey⟩ := hkey (Json.self_short s)
  obtain ⟨hafter, hmember⟩ := reads_readMember hnew hvalue hcolon hv
  rw [readMembers, hkey]
  simp only [hmember]
  exact hrest _

/-- Members with different keys are read into the draft one after the other. -/
theorem reads_readMembers {first : Bool} (ht : Separated Member.Written t members)
    (hnew : ∀ m ∈ members, m.IsNew d) (hkeys : members.Pairwise fun a b => a.key ≠ b.key)
    (hahead : Ahead first s (t ++ '}' :: rest)) (h : s.length < n) :
    Reads (readMembers d first s h) (members.foldl Member.addTo d) rest := by
  -- A member that has been read is of another key than those to come, so these stay new.
  induction ht generalizing d first s n with
  | @last blank t after m hblank hafter hm =>
    simp only [List.append_assoc] at hahead
    refine reads_readMembers_step (hnew m List.mem_cons_self) hblank hm hahead ?_ h
    intro n h
    exact reads_readMembers_close (Json.skipSpace_blank_cons hafter rfl) h
  | @cons blank t after more m members hblank hafter hm hmore ih =>
    obtain ⟨hm_new, hnew⟩ := List.forall_mem_cons.mp hnew
    obtain ⟨hdifferent, hkeys⟩ := List.pairwise_cons.mp hkeys
    simp only [List.append_assoc, List.cons_append] at hahead
    refine reads_readMembers_step hm_new hblank hm hahead ?_ h
    intro n h
    exact ih (fun b hb => Member.isNew_addTo (hnew b hb) (hdifferent b hb)) hkeys
      (Json.ahead_comma hafter _) h

theorem exists_reads_readMembers (ht : Enclosed '{' '}' Member.Written t members)
    (hkeys : members.Pairwise fun a b => a.key ≠ b.key) (rest : Text) :
    ∃ u, t ++ rest = '{' :: u ∧ ∀ {n : Nat} (h : u.length < n),
      Reads (readMembers {} true u h) (members.foldl Member.addTo {}) rest := by
  have hnew : ∀ m ∈ members, m.IsNew {} := by
    rintro (_ | _ | _) _ <;> rfl
  refine ht.exists_behind rfl ?_ ?_
  · rintro u rfl hu n h
    exact reads_readMembers_close hu h
  · intro t ht n h
    exact reads_readMembers ht hnew hkeys (Json.ahead_first _) h

theorem isRead_reader (ht : Enclosed '{' '}' Member.Written t members)
    (hkeys : members.Pairwise fun a b => a.key ≠ b.key) :
    IsRead reader t (members.foldl Member.addTo {}).complete := by
  refine Json.isRead_of_first rfl (by decide) (exists_reads_readMembers ht hkeys) fun hs hread => ?_
  unfold reader
  split
  · rename_i he
    cases hs.symm.trans he
    exact (hread _).map Draft.complete
  · rename_i he
    cases hs.symm.trans he
  · rename_i hne _
    exact (hne _ hs).elim

/-- A document gives its members back, however it is written; the standard delimiters stand in for
the members that it lacks. -/
theorem ofDocument_of_isDocument (ht : IsDocument t members)
    (hkeys : members.Pairwise fun a b => a.key ≠ b.key) :
    ofDocument t = .ok (members.foldl Member.addTo {}).complete := by
  obtain ⟨hbefore, hafter, hmembers⟩ := ht
  exact (isRead_reader hmembers hkeys).readDocument hbefore hafter

theorem ofDocument_render (hstyle : style.Blank)
    (hkeys : members.Pairwise fun a b => a.key ≠ b.key) :
    ofDocument ((Json.object (members.map Member.entry)).render style 0) =
      .ok (members.foldl Member.addTo {}).complete :=
  ofDocument_of_isDocument (isDocument_render members hstyle) hkeys

theorem plain_entries (members : List Member) (depth : Nat) :
    Plain (depth + 2) (.object (members.map Member.entry)) := by
  apply Plain.object
  intro e he
  obtain ⟨m, -, rfl⟩ := List.mem_map.mp he
  exact m.plain_value depth

end Stencil.Delimiters
