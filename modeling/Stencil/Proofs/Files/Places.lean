import Stencil.Files.FileSystem
import Stencil.Proofs.Results

/-!
Paths and places. A path leads to a place through directories alone, so what is at each place
decides where paths lead; putting a leaf somewhere changes what is at one place.
-/
namespace Stencil

open Text (Bytes)

namespace Node

variable {node new : Node} {name : Text} {place d : List Text}

theorem lookup_cons (name other : Text) (node : Node) (children : List (Text × Node)) :
    ((name, node) :: children).lookup other =
      if other = name then some node else children.lookup other := by
  rw [List.lookup_cons]
  by_cases h : other = name
  · simp [h]
  · rw [beq_false_of_ne h, if_neg h]

theorem lookup_setChild (name other : Text) (node : Node) (children : List (Text × Node)) :
    (setChild name node children).lookup other =
      if other = name then some node else children.lookup other := by
  induction children with
  | nil => exact lookup_cons name other node []
  | cons child children ih =>
    obtain ⟨first, child⟩ := child
    rw [setChild, lookup_cons first]
    split
    · rename_i hf
      subst hf
      rw [lookup_cons]
      by_cases h : other = first <;> simp [h]
    · rename_i hf
      rw [lookup_cons, ih]
      by_cases h : other = first
      · subst h
        simp [hf]
      · simp [h]

theorem at?_append (node : Node) (place rest : List Text) :
    node.at? (place ++ rest) = (node.at? place).bind (·.at? rest) := by
  induction place generalizing node with
  | nil => rfl
  | cons name place ih =>
    cases node with
    | file content => rfl
    | directory children =>
      rw [List.cons_append, at?, at?, Option.bind_assoc]
      exact congrArg _ (funext fun child => ih child)

/-- A node with nothing inside it. -/
def IsLeaf (node : Node) : Prop := ∀ name place, node.at? (name :: place) = none

theorem isLeaf_file (content : Bytes) : (file content).IsLeaf := fun _ _ => rfl

theorem isLeaf_directory_nil : (directory []).IsLeaf := fun _ _ => rfl

theorem isLeaf_of_entry_ne (h : node.entry ≠ .directory) : node.IsLeaf := by
  cases node with
  | file content => exact isLeaf_file content
  | directory children => exact (h rfl).elim

/-- A leaf put into a directory, where no directory was, changes what is at its place alone. -/
theorem entry_at?_put (hnew : new.IsLeaf) (hparent : (node.at? d).map entry = some .directory)
    (hold : (node.at? (d ++ [name])).map entry ≠ some .directory) (place : List Text) :
    ((new.put (d ++ [name]) node).at? place).map entry =
      if place = d ++ [name] then some new.entry else (node.at? place).map entry := by
  induction d generalizing node place with
  | nil =>
    cases node with
    | file content => cases hparent
    | directory children =>
      cases place with
      | nil => rfl
      | cons other place =>
        simp only [List.nil_append, put, at?, lookup_setChild]
        by_cases h : other = name
        · subst h
          cases place with
          | nil => simp [at?]
          | cons inner place =>
            -- What was here is no directory, so nothing was further inside.
            have hchild : ((children.lookup other).bind (·.at? (inner :: place))) = none := by
              rw [Option.bind_eq_none_iff]
              intro child hchild
              refine isLeaf_of_entry_ne ?_ _ _
              intro hdirectory
              exact hold (by simp [at?, hchild, hdirectory])
            simp [hnew inner place, hchild]
        · simp [h]
  | cons first d ih =>
    cases node with
    | file content => cases hparent
    | directory children =>
      simp only [List.cons_append, at?] at hparent hold
      cases hchild : children.lookup first with
      | none => simp [hchild] at hparent
      | some child =>
        simp only [hchild, Option.bind_some] at hparent hold
        cases place with
        | nil => rfl
        | cons other place =>
          simp only [List.cons_append, put, at?, lookup_setChild, hchild, Option.getD_some]
          by_cases h : other = first
          · subst h
            simp [hchild, ih hparent hold]
          · simp [h]

end Node

namespace FileSystem

variable {fs : FileSystem} {trail t : Trail} {p : Path} {place steps : List Text} {new : Node}
  {content : Bytes}

/-- A trail that a walk leaves behind: each node is the child of a directory before it. -/
inductive Grounded (fs : FileSystem) : Trail → Prop
  | root : Grounded fs []
  | enter {trail : Trail} {children : List (Text × Node)} (name : Text) :
    Grounded fs trail → fs.node? trail = some (.directory children) →
      Grounded fs ((name, children.lookup name) :: trail)

theorem place_cons (name : Text) (node? : Option Node) (trail : Trail) :
    Trail.place ((name, node?) :: trail) = trail.place ++ [name] := List.reverse_cons

theorem Grounded.node?_eq (h : fs.Grounded trail) : fs.node? trail = fs.root.at? trail.place := by
  induction h with
  | root => rfl
  | @enter trail children name _ hnode ih =>
    rw [place_cons, Node.at?_append, ← ih, hnode]
    simp [node?, Node.at?]

theorem Grounded.entry?_eq (h : fs.Grounded trail) :
    fs.entry? trail.place = (fs.node? trail).map Node.entry := by
  unfold entry?
  rw [h.node?_eq]

theorem Grounded.tail (h : fs.Grounded trail) : fs.Grounded trail.tail := by
  cases h with
  | root => exact .root
  | enter _ h _ => exact h

theorem Grounded.walk (h : fs.Grounded trail) (hw : fs.walk trail steps = .ok t) :
    fs.Grounded t := by
  induction steps generalizing trail with
  | nil =>
    cases hw
    exact h
  | cons step steps ih =>
    rw [FileSystem.walk] at hw
    split at hw
    · cases hw
    · cases hw
    · rename_i children hnode
      split at hw
      · cases hw
      split at hw
      · exact ih h hw
      split at hw
      · exact ih h.tail hw
      · exact ih (.enter step h hnode) hw

/-- The place that one step leads to from a directory. -/
def enter (place : List Text) (step : Text) : List Text :=
  if step = "." then place else if step = ".." then place.dropLast else place ++ [step]

/-- A walk from place to place; it asks only what is there. -/
def follow (fs : FileSystem) (place : List Text) : List Text → Except FileError (List Text)
  | [] => .ok place
  | step :: steps =>
    match fs.entry? place with
    | none => .error .notFound
    | some (.file _) => .error .notDirectory
    | some .directory =>
      if maxNameLength < step.byteSize then .error .nameTooLong
      else follow fs (enter place step) steps

theorem follow_cons_eq_ok_iff {step : Text} {start : List Text} :
    fs.follow start (step :: steps) = .ok place ↔
      fs.entry? start = some .directory ∧ step.byteSize ≤ maxNameLength ∧
        fs.follow (enter start step) steps = .ok place := by
  rw [follow]
  rcases fs.entry? start with - | content | -
  · simp
  · simp
  · by_cases h : maxNameLength < step.byteSize
    · simp [h, Nat.not_le_of_lt h]
    · simp [h, Nat.le_of_not_lt h]

theorem follow_append_eq_ok_iff {start more : List Text} :
    fs.follow start (steps ++ more) = .ok place ↔
      ∃ middle, fs.follow start steps = .ok middle ∧ fs.follow middle more = .ok place := by
  induction steps generalizing start with
  | nil =>
    constructor
    · exact fun h => ⟨start, rfl, h⟩
    · rintro ⟨_, ⟨⟩, h⟩
      exact h
  | cons step steps ih =>
    rw [List.cons_append, follow_cons_eq_ok_iff, ih]
    simp only [follow_cons_eq_ok_iff]
    constructor
    · rintro ⟨hstart, hshort, middle, hsteps, hmore⟩
      exact ⟨middle, ⟨hstart, hshort, hsteps⟩, hmore⟩
    · rintro ⟨middle, ⟨hstart, hshort, hsteps⟩, hmore⟩
      exact ⟨hstart, hshort, middle, hsteps, hmore⟩

theorem map_place_walk (h : fs.Grounded trail) (steps : List Text) :
    (fs.walk trail steps).map Trail.place = fs.follow trail.place steps := by
  induction steps generalizing trail with
  | nil => rfl
  | cons step steps ih =>
    rw [walk, follow, h.entry?_eq, enter]
    cases hnode : fs.node? trail with
    | none => rfl
    | some node =>
      cases node with
      | file content => rfl
      | directory children =>
        simp only [Option.map_some, Node.entry]
        split
        · rfl
        split
        · exact ih h
        split
        · rw [ih h.tail, Trail.place, List.map_tail, ← List.dropLast_reverse]
          rfl
        · rw [ih (.enter step h hnode), place_cons]

/-- The place that the steps of a path lead to. -/
def placeOf (fs : FileSystem) (p : Path) (steps : List Text) : Except FileError (List Text) :=
  (fs.walkFrom p steps).map Trail.place

theorem placeOf_eq_follow (fs : FileSystem) (p : Path) (steps : List Text) :
    fs.placeOf p steps = (do
      checkText p
      fs.follow [] (if p.isAbsolute then steps else fs.workingDirectory ++ steps)) := by
  rw [placeOf, walkFrom]
  cases checkText p with
  | error e => rfl
  | ok _ => exact map_place_walk .root _

/-- The place that steps lead to from where the path starts, whatever its text is like. -/
def along (fs : FileSystem) (p : Path) (steps : List Text) : Except FileError (List Text) :=
  fs.follow [] (if p.isAbsolute then steps else fs.workingDirectory ++ steps)

theorem placeOf_eq_ok_iff :
    fs.placeOf p steps = .ok place ↔ checkText p = .ok () ∧ fs.along p steps = .ok place := by
  rw [placeOf_eq_follow, bind_eq_ok_iff]
  constructor
  · rintro ⟨⟨⟩, hcheck, halong⟩
    exact ⟨hcheck, halong⟩
  · rintro ⟨hcheck, halong⟩
    exact ⟨(), hcheck, halong⟩

theorem along_append_eq_ok_iff {more : List Text} :
    fs.along p (steps ++ more) = .ok place ↔
      ∃ middle, fs.along p steps = .ok middle ∧ fs.follow middle more = .ok place := by
  rw [along, along]
  split
  · exact follow_append_eq_ok_iff
  · rw [← List.append_assoc]
    exact follow_append_eq_ok_iff

/-- The last step is taken in a directory. -/
theorem along_concat_eq_ok_iff {step : Text} :
    fs.along p (steps ++ [step]) = .ok place ↔
      ∃ middle, fs.along p steps = .ok middle ∧ fs.entry? middle = some .directory ∧
        step.byteSize ≤ maxNameLength ∧ enter middle step = place := by
  rw [along_append_eq_ok_iff]
  refine exists_congr fun middle => and_congr_right fun _ => ?_
  rw [follow_cons_eq_ok_iff, follow, Except.ok.injEq]

theorem grounded_walkFrom (h : fs.walkFrom p steps = .ok trail) : fs.Grounded trail := by
  obtain ⟨_, -, hw⟩ := bind_eq_ok_iff.mp h
  exact Grounded.root.walk hw

/-- The place that a path leads to; a slash at its end asks for a directory. -/
def target (fs : FileSystem) (p : Path) : Except FileError (List Text) :=
  (fs.locate p).map Trail.place

/-- Asking for a directory leads nowhere else. -/
theorem placeOf_of_target (h : fs.target p = .ok place) : fs.placeOf p p.steps = .ok place := by
  rw [target, locate] at h
  split at h
  · obtain ⟨hcheck, halong⟩ := placeOf_eq_ok_iff.mp h
    obtain ⟨middle, hmiddle, -, -, henter⟩ := along_concat_eq_ok_iff.mp halong
    obtain rfl : middle = place := henter
    exact placeOf_eq_ok_iff.mpr ⟨hcheck, hmiddle⟩
  · exact h

theorem readBytes_eq_ok_iff :
    fs.readBytes p = .ok content ↔
      ∃ place, fs.target p = .ok place ∧ fs.entry? place = some (.file content) := by
  simp only [readBytes, target, bind_eq_ok_iff, map_eq_ok_iff]
  constructor
  · rintro ⟨trail, ht, hnode⟩
    refine ⟨_, ⟨trail, ht, rfl⟩, ?_⟩
    rw [(grounded_walkFrom ht).entry?_eq]
    split at hnode <;> cases hnode
    rename_i he
    rw [he]
    rfl
  · rintro ⟨_, ⟨trail, ht, rfl⟩, hentry⟩
    refine ⟨trail, ht, ?_⟩
    rw [(grounded_walkFrom ht).entry?_eq] at hentry
    obtain ⟨node, hnode, he⟩ := Option.map_eq_some_iff.mp hentry
    cases node with
    | file content =>
      cases he
      rw [hnode]
      rfl
    | directory children => cases he

/-- A leaf that is put where a walk ended, and no directory is, changes what is there alone. -/
theorem Grounded.entry?_put (h : fs.Grounded trail) (hnew : new.IsLeaf)
    (hold : fs.entry? trail.place ≠ some .directory) (place : List Text) :
    FileSystem.entry? (fs.put trail.place new) place =
      if place = trail.place then some new.entry else fs.entry? place := by
  cases h with
  | root =>
    cases place with
    | nil => rfl
    | cons name place =>
      have hleaf : fs.root.IsLeaf := Node.isLeaf_of_entry_ne fun he => hold (congrArg some he)
      simp [put, entry?, Trail.place, Node.put, hnew name place, hleaf name place]
  | @enter trail children name h hnode =>
    rw [place_cons] at hold ⊢
    refine Node.entry_at?_put hnew ?_ hold place
    change fs.entry? trail.place = _
    rw [h.entry?_eq, hnode]
    rfl

end FileSystem

end Stencil
