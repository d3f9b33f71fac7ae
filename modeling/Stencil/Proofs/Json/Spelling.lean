import Mathlib.Data.List.Forall2
import Stencil.Proofs.Json.Reading

/-!
JSON as it may be written, with white space around every token. A list or an object is read when its
items are, however it is written, and the printed ones are written in this way.
-/
namespace Stencil.Json

variable {α β : Type} {n : Nat} {c opening closing : Char}
  {s t u before after blank line rest : Text} {first : Bool} {item : Reader α} {key : α → Text}
  {Item Item' Value : Text → α → Prop} {x : α} {items : List α}

/-- Items with commas between them. -/
inductive Separated (Item : Text → α → Prop) : Text → List α → Prop
  | last {before t after : Text} {x : α} : before.all isSpace → after.all isSpace → Item t x →
    Separated Item (before ++ (t ++ after)) [x]
  | cons {before t after rest : Text} {x : α} {items : List α} : before.all isSpace →
    after.all isSpace → Item t x → Separated Item rest items →
      Separated Item (before ++ (t ++ (after ++ ',' :: rest))) (x :: items)

/-- Items in brackets. -/
inductive Enclosed (opening closing : Char) (Item : Text → α → Prop) : Text → List α → Prop
  | empty {blank : Text} : blank.all isSpace →
    Enclosed opening closing Item (opening :: (blank ++ [closing])) []
  | items {t : Text} {items : List α} : Separated Item t items →
    Enclosed opening closing Item (opening :: (t ++ [closing])) items

/-- A key, a colon and a value. -/
inductive Keyed (key : α → Text) (Value : Text → α → Prop) : Text → α → Prop
  | keyed {name before after value : Text} {x : α} : IsString name (key x) → before.all isSpace →
    after.all isSpace → Value value x →
      Keyed key Value (name ++ (before ++ ':' :: (after ++ value))) x

theorem Separated.imp (h : ∀ t x, Item t x → Item' t x) (ht : Separated Item t items) :
    Separated Item' t items := by
  induction ht with
  | last hbefore hafter hx => exact .last hbefore hafter (h _ _ hx)
  | cons hbefore hafter hx _ ih => exact .cons hbefore hafter (h _ _ hx) ih

theorem Enclosed.imp (h : ∀ t x, Item t x → Item' t x)
    (ht : Enclosed opening closing Item t items) : Enclosed opening closing Item' t items := by
  cases ht with
  | empty hblank => exact .empty hblank
  | items ht => exact .items (ht.imp h)

/-- A reader takes the text as `x`, whatever blanks stand before it and whatever follows it. The text
begins with something that is neither a blank nor the end of a list. -/
structure IsRead (item : Reader α) (t : Text) (x : α) : Prop where
  head : ∃ c u, t = c :: u ∧ isSpace c = false ∧ c ≠ ']'
  reads {s rest : Text} : skipSpace s = t ++ rest → Reads (item s) x rest

theorem skipSpace_blank_cons (hb : blank.all isSpace) (hc : isSpace c = false) :
    skipSpace (blank ++ c :: s) = c :: s :=
  (skipSpace_append hb _).trans (skipSpace_cons hc)

/-- Behind the opening bracket stands the closing one, or items and then the closing one. -/
theorem Enclosed.exists_behind {Behind : Text → Prop} (ht : Enclosed opening closing Item t items)
    (hclosing : isSpace closing = false)
    (hempty : ∀ u, items = [] → skipSpace u = closing :: rest → Behind u)
    (hitems : ∀ t, Separated Item t items → Behind (t ++ closing :: rest)) :
    ∃ u, t ++ rest = opening :: u ∧ Behind u := by
  cases ht with
  | @empty blank hblank =>
    exact ⟨blank ++ closing :: rest, by simp, hempty _ rfl (skipSpace_blank_cons hblank hclosing)⟩
  | @items t items ht => exact ⟨t ++ closing :: rest, by simp, hitems t ht⟩

theorem IsRead.skipSpace_eq (hx : IsRead item t x) (hb : blank.all isSpace) (rest : Text) :
    skipSpace (blank ++ (t ++ rest)) = t ++ rest := by
  obtain ⟨c, u, rfl, hc, -⟩ := hx.head
  exact skipSpace_blank_cons hb hc

theorem IsRead.reads_skipSpace (hx : IsRead item t x) (hs : skipSpace s = skipSpace (t ++ rest)) :
    Reads (item s) x rest := by
  have hskip : skipSpace ([] ++ (t ++ rest)) = t ++ rest := hx.skipSpace_eq rfl rest
  exact hx.reads (hs.trans hskip)

/-- A reader that goes on behind the first character of a text takes the text. -/
theorem isRead_of_first {Behind : Text → Text → Prop} (hc : isSpace c = false) (hne : c ≠ ']')
    (ht : ∀ rest, ∃ u, t ++ rest = c :: u ∧ Behind u rest)
    (h : ∀ {s u rest : Text}, skipSpace s = c :: u → Behind u rest → Reads (item s) x rest) :
    IsRead item t x := by
  constructor
  · obtain ⟨u, hu, -⟩ := ht []
    exact ⟨c, u, (List.append_nil t).symm.trans hu, hc, hne⟩
  · intro s rest hs
    obtain ⟨u, hu, hbehind⟩ := ht rest
    exact h (hs.trans hu) hbehind

/-- A document is one value with blanks around it. -/
theorem IsRead.readDocument (hx : IsRead item t x) (hbefore : before.all isSpace)
    (hafter : after.all isSpace) : readDocument item (before ++ (t ++ after)) = .ok x := by
  obtain ⟨hshort, hread⟩ := hx.reads (hx.skipSpace_eq hbefore after)
  have hend : skipSpace after = [] := by
    rw [← List.append_nil after, skipSpace_append hafter]
    rfl
  rw [Json.readDocument, hread]
  simp only [bind, Except.bind, hend]
  rfl

/-- The place before an item: after the opening bracket, or before a comma. -/
def Ahead (first : Bool) (s t : Text) : Prop :=
  match first with
  | true => s = t
  | false => skipSpace s = ',' :: t

theorem ahead_first (t : Text) : Ahead true t t := rfl

theorem ahead_comma (hafter : after.all isSpace) (t : Text) : Ahead false (after ++ ',' :: t) t :=
  skipSpace_blank_cons hafter rfl

theorem Ahead.reads_nextItem (hahead : Ahead first s t) (ht : skipSpace t = c :: u) (hc : c ≠ ']')
    (h : s.length < n) : Reads (nextItem first s h) true t := by
  cases first with
  | true =>
    cases hahead
    exact reads_nextItem_first ht hc h
  | false => exact reads_nextItem_comma hahead ht hc h

theorem Ahead.reads_nextKey {name : Text} (hahead : Ahead first s t) (ht : skipSpace t = '"' :: u)
    (hname : ∀ {m : Nat} (h : u.length < m), Reads (readString u h) name rest) (h : s.length < n) :
    Reads (nextKey first s h) (some name) rest := by
  cases first with
  | true =>
    cases hahead
    exact reads_nextKey_first ht hname h
  | false => exact reads_nextKey_comma hahead ht hname h

/-- Reading one item leaves what comes after it. -/
theorem Ahead.reads_readItems {before values : List α}
    (hahead : Ahead first s (blank ++ (t ++ rest))) (hblank : blank.all isSpace)
    (hx : IsRead item t x)
    (hrest : ∀ {m : Nat} (h : rest.length < m),
      Reads (readItems item (x :: before) false rest h) values u)
    (h : s.length < n) : Reads (readItems item before first s h) values u := by
  have hskip := hx.skipSpace_eq hblank rest
  obtain ⟨c, v, hcons, -, hc⟩ := hx.head
  have hnext := hahead.reads_nextItem (hskip.trans (congrArg (· ++ rest) hcons)) hc (self_short s)
  exact reads_readItems_step hnext (hx.reads hskip) hrest h

/-- Items are read one after the other. -/
theorem Separated.reads (ht : Separated (IsRead item) t items) (before : List α)
    (hahead : Ahead first s (t ++ ']' :: rest)) (h : s.length < n) :
    Reads (readItems item before first s h) (before.reverse ++ items) rest := by
  -- The reader is behind the bracket for the first item, and before a comma for all others.
  induction ht generalizing before first s n with
  | @last blank t after x hblank hafter hx =>
    simp only [List.append_assoc] at hahead
    refine hahead.reads_readItems hblank hx ?_ h
    intro m h
    rw [← List.reverse_cons]
    exact reads_readItems_close (skipSpace_blank_cons hafter rfl) h
  | @cons blank t after more x items hblank hafter hx hmore ih =>
    simp only [List.append_assoc, List.cons_append] at hahead
    refine hahead.reads_readItems hblank hx ?_ h
    intro m h
    have hitems : before.reverse ++ x :: items = (x :: before).reverse ++ items := by simp
    rw [hitems]
    exact ih (x :: before) (ahead_comma hafter _) h

theorem Enclosed.exists_reads (ht : Enclosed '[' ']' (IsRead item) t items) (rest : Text) :
    ∃ u, t ++ rest = '[' :: u ∧
      ∀ {n : Nat} (h : u.length < n), Reads (readItems item [] true u h) items rest := by
  refine ht.exists_behind rfl ?_ ?_
  · rintro u rfl hu n h
    exact reads_readItems_close hu h
  · intro t ht n h
    exact ht.reads [] (ahead_first _) h

/-- After a key a value is left to be read, behind a colon. -/
theorem Keyed.exists_reads (ht : Keyed key Value t x) (hblank : blank.all isSpace)
    (hahead : Ahead first s (blank ++ (t ++ rest))) :
    ∃ u v value, Value value x ∧
      (∀ {n : Nat} (h : s.length < n), Reads (nextKey first s h) (some (key x)) u) ∧
      skipSpace u = ':' :: v ∧ skipSpace v = skipSpace (value ++ rest) := by
  obtain @⟨name, before, after, value, _, hname, hbefore, hafter, hvalue⟩ := ht
  simp only [List.append_assoc, List.cons_append] at hahead
  obtain ⟨u, hu, hread⟩ := hname.exists_reads (before ++ ':' :: (after ++ (value ++ rest)))
  rw [hu] at hahead
  refine ⟨_, _, value, hvalue, fun h => ?_, skipSpace_blank_cons hbefore rfl,
    skipSpace_append hafter _⟩
  exact hahead.reads_nextKey (skipSpace_blank_cons hblank rfl) hread h

/-- A style adds nothing but blanks. -/
structure Style.Blank (style : Style) : Prop where
  line (depth : Nat) : (style.line depth).all isSpace
  colon : ∃ blank, blank.all isSpace ∧ style.colon = ':' :: blank

theorem compact_blank : compact.Blank where
  line _ := rfl
  colon := ⟨[], rfl, rfl⟩

theorem indented_blank : indented.Blank where
  line depth := by simp [indented, isSpace]
  colon := ⟨[' '], rfl, rfl⟩

section

variable {style : Style} {k : Nat}

theorem renderItems_eq_flatMap (values : List Json) :
    renderItems style k values =
      values.flatMap fun v => ',' :: (style.line k ++ v.render style k) := by
  induction values with
  | nil => rfl
  | cons v values ih => simp [renderItems, ih]

theorem renderMembers_eq_flatMap (members : List (Text × Json)) :
    renderMembers style k members = members.flatMap fun m =>
      ',' :: (style.line k ++ (stringText m.1 ++ (style.colon ++ m.2.render style k))) := by
  induction members with
  | nil => rfl
  | cons m members ih => simp [renderMembers, ih]

/-- Items that are printed with a line before each and a comma before all but the first. -/
theorem separated_flatMap (text : β → Text) {y : β} {list : List β} (hline : line.all isSpace)
    (hafter : after.all isSpace) (hy : Item (text y) x)
    (h : List.Forall₂ (fun z a => Item (text z) a) list items) :
    Separated Item
      (line ++ (text y ++ (list.flatMap (fun z => ',' :: (line ++ text z)) ++ after)))
      (x :: items) := by
  induction h generalizing y x with
  | nil => exact .last hline hafter hy
  | @cons z a list items hz _ ih =>
    -- The line before the next item belongs to that item, so no blanks are left before the comma.
    rw [List.flatMap_cons]
    simp only [List.cons_append, List.append_assoc]
    exact @Separated.cons _ _ _ _ [] _ _ _ hline rfl hy (ih hz)

/-- A printed list is written if its items are. -/
theorem enclosed_render_array {values : List Json} (hstyle : style.Blank)
    (h : List.Forall₂ (fun v a => ∀ k, Item (v.render style k) a) values items) (k : Nat) :
    Enclosed '[' ']' Item ((array values).render style k) items := by
  cases h with
  | nil => exact @Enclosed.empty _ _ _ _ [] rfl
  | @cons v a values items hv h =>
    have hitems := separated_flatMap (render style (k + 1)) (hstyle.line (k + 1)) (hstyle.line k)
      (hv (k + 1)) (h.imp fun _ _ h => h (k + 1))
    have henclosed : Enclosed '[' ']' Item _ (a :: items) := .items hitems
    simpa [render, renderItems_eq_flatMap] using henclosed

theorem keyed_render {v : Json} (hstyle : style.Blank) (h : Value (v.render style k) x) :
    Keyed key Value (stringText (key x) ++ (style.colon ++ v.render style k)) x := by
  obtain ⟨blank, hblank, hcolon⟩ := hstyle.colon
  rw [hcolon, List.cons_append]
  exact @Keyed.keyed _ _ _ _ [] _ _ _ (isString_stringText _) rfl hblank h

/-- A printed object is written if the values of its members are. -/
theorem enclosed_render_object {members : List (Text × Json)} (hstyle : style.Blank)
    (h : List.Forall₂ (fun m a => m.1 = key a ∧ ∀ k, Value (m.2.render style k) a) members items)
    (k : Nat) : Enclosed '{' '}' (Keyed key Value) ((object members).render style k) items := by
  let text (m : Text × Json) : Text :=
    stringText m.1 ++ (style.colon ++ m.2.render style (k + 1))
  have hkeyed : List.Forall₂ (fun m a => Keyed key Value (text m) a) members items := by
    refine h.imp ?_
    rintro ⟨_, v⟩ a ⟨rfl, hv⟩
    exact keyed_render hstyle (hv (k + 1))
  cases hkeyed with
  | nil => exact @Enclosed.empty _ _ _ _ [] rfl
  | @cons m a members items hm hmembers =>
    have hitems := separated_flatMap text (hstyle.line (k + 1)) (hstyle.line k) hm hmembers
    have henclosed : Enclosed '{' '}' (Keyed key Value) _ (a :: items) := .items hitems
    simpa [text, render, renderMembers_eq_flatMap] using henclosed

end

end Stencil.Json
