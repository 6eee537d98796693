import Mathlib.Data.List.Forall2
import NoteAssistant.Proofs.Text.Slices

/-! # An index of tables

The tables of a text by the bytes of their bodies, kept while its lines are read one after the
other. The tables tile the text: each one holds the lines of one section (`tables_hold`), so a
search through the slices of an index never leaves the text or cuts a character, and finds what a
search through the sections finds (`indexedPlace?_eq`).
-/

namespace NoteAssistant.Location

open Text (Lined)

/-- A header with the bytes of the lines below it. -/
structure Table where
  header : Header
  start : Nat
  stop : Nat
  deriving DecidableEq, Repr

/-- An index while it is made. The body of the last table ends with the text until the next header
    closes it. -/
structure Index where
  closed : List Table
  last : Table
  /-- Bytes read so far. -/
  offset : Nat
  deriving DecidableEq, Repr

def Index.tables (ix : Index) : List Table := ix.closed ++ [ix.last]

def Index.read (length : Nat) (ix : Index) (l : List Char) : Index :=
  match Line.header? ⟨ix.offset, l⟩ with
  | some h =>
    let next := ix.offset + size l
    ⟨ix.closed ++ [{ ix.last with stop := ix.offset }], ⟨h, next, length⟩, next⟩
  | none => { ix with offset := ix.offset + size l }

/-- The header of the lines before the first one. -/
def nameless : Header := ⟨"", false, ⟨0, 0⟩⟩

def tables (text : String) : List Table :=
  let length := size text.toList
  ((Text.lines text.toList).foldl (Index.read length) ⟨[], ⟨nameless, 0, length⟩, 0⟩).tables

/-- What a path of table names refers to, among things with headers. -/
def select {α : Type} (header : α → Header) (xs : List α) : List String → List α
  | "drivers" :: rest =>
    let drivers := xs.filter fun x => (header x).repeated && (header x).name = "drivers"
    match driverIndex? rest with
    | some i => (drivers[i]?).toList
    | none => drivers
  | path =>
    xs.filter fun x => !(header x).repeated && (header x).name = String.intercalate "." path

/-- The span of a key in the body of a table, or nothing if that is no slice of the text. -/
def Table.keySpan? (text : List Char) (key : String) (t : Table) : Option (Option Span) :=
  (slice? t.start t.stop text).map fun body =>
    (numbered t.start (Text.lines body)).findSome? (Line.keySpan? key)

/-- The place of a key by the indexes of the sources, or nothing if a slice fails on the way. -/
def indexedPlace? (sources : List Source) (path : List String) (key : String) :
    Option (Option Place) :=
  if key = "" then some none
  else sources.findSomeM? fun s => do
    let span ← (select Table.header (tables s.text) path).findSomeM?
      (Table.keySpan? s.text.toList key)
    return span.map fun span => ⟨s.name, span⟩

/-! ## The tables tile the text -/

section Tiling

variable {text : List Char} {start : Nat} {ls ms : List (List Char)}

theorem numbered_append :
    numbered start (ls ++ ms) = numbered start ls ++ numbered (start + size ls.flatten) ms := by
  induction ls generalizing start with
  | nil => simp [numbered]
  | cons l ls ih => simp [numbered, ih, Nat.add_assoc]

@[simp] theorem map_chars_numbered : (numbered start ls).map Line.chars = ls := by
  induction ls generalizing start with
  | nil => rfl
  | cons l ls ih => rw [numbered, List.map_cons, ih]

/-- A table holds the lines of a section. -/
structure Table.Holds (text : List Char) (t : Table) (s : Section) : Prop where
  header : t.header = s.header
  body : slice? t.start t.stop text = some (s.body.map Line.chars).flatten
  lines : numbered t.start (Text.lines (s.body.map Line.chars).flatten) = s.body

/-- An index with the sections before the last one and the one it stands in, while some lines are
    still to be read. -/
structure Index.Follows (text : List Char) (unread : List (List Char)) (ix : Index)
    (before : List Section) (current : Section) : Prop where
  closed : List.Forall₂ (Table.Holds text) ix.closed before
  header : ix.last.header = current.header
  stop : ix.last.stop = size text
  lined : Lined (current.body.map Line.chars ++ unread)
  numbering : numbered ix.last.start (current.body.map Line.chars) = current.body
  offset : ix.offset = ix.last.start + size (current.body.map Line.chars).flatten
  place : ∃ front, size front = ix.last.start ∧
    text = front ++ (current.body.map Line.chars).flatten ++ unread.flatten

variable {unread : List (List Char)} {ix : Index} {before : List Section} {current : Section}

/-- The open table, closed at the byte that has been reached. -/
theorem Index.Follows.holds (follows : ix.Follows text unread before current) :
    Table.Holds text { ix.last with stop := ix.offset } current := by
  obtain ⟨front, begins, whole⟩ := follows.place
  refine ⟨follows.header, ?_, ?_⟩
  · exact slice?_eq_some_iff.mpr ⟨front, unread.flatten, whole, begins, follows.offset.symm⟩
  · rw [follows.lined.left.lines_flatten, follows.numbering]

theorem Index.Follows.read_header {l : List Char} {h : Header}
    (follows : ix.Follows text (l :: unread) before current)
    (header : Line.header? ⟨ix.offset, l⟩ = some h) :
    (ix.read (size text) l).Follows text unread (before ++ [current]) ⟨h, []⟩ := by
  obtain ⟨front, begins, whole⟩ := follows.place
  rw [Index.read, header]
  exact {
    closed := List.rel_append follows.closed (.cons follows.holds .nil)
    header := rfl
    stop := rfl
    lined := follows.lined.right.tail
    numbering := rfl
    offset := rfl
    place := by
      refine ⟨front ++ (current.body.map Line.chars).flatten ++ l, ?_, ?_⟩
      · simp [begins, follows.offset, Nat.add_assoc]
      · simp [whole] }

theorem Index.Follows.read_line {l : List Char}
    (follows : ix.Follows text (l :: unread) before current)
    (noHeader : Line.header? ⟨ix.offset, l⟩ = none) :
    (ix.read (size text) l).Follows text unread before
      ⟨current.header, current.body ++ [⟨ix.offset, l⟩]⟩ := by
  obtain ⟨front, begins, whole⟩ := follows.place
  rw [Index.read, noHeader]
  exact {
    closed := follows.closed
    header := follows.header
    stop := follows.stop
    lined := by simpa using follows.lined
    numbering := by
      rw [List.map_append, numbered_append, follows.numbering, ← follows.offset]
      rfl
    offset := by simp [follows.offset, Nat.add_assoc]
    place := ⟨front, begins, by simp [whole]⟩ }

/-- Whatever is still to be read, in the end the tables hold the sections. -/
theorem Index.Follows.tables_hold (follows : ix.Follows text unread before current) :
    List.Forall₂ (Table.Holds text) (unread.foldl (Index.read (size text)) ix).tables
      (before ++ ⟨current.header, current.body ++ (divide (numbered ix.offset unread)).1⟩ ::
        (divide (numbered ix.offset unread)).2) := by
  induction unread generalizing ix before current with
  | nil =>
      have ends : ix.offset = ix.last.stop := by
        obtain ⟨front, begins, whole⟩ := follows.place
        rw [follows.stop, whole, follows.offset]
        simp [begins]
      have last := follows.holds
      rw [ends] at last
      simpa [divide, Index.tables, numbered] using
        List.rel_append follows.closed (.cons last .nil)
  | cons l unread ih =>
      rw [List.foldl_cons, numbered, divide]
      cases header : Line.header? ⟨ix.offset, l⟩ with
      | some h =>
          have next := ih (follows.read_header header)
          rw [Index.read, header] at next ⊢
          simpa using next
      | none =>
          have next := ih (follows.read_line header)
          rw [Index.read, header] at next ⊢
          simpa using next

end Tiling

/-- Each table of a text holds the lines of one of its sections, in order. -/
theorem tables_hold (text : String) :
    List.Forall₂ (Table.Holds text.toList) (tables text) (sections text) := by
  have start : Index.Follows text.toList (Text.lines text.toList)
      ⟨[], ⟨nameless, 0, size text.toList⟩, 0⟩ [] ⟨nameless, []⟩ := {
    closed := .nil
    header := rfl
    stop := rfl
    lined := Text.lined_lines _
    numbering := rfl
    offset := rfl
    place := ⟨[], rfl, (Text.flatten_lines _).symm⟩ }
  exact start.tables_hold

/-! ## Searching the tables -/

section Search

variable {α β : Type} {R : α → β → Prop} {header : α → Header} {header' : β → Header}
  {xs : List α} {ys : List β}

theorem candidates_eq_select (text : String) (path : List String) :
    candidates text path = select Section.header (sections text) path := rfl

theorem forall₂_getElem? (related : List.Forall₂ R xs ys) (i : Nat) :
    List.Forall₂ R (xs[i]?).toList (ys[i]?).toList := by
  induction related generalizing i with
  | nil => exact .nil
  | cons first _ ih =>
      cases i with
      | zero => exact .cons first .nil
      | succ i => exact ih i

/-- A path refers to the same places among things with the same headers. -/
theorem select_related (related : List.Forall₂ R xs ys)
    (same : ∀ x y, R x y → header x = header' y) (path : List String) :
    List.Forall₂ R (select header xs path) (select header' ys path) := by
  have filtered (p : Header → Bool) :
      List.Forall₂ R (xs.filter fun x => p (header x)) (ys.filter fun y => p (header' y)) := by
    refine List.rel_filter (fun x y r => ?_) related
    exact iff_of_eq (congrArg (p · = true) (same x y r))
  unfold select
  split
  case h_1 rest =>
    have drivers := filtered fun h => h.repeated && h.name = "drivers"
    cases driverIndex? rest with
    | some i => exact forall₂_getElem? drivers i
    | none => exact drivers
  case h_2 => exact filtered fun h => !h.repeated && h.name = String.intercalate "." path

theorem findSomeM?_related {γ : Type} {f : α → Option (Option γ)} {g : β → Option γ}
    (related : List.Forall₂ R xs ys) (same : ∀ x y, R x y → f x = some (g y)) :
    xs.findSomeM? f = some (ys.findSome? g) := by
  induction related with
  | nil => rfl
  | @cons x y xs ys first _ ih =>
      rw [List.findSomeM?_cons, same x y first, List.findSome?_cons]
      cases found : g y with
      | some c => exact congrArg some rfl
      | none => exact ih

end Search

theorem Table.Holds.keySpan? {text : List Char} {t : Table} {s : Section} (holds : t.Holds text s)
    (key : String) : t.keySpan? text key = some (s.body.findSome? (Line.keySpan? key)) := by
  rw [Table.keySpan?, holds.body, Option.map_some, holds.lines]

/-- No slice fails, and the place is the one that is found in the sections. -/
theorem indexedPlace?_eq (sources : List Source) (path : List String) (key : String) :
    indexedPlace? sources path key = some (place? sources path key) := by
  have span (s : Source) :
      (select Table.header (tables s.text) path).findSomeM? (Table.keySpan? s.text.toList key) =
        some (keySpan? s.text path key) := by
    have chosen := select_related (tables_hold s.text) (fun _ _ holds => holds.header) path
    rw [keySpan?, candidates_eq_select]
    exact findSomeM?_related chosen fun _ _ holds => holds.keySpan? key
  unfold indexedPlace? place?
  split
  case isTrue => rfl
  case isFalse =>
    simp only [span]
    exact List.findSomeM?_pure

end NoteAssistant.Location
