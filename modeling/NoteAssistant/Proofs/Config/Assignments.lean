import Mathlib.Data.List.TakeWhile
import NoteAssistant.Proofs.Config.Tables
import NoteAssistant.Proofs.Text.Search

/-! # Where keys are found

A key is found in a text if and only if a line gives it a value in a table that the path refers
to, which the headers in front of the line decide. What is found is the first such line of the
first source that has one (`place?_assigned`).
-/

namespace NoteAssistant.Location

/-! ## Headers -/

section Headers

/-- A text begins with something between two marks, up to the first place where the second mark
    stands. -/
def Encloses (opening closing inner s : List Char) : Prop :=
  ∃ rest, s = opening ++ inner ++ closing ++ rest ∧
    ∀ b r, inner ++ closing ++ rest = b ++ closing ++ r → inner.length ≤ b.length

theorem between_eq_some_iff {opening closing inner s : List Char} :
    between opening closing s = some inner ↔ Encloses opening closing inner s := by
  rw [between, Option.bind_eq_some_iff]
  constructor
  · rintro ⟨r, begun, named⟩
    obtain ⟨⟨i, rest⟩, cut, rfl⟩ := Option.map_eq_some_iff.mp named
    obtain ⟨rfl, first⟩ := Text.cut?_eq_some_iff.mp cut
    exact ⟨rest, by simpa using Text.eq_append_of_after? begun, first⟩
  · rintro ⟨rest, rfl, first⟩
    refine ⟨inner ++ closing ++ rest, ?_, ?_⟩
    · simpa using Text.after?_append opening (inner ++ closing ++ rest)
    · exact Option.map_eq_some_iff.mpr ⟨(inner, rest), Text.cut?_eq_some_iff.mpr ⟨rfl, first⟩, rfl⟩

/-- A line is a header: the name is what stands between the brackets, without the blanks around
    it. Double brackets count before single ones. -/
def Line.Heads (l : Line) (h : Header) : Prop :=
  h.span = ⟨l.start + l.indent, size (Text.trim l.chars)⟩ ∧
  ∃ name, h.name = String.ofList (Text.trim name) ∧
    if h.repeated then Encloses ['[', '['] [']', ']'] name (Text.trim l.chars)
    else Encloses ['['] [']'] name (Text.trim l.chars) ∧
      ∀ other, ¬ Encloses ['[', '['] [']', ']'] other (Text.trim l.chars)

theorem header?_eq_some_iff {l : Line} {h : Header} : l.header? = some h ↔ l.Heads h := by
  rw [Line.Heads]
  obtain ⟨name, repeated, span⟩ := h
  simp only [← between_eq_some_iff, Line.header?]
  cases between ['[', '['] [']', ']'] (Text.trim l.chars) with
  | some inner =>
      cases repeated with
      | true => simp [eq_comm, and_comm]
      | false => simp
  | none =>
      cases repeated with
      | true => simp
      | false =>
          simp only [Option.map_eq_some_iff, Header.mk.injEq]
          grind

theorem header?_eq_none_iff {l : Line} : l.header? = none ↔ ∀ h, ¬ l.Heads h := by
  simp only [Option.eq_none_iff_forall_ne_some, Ne, header?_eq_some_iff]

end Headers

/-! ## Lines -/

section Lines

variable {key : String} {l : Line} {written : List Char}

/-- The forms in which a key is written. -/
def spellings (key : String) : List (List Char) := [['"'] ++ key.toList ++ ['"'], key.toList]

/-- A line begins with a key in some form and gives it a value. -/
def Line.Assigns (l : Line) (written : List Char) : Prop :=
  ∃ blanks rest, Text.trimStart l.chars = written ++ blanks ++ '=' :: rest ∧
    ∀ c ∈ blanks, Text.isBlank c = true

def Line.spanOf (l : Line) (written : List Char) : Span := ⟨l.start + l.indent, size written⟩

theorem trimStart_eq_equals_iff {s rest : List Char} :
    Text.trimStart s = '=' :: rest ↔
      ∃ blanks, s = blanks ++ '=' :: rest ∧ ∀ c ∈ blanks, Text.isBlank c = true := by
  constructor
  · intro trimmed
    refine ⟨s.takeWhile Text.isBlank, ?_, fun c mem => List.mem_takeWhile_imp mem⟩
    rw [← trimmed, Text.trimStart, List.takeWhile_append_dropWhile]
  · rintro ⟨blanks, rfl, blank⟩
    rw [Text.trimStart, List.dropWhile_append_of_pos blank]
    rfl

theorem assigns_iff :
    l.Assigns written ↔
      ∃ after rest, Text.after? written (Text.trimStart l.chars) = some after ∧
        Text.trimStart after = '=' :: rest := by
  constructor
  · rintro ⟨blanks, rest, whole, blank⟩
    refine ⟨blanks ++ '=' :: rest, rest, ?_, trimStart_eq_equals_iff.mpr ⟨blanks, rfl, blank⟩⟩
    rw [whole, List.append_assoc, Text.after?_append]
  · rintro ⟨after, rest, begun, trimmed⟩
    obtain ⟨blanks, rfl, blank⟩ := trimStart_eq_equals_iff.mp trimmed
    refine ⟨blanks, rest, ?_, blank⟩
    rw [Text.eq_append_of_after? begun, List.append_assoc]

/-- The span of a form of a key, if the line gives it a value. -/
def Line.spanIf? (l : Line) (written : List Char) : Option Span :=
  match (Text.after? written (Text.trimStart l.chars)).map Text.trimStart with
  | some ('=' :: _) => some (l.spanOf written)
  | _ => none

theorem spanIf?_eq_some_iff {span : Span} :
    l.spanIf? written = some span ↔ l.Assigns written ∧ span = l.spanOf written := by
  rw [assigns_iff, Line.spanIf?]
  cases Text.after? written (Text.trimStart l.chars) with
  | none => simp
  | some after =>
      cases trimmed : Text.trimStart after with
      | nil => simp [trimmed]
      | cons c rest =>
          by_cases equals : c = '='
          · simp [trimmed, equals, eq_comm]
          · simp [trimmed, equals]

theorem keySpan?_eq_findSome? : l.keySpan? key = (spellings key).findSome? l.spanIf? := rfl

theorem assigns_of_keySpan? {span : Span} (found : l.keySpan? key = some span) :
    ∃ written ∈ spellings key, l.Assigns written ∧ span = l.spanOf written := by
  rw [keySpan?_eq_findSome?] at found
  obtain ⟨written, mem, found⟩ := List.exists_of_findSome?_eq_some found
  exact ⟨written, mem, spanIf?_eq_some_iff.mp found⟩

theorem isSome_keySpan? (mem : written ∈ spellings key) (assigns : l.Assigns written) :
    (l.keySpan? key).isSome = true := by
  rw [keySpan?_eq_findSome?, List.findSome?_isSome_iff]
  have given : l.spanIf? written = some (l.spanOf written) := spanIf?_eq_some_iff.mpr ⟨assigns, rfl⟩
  exact ⟨written, mem, Option.isSome_iff_exists.mpr ⟨_, given⟩⟩

end Lines

/-! ## Tables -/

section Governing

def Header.isDriver (h : Header) : Bool := h.repeated && h.name = "drivers"

def headersOf (ls : List Line) : List Header := ls.filterMap Line.header?

/-- With these headers in front of it a line belongs to a table that a path refers to: the last one
    decides, and for a driver how many drivers there are up to it. The lines before the first header
    belong to an empty path. -/
def governs (path : List String) (headers : List Header) : Bool :=
  match path with
  | "drivers" :: rest =>
    headers.getLast?.any Header.isDriver &&
      (driverIndex? rest).all fun n => headers.countP Header.isDriver = n + 1
  | path =>
    match headers.getLast? with
    | some h => !h.repeated && h.name = String.intercalate "." path
    | none => String.intercalate "." path = ""

/-- The sections behind these headers that a path refers to. -/
def chosen (path : List String) (headers : List Header) : List Section → List Section
  | [] => []
  | s :: ss =>
    let rest := chosen path (headers ++ [s.header]) ss
    if governs path (headers ++ [s.header]) then s :: rest else rest

/-- The first line for which `f` has something, in a table that a path refers to. -/
def search (path : List String) (f : Line → Option Span) (headers : List Header) :
    List Line → Option Span
  | [] => none
  | l :: ls =>
    match l.header? with
    | some h => search path f (headers ++ [h]) ls
    | none => (if governs path headers then f l else none).or (search path f headers ls)

variable {path : List String} {f : Line → Option Span} {headers : List Header} {ls : List Line}

theorem search_eq :
    search path f headers ls =
      (if governs path headers then (divide ls).1.findSome? f else none).or
        ((chosen path headers (divide ls).2).findSome? fun s => s.body.findSome? f) := by
  induction ls generalizing headers with
  | nil => simp [search, divide, chosen]
  | cons l ls ih =>
      rw [search, divide]
      cases header : l.header? with
      | some h =>
          simp only [ih, chosen]
          cases governs path (headers ++ [h]) with
          | true =>
              simp only [if_true, List.findSome?_cons]
              cases (divide ls).1.findSome? f <;> simp
          | false => simp
      | none =>
          simp only [ih]
          cases governs path headers <;> cases found : f l <;> simp [found]

/-! Each section that a path refers to is told by the headers up to its own. -/

section Choice

variable {ss : List Section}

theorem governs_concat (h : Header) :
    governs path (headers ++ [h]) =
      match path with
      | "drivers" :: rest =>
        h.isDriver && (driverIndex? rest).all fun n => headers.countP Header.isDriver = n
      | path => !h.repeated && h.name = String.intercalate "." path := by
  unfold governs
  split
  case h_1 rest =>
    cases driver : h.isDriver <;> simp [List.countP_append, driver]
  case h_2 => simp

theorem chosen_table (other : ∀ rest, path ≠ "drivers" :: rest) :
    chosen path headers ss =
      ss.filter fun s => !s.header.repeated && s.header.name = String.intercalate "." path := by
  induction ss generalizing headers with
  | nil => rfl
  | cons s ss ih =>
      rw [chosen, governs_concat, ih, List.filter_cons]
      split
      case h_1 rest => exact absurd rfl (other rest)
      case h_2 => rfl

theorem chosen_drivers {rest : List String} (all : driverIndex? rest = none) :
    chosen ("drivers" :: rest) headers ss = ss.filter fun s => s.header.isDriver := by
  induction ss generalizing headers with
  | nil => rfl
  | cons s ss ih =>
      rw [chosen, governs_concat, ih, List.filter_cons]
      simp [all]

/-- The drivers are counted with those in front. -/
theorem chosen_driver {rest : List String} {n : Nat} (one : driverIndex? rest = some n) :
    chosen ("drivers" :: rest) headers ss =
      if headers.countP Header.isDriver ≤ n then
        ((ss.filter fun s => s.header.isDriver)[n - headers.countP Header.isDriver]?).toList
      else [] := by
  induction ss generalizing headers with
  | nil => simp [chosen]
  | cons s ss ih =>
      rw [chosen, governs_concat, ih, List.filter_cons, List.countP_append]
      simp only [one, List.countP_singleton, Option.all_some]
      cases driver : s.header.isDriver with
      | false => simp
      | true =>
          -- The driver that is looked for is behind this section, this one, or in front of it.
          rcases Nat.lt_trichotomy (headers.countP Header.isDriver) n with fewer | rfl | more
          · have later : n - headers.countP Header.isDriver =
                n - (headers.countP Header.isDriver + 1) + 1 := by omega
            simp [later, fewer.ne, fewer.le, Nat.succ_le_of_lt fewer]
          · have past := Nat.not_succ_le_self (headers.countP Header.isDriver)
            simp [past]
          · have past : ¬ headers.countP Header.isDriver + 1 ≤ n := by omega
            simp [more.ne', more.not_ge, past]

/-- Of the sections of a text a path refers to the nameless one if it is empty, and to those that
    the headers in front of their lines say. -/
theorem select_sections (body : List Line) :
    select Section.header (⟨nameless, body⟩ :: ss) path =
      (if governs path [] then [⟨nameless, body⟩] else []) ++ chosen path [] ss := by
  unfold select
  split
  case h_1 rest =>
    have front : governs ("drivers" :: rest) [] = false := rfl
    cases driver : driverIndex? rest with
    | none =>
        rw [front, chosen_drivers driver]
        rfl
    | some n =>
        rw [front, chosen_driver driver]
        rfl
  case h_2 other =>
    rw [chosen_table other, List.filter_cons]
    have front : governs path [] = decide (String.intercalate "." path = "") := by
      unfold governs
      split
      case h_1 rest => exact (other rest rfl).elim
      case h_2 => rfl
    have same : (!nameless.repeated && nameless.name = String.intercalate "." path) =
        governs path [] := by
      rw [front]
      exact decide_eq_decide.mpr eq_comm
    rw [same]
    cases governs path [] <;> rfl

end Choice

theorem keySpan?_eq_search (text : String) (path : List String) (key : String) :
    keySpan? text path key = search path (Line.keySpan? key) [] (linesOf text) := by
  rw [keySpan?, candidates_eq_select, search_eq]
  change (select Section.header (⟨nameless, _⟩ :: _) path).findSome? _ = _
  rw [select_sections, List.findSome?_append]
  cases governs path [] with
  | true =>
      simp only [if_true, List.findSome?_cons, List.findSome?_nil]
      cases (divide (linesOf text)).1.findSome? (Line.keySpan? key) <;> rfl
  | false => rfl

@[simp] theorem headersOf_cons_some {l : Line} {h : Header} (header : l.header? = some h) :
    headersOf (l :: ls) = h :: headersOf ls := List.filterMap_cons_some header

@[simp] theorem headersOf_cons_none {l : Line} (noHeader : l.header? = none) :
    headersOf (l :: ls) = headersOf ls := List.filterMap_cons_none noHeader

/-- What a search finds is on a line of a table that the path refers to. -/
theorem search_eq_some {span : Span} (found : search path f headers ls = some span) :
    ∃ before l after, ls = before ++ l :: after ∧ l.header? = none ∧
      governs path (headers ++ headersOf before) = true ∧ f l = some span ∧
      search path f headers before = none := by
  induction ls generalizing headers with
  | nil => cases found
  | cons l ls ih =>
      unfold search at found
      cases header : l.header? with
      | some h =>
          simp only [header] at found
          obtain ⟨before, m, after, rfl, noHeader, governed, given, first⟩ := ih found
          refine ⟨l :: before, m, after, rfl, noHeader, ?_, given, ?_⟩
          · simpa [header] using governed
          · simpa [search, header] using first
      | none =>
          simp only [header] at found
          cases here : (if governs path headers then f l else none) with
          | some w =>
              obtain ⟨governed, given⟩ := Option.ite_none_right_eq_some.mp here
              rw [here, Option.some_or] at found
              exact ⟨[], l, ls, rfl, header, by simpa [headersOf], given.trans found, rfl⟩
          | none =>
              rw [here, Option.none_or] at found
              obtain ⟨before, m, after, rfl, noHeader, governed, given, first⟩ := ih found
              refine ⟨l :: before, m, after, rfl, noHeader, ?_, given, ?_⟩
              · simpa [header] using governed
              · simpa [search, header, here] using first

/-- A search finds nothing only if there is nothing on any line of such a table. -/
theorem eq_none_of_search (nothing : search path f headers ls = none) {before after : List Line}
    {l : Line} (whole : ls = before ++ l :: after) (noHeader : l.header? = none)
    (governed : governs path (headers ++ headersOf before) = true) : f l = none := by
  induction before generalizing headers ls with
  | nil =>
      rw [whole, List.nil_append, search, noHeader] at nothing
      have here := (Option.or_eq_none_iff.mp nothing).1
      rwa [if_pos (by simpa [headersOf] using governed)] at here
  | cons m before ih =>
      rw [whole, List.cons_append, search] at nothing
      cases header : m.header? with
      | some h =>
          simp only [header] at nothing
          exact ih nothing rfl (by simpa [header] using governed)
      | none =>
          simp only [header] at nothing
          exact ih (Option.or_eq_none_iff.mp nothing).2 rfl (by simpa [header] using governed)

end Governing

/-! ## Places -/

/-- A line that gives a value to a key in a table that a path refers to, behind some others. -/
structure Assignment (text : String) (path : List String) (key : String) (before : List Line)
    (l : Line) (written : List Char) : Prop where
  stands : ∃ after, linesOf text = before ++ l :: after
  noHeader : ∀ h, ¬ l.Heads h
  governed : governs path (headersOf before) = true
  spelled : written ∈ spellings key
  assigns : l.Assigns written

section Places

variable {text : String} {path : List String} {key : String} {before after : List Line} {l : Line}
  {written : List Char}

theorem start_of_numbered {start : Nat} {ls : List (List Char)}
    (whole : numbered start ls = before ++ l :: after) :
    l.start = start + size (before.map Line.chars).flatten := by
  induction before generalizing start ls with
  | nil =>
      cases ls with
      | nil => cases whole
      | cons c ls =>
          obtain ⟨rfl, -⟩ := List.cons.inj whole
          rfl
  | cons m before ih =>
      cases ls with
      | nil => cases whole
      | cons c ls =>
          obtain ⟨rfl, rest⟩ := List.cons.inj whole
          rw [ih rest]
          simp [Nat.add_assoc]

theorem flatten_linesOf (text : String) :
    ((linesOf text).map Line.chars).flatten = text.toList := by
  rw [linesOf, map_chars_numbered, Text.flatten_lines]

/-- The bytes of a span are the key as it is written. -/
theorem slice?_spanOf (whole : linesOf text = before ++ l :: after) (assigns : l.Assigns written) :
    slice? (l.spanOf written).start ((l.spanOf written).start + (l.spanOf written).length)
      text.toList = some written := by
  obtain ⟨blanks, rest, trimmed, -⟩ := assigns
  let indent := l.chars.takeWhile Text.isBlank
  have chars : l.chars = indent ++ written ++ (blanks ++ '=' :: rest) := by
    rw [List.append_assoc, ← List.append_assoc written, ← trimmed]
    exact List.takeWhile_append_dropWhile.symm
  have indented : l.indent = size indent := by
    rw [Line.indent, trimmed, chars]
    simp
  have start := start_of_numbered whole
  refine slice?_eq_some_iff.mpr ⟨(before.map Line.chars).flatten ++ indent,
    blanks ++ '=' :: rest ++ (after.map Line.chars).flatten, ?_, ?_, rfl⟩
  · rw [← flatten_linesOf, whole]
    simp [chars]
  · simp [Line.spanOf, indented, start]

theorem assignment_of_keySpan? {span : Span} (found : keySpan? text path key = some span) :
    ∃ before l written, Assignment text path key before l written ∧ span = l.spanOf written ∧
      ∀ b m w, Assignment text path key b m w → before.length ≤ b.length := by
  rw [keySpan?_eq_search] at found
  obtain ⟨before, l, after, whole, noHeader, governed, given, first⟩ := search_eq_some found
  obtain ⟨written, spelled, assigns, rfl⟩ := assigns_of_keySpan? given
  have plain := header?_eq_none_iff.mp noHeader
  refine ⟨before, l, written, ⟨⟨after, whole⟩, plain, governed, spelled, assigns⟩, rfl, ?_⟩
  intro b m w other
  obtain ⟨rest, stands⟩ := other.stands
  by_contra shorter
  -- Such a line would be one of those in which the search has found nothing.
  have front : b ++ [m] <+: linesOf text := ⟨rest, by simp [stands]⟩
  have own : before <+: linesOf text := ⟨l :: after, whole.symm⟩
  have short : (b ++ [m]).length ≤ before.length := by
    rw [List.length_append, List.length_singleton]
    omega
  obtain ⟨between, inFront⟩ := List.prefix_of_prefix_length_le front own short
  have shape : before = b ++ m :: between := by simpa using inFront.symm
  have plain := header?_eq_none_iff.mpr other.noHeader
  have nothing := eq_none_of_search first shape plain other.governed
  have some := isSome_keySpan? other.spelled other.assigns
  rw [nothing] at some
  cases some

theorem not_assignment_of_keySpan? (nothing : keySpan? text path key = none) :
    ¬ Assignment text path key before l written := by
  intro given
  obtain ⟨after, whole⟩ := given.stands
  rw [keySpan?_eq_search] at nothing
  have plain := header?_eq_none_iff.mpr given.noHeader
  have none := eq_none_of_search nothing whole plain given.governed
  have some := isSome_keySpan? given.spelled given.assigns
  rw [none] at some
  cases some

/-- A key has a place if and only if some line gives it a value in a table that the path refers to.
    It is the first such line of the first source with one, the bytes of the span are the key as it
    is written there, and no slice of a text fails on the way. -/
theorem place?_assigned (sources : List Source) (path : List String) (key : String)
    (named : key ≠ "") :
    ((place? sources path key).isSome = true ↔
      ∃ s ∈ sources, ∃ before l written, Assignment s.text path key before l written) ∧
    (∀ p, place? sources path key = some p →
      ∃ earlier s later before l written, sources = earlier ++ s :: later ∧
        (∀ e ∈ earlier, ∀ b m w, ¬ Assignment e.text path key b m w) ∧
        Assignment s.text path key before l written ∧
        (∀ b m w, Assignment s.text path key b m w → before.length ≤ b.length) ∧
        p = ⟨s.name, l.spanOf written⟩ ∧
        slice? p.span.start (p.span.start + p.span.length) s.text.toList = some written ∧
        ((Text.Utf8.encode s.text.toList).drop p.span.start).take p.span.length =
          Text.Utf8.encode written) ∧
    indexedPlace? sources path key = some (place? sources path key) := by
  have searched : place? sources path key =
      sources.findSome? fun s => (keySpan? s.text path key).map fun span => ⟨s.name, span⟩ :=
    if_neg named
  refine ⟨?_, ?_, indexedPlace?_eq sources path key⟩
  · rw [searched, List.findSome?_isSome_iff]
    refine exists_congr fun s => and_congr_right fun _ => ?_
    rw [Option.isSome_map]
    constructor
    · intro found
      obtain ⟨span, found⟩ := Option.isSome_iff_exists.mp found
      obtain ⟨before, l, written, given, -⟩ := assignment_of_keySpan? found
      exact ⟨before, l, written, given⟩
    · rintro ⟨before, l, written, given⟩
      by_contra nothing
      exact not_assignment_of_keySpan? (Option.not_isSome_iff_eq_none.mp nothing) given
  · intro p placed
    rw [searched, List.findSome?_eq_some_iff] at placed
    obtain ⟨earlier, s, later, rfl, here, nothing⟩ := placed
    obtain ⟨span, found, rfl⟩ := Option.map_eq_some_iff.mp here
    obtain ⟨before, l, written, given, rfl, first⟩ := assignment_of_keySpan? found
    obtain ⟨after, whole⟩ := given.stands
    have taken := slice?_spanOf whole given.assigns
    refine ⟨earlier, s, later, before, l, written, rfl, ?_, given, first, rfl, taken, ?_⟩
    · intro e mem b m w
      exact not_assignment_of_keySpan? (Option.map_eq_none_iff.mp (nothing e mem))
    · simpa using encode_slice? taken

def sampleSources : List Source :=
  [⟨"first", "key = 1\n[[drivers]]\n"⟩,
    ⟨"second", "é = 1\n[[drivers]]\nother = 2\n [[ drivers ]]\n  \"key\" = 3\n"⟩]

theorem place?_assigned_driver :
    "key" ≠ "" ∧
    place? sampleSources ["drivers", "1"] "key" = some ⟨"second", ⟨46, 5⟩⟩ ∧
    indexedPlace? sampleSources ["drivers", "1"] "key" = some (some ⟨"second", ⟨46, 5⟩⟩) ∧
    (∃ s ∈ sampleSources, ∃ before l written,
      Assignment s.text ["drivers", "1"] "key" before l written) := by
  have named : "key" ≠ "" := by decide
  have placed : place? sampleSources ["drivers", "1"] "key" = some ⟨"second", ⟨46, 5⟩⟩ := by
    decide +kernel
  obtain ⟨assigned, -, indexed⟩ := place?_assigned sampleSources ["drivers", "1"] "key" named
  exact ⟨named, placed, placed ▸ indexed, assigned.mp (placed ▸ rfl)⟩

end Places

end NoteAssistant.Location
