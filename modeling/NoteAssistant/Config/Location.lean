import NoteAssistant.Number.Written
import NoteAssistant.Text.Search

/-! # Finding keys in configuration texts

A text is seen as lines: table headers, and lines `key = value` below them. Spans
are counted in bytes.
-/

namespace NoteAssistant

structure Span where
  start : Nat
  length : Nat
  deriving DecidableEq, Repr

/-- A configuration text with the name it is shown under. -/
structure Source where
  name : String
  text : String
  deriving DecidableEq, Repr

structure Place where
  source : String
  span : Span
  deriving DecidableEq, Repr

namespace Location

/-- Bytes of a text. -/
def size (s : List Char) : Nat := s.foldr (fun c n => c.utf8Size + n) 0

/-- A line with the byte at which it begins. -/
structure Line where
  start : Nat
  chars : List Char
  deriving DecidableEq, Repr

def numbered (start : Nat) : List (List Char) → List Line
  | [] => []
  | l :: ls => ⟨start, l⟩ :: numbered (start + size l) ls

def linesOf (text : String) : List Line := numbered 0 (Text.lines text.toList)

/-- Bytes of white space at the start of a line. -/
def Line.indent (l : Line) : Nat := size l.chars - size (Text.trimStart l.chars)

structure Header where
  name : String
  /-- Written with double brackets. -/
  repeated : Bool
  span : Span
  deriving DecidableEq, Repr

/-- The text between two marks, if a line begins with the first one. -/
def between (opening closing : List Char) (s : List Char) : Option (List Char) :=
  (Text.after? opening s).bind fun r => (Text.cut? closing r).map (·.1)

def Line.header? (l : Line) : Option Header :=
  let s := Text.trim l.chars
  let span : Span := ⟨l.start + l.indent, size s⟩
  let named (repeated : Bool) (name : List Char) : Header :=
    ⟨String.ofList (Text.trim name), repeated, span⟩
  match between ['[', '['] [']', ']'] s with
  | some name => some (named true name)
  | none => (between ['['] [']'] s).map (named false)

/-- A header with the lines up to the next one. The lines before the first
    header belong to a nameless table. -/
structure Section where
  header : Header
  body : List Line
  deriving DecidableEq, Repr

/-- The lines before the first header, and the sections after it. -/
def divide : List Line → List Line × List Section
  | [] => ([], [])
  | l :: ls =>
    let (body, rest) := divide ls
    match l.header? with
    | some h => ([], ⟨h, body⟩ :: rest)
    | none => (l :: body, rest)

def sections (text : String) : List Section :=
  let (body, rest) := divide (linesOf text)
  ⟨⟨"", false, ⟨0, 0⟩⟩, body⟩ :: rest

def driverSections (text : String) : List Section :=
  (sections text).filter fun s => s.header.repeated && s.header.name = "drivers"

/-- The position that a component of a path gives. -/
def index? (component : String) : Option Nat := Number.unsigned? component.toList

/-- The driver that a path leads into; no position means every driver. -/
def driverIndex? (rest : List String) : Option Nat := rest.head?.bind index?

/-- The sections that a path of table names may refer to. -/
def candidates (text : String) : List String → List Section
  | "drivers" :: rest =>
    match driverIndex? rest with
    | some i => ((driverSections text)[i]?).toList
    | none => driverSections text
  | path =>
    (sections text).filter fun s =>
      !s.header.repeated && s.header.name = String.intercalate "." path

/-- The span of a key that a line assigns to, quoted or bare. -/
def Line.keySpan? (key : String) (l : Line) : Option Span :=
  let s := Text.trimStart l.chars
  [['"'] ++ key.toList ++ ['"'], key.toList].findSome? fun written =>
    match (Text.after? written s).map Text.trimStart with
    | some ('=' :: _) => some ⟨l.start + l.indent, size written⟩
    | _ => none

/-- The span of a key in the first matching section that assigns to it. -/
def keySpan? (text : String) (path : List String) (key : String) : Option Span :=
  (candidates text path).findSome? fun s => s.body.findSome? (Line.keySpan? key)

/-- The place of a key in the first source that assigns to it. -/
def place? (sources : List Source) (path : List String) (key : String) : Option Place :=
  if key = "" then none
  else sources.findSome? fun s => (keySpan? s.text path key).map fun span => ⟨s.name, span⟩

/-- The place of the header of a driver in the first source that has so many. -/
def driverPlace? (sources : List Source) (index : Nat) : Option Place :=
  sources.findSome? fun s =>
    ((driverSections s.text)[index]?).map fun t => ⟨s.name, t.header.span⟩

/-- The name under which messages show the table of a path. -/
def tableLabel : List String → String
  | [] => "the top level"
  | "drivers" :: rest =>
    match driverIndex? rest with
    | some i => s!"[[drivers]] #{i + 1}"
    | none => "[[drivers]]"
  | path => "[" ++ String.intercalate "." path ++ "]"

end Location

end NoteAssistant
