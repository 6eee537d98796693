import NoteAssistant.Toml.Scalar
import NoteAssistant.Toml.Table

/-! # TOML documents -/

namespace NoteAssistant.Toml

/-- Arrays and inline tables may be nested to this depth, and a key may have so
    many parts. -/
def maxNesting : Nat := 79

/-- A comment, up to its line end. -/
def skipComment? : List Char → Option (List Char)
  | '#' :: r =>
    let body := r.takeWhile fun c => c ≠ '\n' && c ≠ '\r'
    if body.any isControl then none else some (r.dropWhile fun c => c ≠ '\n' && c ≠ '\r')
  | s => some s

def isBareKey (c : Char) : Bool := c.isAlphanum || c = '-' || c = '_'

/-- One part of a key: bare, or a string of one line. -/
def keyPart? (s : List Char) : Option (String × List Char) :=
  match s with
  | '"' :: r => (basic? r).map fun (cs, rest) => (String.ofList cs, rest)
  | '\'' :: r => (literal? r).map fun (cs, rest) => (String.ofList cs, rest)
  | _ =>
    match s.takeWhile isBareKey with
    | [] => none
    | cs => some (String.ofList cs, s.dropWhile isBareKey)

/-- At most `count` parts of a key, joined by dots, blanks around them allowed. -/
def keyParts? : Nat → List Char → Option (List String × String × List Char)
  | 0, _ => none
  | count + 1, s => do
    let (part, r) ← keyPart? (skipSpace s)
    match skipSpace r with
    | '.' :: r =>
      let (path, last, rest) ← keyParts? count r
      some (part :: path, last, rest)
    | r => some ([], part, r)

/-- A key: the parts before the last one, the last one, and the text after it. -/
def key? (s : List Char) : Option (List String × String × List Char) := keyParts? maxNesting s

/-- Blanks, line ends and comments inside an array. -/
def skipGap : Nat → List Char → Option (List Char)
  | 0, s => some s
  | fuel + 1, s =>
    match skipBlank s with
    | '#' :: r => (skipComment? ('#' :: r)).bind (skipGap fuel)
    | r => some r

mutual

/-- The value at the start of a text. `depth` counts the levels still allowed. -/
def value? : Nat → Nat → List Char → Option (Value × List Char)
  | 0, _, _ => none
  | fuel + 1, depth, s =>
    match s with
    | '"' :: _ | '\'' :: _ => (string? s).map fun (t, rest) => (.string t, rest)
    | '[' :: r =>
      match depth with
      | 0 => none
      | depth + 1 => (items? fuel depth r).map fun (vs, rest) => (.array vs, rest)
    | '{' :: r =>
      match depth with
      | 0 => none
      | depth + 1 =>
        match skipSpace r with
        | '}' :: rest => some (.table [], rest)
        | r => (pairs? fuel depth [] r).map fun (es, rest) => (.table (Entries.values es), rest)
    | 't' :: 'r' :: 'u' :: 'e' :: rest => some (.boolean true, rest)
    | 'f' :: 'a' :: 'l' :: 's' :: 'e' :: rest => some (.boolean false, rest)
    | _ =>
      match datetime? s with
      | some (t, rest) => some (.datetime t, rest)
      | none =>
        match float? s with
        | some (x, rest) => some (.float x, rest)
        | none => (integer? s).map fun (n, rest) => (.integer n, rest)

/-- The items of an array up to its closing bracket. -/
def items? : Nat → Nat → List Char → Option (List Value × List Char)
  | 0, _, _ => none
  | fuel + 1, depth, s => do
    match ← skipGap (s.length + 1) s with
    | ']' :: rest => some ([], rest)
    | s =>
      let (v, r) ← value? fuel depth s
      match ← skipGap (r.length + 1) r with
      | ']' :: rest => some ([v], rest)
      | ',' :: r =>
        let (vs, rest) ← items? fuel depth r
        some (v :: vs, rest)
      | _ => none

/-- The entries of an inline table up to its closing brace, added to those read. -/
def pairs? : Nat → Nat → Entries → List Char → Option (Entries × List Char)
  | 0, _, _, _ => none
  | fuel + 1, depth, es, s => do
    let (path, key, r) ← key? s
    let r ← expect? '=' r
    let (v, r) ← value? fuel depth (skipSpace r)
    let es ← Entries.addValue path key v es
    match skipSpace r with
    | '}' :: rest => some (es, rest)
    | ',' :: r => pairs? fuel depth es r
    | _ => none

end

/-- The end of a line: blanks, perhaps a comment, and a line end or the end. -/
def lineEnd? (s : List Char) : Option (List Char) := do
  let r ← skipComment? (skipSpace s)
  if r = [] then some [] else newline? r

/-- A document being read: its entries and the path of the header in force. -/
structure Draft where
  entries : Entries
  header : List String

/-- One line: blank, a header, or a key with its value, which may go on over
    further lines. -/
def Draft.line? (d : Draft) (s : List Char) : Option (Draft × List Char) := do
  let s := skipSpace s
  match s with
  | '[' :: '[' :: r =>
    let (path, key, r) ← key? r
    let r ← expect? ']' (← expect? ']' r)
    let entries ← Entries.openNext path key d.entries
    some (⟨entries, path ++ [key]⟩, ← lineEnd? r)
  | '[' :: r =>
    let (path, key, r) ← key? r
    let r ← expect? ']' r
    let entries ← Entries.openTable path key d.entries
    some (⟨entries, path ++ [key]⟩, ← lineEnd? r)
  | _ =>
    match lineEnd? s with
    | some r => some (d, r)
    | none =>
      let (path, key, r) ← key? s
      let r ← expect? '=' r
      let (v, r) ← value? (2 * r.length + 2) maxNesting (skipSpace r)
      let entries ← Entries.addUnder d.header path key v d.entries
      some ({ d with entries }, ← lineEnd? r)

def Draft.lines? : Nat → Draft → List Char → Option Draft
  | _, d, [] => some d
  | 0, _, _ => none
  | fuel + 1, d, s => do
    let (d, r) ← d.line? s
    d.lines? fuel r

/-- The entries of a document; `none` if the text is not TOML. -/
def parse? (text : String) : Option (List (String × Value)) :=
  let s := match text.toList with
    | '\uFEFF' :: r => r
    | r => r
  (Draft.lines? (s.length + 1) ⟨[], []⟩ s).map fun d => Entries.values d.entries

end NoteAssistant.Toml
