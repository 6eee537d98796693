import NoteAssistant.Config.Setting
import NoteAssistant.Text.Search
import NoteAssistant.Toml.Scalar

/-! # Settings from the environment

Variables whose names begin with `MNEMO_` set configuration keys. Their values
are written in a small notation of its own: booleans, numbers, quoted strings,
lists and tables; whatever is none of these is a string.
-/

namespace NoteAssistant.Environment

open Setting (put)

/-- Characters that end a bare value. -/
def isSeparator (c : Char) : Bool := c = ',' || c = '{' || c = '}' || c = '[' || c = ']'

def isKeyChar (c : Char) : Bool := c.isAlphanum || c = '_' || c = '-'

def skipBlank (s : List Char) : List Char := s.dropWhile Text.isAsciiBlank

/-- A bare word: a number with a point, a whole number, or a string. -/
def bare (word : List Char) : Setting :=
  let word := Text.trim word
  let pointed : Option Double := if word.contains '.' then Number.double? word else none
  match pointed, Number.unsigned? word, Number.signed? word with
  | some x, _, _ => .float x
  | none, some n, _ => .unsigned n
  | none, none, some n => .signed n
  | none, none, none => .string (String.ofList word)

/-- The inside of a quoted string up to the first quote that is not escaped. -/
def inside? : List Char → Option (List Char × List Char)
  | '"' :: r => some ([], r)
  | '\\' :: c :: r => (inside? r).map fun (cs, rest) => ('\\' :: c :: cs, rest)
  | c :: r => (inside? r).map fun (cs, rest) => (c :: cs, rest)
  | [] => none

/-- Characters with escapes among them, resolved. -/
def unescape? (s : List Char) : Option (List Char) :=
  match s with
  | [] => some []
  | '\\' :: r =>
    match _h : Toml.escape? r with
    | some (c, rest) => (unescape? rest).map (c :: ·)
    | none => none
  | c :: r => (unescape? r).map (c :: ·)
termination_by s.length
decreasing_by
  · have := Toml.length_of_escape? _h
    simp only [List.length_cons]
    omega
  · simp

/-- The longest beginning of a text that takes at most `n` bytes. -/
def firstBytes (n : Nat) : List Char → List Char
  | [] => []
  | c :: s => if c.utf8Size ≤ n then c :: firstBytes (n - c.utf8Size) s else []

/-- The text that a quoted string stands for; none if it holds a control character
    other than a tab. What precedes the first escape is cut to as many bytes as it
    has characters, so that it is kept whole if it is ASCII. -/
def unquote? (raw : List Char) : Option (List Char) :=
  let plain := raw.takeWhile (· ≠ '\\')
  if raw.any Toml.isControl then none
  else if plain.length = raw.length then some raw
  else (unescape? (raw.drop plain.length)).map (firstBytes plain.length plain ++ ·)

/-- A quoted string after its opening quote. -/
def quoted? (s : List Char) : Option (String × List Char) := do
  let (raw, rest) ← inside? s
  let cs ← unquote? raw
  some (String.ofList cs, rest)

def key? (s : List Char) : Option (String × List Char) :=
  match s with
  | '"' :: r => quoted? r
  | _ =>
    match s.takeWhile isKeyChar with
    | [] => none
    | cs => some (String.ofList cs, s.dropWhile isKeyChar)

mutual

/-- The value at the start of a text; `fuel` bounds its nesting and length. -/
def value? : Nat → List Char → Option (Setting × List Char)
  | 0, _ => none
  | fuel + 1, s => do
    let (v, r) ← match skipBlank s with
      | 't' :: 'r' :: 'u' :: 'e' :: r => some (.boolean true, r)
      | 'f' :: 'a' :: 'l' :: 's' :: 'e' :: r => some (.boolean false, r)
      | '{' :: r => (entries? fuel r).map fun (es, rest) => (.table es, rest)
      | '[' :: r => (items? fuel r).map fun (vs, rest) => (.list vs, rest)
      | '"' :: r => (quoted? r).map fun (t, rest) => (.string t, rest)
      | '\'' :: c :: '\'' :: r => some (.character c, r)
      | '\'' :: _ => none
      | r =>
        some (bare (r.takeWhile fun c => !isSeparator c), r.dropWhile fun c => !isSeparator c)
    some (v, skipBlank r)

/-- The items of a list up to its closing bracket. -/
def items? : Nat → List Char → Option (List Setting × List Char)
  | 0, _ => none
  | fuel + 1, s =>
    match s with
    | ']' :: r => some ([], r)
    | _ => do
      let (v, r) ← value? fuel s
      match r with
      | ',' :: r =>
        let (vs, rest) ← items? fuel r
        some (v :: vs, rest)
      | ']' :: r => some ([v], r)
      | _ => none

/-- The entries of a table up to its closing brace; the last one of a key counts. -/
def entries? : Nat → List Char → Option (List (String × Setting) × List Char)
  | 0, _ => none
  | fuel + 1, s =>
    match s with
    | '}' :: r => some ([], r)
    | _ => do
      let (k, r) ← key? (skipBlank s)
      match skipBlank r with
      | '=' :: r =>
        let (v, r) ← value? fuel r
        match r with
        | ',' :: r =>
          let (es, rest) ← entries? fuel r
          some (if (Setting.find? k es).isSome then es else put k v es, rest)
        | '}' :: r => some ([(k, v)], r)
        | _ => none
      | _ => none

end

/-- The setting that the value of a variable stands for. -/
def parse (text : String) : Setting :=
  let s := text.toList
  match value? (2 * s.length + 2) s with
  | some (v, []) => v
  | _ => .string text

/-- A text with the first occurrence of a mark replaced. -/
def replaceFirst (old new : String) (s : List Char) : List Char :=
  match Text.cut? old.toList s with
  | some (before, after) => before ++ new.toList ++ after
  | none => s

/-- The key path of a variable. The table names are recognised only in lower
    case; a key itself counts in any case. None for names that set nothing: those
    without the prefix, the content key, and names with an empty part. White space
    around a name, or around the key in it, does not count. -/
def path? (name : String) : Option (List String) := do
  let s := Text.trim name.toList
  let rest ← Text.after? "mnemo_".toList (Text.lowerAscii s)
  let key := s.drop (s.length - rest.length)
  if Text.lowerAscii key = "content_key".toList then none
  let key := Text.trim <| replaceFirst "vault_" "vault." <|
    replaceFirst "stream_" "stream." <| replaceFirst "rag_" "rag." <|
    replaceFirst "site_" "site." key
  let parts := Text.splitOn '.' (Text.lowerAscii key)
  if parts.any (· = []) then none else some (parts.map String.ofList)

/-- A setting under a path of tables. -/
def nested (v : Setting) : List String → Setting
  | [] => v
  | k :: ks => .table [(k, nested v ks)]

/-- The settings of all variables, later ones over earlier ones. -/
def settings (vars : List (String × String)) : Setting :=
  vars.foldl (fun below (name, text) =>
    match path? name with
    | some path => Setting.updatedBy below (nested (parse text) path)
    | none => below) (.table [])

end NoteAssistant.Environment
