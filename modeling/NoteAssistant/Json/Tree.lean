import NoteAssistant.Json.Numeral

/-! # JSON texts

A JSON text as a tree, its reader and its compact printer. The reader checks the
grammar only: an escape that denotes no character makes a string without value,
which is a fault where the string is used and none where it is skipped.
-/

namespace NoteAssistant.Json

inductive Tree where
  | null
  | bool (b : Bool)
  | number (n : Numeral)
  /-- The text, if every escape in it denotes a character. -/
  | string (text : Option String)
  | array (items : List Tree)
  | object (members : List (Option String × Tree))

/-- White space between the parts of a JSON text. -/
def isSpace (c : Char) : Bool := c = ' ' || c = '\n' || c = '\t' || c = '\r'

def skipSpace (s : List Char) : List Char := s.dropWhile isSpace

def hexValue? (c : Char) : Option Nat :=
  if '0' ≤ c && c ≤ '9' then some (c.toNat - 48)
  else if 'a' ≤ c && c ≤ 'f' then some (c.toNat - 87)
  else if 'A' ≤ c && c ≤ 'F' then some (c.toNat - 55)
  else none

def letter? (c : Char) : Option Char :=
  match c with
  | '"' => some '"'
  | '\\' => some '\\'
  | '/' => some '/'
  | 'b' => some '\x08'
  | 'f' => some '\x0c'
  | 'n' => some '\n'
  | 'r' => some '\r'
  | 't' => some '\t'
  | _ => none

/-- A piece of a string: a character, or a 16-bit unit given by number. -/
inductive Piece where
  | char (c : Char)
  | unit (n : Nat)

/-- The pieces up to the closing quote, and the text after it. -/
def pieces? : List Char → Option (List Piece × List Char)
  | '"' :: r => some ([], r)
  | '\\' :: 'u' :: a :: b :: c :: d :: r => do
    let n := 4096 * (← hexValue? a) + 256 * (← hexValue? b) + 16 * (← hexValue? c)
      + (← hexValue? d)
    let (ps, rest) ← pieces? r
    some (.unit n :: ps, rest)
  | '\\' :: l :: r => do
    let c ← letter? l
    let (ps, rest) ← pieces? r
    some (.char c :: ps, rest)
  | c :: r =>
    if c.toNat < 32 || c = '\\' then none
    else (pieces? r).map fun (ps, rest) => (.char c :: ps, rest)
  | [] => none

/-- The characters that pieces denote; a unit of a pair needs its partner. -/
def characters? : List Piece → Option (List Char)
  | [] => some []
  | .char c :: ps => (characters? ps).map (c :: ·)
  | .unit n :: ps =>
    if n < 0xD800 || 0xDFFF < n then (characters? ps).map (Char.ofNat n :: ·)
    else if 0xDC00 ≤ n then none
    else match ps with
      | .unit m :: ps =>
        if 0xDC00 ≤ m && m ≤ 0xDFFF then
          (characters? ps).map
            (Char.ofNat (0x10000 + (n - 0xD800) * 1024 + (m - 0xDC00)) :: ·)
        else none
      | _ => none

def string? (s : List Char) : Option (Option String × List Char) :=
  (pieces? s).map fun (ps, rest) => ((characters? ps).map String.ofList, rest)

def word? : List Char → List Char → Option (List Char)
  | [], s => some s
  | p :: ps, c :: s => if p = c then word? ps s else none
  | _ :: _, [] => none

mutual

/-- The value at the start of a text; `fuel` bounds its nesting and length. -/
def value? : Nat → List Char → Option (Tree × List Char)
  | 0, _ => none
  | fuel + 1, s =>
    match skipSpace s with
    | '"' :: r => (string? r).map fun (t, rest) => (.string t, rest)
    | '[' :: r =>
      match skipSpace r with
      | ']' :: rest => some (.array [], rest)
      | r => (items? fuel r).map fun (ts, rest) => (.array ts, rest)
    | '{' :: r =>
      match skipSpace r with
      | '}' :: rest => some (.object [], rest)
      | r => (members? fuel r).map fun (ms, rest) => (.object ms, rest)
    | 'n' :: r => (word? ['u', 'l', 'l'] r).map fun rest => (.null, rest)
    | 't' :: r => (word? ['r', 'u', 'e'] r).map fun rest => (.bool true, rest)
    | 'f' :: r => (word? ['a', 'l', 's', 'e'] r).map fun rest => (.bool false, rest)
    | r => (Numeral.read? r).map fun (n, rest) => (.number n, rest)

/-- The items of an array up to its closing bracket. -/
def items? : Nat → List Char → Option (List Tree × List Char)
  | 0, _ => none
  | fuel + 1, s => do
    let (t, r) ← value? fuel s
    match skipSpace r with
    | ']' :: rest => some ([t], rest)
    | ',' :: r =>
      let (ts, rest) ← items? fuel r
      some (t :: ts, rest)
    | _ => none

/-- The members of an object up to its closing brace. -/
def members? : Nat → List Char → Option (List (Option String × Tree) × List Char)
  | 0, _ => none
  | fuel + 1, s =>
    match skipSpace s with
    | '"' :: r => do
      let (name, r) ← string? r
      match skipSpace r with
      | ':' :: r =>
        let (t, r) ← value? fuel r
        match skipSpace r with
        | '}' :: rest => some ([(name, t)], rest)
        | ',' :: r =>
          let (ms, rest) ← members? fuel r
          some ((name, t) :: ms, rest)
        | _ => none
      | _ => none
    | _ => none

end

/-- Reads a whole text as one value. -/
def parse? (text : String) : Option Tree :=
  let s := text.toList
  match value? (2 * s.length + 2) s with
  | some (t, rest) => if skipSpace rest = [] then some t else none
  | none => none

def escape (c : Char) : List Char :=
  if c = '"' || c = '\\' then ['\\', c]
  else if c = '\x08' then ['\\', 'b']
  else if c = '\t' then ['\\', 't']
  else if c = '\n' then ['\\', 'n']
  else if c = '\x0c' then ['\\', 'f']
  else if c = '\r' then ['\\', 'r']
  else if c.toNat < 32 then
    ['\\', 'u', '0', '0', Nat.digitChar (c.toNat / 16), Nat.digitChar (c.toNat % 16)]
  else [c]

def printString (s : String) : List Char := '"' :: s.toList.flatMap escape ++ ['"']

def commas : List (List Char) → List Char
  | [] => []
  | [x] => x
  | x :: xs => x ++ ',' :: commas xs

mutual

def Tree.chars : Tree → List Char
  | .null => ['n', 'u', 'l', 'l']
  | .bool true => ['t', 'r', 'u', 'e']
  | .bool false => ['f', 'a', 'l', 's', 'e']
  | .number n => n.text
  | .string s => printString (s.getD "")
  | .array items => '[' :: commas (itemTexts items) ++ [']']
  | .object members => '{' :: commas (memberTexts members) ++ ['}']

def itemTexts : List Tree → List (List Char)
  | [] => []
  | t :: ts => t.chars :: itemTexts ts

def memberTexts : List (Option String × Tree) → List (List Char)
  | [] => []
  | (name, t) :: ms => (printString (name.getD "") ++ ':' :: t.chars) :: memberTexts ms

end

def Tree.text (t : Tree) : String := String.ofList t.chars

namespace Tree

def ofString (s : String) : Tree := .string (some s)
def ofNat (n : Nat) : Tree := .number (.ofNat n)
def ofWord (n : UInt32) : Tree := ofNat n.toNat
def ofStrings (ss : List String) : Tree := .array (ss.map ofString)

/-- A number, or `null` where there is none or it is not finite. -/
def ofSingle (x : Single) : Tree :=
  match Numeral.ofSingle? x with
  | some n => .number n
  | none => .null

/-- A value, or `null` where there is none. -/
def ofOption {α : Type} (f : α → Tree) : Option α → Tree
  | some a => f a
  | none => .null

def record (members : List (String × Tree)) : Tree :=
  .object (members.map fun (name, t) => (some name, t))

end Tree

end NoteAssistant.Json
