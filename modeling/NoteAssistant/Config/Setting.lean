import NoteAssistant.Json.Value
import NoteAssistant.Number.Written
import NoteAssistant.Text.Quoted
import NoteAssistant.Toml.Value

/-! # Settings

A configuration before it has a shape: tables of settings, from files and from
the environment, laid over one another.
-/

namespace NoteAssistant

inductive Setting where
  | boolean (b : Bool)
  /-- A whole number of a file, or a negative one. -/
  | signed (n : Int)
  | unsigned (n : Nat)
  | float (x : Double)
  /-- A string of one character, between single quotes. It names no kind. -/
  | character (c : Char)
  | string (s : String)
  | list (items : List Setting)
  /-- A table in the order of its keys. -/
  | table (entries : List (String × Setting))
  deriving Inhabited

namespace Setting

/-- What a setting is, as messages say it. -/
def description : Setting → String
  | boolean b => "bool " ++ (if b then "true" else "false")
  | signed n => s!"signed int `{n}`"
  | unsigned n => s!"unsigned int `{n}`"
  | float x => s!"float `{x.text}`"
  | character c => "string " ++ Text.quoted (String.singleton c)
  | string s => "string " ++ Text.quoted s
  | list _ => "sequence"
  | table _ => "map"

def find? (key : String) (entries : List (String × Setting)) : Option Setting :=
  entries.lookup key

/-- Puts a setting under a key, in the order of keys; the setting that is there
    is replaced. -/
def put (key : String) (v : Setting) : List (String × Setting) → List (String × Setting)
  | [] => [(key, v)]
  | (k, w) :: es =>
    if key < k then (key, v) :: (k, w) :: es
    else if key = k then (key, v) :: es
    else (k, w) :: put key v es

mutual

/-- One setting laid over another: tables key by key, anything else as a whole. -/
def updatedBy (below : Setting) : Setting → Setting
  | .table top =>
    match below with
    | .table entries => .table (updateEntries entries top)
    | _ => .table (updateEntries [] top)
  | top => top

/-- Entries laid over a table. -/
def updateEntries (below : List (String × Setting)) :
    List (String × Setting) → List (String × Setting)
  | [] => below
  | (k, v) :: top =>
    let v' := match find? k below with
      | some w => updatedBy w v
      | none => v
    updateEntries (put k v' below) top

end

mutual

/-- The setting that a value of a file stands for; a date is a table that holds
    its text. -/
def ofToml : Toml.Value → Setting
  | .string s => .string s
  | .integer n => .signed n
  | .float x => .float x
  | .boolean b => .boolean b
  | .datetime t => .table [("$__toml_private_datetime", .string t)]
  | .array items => .list (ofTomlItems items)
  | .table entries => .table (ofTomlEntries entries)

def ofTomlItems : List Toml.Value → List Setting
  | [] => []
  | v :: vs => ofToml v :: ofTomlItems vs

def ofTomlEntries : List (String × Toml.Value) → List (String × Setting)
  | [] => []
  | (k, v) :: es => put k (ofToml v) (ofTomlEntries es)

end

end Setting

end NoteAssistant
