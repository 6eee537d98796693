import NoteAssistant.Toml.Value

/-! # Building tables

A document adds its entries one after another. What may still be added to a table
depends on how it came about.
-/

namespace NoteAssistant.Toml

/-- How a table came about. -/
inductive Origin where
  /-- Under a header of its own, or as the top level. -/
  | header
  /-- On the way to a table with a header. -/
  | passage
  /-- By a key with dots. -/
  | dotted
  deriving DecidableEq, Repr

/-- What stands under a key of a document that is being read. -/
inductive Node where
  | value (v : Value)
  | table (origin : Origin) (entries : List (String × Node))
  /-- Tables under one double-bracket header, in order. -/
  | series (tables : List (List (String × Node)))

abbrev Entries := List (String × Node)

namespace Entries

/-- Puts a node under a key, in the place of the one that is there. -/
def set (key : String) (node : Node) : Entries → Entries
  | [] => [(key, node)]
  | (k, n) :: es => if k = key then (k, node) :: es else (k, n) :: set key node es

/-- Changes the table that a path leads to. Tables that are missing on the way
    are created, as passages or, for a dotted key, as dotted tables; a dotted key
    may not enter a table with a header. A series is entered at its last table. -/
def descend (dotted : Bool) (change : Origin → Entries → Option Entries) :
    List String → Origin → Entries → Option Entries
  | [], origin, es => change origin es
  | key :: path, _, es =>
    match es.lookup key with
    | none => do
      let origin := if dotted then Origin.dotted else Origin.passage
      let inner ← descend dotted change path origin []
      some (es ++ [(key, .table origin inner)])
    | some (.value _) => none
    | some (.table origin inner) =>
      if dotted && origin = .header then none
      else do
        let inner ← descend dotted change path origin inner
        some (set key (.table origin inner) es)
    | some (.series tables) => do
      let last ← tables.getLast?
      let last ← descend dotted change path .header last
      some (set key (.series (tables.dropLast ++ [last])) es)

/-- Adds `path.key = value` to a table. A dotted path may only lead to tables
    that dotted keys have made. -/
def addValue (path : List String) (key : String) (v : Value) (es : Entries) : Option Entries :=
  let insert (origin : Origin) (inner : Entries) : Option Entries :=
    if (origin = .dotted) = (path = []) then none
    else if (inner.lookup key).isSome then none
    else some (inner ++ [(key, .value v)])
  descend true insert path .header es

/-- Opens the table of a header `[path.key]`: it may not have been opened before,
    nor made by dotted keys. -/
def openTable (path : List String) (key : String) (es : Entries) : Option Entries :=
  let insert (_ : Origin) (inner : Entries) : Option Entries :=
    match inner.lookup key with
    | none => some (inner ++ [(key, .table .header [])])
    | some (.table .passage t) => some (set key (.table .header t) inner)
    | some _ => none
  descend false insert path .header es

/-- Adds a table to the series of a header `[[path.key]]`. -/
def openNext (path : List String) (key : String) (es : Entries) : Option Entries :=
  let insert (_ : Origin) (inner : Entries) : Option Entries :=
    match inner.lookup key with
    | none => some (inner ++ [(key, .series [[]])])
    | some (.series ts) => some (set key (.series (ts ++ [[]])) inner)
    | some _ => none
  descend false insert path .header es

/-- Adds a value to the table that the header with the given path has opened. -/
def addUnder (header : List String) (path : List String) (key : String) (v : Value)
    (es : Entries) : Option Entries :=
  descend false (fun _ inner => addValue path key v inner) header .header es

mutual

def nodeValue : Node → Value
  | .value v => v
  | .table _ es => .table (values es)
  | .series ts => .array (seriesValues ts)

def values : List (String × Node) → List (String × Value)
  | [] => []
  | (k, n) :: es => (k, nodeValue n) :: values es

def seriesValues : List (List (String × Node)) → List Value
  | [] => []
  | t :: ts => .table (values t) :: seriesValues ts

end

end Entries

end NoteAssistant.Toml
