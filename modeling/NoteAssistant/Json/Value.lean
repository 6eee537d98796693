import NoteAssistant.Json.Reading

/-! # Free-form JSON values

A value of no prescribed shape. The members of an object are in the order of
their names; of two with one name the later one counts.
-/

namespace NoteAssistant.Json

inductive Value where
  | null
  | bool (b : Bool)
  | number (n : Number)
  | string (s : String)
  | array (items : List Value)
  | object (members : List (String × Value))

namespace Value

/-- Puts a member in its place, instead of one with the same name. -/
def insert (name : String) (v : Value) : List (String × Value) → List (String × Value)
  | [] => [(name, v)]
  | (n, w) :: ms =>
    if name < n then (name, v) :: (n, w) :: ms
    else if name = n then (name, v) :: ms
    else (n, w) :: insert name v ms

mutual

def ofTree? : Reading Value
  | _, .null => some .null
  | _, .bool b => some (.bool b)
  | _, .number n => n.value?.map .number
  | _, .string s => s.map .string
  | 0, .array _ => none
  | level + 1, .array items => (ofItems? level items).map .array
  | 0, .object _ => none
  | level + 1, .object members => (ofMembers? level members).map .object

def ofItems? : Nat → List Tree → Option (List Value)
  | _, [] => some []
  | level, t :: ts => do
    let v ← ofTree? level t
    let vs ← ofItems? level ts
    some (v :: vs)

/-- The members read from the last to the first, each put in its place unless a
    later one has its name. -/
def ofMembers? : Nat → List (Option String × Tree) → Option (List (String × Value))
  | _, [] => some []
  | level, (name, t) :: ms => do
    let name ← name
    let v ← ofTree? level t
    let vs ← ofMembers? level ms
    some (if vs.any (·.1 = name) then vs else insert name v vs)

end

/-- Reads a whole text as a value. -/
def parse? (text : String) : Option Value := Reading.parse? ofTree? text

end Value

end NoteAssistant.Json
