import NoteAssistant.Json.Tree

/-! # Typed values from JSON

A `Reading` takes a value of some type out of a tree. It is given the number of
levels of arrays and objects that may still be entered; parts that are skipped
are not entered.
-/

namespace NoteAssistant.Json

abbrev Reading (α : Type) := Nat → Tree → Option α

/-- Levels of arrays and objects that may be entered. -/
def maxDepth : Nat := 127

/-- Reads a whole text as a value of a type. -/
def Reading.parse? {α : Type} (r : Reading α) (text : String) : Option α :=
  (Json.parse? text).bind (r maxDepth)

namespace Reading

def string : Reading String
  | _, .string (some s) => some s
  | _, _ => none

/-- A whole number up to a bound, written without fraction and exponent. -/
def natural (bound : Nat) : Reading Nat
  | _, .number n =>
    match n.value? with
    | some (.natural m) => if m ≤ bound then some m else none
    | _ => none
  | _, _ => none

def word : Reading UInt32 := fun level t => (natural (UInt32.size - 1) level t).map Nat.toUInt32

/-- A whole number of 64 bits. -/
def size : Reading Nat := natural (UInt64.size - 1)

/-- Any number, rounded to 32 bits. -/
def single : Reading Single
  | _, .number n =>
    n.value?.map fun
      | .natural m => Single.ofNat m
      | .negative m => .ofPattern (Number.Format.single.negate (Single.ofNat m).pattern)
      | .real x => x.toSingle
  | _, _ => none

/-- A value that may be `null`. -/
def nullable {α : Type} (r : Reading α) : Reading (Option α)
  | _, .null => some none
  | level, t => (r level t).map some

def list {α : Type} (r : Reading α) : Reading (List α)
  | level + 1, .array items => items.mapM (r level)
  | _, _ => none

/-- A name out of a list, alone or as the only member of an object that holds `null`. -/
def named {α : Type} (ofName? : String → Option α) : Reading α
  | _, .string (some s) => ofName? s
  | _ + 1, .object [(some s, .null)] => ofName? s
  | _, _ => none

/-- The parts of a record that are present. -/
structure Fields where
  /-- Given as an array of the fields in order. -/
  positional : Bool
  present : List (String × Tree)
  /-- Levels left for the fields. -/
  level : Nat

/-- A record with the given field names: an object, in which other names are
    skipped and no known one is repeated, or an array of the first fields in order. -/
def fields (names : List String) : Reading Fields
  | level + 1, .array items =>
    if items.length ≤ names.length then some ⟨true, names.zip items, level⟩ else none
  | level + 1, .object members => do
    let members ← members.mapM fun (name, t) => name.map (·, t)
    let known := members.filter fun (name, _) => names.contains name
    if (known.map (·.1)).Nodup then some ⟨false, known, level⟩ else none
  | _, _ => none

namespace Fields

/-- A field that has to be there. -/
def required {α : Type} (f : Fields) (name : String) (r : Reading α) : Option α :=
  (f.present.lookup name).bind (r f.level)

/-- A field that is missing or `null` where there is no value. -/
def optional {α : Type} (f : Fields) (name : String) (r : Reading α) : Option (Option α) :=
  match f.present.lookup name with
  | some t => nullable r f.level t
  | none => if f.positional then none else some none

/-- A field with a value to take where it is missing. -/
def withDefault {α : Type} (f : Fields) (name : String) (r : Reading α) (default : α) :
    Option α :=
  match f.present.lookup name with
  | some t => r f.level t
  | none => some default

end Fields

end Reading

end NoteAssistant.Json
