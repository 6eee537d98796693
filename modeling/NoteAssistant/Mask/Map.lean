import NoteAssistant.Knowledge
import NoteAssistant.Text.Search

/-! # Placeholders and their values

Notes hold placeholders in place of what must not reach a model. The values are
put back into the reply.
-/

namespace NoteAssistant

def maskPrefix : List Char := "$hidden[".toList

/-- The values of placeholders, each placeholder at most once. -/
structure MaskMap where
  entries : List (String × String)
  deriving DecidableEq, Repr

namespace MaskMap

def empty : MaskMap := ⟨[]⟩

def isEmpty (m : MaskMap) : Bool := m.entries.isEmpty

def size (m : MaskMap) : Nat := m.entries.length

def get? (m : MaskMap) (placeholder : String) : Option String := m.entries.lookup placeholder

/-- The full form of a placeholder, which may be given by its inside alone. -/
def placeholder (text : String) : String :=
  if Text.startsWith maskPrefix text.toList then text
  else String.ofList (maskPrefix ++ text.toList ++ [']'])

/-- Binds a placeholder, in place of an earlier value. -/
def insert (m : MaskMap) (text value : String) : MaskMap :=
  let key := placeholder text
  ⟨(key, value) :: m.entries.filter (·.1 ≠ key)⟩

/-- The map of a list of entries; the last one of a placeholder counts. -/
def ofEntries (entries : List (String × String)) : MaskMap :=
  entries.foldl (fun m (text, value) => m.insert text value) empty

/-- The placeholders of all documents; those of later documents count. -/
def ofDocs (docs : List EvidenceDoc) : MaskMap := ofEntries (docs.flatMap (·.masks))

/-- All that is shown of a map. -/
def redacted (m : MaskMap) : String := s!"MaskMap \x7b entries: {m.size} \x7d"

end MaskMap

end NoteAssistant
