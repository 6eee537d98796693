import NoteAssistant.Knowledge
import NoteAssistant.Text.Blank

/-! # The passage block

Evidence as the model reads it: passages between divider lines, or `null` where
nothing was found.
-/

namespace NoteAssistant.Passages

def divider : String := "--------------------------------------"

/-- The block where there is no evidence. -/
def nothing : String := "null"

/-- One passage, from its divider to its last line. -/
def passage (doc : EvidenceDoc) : String :=
  divider ++ "\n"
    ++ "event time: " ++ doc.createdAt.minuteText ++ "\n"
    ++ "id: " ++ doc.id ++ "\n"
    ++ "resource: " ++ doc.resource ++ "\n"
    ++ (if doc.title = "" then "" else "title: " ++ doc.title ++ "\n")
    ++ "content:\n" ++ trimmedEnd doc.content ++ "\n"

def render (docs : List EvidenceDoc) : String :=
  if docs = [] then nothing else String.join (docs.map passage) ++ divider

end NoteAssistant.Passages
