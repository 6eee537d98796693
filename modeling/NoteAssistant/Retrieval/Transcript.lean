import NoteAssistant.Chat
import NoteAssistant.Text.Blank

/-! # Transcripts

A conversation condensed to one line for each message that says something. Lines
of the assistant are cut to a length.
-/

namespace NoteAssistant.Transcript

/-- The first `max` characters, with dots in place of what follows them. -/
def shortened (max : Nat) (text : String) : String :=
  if max < text.length then String.ofList (text.toList.take max) ++ "..." else text

/-- The line of a message; instructions and blank messages have none. -/
def line? (max : Nat) (m : HistoryMessage) : Option String :=
  let content := trimmed m.content
  if content = "" then none
  else match m.role with
    | .system => none
    | .user => some ("user: " ++ content)
    | .assistant => some ("assistant: " ++ shortened max content)

/-- The transcript of a history, oldest message first. -/
def condense (history : List HistoryMessage) (max : Nat) : String :=
  String.intercalate "\n" (history.filterMap (line? max))

end NoteAssistant.Transcript
