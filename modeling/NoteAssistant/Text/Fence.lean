import NoteAssistant.Text.Blank
import NoteAssistant.Text.Search

/-! # Code fences

A model often wraps its answer in a Markdown code fence. A fence opens with three
backquotes at the start of the text and the rest of their line, and may be closed
by three backquotes at the end.
-/

namespace NoteAssistant.Text

def backquotes : List Char := ['\x60', '\x60', '\x60']

/-- A text without a mark at its end. -/
def dropSuffix (mark s : List Char) : List Char :=
  match after? mark.reverse s.reverse with
  | some r => r.reverse
  | none => s

/-- The text inside a code fence; a text without fence is only trimmed. -/
def unfenced (s : List Char) : List Char :=
  let s := trim s
  match after? backquotes s with
  | none => s
  | some rest =>
    let body := match cut? ['\n'] rest with
      | some (_, body) => body
      | none => rest
    trim (dropSuffix backquotes body)

end NoteAssistant.Text
