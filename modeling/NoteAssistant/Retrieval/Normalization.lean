import NoteAssistant.Json.Value
import NoteAssistant.Knowledge
import NoteAssistant.Text.Blank

/-! # The text of a note

Markdown and plain text are taken as they are. The blocks of an editor are a JSON
tree, of which the strings under the name `text` are the text.
-/

namespace NoteAssistant.Normalization

open Json (Value)

/-- The string under the name `text`. -/
def ownText (members : List (String × Value)) : String :=
  match members.lookup "text" with
  | some (.string s) => s
  | _ => ""

mutual

/-- All texts of a tree: of an object its own one first, then those of its other
    members in the order of their names. -/
def collected : Value → String
  | .object members => ownText members ++ collectedMembers members
  | .array items => collectedItems items
  | _ => ""

def collectedItems : List Value → String
  | [] => ""
  | v :: vs => collected v ++ collectedItems vs

def collectedMembers : List (String × Value) → String
  | [] => ""
  | (name, v) :: ms => (if name = "text" then "" else collected v) ++ collectedMembers ms

end

/-- The paragraphs of an array of blocks; blank ones are left out. -/
def paragraphs (blocks : List Value) : List String :=
  (blocks.map collected).filter fun p => !isBlankText p

/-- The text of editor blocks; what is no JSON is taken as it is. -/
def ofBlocks (raw : String) : String :=
  match Value.parse? raw with
  | some (.array blocks) => String.intercalate "\n\n" (paragraphs blocks)
  | some v => collected v
  | none => raw

/-- The text that a stored text stands for. -/
def normalize (type : ContentType) (raw : String) : String :=
  match type with
  | .markdown | .plainText => raw
  | .blocks => ofBlocks raw

end NoteAssistant.Normalization
