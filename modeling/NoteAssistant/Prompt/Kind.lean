import NoteAssistant.Text.Blank
import NoteAssistant.Text.Search

/-! # Kinds and languages of prompts -/

namespace NoteAssistant

/-- The job a prompt is written for. -/
inductive PromptKind where
  | chat
  | rag
  | summary
  | enhanceQuery
  | journal
  | chunk
  | describeImage
  deriving DecidableEq, Repr

namespace PromptKind

def all : List PromptKind := [chat, rag, summary, enhanceQuery, journal, chunk, describeImage]

def name : PromptKind → String
  | chat => "chat"
  | rag => "rag"
  | summary => "summary"
  | enhanceQuery => "enhance_query"
  | journal => "journal"
  | chunk => "chunk"
  | describeImage => "describe_image"

def ofName? (s : String) : Option PromptKind := all.find? (·.name = s)

/-- Kinds whose reply is shown to the user, so that the output rules apply. -/
def isConversational : PromptKind → Bool
  | chat | rag | journal => true
  | _ => false

/-- Kinds whose leading paragraph a space may replace. -/
def acceptsChatPrompt : PromptKind → Bool
  | chat | rag => true
  | _ => false

end PromptKind

/-- Languages with built-in prompts. -/
inductive Lang where
  | zh
  | en
  deriving DecidableEq, Repr

namespace Lang

/-- The language of a tag: Chinese if it begins with `zh`, otherwise English. -/
def ofTag (tag : String) : Lang :=
  if Text.startsWith ['z', 'h'] (nameKey tag).toList then zh else en

def tag : Lang → String
  | zh => "zh"
  | en => "en"

/-- The name of the language in itself. -/
def display : Lang → String
  | zh => "简体中文"
  | en => "English"

end Lang

end NoteAssistant
