import NoteAssistant.Moment
import NoteAssistant.Number.Single
import NoteAssistant.Usage

/-! # Notes and their matches -/

namespace NoteAssistant

/-- The form in which the text of a note is stored. -/
inductive ContentType where
  | markdown
  | plainText
  | blocks
  deriving DecidableEq, Repr

namespace ContentType

def all : List ContentType := [markdown, plainText, blocks]

def name : ContentType → String
  | markdown => "markdown"
  | plainText => "plain_text"
  | blocks => "blocks"

def ofName? (s : String) : Option ContentType := all.find? (·.name = s)

end ContentType

structure VectorMatch where
  knowledge : String
  score : Single
  space : String
  user : String
  /-- Characters of the note before it was cut into pieces. -/
  fullLength : Nat
  deriving DecidableEq, Repr

/-- Which notes a vector search may return. -/
structure VectorFilter where
  space : String
  user : Option String
  resources : List String
  deriving DecidableEq, Repr

structure ResourceFilter where
  resources : List String
  deriving DecidableEq, Repr

/-- Which notes a store is asked to list. -/
structure KnowledgeFilter where
  space : String
  ids : List String
  deriving DecidableEq, Repr

/-- Placeholders and the values they stand for, in no particular order. -/
abbrev MaskTable := List (String × String)

structure KnowledgeRecord where
  id : String
  space : String
  user : String
  resource : String
  title : String
  contentType : ContentType
  content : List UInt8
  encrypted : Bool
  masks : MaskTable
  createdAt : Moment
  deriving DecidableEq, Repr

/-- A note as shown to the model. -/
structure EvidenceDoc where
  id : String
  resource : String
  title : String
  content : String
  createdAt : Moment
  score : Option Single
  pinned : Bool
  masks : MaskTable
  deriving DecidableEq, Repr

/-- A candidate as sent to a reranker. -/
structure RerankDoc where
  id : String
  content : String
  deriving DecidableEq, Repr

structure RerankedDoc where
  id : String
  score : Single
  deriving DecidableEq, Repr

structure RerankOutput where
  results : List RerankedDoc
  model : String
  usage : TokenUsage
  deriving DecidableEq, Repr

structure EmbeddingOutput where
  vectors : List (List Single)
  model : String
  usage : TokenUsage
  deriving DecidableEq, Repr

/-- A page as a reader returns it. -/
structure ReaderOutput where
  title : String
  markdown : String
  usage : TokenUsage
  deriving DecidableEq, Repr

end NoteAssistant
