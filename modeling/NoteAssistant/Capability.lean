import NoteAssistant.Text.Blank
import NoteAssistant.Text.Search

/-! # Capabilities and usage keys

A driver offers capabilities. A usage key names a job of the assistant and
needs one of them.
-/

namespace NoteAssistant

/-- What a driver can be asked to do. -/
inductive Capability where
  | chat
  | embedding
  | rerank
  | vision
  | reader
  | enhance
  deriving DecidableEq, Repr

namespace Capability

def all : List Capability := [chat, embedding, rerank, vision, reader, enhance]

def name : Capability → String
  | chat => "chat"
  | embedding => "embedding"
  | rerank => "rerank"
  | vision => "vision"
  | reader => "reader"
  | enhance => "enhance"

def ofName? (s : String) : Option Capability := all.find? (·.name = s)

theorem ofName?_name (c : Capability) : ofName? c.name = some c := by cases c <;> rfl

end Capability

namespace UsageKey

def query := "query"
def summary := "summary"
def chunk := "chunk"
def enhanceQuery := "enhance_query"
def embeddingQuery := "embedding.query"
def embeddingDocument := "embedding.document"
def rerank := "rerank"
def vision := "vision"
def reader := "reader"

/-- The keys a configuration may bind, in the order they are listed. -/
def all : List String :=
  [query, summary, chunk, enhanceQuery, embeddingQuery, embeddingDocument, rerank, vision, reader]

end UsageKey

/-- The capability a job needs: `embedding` and everything below it embeds, the
    jobs with a capability of their own need that, and any other key chats. -/
def Capability.ofUsageKey (key : String) : Capability :=
  let key := nameKey key
  if key = "embedding" || Text.startsWith "embedding.".toList key.toList then .embedding
  else if key = UsageKey.rerank then .rerank
  else if key = UsageKey.vision then .vision
  else if key = UsageKey.reader then .reader
  else if key = UsageKey.enhanceQuery || key = "enhance" then .enhance
  else .chat

end NoteAssistant
