import NoteAssistant.Chat
import NoteAssistant.Fault
import NoteAssistant.Knowledge
import NoteAssistant.Retrieval.Candidates

/-! # Stores

The stores that a turn reads, and their forms in memory.
-/

namespace NoteAssistant

structure VectorStore where
  /-- The best matches for a vector, at most the given number of them. -/
  search : VectorFilter → List Single → Nat → Except Fault (List VectorMatch)

structure KnowledgeStore where
  /-- The notes that a filter asks for, in any order. -/
  list : KnowledgeFilter → Except Fault (List KnowledgeRecord)

structure PinStore where
  pins : String → Except Fault (List String)

structure HistoryStore where
  /-- The last messages of a session, oldest first, at most the given number. -/
  recent : String → Nat → Except Fault (List HistoryMessage)

namespace VectorFilter

def admits (f : VectorFilter) (m : VectorMatch) : Bool :=
  m.space = f.space && f.user.all (m.user = ·)

end VectorFilter

/-- The last `n` items of a list. -/
def lastItems {α : Type} (n : Nat) (items : List α) : List α := items.drop (items.length - n)

namespace VectorStore

def ofMatches (ms : List VectorMatch) : VectorStore where
  search filter _ topK := .ok ((ranking (ms.filter filter.admits)).take topK)

def failing (text : String) : VectorStore where
  search _ _ _ := .error (.vectorStore text)

end VectorStore

namespace KnowledgeStore

def ofRecords (rs : List KnowledgeRecord) : KnowledgeStore where
  list filter := .ok (rs.filter fun r => r.space = filter.space && filter.ids.contains r.id)

def failing (text : String) : KnowledgeStore where
  list _ := .error (.storage text)

end KnowledgeStore

namespace PinStore

def ofTable (table : List (String × List String)) : PinStore where
  pins session := .ok ((table.lookup session).getD [])

def failing (text : String) : PinStore where
  pins _ := .error (.storage text)

end PinStore

namespace HistoryStore

def ofMessages (ms : List HistoryMessage) : HistoryStore where
  recent session window := .ok (lastItems window (ms.filter (·.session = session)))

def failing (text : String) : HistoryStore where
  recent _ _ := .error (.storage text)

end HistoryStore

end NoteAssistant
