import NoteAssistant.Knowledge
import NoteAssistant.Wire.Completion

/-! # Vectors and rankings from a service

A service labels vectors and scores with the places of the texts they belong to.
-/

namespace NoteAssistant.Wire

open Json (Reading)

/-- The vector of the text at a place. -/
structure PlacedVector where
  vector : List Single
  place : Nat
  deriving DecidableEq, Repr

structure EmbeddingReply where
  data : List PlacedVector
  model : String
  usage : Option UsageReport
  deriving DecidableEq, Repr

def PlacedVector.reading : Reading PlacedVector := fun level t => do
  let f ← Reading.fields ["embedding", "index"] level t
  some ⟨← f.required "embedding" (Reading.list Reading.single),
    ← f.withDefault "index" Reading.size 0⟩

namespace EmbeddingReply

def reading : Reading EmbeddingReply := fun level t => do
  let f ← Reading.fields ["data", "model", "usage"] level t
  some ⟨← f.withDefault "data" (Reading.list PlacedVector.reading) [],
    ← f.withDefault "model" Reading.string "",
    ← f.withDefault "usage" (Reading.nullable UsageReport.reading) none⟩

/-- The vectors in the order of their places; those at one place keep their order. -/
def vectors (r : EmbeddingReply) : List (List Single) :=
  (r.data.mergeSort fun a b => decide (a.place ≤ b.place)).map (·.vector)

end EmbeddingReply

/-- The score of the document at a place. -/
structure PlacedScore where
  place : Nat
  score : Single
  deriving DecidableEq, Repr

structure RankingReply where
  results : List PlacedScore
  model : Option String
  usage : Option UsageReport
  deriving DecidableEq, Repr

def PlacedScore.reading : Reading PlacedScore := fun level t => do
  let f ← Reading.fields ["index", "relevance_score"] level t
  some ⟨← f.required "index" Reading.size, ← f.required "relevance_score" Reading.single⟩

namespace RankingReply

def reading : Reading RankingReply := fun level t => do
  let f ← Reading.fields ["results", "model", "usage"] level t
  some ⟨← f.withDefault "results" (Reading.list PlacedScore.reading) [],
    ← f.withDefault "model" (Reading.nullable Reading.string) none,
    ← f.withDefault "usage" (Reading.nullable UsageReport.reading) none⟩

/-- The documents with their scores, best first. Scores for places at which there
    is no document are dropped. -/
def ranked (r : RankingReply) (docs : List RerankDoc) : List RerankedDoc :=
  (r.results.filterMap fun s => docs[s.place]?.map fun d => ⟨d.id, s.score⟩).mergeSort
    fun a b => decide (b.score.rank ≤ a.score.rank)

end RankingReply

end NoteAssistant.Wire
