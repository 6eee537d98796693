import NoteAssistant.Config.Model
import NoteAssistant.Knowledge
import NoteAssistant.Retrieval.Distinct

/-! # Candidates

The matches of a vector search from which evidence is taken: those at or above a
cutoff, and below it the best ones and short notes, up to a limit.
-/

namespace NoteAssistant

/-- The settings of the choice of candidates. -/
structure ThresholdPolicy where
  base : Single
  adaptiveMinMatches : Nat
  adaptiveMargin : Single
  highScoreKeep : Nat
  shortContentChars : Nat
  lowScoreAcceptLimit : Nat
  deriving DecidableEq, Repr

/-- The chosen matches, best first, no note twice. -/
structure CandidateSet where
  matched : List VectorMatch
  /-- The first matches, which stay in the evidence whatever a reranker does. -/
  highScore : List VectorMatch
  cutoff : Single
  deriving DecidableEq, Repr

/-- Matches by descending score; equal scores keep their order. -/
def ranking (ms : List VectorMatch) : List VectorMatch :=
  ms.mergeSort fun a b => decide (b.score.rank ≤ a.score.rank)

namespace ThresholdPolicy

def ofRag (r : RagConfig) : ThresholdPolicy where
  base := r.baseThreshold
  adaptiveMinMatches := r.adaptiveMinMatches
  adaptiveMargin := r.adaptiveMargin
  highScoreKeep := r.highScoreKeep
  shortContentChars := r.shortContentChars
  lowScoreAcceptLimit := r.lowScoreAcceptLimit

/-- The cutoff for ranked matches. Many matches of which even the best one is weak
    are measured by that one. -/
def cutoff (p : ThresholdPolicy) (ranked : List VectorMatch) : Single :=
  match ranked with
  | [] => p.base
  | top :: _ =>
    if p.adaptiveMinMatches < ranked.length && top.score.lt p.base then
      top.score - p.adaptiveMargin
    else p.base

/-- The accepted ones of ranked matches, of which the first is at place `rank` and
    `taken` have been accepted before it. -/
def accept (p : ThresholdPolicy) (cutoff : Single) (rank taken : Nat) :
    List VectorMatch → List VectorMatch
  | [] => []
  | m :: ms =>
    let good := cutoff.le m.score
    let tolerated := taken < p.lowScoreAcceptLimit &&
      (rank < p.highScoreKeep || m.fullLength ≤ p.shortContentChars)
    if good || tolerated then m :: p.accept cutoff (rank + 1) (taken + 1) ms
    else p.accept cutoff (rank + 1) taken ms

/-- The candidates among the matches of a search. -/
def candidates (p : ThresholdPolicy) (ms : List VectorMatch) : CandidateSet :=
  let ranked := ranking ms
  let cutoff := p.cutoff ranked
  let kept := distinctBy (·.knowledge) (p.accept cutoff 0 0 ranked)
  ⟨kept, kept.take p.highScoreKeep, cutoff⟩

end ThresholdPolicy

namespace CandidateSet

def ids (c : CandidateSet) : List String := c.matched.map (·.knowledge)

end CandidateSet

end NoteAssistant
