import NoteAssistant.Config.Validation
import NoteAssistant.Proofs.Retrieval.Fusion

/-! # What becomes of the best matches

The first matches of a search stay in the evidence although they are weak and although the
reranker leaves them out. Only the limit of accepted matches goes before that rule: where it
is reached a match below the cutoff is refused at any place.
-/

namespace NoteAssistant

namespace ThresholdPolicy

variable {p : ThresholdPolicy} {ms : List VectorMatch} {m : VectorMatch}

/-- A match at one of the first places of a ranking that the limit does not refuse. -/
structure Keeps (p : ThresholdPolicy) (ranked : List VectorMatch) (place : Nat)
    (m : VectorMatch) : Prop where
  there : ranked[place]? = some m
  best : place < p.highScoreKeep
  accepted : (p.cutoff ranked).le m.score = true ∨ place < p.lowScoreAcceptLimit

/-- No more matches are accepted than are passed, so a match that is among the first ones
    stays among them. -/
theorem mem_take_accept {cutoff : Single} {rank taken i : Nat} (there : ms[i]? = some m)
    (best : rank + i < p.highScoreKeep) (behind : taken ≤ rank)
    (accepted : cutoff.le m.score = true ∨ rank + i < p.lowScoreAcceptLimit) :
    m ∈ (p.accept cutoff rank taken ms).take (i + 1) := by
  induction ms generalizing i rank taken with
  | nil => cases there
  | cons a rest ih =>
      unfold accept
      cases i with
      | zero =>
          cases there
          rw [Nat.add_zero] at best accepted
          have taking : (cutoff.le m.score || decide (taken < p.lowScoreAcceptLimit) &&
              (decide (rank < p.highScoreKeep) || decide (m.fullLength ≤ p.shortContentChars)))
              = true := by
            rcases accepted with good | early
            · simp [good]
            · have room : taken < p.lowScoreAcceptLimit := Nat.lt_of_le_of_lt behind early
              simp [room, best]
          rw [if_pos taking]
          exact List.mem_cons_self
      | succ i =>
          rw [Nat.add_succ, ← Nat.succ_add] at best accepted
          dsimp only
          split
          case isTrue =>
            exact List.mem_cons_of_mem a (ih there best (Nat.succ_le_succ behind) accepted)
          case isFalse =>
            have early := ih there best (Nat.le_succ_of_le behind) accepted
            exact (List.take_subset_take_left _ (Nat.le_succ _)) early

/-- The note of a kept match is one of the best candidates. -/
theorem Keeps.mem_highScore {place : Nat} (h : p.Keeps (ranking ms) place m) :
    m.knowledge ∈ (p.candidates ms).highScore.map (·.knowledge) := by
  have early : m ∈ (p.accept (p.cutoff (ranking ms)) 0 0 (ranking ms)).take (place + 1) :=
    mem_take_accept h.there (by simpa using h.best) (Nat.le_refl 0) (by simpa using h.accepted)
  have first : m ∈ (p.accept (p.cutoff (ranking ms)) 0 0 (ranking ms)).take p.highScoreKeep :=
    List.take_subset_take_left _ h.best early
  exact key_mem_take_distinctBy (·.knowledge) first

end ThresholdPolicy

namespace Retriever

variable {r : Retriever} {q : RetrievalRequest} {w v : World}

/-- The notes of the first matches are in the evidence if the store has a record of them,
    whatever the cutoff is, whichever notes are found twice and whatever the reranker leaves
    out. -/
theorem retrieve_preserves {o : RetrievalOutcome} (h : r.retrieve q w = (.ok o, v)) :
    ∃ found u, r.found q w = (.ok found, u) ∧
      ∀ place m, (ThresholdPolicy.ofRag r.rag).Keeps (NoteAssistant.ranking found) place m →
        m.knowledge ∈ o.candidates.highScore.map (·.knowledge) ∧
          (Evidence.has (r.listed q.space o.candidates.ids) m.knowledge = true →
            m.knowledge ∈ Evidence.ids o.docs) := by
  obtain ⟨_, found, u, docs, k, added, _, search, hydrated, reranked, _, rfl⟩ :=
    retrieve_stages h
  refine ⟨found, u, search, ?_⟩
  intro place m keeps
  have best := keeps.mem_highScore
  refine ⟨best, ?_⟩
  intro recorded
  let f := r.replies q found u
  have candidate : m.knowledge ∈ f.candidates := by
    obtain ⟨m', early, same⟩ := List.mem_map.mp best
    exact List.mem_map.mpr ⟨m', List.mem_of_mem_take early, same⟩
  have there : m.knowledge ∈ f.hydrated := List.mem_filter.mpr ⟨candidate, recorded⟩
  obtain ⟨ordered, rescued, _, _⟩ := rerank_fused hydrated reranked
  have shown : Evidence.ids (r.kept found k) = f.ordered ++ f.rescued := by
    rw [kept, Evidence.ids, List.map_append]
    exact congrArg₂ (· ++ ·) ordered rescued
  have early : m.knowledge ∈ Evidence.ids (r.kept found k) := by
    rw [shown]
    exact Fusion.best_mem_shown best there
  rw [Evidence.ids, List.map_append]
  exact List.mem_append_left _ early

/-- A weak match in the third place, behind a note that is found twice. The reranker leaves
    it out. -/
theorem retrieve_preserves_weak :
    let note (id : String) : KnowledgeRecord :=
      ⟨id, "s", "u", "r", id, .markdown, [], false, [], ⟨⟨2024, 1, 1⟩, 0, 0⟩⟩
    let weak : Single := ⟨0x3DCCCCCD⟩
    let near (id : String) (score : Single) : VectorMatch := ⟨id, score, "s", "u", 1000⟩
    let nearby : List VectorMatch := [near "a" .one, near "a" .one, near "b" weak, near "c" weak]
    let driver : ScriptedDriver :=
      ⟨"d", "en", [.embedding, .rerank], [], [], [.ok [⟨"a", .one⟩]], [], 0, 0, 0, none, none,
        ⟨[], [], []⟩⟩
    let r : Retriever := {
      router := ⟨⟨[⟨"d", "en", [.embedding, .rerank], 0⟩]⟩, [], ⟨"", []⟩, "en"⟩
      vectors := ⟨fun _ _ _ => .ok nearby⟩
      knowledge := .ofRecords (["a", "b", "c"].map note)
      pins := none
      key := none
      rag := {} }
    let q : RetrievalRequest := ⟨"s", none, "?", none, [], none⟩
    ∃ o v, r.retrieve q (.ofDrivers [driver]) = (.ok o, v)
      ∧ Evidence.ids o.docs = ["a", "b"]
      ∧ ∃ found u, r.found q (.ofDrivers [driver]) = (.ok found, u) ∧
        ∀ place m, (ThresholdPolicy.ofRag r.rag).Keeps (NoteAssistant.ranking found) place m →
          m.knowledge ∈ o.candidates.highScore.map (·.knowledge) ∧
            (Evidence.has (r.listed q.space o.candidates.ids) m.knowledge = true →
              m.knowledge ∈ Evidence.ids o.docs) := by
  intro note weak near nearby driver r q
  have ids : ((r.retrieve q (.ofDrivers [driver])).1.toOption.map fun o =>
      Evidence.ids o.docs) = some ["a", "b"] := by
    simp only [retrieve, ThresholdPolicy.candidates, ranking_eq]
    decide +kernel
  rcases answer : r.retrieve q (.ofDrivers [driver]) with ⟨_ | o, v⟩
  · simp [answer, Except.toOption] at ids
  · rw [answer] at ids
    exact ⟨o, v, rfl, by simpa [Except.toOption] using ids, retrieve_preserves answer⟩

/-- A limit of zero is valid, and then a weak match is refused although it is the best one. -/
theorem retrieve_refuses_weak :
    let c : Config := {
      drivers := [{
        name := "d", endpoint := "http://d", chatModel := some "m", embeddingModel := some "e" }]
      rag := { lowScoreAcceptLimit := 0 } }
    let m : VectorMatch := ⟨"a", ⟨0x3DCCCCCD⟩, "s", "u", 1000⟩
    let r : Retriever := {
      router := ⟨⟨[⟨"d", "en", [.chat, .enhance, .embedding], 0⟩]⟩, [], ⟨"", []⟩, "en"⟩
      vectors := ⟨fun _ _ _ => .ok [m]⟩
      knowledge := .ofRecords
        [⟨"a", "s", "u", "r", "text", .markdown, [], false, [], ⟨⟨2024, 1, 1⟩, 0, 0⟩⟩]
      pins := none
      key := none
      rag := c.rag }
    let q : RetrievalRequest := ⟨"s", none, "?", none, [], none⟩
    let d : ScriptedDriver :=
      ⟨"d", "en", [.chat, .enhance, .embedding], [], [], [], [], 0, 0, 0, none, none,
        ⟨[], [], []⟩⟩
    c.isValid = true ∧ (NoteAssistant.ranking [m])[0]? = some m ∧ 0 < c.rag.highScoreKeep
      ∧ Evidence.has (r.listed q.space ["a"]) "a" = true
      ∧ (∃ u, r.found q (.ofDrivers [d]) = (.ok [m], u))
      ∧ ∃ o v, r.retrieve q (.ofDrivers [d]) = (.ok o, v) ∧ "a" ∉ Evidence.ids o.docs := by
  intro c m r q d
  have valid : c.isValid = true := by decide +kernel
  have recorded : Evidence.has (r.listed q.space ["a"]) "a" = true := by decide +kernel
  have search : (r.found q (.ofDrivers [d])).1.toOption = some [m] := by decide +kernel
  have ids : ((r.retrieve q (.ofDrivers [d])).1.toOption.map fun o => Evidence.ids o.docs) =
      some [] := by
    simp only [retrieve, ThresholdPolicy.candidates, ranking_eq]
    decide +kernel
  have first : (NoteAssistant.ranking [m])[0]? = some m := by simp [NoteAssistant.ranking]
  refine ⟨valid, first, by decide, recorded, ?_, ?_⟩
  · rcases answer : r.found q (.ofDrivers [d]) with ⟨_ | found, u⟩
    · simp [answer, Except.toOption] at search
    · rw [answer] at search
      obtain rfl : found = [m] := by simpa [Except.toOption] using search
      exact ⟨u, rfl⟩
  · rcases answer : r.retrieve q (.ofDrivers [d]) with ⟨_ | o, v⟩
    · simp [answer, Except.toOption] at ids
    · rw [answer] at ids
      have none : Evidence.ids o.docs = [] := by simpa [Except.toOption] using ids
      exact ⟨o, v, rfl, by simp [none]⟩

end Retriever

end NoteAssistant
