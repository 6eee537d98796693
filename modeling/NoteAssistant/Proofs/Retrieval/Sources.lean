import NoteAssistant.Proofs.Retrieval.Stages

/-! # Where documents and their masks come from

Every document of the evidence stands for a record that the store has listed, and its masks
are those of that record.
-/

namespace NoteAssistant

namespace Retriever

variable {r : Retriever} {q : RetrievalRequest} {w v : World}

theorem rerank_lists {query : String} {docs : List EvidenceDoc} {k : Reranking}
    (listed : ∀ d ∈ docs, r.knowledge.Lists d) (h : r.rerank query docs w = (.ok k, v)) :
    (∀ d ∈ k.docs, r.knowledge.Lists d) ∧ ∀ d ∈ k.dropped, r.knowledge.Lists d := by
  have spec := rerank_spec h
  split at spec
  case h_1 =>
    obtain ⟨_, same, nothing⟩ := spec
    rw [same, nothing]
    exact ⟨listed, by simp⟩
  case h_2 =>
    obtain ⟨results, _, _, reordered, dropped⟩ := spec
    rw [reordered, dropped]
    refine ⟨fun d mem => ?_, fun d mem => listed d (List.mem_of_mem_filter mem)⟩
    obtain ⟨plain, there, score, rfl⟩ := Evidence.mem_reordered mem
    exact listed plain there

/-- No document of the evidence is made up, nor are its masks. -/
theorem retrieve_lists {o : RetrievalOutcome} (h : r.retrieve q w = (.ok o, v)) :
    ∀ d ∈ o.docs, r.knowledge.Lists d := by
  obtain ⟨_, found, u, docs, k, added, _, _, hydrated, reranked, pinned, rfl⟩ :=
    retrieve_stages h
  have listed : ∀ d ∈ docs, r.knowledge.Lists d := fun d mem => ((hydrate_spec hydrated).2 d mem).2
  obtain ⟨kept, left⟩ := rerank_lists listed reranked
  intro d mem
  simp only [Retriever.kept, List.mem_append] at mem
  rcases mem with (early | late) | last
  · exact kept d early
  · obtain ⟨plain, there, score, rfl⟩ := Evidence.mem_restored late
    exact left plain there
  · exact ((pinnedDocs_spec pinned).2 d last).2

end Retriever

end NoteAssistant
