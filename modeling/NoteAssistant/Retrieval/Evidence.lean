import NoteAssistant.Retrieval.Candidates
import NoteAssistant.Retrieval.Normalization
import NoteAssistant.Text.Utf8
import NoteAssistant.Vault.ContentKey

/-! # Evidence

How documents for the model are made from records, put into the order of a
reranker, and completed by those that must not be lost.
-/

namespace NoteAssistant

namespace KnowledgeRecord

/-- The text of a record, decrypted if need be. -/
def text (r : KnowledgeRecord) (key : Option ContentKey) : Except Fault String :=
  if r.encrypted then
    match key with
    | none =>
      .error (.decrypt s!"knowledge {r.id} is encrypted but no content key is configured")
    | some key =>
      match key.decrypt r.content with
      | .error e => .error e
      | .ok plain =>
        match Text.Utf8.decode? plain with
        | some cs => .ok (String.ofList cs)
        | none => .error (.decrypt s!"knowledge {r.id} decrypted to invalid UTF-8")
  else .ok (String.ofList (Text.Utf8.decodeLossy r.content))

/-- The document of a record, without score. -/
def evidence (r : KnowledgeRecord) (key : Option ContentKey) : Except Fault EvidenceDoc :=
  (r.text key).map fun text => {
    id := r.id
    resource := r.resource
    title := r.title
    content := Normalization.normalize r.contentType text
    createdAt := r.createdAt
    score := none
    pinned := false
    masks := r.masks }

end KnowledgeRecord

namespace Evidence

/-- The record of a note among those listed; of two with one id the later one. -/
def record? (records : List KnowledgeRecord) (id : String) : Option KnowledgeRecord :=
  records.reverse.find? (·.id = id)

def find? (docs : List EvidenceDoc) (id : String) : Option EvidenceDoc := docs.find? (·.id = id)

def ids (docs : List EvidenceDoc) : List String := docs.map (·.id)

/-- The documents of those candidates that have a record, in their order. -/
def hydrate (key : Option ContentKey) (records : List KnowledgeRecord)
    (candidates : List VectorMatch) : Except Fault (List EvidenceDoc) :=
  (candidates.filterMap fun m => (record? records m.knowledge).map (m, ·)).mapM
    fun (m, r) => (r.evidence key).map fun d => { d with score := some m.score }

/-- Documents in the order of a reranker's results, with its scores. Results for
    unknown documents do not count, nor does a second one for the same document. -/
def reordered (docs : List EvidenceDoc) (results : List RerankedDoc) : List EvidenceDoc :=
  (distinctBy (·.id) results).filterMap fun r =>
    (find? docs r.id).map fun d => { d with score := some r.score }

/-- The documents that a reranker left out. -/
def dropped (docs : List EvidenceDoc) (results : List RerankedDoc) : List EvidenceDoc :=
  docs.filter fun d => !(results.map (·.id)).contains d.id

/-- The best candidates that are not among the documents. -/
def absent (highScore : List VectorMatch) (docs : List EvidenceDoc) : List VectorMatch :=
  highScore.filter fun m => !(ids docs).contains m.knowledge

/-- The best candidates that are not among the documents, taken from those that
    were left out. -/
def restored (highScore : List VectorMatch) (docs left : List EvidenceDoc) :
    List EvidenceDoc :=
  (absent highScore docs).filterMap fun m =>
    (find? left m.knowledge).map fun d => { d with score := some m.score }

/-- Pinned notes that are not among the documents, each once. -/
def wanted (docs : List EvidenceDoc) (pins : List String) : List String :=
  distinctBy id (pins.filter fun p => !(ids docs).contains p)

/-- The documents of those pinned notes that have a record. -/
def pinned (key : Option ContentKey) (records : List KnowledgeRecord) (wanted : List String) :
    Except Fault (List EvidenceDoc) :=
  (wanted.filterMap (record? records)).mapM fun r =>
    (r.evidence key).map fun d => { d with pinned := true }

end Evidence

end NoteAssistant
