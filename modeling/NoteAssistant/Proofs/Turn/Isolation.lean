import NoteAssistant.Proofs.Retrieval.Stages
import NoteAssistant.Turn

/-! # A turn sees nothing of other tenants

The stores of all tenants are in one memory. A turn depends on the matches of its own space
and user, the notes of its space, and the pins and messages of its session: two memories that
agree on these (`Contents.SameFor`) make it run in the same way.
-/

namespace NoteAssistant

/-- What the stores in memory hold. A store that fails has the text of its failure instead. -/
structure Contents where
  nearby : Except String (List VectorMatch)
  notes : Except String (List KnowledgeRecord)
  /-- Pinned notes by session, if there is a store of them. -/
  pinned : Option (Except String (List (String × List String)))
  messages : Except String (List HistoryMessage)

def handled {ε α β : Type} (failed : ε → β) (next : α → β) : Except ε α → β
  | .ok a => next a
  | .error e => failed e

namespace Contents

variable (c : Contents)

def vectors : VectorStore := handled .failing .ofMatches c.nearby

def knowledge : KnowledgeStore := handled .failing .ofRecords c.notes

def pins : Option PinStore := c.pinned.map (handled .failing .ofTable)

def history : HistoryStore := handled .failing .ofMessages c.messages

end Contents

def ownMatches (space user : String) (ms : List VectorMatch) : List VectorMatch :=
  ms.filter fun m => m.space = space && m.user = user

/-- The note with an id in a space; of two the one that was put there last. -/
def ownNote? (space : String) (rs : List KnowledgeRecord) (id : String) :
    Option KnowledgeRecord :=
  Evidence.record? (rs.filter (·.space = space)) id

def ownPins (session : String) (table : List (String × List String)) : List String :=
  (table.lookup session).getD []

def ownMessages (session : String) (ms : List HistoryMessage) : List HistoryMessage :=
  ms.filter (·.session = session)

/-- Memories that hold the same for a request. Nothing is said about what they hold of other
    spaces, users and sessions. -/
structure Contents.SameFor (q : TurnRequest) (c d : Contents) : Prop where
  nearby : c.nearby.map (ownMatches q.space q.user) = d.nearby.map (ownMatches q.space q.user)
  notes : c.notes.map (ownNote? q.space) = d.notes.map (ownNote? q.space)
  pinned : c.pinned.map (Except.map (ownPins q.session)) =
    d.pinned.map (Except.map (ownPins q.session))
  messages : c.messages.map (ownMessages q.session) = d.messages.map (ownMessages q.session)

/-! ## What a store replies within a scope -/

/-- Two replies that agree in one view of them lead to the same, as long as only that view
    is looked at. -/
theorem handled_congr {ε α β γ δ : Type} {x y : Except ε α} {view : α → β} {failed : ε → γ}
    {next : α → γ} (see : γ → δ) (looks : ∀ a b, view a = view b → see (next a) = see (next b))
    (same : x.map view = y.map view) :
    see (handled failed next x) = see (handled failed next y) := by
  cases x with
  | error e =>
      cases y with
      | error f => exact congrArg (see ∘ failed) (Except.error.inj same)
      | ok b => cases same
  | ok a =>
      cases y with
      | error f => cases same
      | ok b => exact looks a b (Except.ok.inj same)

/-- Among the notes listed for some ids of a space those of other spaces do not count. -/
theorem record?_list (space : String) (rs : List KnowledgeRecord) (ids : List String)
    (id : String) :
    Evidence.record? (rs.filter fun r => r.space = space && ids.contains r.id) id =
      if ids.contains id then ownNote? space rs id else none := by
  simp only [ownNote?, Evidence.record?, ← List.filter_reverse, List.find?_filter]
  split
  case isTrue asked =>
    refine congrArg (rs.reverse.find? ·) (funext fun r => ?_)
    by_cases here : r.id = id
    · subst here
      rw [asked, Bool.and_true]
    · simp [here]
  case isFalse unasked =>
    rw [List.find?_eq_none]
    intro r _ found
    simp only [Bool.and_eq_true, decide_eq_true_eq] at found
    exact unasked (found.2 ▸ found.1.2)

namespace Contents.SameFor

variable {q : TurnRequest} {c d : Contents} (same : c.SameFor q d)

include same

theorem search (resources : List String) (vector : List Single) (n : Nat) :
    c.vectors.search ⟨q.space, some q.user, resources⟩ vector n =
      d.vectors.search ⟨q.space, some q.user, resources⟩ vector n := by
  refine handled_congr (VectorStore.search · _ vector n) (fun ms ms' own => ?_) same.nearby
  exact congrArg (fun ms => Except.ok ((ranking ms).take n)) own

theorem list (ids : List String) :
    (c.knowledge.list ⟨q.space, ids⟩).map Evidence.record? =
      (d.knowledge.list ⟨q.space, ids⟩).map Evidence.record? := by
  refine handled_congr (fun k => (KnowledgeStore.list k _).map Evidence.record?)
    (fun rs ss own => congrArg Except.ok (funext fun id => ?_)) same.notes
  rw [record?_list, record?_list, own]

/-- What is made of listed notes by their ids does not depend on the memory. -/
theorem listed {α : Type} (ids : List String) {next : List KnowledgeRecord → Except Fault α}
    (looks : ∀ rs ss, Evidence.record? rs = Evidence.record? ss → next rs = next ss) :
    (match c.knowledge.list ⟨q.space, ids⟩ with
      | .error e => Except.error e
      | .ok records => next records) =
    match d.knowledge.list ⟨q.space, ids⟩ with
      | .error e => Except.error e
      | .ok records => next records := by
  have replies (k : KnowledgeStore) :
      (match k.list ⟨q.space, ids⟩ with
        | .error e => Except.error e
        | .ok records => next records) = handled .error next (k.list ⟨q.space, ids⟩) := by
    cases k.list ⟨q.space, ids⟩ <;> rfl
  rw [replies, replies]
  exact handled_congr id looks (same.list ids)

theorem pins {held held' : Except String (List (String × List String))}
    (left : c.pinned = some held) (right : d.pinned = some held') :
    (handled PinStore.failing .ofTable held).pins q.session =
      (handled PinStore.failing .ofTable held').pins q.session := by
  have own := same.pinned
  rw [left, right] at own
  exact handled_congr (PinStore.pins · q.session) (fun t t' own => congrArg Except.ok own)
    (Option.some.inj own)

theorem recent (n : Nat) : c.history.recent q.session n = d.history.recent q.session n := by
  refine handled_congr (HistoryStore.recent · q.session n) (fun ms ms' own => ?_) same.messages
  exact congrArg (fun ms => Except.ok (lastItems n ms)) own

end Contents.SameFor

/-! ## Retrieval within a scope -/

namespace Evidence

variable {rs ss : List KnowledgeRecord}

theorem hydrate_congr (key : Option ContentKey) (candidates : List VectorMatch)
    (same : record? rs = record? ss) : hydrate key rs candidates = hydrate key ss candidates := by
  rw [hydrate, hydrate, same]

theorem pinned_congr (key : Option ContentKey) (wanted : List String)
    (same : record? rs = record? ss) : pinned key rs wanted = pinned key ss wanted := by
  rw [pinned, pinned, same]

end Evidence

namespace Retriever

/-- A retriever that reads the stores in a memory. -/
def holding (r : Retriever) (c : Contents) : Retriever :=
  { r with vectors := c.vectors, knowledge := c.knowledge, pins := c.pins }

variable (r : Retriever) {q : TurnRequest} {c d : Contents} (same : c.SameFor q d)

include same

theorem search_holding (query : String) (rerankQuery session : Option String)
    (resources : List String) (vector : List Single) :
    (r.holding c).search ⟨q.space, some q.user, query, rerankQuery, resources, session⟩ vector =
      (r.holding d).search
        ⟨q.space, some q.user, query, rerankQuery, resources, session⟩ vector := by
  have reply := same.search resources vector r.rag.topK
  simp only [search, holding, reply]

theorem hydrate_holding (cs : CandidateSet) :
    (r.holding c).hydrate q.space cs = (r.holding d).hydrate q.space cs := by
  simp only [hydrate, holding]
  split
  case isTrue => rfl
  case isFalse =>
    exact same.listed cs.ids fun rs ss => Evidence.hydrate_congr r.key cs.matched

theorem pinnedDocs_holding (docs : List EvidenceDoc) :
    (r.holding c).pinnedDocs q.space (some q.session) docs =
      (r.holding d).pinnedDocs q.space (some q.session) docs := by
  have own := same.pinned
  cases left : c.pinned with
  | none =>
      have right : d.pinned = none := by simpa [left, eq_comm] using own
      simp only [pinnedDocs, holding, Contents.pins, left, right, Option.map_none]
  | some held =>
      cases right : d.pinned with
      | none => simp [left, right] at own
      | some held' =>
          simp only [pinnedDocs, holding, Contents.pins, left, right, Option.map_some,
            same.pins left right]
          split
          case h_1 => rfl
          case h_2 pins _ =>
            split
            case h_1 => rfl
            case h_2 =>
              exact same.listed _ fun rs ss => Evidence.pinned_congr r.key _

/-- Retrieval for a request depends on the memory in its scope only. -/
theorem retrieve_holding (query : String) (rerankQuery : Option String)
    (resources : List String) :
    (r.holding c).retrieve ⟨q.space, some q.user, query, rerankQuery, resources, some q.session⟩ =
      (r.holding d).retrieve
        ⟨q.space, some q.user, query, rerankQuery, resources, some q.session⟩ := by
  have embed : (r.holding c).embed = (r.holding d).embed := rfl
  have rerank : (r.holding c).rerank = (r.holding d).rerank := rfl
  have rag : (r.holding c).rag = (r.holding d).rag := rfl
  simp only [retrieve, embed, rag, rerank, r.search_holding same, r.hydrate_holding same,
    r.pinnedDocs_holding same]

end Retriever

namespace Assistant

/-- An assistant that reads the stores in a memory. -/
def holding (a : Assistant) (c : Contents) : Assistant :=
  { a with retriever := a.retriever.holding c, history := c.history }

variable (a : Assistant) {q : TurnRequest} {c d : Contents} (same : c.SameFor q d)

include same

theorem loadHistory_holding : (a.holding c).loadHistory q = (a.holding d).loadHistory q := by
  have reply : (a.holding c).history.recent q.session (a.holding c).rag.historyWindow =
      (a.holding d).history.recent q.session (a.holding d).rag.historyWindow :=
    same.recent a.rag.historyWindow
  rw [loadHistory, loadHistory, reply]

theorem retrieve_holding (enhanced : EnhancedQuery) :
    (a.holding c).retrieve q enhanced = (a.holding d).retrieve q enhanced := by
  have tip : (a.holding c).tip = (a.holding d).tip := rfl
  have retriever (c : Contents) : (a.holding c).retriever = a.retriever.holding c := rfl
  simp only [retrieve, tip, retriever, a.retriever.retrieve_holding same]

/-- Whatever the memory holds of other spaces, users and sessions, a turn asks the drivers for
    the same, tells the sink the same, and fails in the same way or answers the same. -/
theorem turn_isolated (cancelAt : Option Nat) :
    (a.holding c).turn q cancelAt = (a.holding d).turn q cancelAt := by
  have router : (a.holding c).router = (a.holding d).router := rfl
  have enhance : (a.holding c).enhance = (a.holding d).enhance := rfl
  have request : (a.holding c).request = (a.holding d).request := rfl
  have stream : (a.holding c).stream = (a.holding d).stream := rfl
  simp only [turn, router, enhance, request, stream, a.loadHistory_holding same,
    a.retrieve_holding same]

omit same in
/-- Matches of other tenants with better scores, a note of another space under the id of an own
    one, and pins and messages of other sessions; only one match may be found. -/
theorem turn_isolated_crowded :
    let note (id space : String) : KnowledgeRecord :=
      ⟨id, space, "u", "r", space, .markdown, [], false, [], ⟨⟨2024, 1, 1⟩, 0, 0⟩⟩
    let message (session content : String) : HistoryMessage :=
      ⟨"1", session, .user, content, ⟨⟨2024, 1, 1⟩, 0, 0⟩⟩
    let own : VectorMatch := ⟨"a", .zero, "s", "u", 10⟩
    let c : Contents := {
      nearby := .ok [own]
      notes := .ok [note "a" "s", note "p" "s"]
      pinned := some (.ok [("t", ["p"])])
      messages := .ok [message "t" "hello"] }
    let d : Contents := {
      nearby := .ok [⟨"x", .one, "s", "v", 10⟩, own, ⟨"p", .one, "z", "u", 10⟩]
      notes := .ok [note "p" "s", note "x" "z", note "a" "s", note "a" "z"]
      pinned := some (.ok [("o", ["x"]), ("t", ["p"])])
      messages := .ok [message "o" "secret", message "t" "hello"] }
    let driver : ScriptedDriver :=
      ⟨"d", "en", [.chat, .embedding], [], [], [], [], 0, 0, 0, none, none, ⟨[], [], []⟩⟩
    let a : Assistant := {
      retriever := {
        router := ⟨⟨[⟨"d", "en", [.chat, .embedding], 0⟩]⟩, [], ⟨"", []⟩, "en"⟩
        vectors := .ofMatches []
        knowledge := .ofRecords []
        pins := none
        key := none
        rag := { topK := 1 } }
      history := .ofMessages []
      watched := true
      stream := {} }
    let q : TurnRequest := ⟨"s", "u", "t", "who?", [], "m", none, none, ⟨⟨2024, 1, 1⟩, 0, 0⟩⟩
    ((a.holding c).turn q none (.ofDrivers [driver])).1.toOption.map (·.evidence) = some ["a", "p"]
      ∧ c.SameFor q d ∧ (a.holding c).turn q none = (a.holding d).turn q none := by
  intro note message own c d driver a q
  have answer : ((a.holding c).turn q none (.ofDrivers [driver])).1.toOption.map (·.evidence) =
      some ["a", "p"] := by
    simp only [turn, Assistant.retrieve, Retriever.retrieve, ThresholdPolicy.candidates,
      ranking_eq]
    decide +kernel
  have same : c.SameFor q d := by
    constructor
    case nearby => exact congrArg Except.ok (by decide)
    case pinned => decide
    case messages => exact congrArg Except.ok (by decide)
    case notes =>
      have left : ([note "a" "s", note "p" "s"].filter (·.space = "s")).reverse =
          [note "p" "s", note "a" "s"] := by decide
      have right : ([note "p" "s", note "x" "z", note "a" "s", note "a" "z"].filter
          (·.space = "s")).reverse = [note "a" "s", note "p" "s"] := by decide
      refine congrArg Except.ok (funext fun id => ?_)
      simp only [ownNote?, Evidence.record?, q, left, right]
      by_cases first : "a" = id
      · subst first
        decide
      · by_cases second : "p" = id
        · subst second
          decide
        · simp [note, first, second]
  exact ⟨answer, same, turn_isolated a same none⟩

end Assistant

end NoteAssistant
