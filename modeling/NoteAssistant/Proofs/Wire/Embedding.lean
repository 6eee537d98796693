import Mathlib.Data.List.Nodup
import Mathlib.Data.List.Perm.Subperm
import NoteAssistant.Wire.Service

/-! # Vectors and the texts they belong to

An embedding reply is sorted by its labels and taken as it is. So the vectors belong to the texts
if and only if there are as many items as texts, and the labels are the places of the texts or
there are no labels at all (`LabelledVector.onePerText_iff`). A reply of which this does not hold
is taken all the same.
-/

namespace NoteAssistant

namespace Json.Reading

/-- Two readings take corresponding values out of the same trees. -/
def Matches {α β : Type} (image : α → β) (whole : Reading α) (part : Reading β) : Prop :=
  ∀ level t, part level t = (whole level t).map image

theorem mapM_map_some {α β γ : Type} (read : γ → Option α) (image : α → β) (items : List γ) :
    items.mapM (fun item => (read item).map image) = (items.mapM read).map (List.map image) := by
  induction items with
  | nil => rfl
  | cons item items ih =>
      rw [List.mapM_cons, List.mapM_cons, ih]
      cases read item with
      | none => rfl
      | some a => cases items.mapM read <;> rfl

theorem Matches.list {α β : Type} {image : α → β} {whole : Reading α} {part : Reading β}
    (same : Matches image whole part) : Matches (List.map image) (list whole) (list part) := by
  rintro (_ | level) t
  · rfl
  · cases t with
    | array items =>
        have pointwise : part level = fun t => (whole level t).map image := funext (same level)
        simp only [Reading.list, pointwise, mapM_map_some]
    | _ => rfl

theorem Matches.withDefault {α β : Type} {image : α → β} {whole : Reading α} {part : Reading β}
    (same : Matches image whole part) (f : Fields) (name : String) (default : α) :
    f.withDefault name part (image default) = (f.withDefault name whole default).map image := by
  rw [Fields.withDefault, Fields.withDefault]
  cases f.present.lookup name with
  | none => rfl
  | some t => exact same f.level t

end Json.Reading

namespace Wire

open Json (Reading)

/-- The vector of an item with the label of the item, if it carries one. -/
structure LabelledVector where
  vector : List Single
  label : Option Nat
  deriving DecidableEq, Repr

namespace LabelledVector

/-- The label of an item as such. -/
def labelReading : Reading (Option Nat) := fun level t => (Reading.size level t).map some

def reading : Reading LabelledVector := fun level t => do
  let f ← Reading.fields ["embedding", "index"] level t
  some ⟨← f.required "embedding" (Reading.list Reading.single),
    ← f.withDefault "index" labelReading none⟩

/-- The items of a whole reply. -/
def replyReading : Reading (List LabelledVector) := fun level t => do
  let f ← Reading.fields ["data", "model", "usage"] level t
  f.withDefault "data" (Reading.list reading) []

/-- The item as the driver takes it: without a label it stands at the first place. -/
def placed (v : LabelledVector) : PlacedVector := ⟨v.vector, v.label.getD 0⟩

theorem matches_label : Reading.Matches (Option.getD · 0) labelReading Reading.size := by
  intro level t
  rw [labelReading, Option.map_map]
  exact (Option.map_id' ..).symm

theorem matches_reading : Reading.Matches placed reading PlacedVector.reading := by
  intro level t
  rw [PlacedVector.reading, reading]
  cases Reading.fields ["embedding", "index"] level t with
  | none => rfl
  | some f =>
      have label := matches_label.withDefault f "index" none
      rw [Option.getD_none] at label
      simp only [Option.bind_eq_bind, Option.bind_some, label]
      cases f.required "embedding" (Reading.list Reading.single) with
      | none => rfl
      | some vector => cases f.withDefault "index" labelReading none <;> rfl

/-- The items of a reply that could be read are those of its data. -/
theorem replyReading_eq_some {level : Nat} {t : Json.Tree} {reply : EmbeddingReply}
    (read : EmbeddingReply.reading level t = some reply) :
    ∃ items, replyReading level t = some items ∧ reply.data = items.map placed := by
  rw [EmbeddingReply.reading] at read
  obtain ⟨f, fields, read⟩ := Option.bind_eq_some_iff.mp read
  obtain ⟨data, dataRead, read⟩ := Option.bind_eq_some_iff.mp read
  obtain ⟨model, -, read⟩ := Option.bind_eq_some_iff.mp read
  obtain ⟨usage, -, read⟩ := Option.bind_eq_some_iff.mp read
  obtain rfl : _ = reply := Option.some.inj read
  have same := matches_reading.list.withDefault f "data" []
  rw [List.map_nil, dataRead] at same
  obtain ⟨items, itemsRead, rfl⟩ := Option.map_eq_some_iff.mp same.symm
  refine ⟨items, ?_, rfl⟩
  rw [replyReading, fields]
  exact itemsRead

/-- No item carries a label. -/
def Unlabelled (items : List LabelledVector) : Prop := ∀ item ∈ items, item.label = none

/-- The vector is the one with the label. -/
def Labels (items : List LabelledVector) (label : Nat) (vector : List Single) : Prop :=
  (items.filter fun item => item.label == some label).map (·.vector) = [vector]

/-- As many vectors as texts, and each of them the one that is labelled with the place of its text;
    where there are no labels, the one at that place. -/
structure OnePerText (items : List LabelledVector) (texts : List String)
    (vectors : List (List Single)) : Prop where
  count : vectors.length = texts.length
  unlabelled : Unlabelled items → vectors = items.map (·.vector)
  labelled : ¬ Unlabelled items →
    ∀ place vector, vectors[place]? = some vector → Labels items place vector

/-- As many items as texts, and the labels, if there are any, are the places of the texts. -/
structure Aligned (items : List LabelledVector) (texts : List String) : Prop where
  count : items.length = texts.length
  places : Unlabelled items
    ∨ (items.map (·.label)).Perm ((List.range texts.length).map some)

instance (items : List LabelledVector) : Decidable (Unlabelled items) :=
  inferInstanceAs (Decidable (∀ item ∈ items, item.label = none))

variable {items : List LabelledVector} {texts : List String}

/-- The items as the driver orders them. -/
def ordered (items : List LabelledVector) : List PlacedVector :=
  (items.map placed).mergeSort fun a b => decide (a.place ≤ b.place)

theorem ordered_perm (items : List LabelledVector) : (ordered items).Perm (items.map placed) :=
  List.mergeSort_perm _ _

theorem ordered_pairwise (items : List LabelledVector) :
    (ordered items).Pairwise fun a b => a.place ≤ b.place := by
  have sorted : (ordered items).Pairwise fun a b => decide (a.place ≤ b.place) = true :=
    List.pairwise_mergeSort
      (fun a b c first second => by simp only [decide_eq_true_eq] at *; omega)
      (fun a b => by simp only [Bool.or_eq_true, decide_eq_true_eq]; omega) (items.map placed)
  exact sorted.imp of_decide_eq_true

/-- Without labels the order of the reply stays. -/
theorem ordered_of_unlabelled (unlabelled : Unlabelled items) :
    ordered items = items.map placed := by
  apply List.mergeSort_of_pairwise
  rw [List.pairwise_map]
  apply List.pairwise_of_forall_mem_list
  intro a mem b mem'
  simp [placed, unlabelled a mem, unlabelled b mem']

/-- If the labels are the places of the texts, the vectors come in the order of the texts. -/
theorem map_place_ordered {n : Nat}
    (places : (items.map (·.label)).Perm ((List.range n).map some)) :
    (ordered items).map (·.place) = List.range n := by
  have perm : ((ordered items).map (·.place)).Perm (List.range n) := calc
    ((ordered items).map (·.place)).Perm ((items.map placed).map (·.place)) :=
        (ordered_perm items).map _
    _ = (items.map (·.label)).map (Option.getD · 0) := by
        rw [List.map_map, List.map_map]; rfl
    List.Perm _ (((List.range n).map some).map (Option.getD · 0)) := places.map _
    _ = List.range n := by rw [List.map_map]; exact List.map_id _
  refine perm.eq_of_pairwise (fun a b _ _ => Nat.le_antisymm) ?_ List.pairwise_le_range
  exact List.pairwise_map.mpr (ordered_pairwise items)

theorem labels_of_mem {item : LabelledVector} {place : Nat} (mem : item ∈ items)
    (label : item.label = some place) (distinct : (items.map (·.label)).Nodup) :
    Labels items place item.vector := by
  have mem : item ∈ items.filter fun item => item.label == some place :=
    List.mem_filter.mpr ⟨mem, by simpa using label⟩
  have once : (items.filter fun item => item.label == some place).length ≤ 1 := by
    have count := List.nodup_iff_count_le_one.mp distinct (some place)
    rwa [List.count_eq_countP, List.countP_map, List.countP_eq_length_filter] at count
  obtain ⟨only, same⟩ :=
    List.length_eq_one_iff.mp (Nat.le_antisymm once (List.length_pos_of_mem mem))
  rw [same, List.mem_singleton] at mem
  rw [Labels, same, mem, List.map_singleton]

theorem Labels.mem {place : Nat} {vector : List Single} (labels : Labels items place vector) :
    some place ∈ items.map (·.label) := by
  have there : vector ∈ (items.filter fun item => item.label == some place).map (·.vector) := by
    rw [labels]
    exact List.mem_singleton_self vector
  obtain ⟨item, mem, -⟩ := List.mem_map.mp there
  obtain ⟨mem, label⟩ := List.mem_filter.mp mem
  exact List.mem_map.mpr ⟨item, mem, by simpa using label⟩

/-- Each vector is the one with the label of its place, if the labels are the places. -/
theorem labels_of_places {n place : Nat} {vector : List Single}
    (places : (items.map (·.label)).Perm ((List.range n).map some))
    (there : ((ordered items).map (·.vector))[place]? = some vector) :
    Labels items place vector := by
  rw [List.getElem?_map] at there
  obtain ⟨p, found, rfl⟩ := Option.map_eq_some_iff.mp there
  have stands : p.place = place := by
    have same : ((ordered items).map (·.place))[place]? = some p.place := by
      rw [List.getElem?_map, found, Option.map_some]
    rw [map_place_ordered places] at same
    obtain ⟨_, same⟩ := List.getElem?_eq_some_iff.mp same
    rw [← same, List.getElem_range]
  obtain ⟨item, mem, rfl⟩ :=
    List.mem_map.mp ((ordered_perm items).mem_iff.mp (List.mem_of_getElem? found))
  have label : item.label = some place := by
    have mem : item.label ∈ (List.range n).map some :=
      places.mem_iff.mp (List.mem_map_of_mem mem)
    obtain ⟨label, -, same⟩ := List.mem_map.mp mem
    rw [← stands, placed, ← same, Option.getD_some]
  have distinct : (items.map (·.label)).Nodup :=
    places.nodup_iff.mpr (List.nodup_range.map fun _ _ => Option.some.inj)
  exact labels_of_mem mem label distinct

theorem length_ordered (items : List LabelledVector) :
    ((ordered items).map (·.vector)).length = items.length := by
  rw [List.length_map, (ordered_perm items).length_eq, List.length_map]

theorem places_of_labels {n : Nat} {vectors : List (List Single)} (count : items.length = n)
    (length : vectors.length = n)
    (labels : ∀ place vector, vectors[place]? = some vector → Labels items place vector) :
    (items.map (·.label)).Perm ((List.range n).map some) := by
  have distinct : ((List.range n).map some).Nodup :=
    List.nodup_range.map fun _ _ => Option.some.inj
  have covered : (List.range n).map some ⊆ items.map (·.label) := by
    intro label mem
    obtain ⟨place, below, rfl⟩ := List.mem_map.mp mem
    have below : place < vectors.length := by rw [length]; exact List.mem_range.mp below
    exact (labels place _ (List.getElem?_eq_getElem below)).mem
  have enough : (items.map (·.label)).length ≤ ((List.range n).map some).length := by
    simp [count]
  exact ((List.subperm_of_subset distinct covered).perm_of_length_le enough).symm

/-- The vectors in the driver's order belong to the texts exactly if the reply is aligned. -/
theorem onePerText_iff :
    OnePerText items texts ((ordered items).map (·.vector)) ↔ Aligned items texts := by
  constructor
  · rintro ⟨count, -, labelled⟩
    have same : items.length = texts.length := by rw [← length_ordered, count]
    by_cases unlabelled : Unlabelled items
    case pos => exact ⟨same, .inl unlabelled⟩
    case neg => exact ⟨same, .inr (places_of_labels same count (labelled unlabelled))⟩
  · rintro ⟨count, places⟩
    refine ⟨(length_ordered items).trans count, fun unlabelled => ?_, fun mixed => ?_⟩
    · rw [ordered_of_unlabelled unlabelled, List.map_map]
      rfl
    · intro place vector
      exact labels_of_places (places.resolve_left mixed)

end LabelledVector

/-- A step that has succeeded hands its result to the next one. -/
theorem bind_of_ok {α β : Type} {call : Call α} {next : α → Call β} {x x' : Exchange} {a : α}
    (done : call x = (.ok a, x')) : (call >>= next) x = next a x' := by
  change (StateT.bind call (ExceptT.bindCont next)) x = _
  simp only [StateT.bind, done]
  rfl

namespace Service

variable {s : Service} {x x' : Exchange} {response : HttpResponse}

/-- A response that is a success is taken at once. -/
theorem post_of_isSuccess {rest : List HttpResponse} {path : String} {body : Json.Tree}
    (endpoint : x.endpoint = .responding (response :: rest))
    (success : Status.isSuccess response.status = true) :
    s.post path body x = (.ok response,
      ⟨.responding rest,
        x.requests ++ [⟨s.base ++ path, s.key.map ("Bearer " ++ ·), body.text⟩]⟩) := by
  have sent (request : HttpRequest) :
      send request x = (.ok (some response), ⟨.responding rest, x.requests ++ [request]⟩) := by
    rw [send, Exchange.send, endpoint]
  rw [post, postWithin, bind_of_ok (sent _)]
  exact congrFun (if_pos success) _

theorem embed_of_post {m : String} {texts : List String} {reply : EmbeddingReply}
    (model : s.config.embeddingModel = some m) (asked : texts ≠ [])
    (posted : s.post "/embeddings" (Request.embeddings m texts) x = (.ok response, x'))
    (read : EmbeddingReply.reading.parse? (bodyText response) = some reply) :
    s.embed texts x =
      (.ok ⟨reply.vectors, nonEmptyOr reply.model m, usageOf reply.usage⟩, x') := by
  have named : Service.model s.config.embeddingModel .embedding x = (.ok m, x) := by
    rw [model]
    rfl
  have replied : s.postJson "/embeddings" (Request.embeddings m texts) EmbeddingReply.reading x
      = (.ok reply, x') := by
    rw [postJson, bind_of_ok posted, read]
    rfl
  rw [embed, bind_of_ok named, if_neg (by simpa using asked), bind_of_ok replied]
  rfl

/-- If a reply can be read, its vectors are taken, and they belong to the texts if and only if the
    reply is aligned with them. -/
theorem embed_eq_ok {m : String} {texts : List String} {reply : EmbeddingReply}
    (model : s.config.embeddingModel = some m) (asked : texts ≠ [])
    (posted : s.post "/embeddings" (Request.embeddings m texts) x = (.ok response, x'))
    (read : EmbeddingReply.reading.parse? (bodyText response) = some reply) :
    ∃ items, LabelledVector.replyReading.parse? (bodyText response) = some items
      ∧ ∃ output, s.embed texts x = (.ok output, x')
        ∧ output.vectors.length = items.length
        ∧ (LabelledVector.OnePerText items texts output.vectors
          ↔ LabelledVector.Aligned items texts) := by
  obtain ⟨t, parsed, read'⟩ := Option.bind_eq_some_iff.mp read
  obtain ⟨items, itemsRead, data⟩ := LabelledVector.replyReading_eq_some read'
  have vectors : reply.vectors = (LabelledVector.ordered items).map (·.vector) := by
    rw [EmbeddingReply.vectors, data]
    rfl
  refine ⟨items, ?_, _, embed_of_post model asked posted read, ?_, ?_⟩
  · rw [Reading.parse?, parsed]
    exact itemsRead
  · rw [vectors, LabelledVector.length_ordered]
  · rw [vectors]
    exact LabelledVector.onePerText_iff

/-- A driver with the embedding model `e`. -/
def embedder : Service := ⟨{ embeddingModel := some "e" }, "http://localhost", none⟩

/-- A success with the items of an embedding reply, in plain characters. -/
def itemsResponse (items : String) : HttpResponse :=
  ⟨200, ("\x7b\"data\":[" ++ items ++ "]\x7d").toList.map Char.toUInt8⟩

/-- A vector with one entry. -/
def entry (n : Nat) : List Single := [Single.ofNat n]

/-- Two items that come in the other order. -/
theorem embed_eq_ok_swapped :
    let response := itemsResponse ("\x7b\"index\":1,\"embedding\":[2]\x7d,"
      ++ "\x7b\"index\":0,\"embedding\":[3]\x7d")
    let items : List LabelledVector := [⟨entry 2, some 1⟩, ⟨entry 3, some 0⟩]
    let reply : EmbeddingReply := ⟨items.map LabelledVector.placed, "", none⟩
    let texts := ["a", "b"]
    let start : Exchange := ⟨.responding [response], []⟩
    ∃ x', embedder.config.embeddingModel = some "e" ∧ texts ≠ []
      ∧ embedder.post "/embeddings" (Request.embeddings "e" texts) start = (.ok response, x')
      ∧ EmbeddingReply.reading.parse? (bodyText response) = some reply
      ∧ LabelledVector.replyReading.parse? (bodyText response) = some items
      ∧ ∃ output, embedder.embed texts start = (.ok output, x')
        ∧ LabelledVector.OnePerText items texts output.vectors := by
  intro response items reply texts start
  have posted : embedder.post "/embeddings" (Request.embeddings "e" texts) start
      = (.ok response, _) := post_of_isSuccess rfl rfl
  have read : EmbeddingReply.reading.parse? (bodyText response) = some reply := by decide +kernel
  have labelled : LabelledVector.replyReading.parse? (bodyText response) = some items := by
    decide +kernel
  have aligned : LabelledVector.Aligned items texts := ⟨rfl, .inr (by decide +kernel)⟩
  obtain ⟨items', labelled', output, done, -, belongs⟩ := embed_eq_ok rfl (by decide) posted read
  obtain rfl : items = items' := Option.some.inj (labelled.symm.trans labelled')
  exact ⟨_, rfl, by decide, posted, read, labelled, output, done, belongs.mpr aligned⟩

/-- One item for two texts, with the label of the second one: its vector is taken for the first
    text, and there is none for the second. -/
theorem embed_takes_too_few :
    let response := itemsResponse "\x7b\"index\":1,\"embedding\":[2]\x7d"
    let items : List LabelledVector := [⟨entry 2, some 1⟩]
    let texts := ["a", "b"]
    Status.isSuccess response.status = true
      ∧ EmbeddingReply.reading.parse? (bodyText response)
        = some ⟨items.map LabelledVector.placed, "", none⟩
      ∧ LabelledVector.replyReading.parse? (bodyText response) = some items
      ∧ ∃ output x', embedder.embed texts ⟨.responding [response], []⟩ = (.ok output, x')
        ∧ output.vectors = [entry 2]
        ∧ ¬ LabelledVector.OnePerText items texts output.vectors := by
  intro response items texts
  have posted : embedder.post "/embeddings" (Request.embeddings "e" texts)
      ⟨.responding [response], []⟩ = (.ok response, _) := post_of_isSuccess rfl rfl
  have read : EmbeddingReply.reading.parse? (bodyText response)
      = some ⟨items.map LabelledVector.placed, "", none⟩ := by decide +kernel
  have taken : EmbeddingReply.vectors ⟨items.map LabelledVector.placed, "", none⟩ = [entry 2] := by
    simp [EmbeddingReply.vectors, items, LabelledVector.placed]
  refine ⟨rfl, read, by decide +kernel, _, _, embed_of_post rfl (by decide) posted read, taken, ?_⟩
  intro belongs
  have count : ([entry 2] : List (List Single)).length = texts.length := taken ▸ belongs.count
  exact absurd count (by decide)

end Service

end Wire

end NoteAssistant
