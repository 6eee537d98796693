import NoteAssistant.Proofs.Backend.Steps
import NoteAssistant.Proofs.Json.Strings
import NoteAssistant.Proofs.Retrieval.Distinct
import NoteAssistant.Proofs.Text.NameKey
import NoteAssistant.Retrieval.Enhancement

/-! # Other wordings of a query

What an enhancement makes of the reply of a model: a fault if the reply is no array of strings,
and otherwise the wordings in it that say something else than the query (`enhance_wordings`).
-/

namespace NoteAssistant

open Json (Reading StringArray Tree)

theorem trimmed_trimmed (s : String) : trimmed (trimmed s) = trimmed s := by
  rw [trimmed, trimmed, String.toList_ofList, Text.trim_trim]

theorem trimmed_ne_empty {s : String} : trimmed s ≠ "" ↔ isBlankText s = false := by
  rw [Ne, trimmed_eq_empty, Bool.not_eq_true]

/-- The wordings that are kept of those that a model proposes. -/
structure Wordings (query : String) (proposed kept : List String) : Prop where
  proper : ∀ a ∈ kept, isBlankText a = false ∧ trimmed a = a ∧ a ≠ trimmed query
  sound : ∀ a ∈ kept, ∃ w ∈ proposed, trimmed w = a
  distinct : kept.Nodup
  /-- In the order in which they appear first. -/
  ordered : kept.Pairwise fun a b =>
    (proposed.map trimmed).idxOf a < (proposed.map trimmed).idxOf b
  complete : ∀ w ∈ proposed, isBlankText w = false → trimmed w ≠ trimmed query →
    kept.count (trimmed w) = 1

namespace Enhancement

section Cleaning

variable {query a b : String} {proposed : List String}

theorem mem_cleaned :
    a ∈ cleaned query proposed ↔
      (∃ w ∈ proposed, trimmed w = a) ∧ a ≠ "" ∧ a ≠ trimmed query := by
  rw [cleaned, mem_distinctBy_id, List.mem_filter, List.mem_map]
  simp

/-- Leaving out others does not change which of two comes first. -/
theorem idxOf_lt_of_filter {p : String → Bool} {l : List String} (keepsA : p a = true)
    (keepsB : p b = true) (before : (l.filter p).idxOf a < (l.filter p).idxOf b) :
    l.idxOf a < l.idxOf b := by
  induction l with
  | nil => cases before
  | cons c l ih =>
      rw [List.idxOf_cons, List.idxOf_cons]
      cases keepsC : p c with
      | true =>
          rw [List.filter_cons_of_pos keepsC, List.idxOf_cons, List.idxOf_cons] at before
          grind
      | false =>
          rw [List.filter_cons_of_neg (by simp [keepsC])] at before
          grind

theorem cleaned_wordings (query : String) (proposed : List String) :
    Wordings query proposed (cleaned query proposed) where
  proper := by
    intro a mem
    obtain ⟨⟨w, _, rfl⟩, filled, other⟩ := mem_cleaned.mp mem
    have same := trimmed_trimmed w
    exact ⟨trimmed_ne_empty.mp (same.symm ▸ filled), same, other⟩
  sound := fun a mem => (mem_cleaned.mp mem).1
  distinct := nodup_distinctBy_id _
  ordered := by
    refine (pairwise_idxOf_distinctBy_id _).imp_of_mem fun ha hb before => ?_
    have keeps {c : String} (mem : c ∈ cleaned query proposed) :
        (c ≠ "" && c ≠ trimmed query) = true := by
      simpa using (mem_cleaned.mp mem).2
    exact idxOf_lt_of_filter (p := fun c => c ≠ "" && c ≠ trimmed query) (keeps ha) (keeps hb)
      before
  complete := by
    intro w mem filled other
    have kept := mem_cleaned.mpr ⟨⟨w, mem, rfl⟩, trimmed_ne_empty.mpr filled, other⟩
    exact List.count_eq_one_of_mem (nodup_distinctBy_id _) kept

example :
    cleaned " trip" ["trip", " Kyoto trip ", "\t", "spring", "Kyoto trip"] =
      ["Kyoto trip", "spring"] := by
  decide +kernel

end Cleaning

theorem textsOfReply?_eq_some_iff {reply : String} {texts : List String} :
    textsOfReply? reply = some texts ↔ StringArray (Text.unfenced reply.toList) texts := by
  have json : (fencedJson reply).toList = Text.unfenced reply.toList := String.toList_ofList
  rw [← json]
  exact Json.strings_parse?_eq_some_iff

theorem alternatives_of_array {reply query : String} {proposed : List String}
    (array : StringArray (Text.unfenced reply.toList) proposed) :
    alternatives reply query = .ok (cleaned query proposed) := by
  have read := textsOfReply?_eq_some_iff.mpr array
  unfold alternatives
  rw [read]

theorem alternatives_of_other {reply query : String}
    (other : ¬ ∃ proposed, StringArray (Text.unfenced reply.toList) proposed) :
    alternatives reply query = .error (.enhanceParse reply) := by
  have unread : textsOfReply? reply = none := by
    rw [Option.eq_none_iff_forall_ne_some]
    intro proposed read
    exact other ⟨proposed, textsOfReply?_eq_some_iff.mp read⟩
  unfold alternatives
  rw [unread]

end Enhancement

theorem EnhancedQuery.text_eq (q : EnhancedQuery) :
    q.text = q.asked ++ String.join (q.alternatives.map (" " ++ ·)) := by
  obtain ⟨asked, alternatives, model, usage⟩ := q
  change alternatives.foldl _ asked = asked ++ String.join (alternatives.map _)
  induction alternatives generalizing asked with
  | nil => simp
  | cons a alternatives ih =>
      rw [List.foldl_cons, ih, List.map_cons, String.join_cons]
      simp only [String.append_assoc]

namespace Enhancement

/-- A reply that is no array of strings is a fault. Of an array the query gets its wordings, which
    are read back as they are if they are printed, and are searched for behind the query. -/
theorem enhance_wordings {r : Router} {rag : RagConfig} {limit : Option Nat} {query : String}
    {history : List HistoryMessage} {lang : String} {now : Local} {driver : DriverEntry}
    {reply : ChatResponse} {w v : World} (enough : rag.enhanceMinHistory ≤ history.length)
    (resolved : r.enhancer = .ok driver)
    (answered : Run.complete driver limit (request r rag query history lang now) w =
      (.ok reply, v)) :
    (enhance r rag limit query history lang now w = (.error (.enhanceParse reply.content), v) ↔
      ¬ ∃ proposed, StringArray (Text.unfenced reply.content.toList) proposed) ∧
    ∀ proposed, StringArray (Text.unfenced reply.content.toList) proposed →
      ∃ q : EnhancedQuery, enhance r rag limit query history lang now w = (.ok q, v) ∧
        Wordings query proposed q.alternatives ∧
        (Reading.list .string).parse? (Tree.ofStrings q.alternatives).text =
          some q.alternatives ∧
        q.text = query ++ String.join (q.alternatives.map (" " ++ ·)) := by
  have steps : enhance r rag limit query history lang now w =
      (do
        let wordings ← Router.lift (alternatives reply.content query)
        pure ⟨query, wordings, some reply.model, reply.usage⟩ : Run EnhancedQuery) v := by
    rw [enhance, if_neg (Nat.not_lt.mpr enough), resolved]
    exact Run.bind_of_ok answered _
  have given {proposed : List String}
      (array : StringArray (Text.unfenced reply.content.toList) proposed) :
      enhance r rag limit query history lang now w =
        (.ok ⟨query, cleaned query proposed, some reply.model, reply.usage⟩, v) := by
    rw [steps, alternatives_of_array array]
    rfl
  refine ⟨⟨?_, ?_⟩, ?_⟩
  · rintro failed ⟨proposed, array⟩
    rw [given array] at failed
    cases failed
  · intro other
    rw [steps, alternatives_of_other other]
    rfl
  · intro proposed array
    exact ⟨_, given array, cleaned_wordings query proposed, Json.strings_parse?_text _,
      EnhancedQuery.text_eq _⟩

/-- A reply in a code fence, with a repetition and the query itself among the wordings. -/
def fencedReply : String :=
  "\x60\x60\x60json\n[\"trip\", \" Kyoto trip \", \"\", \"Kyoto trip\", \"spring\"]\n\x60\x60\x60"

def fencedTexts : List String := ["trip", " Kyoto trip ", "", "Kyoto trip", "spring"]

def soleEntry : DriverEntry := ⟨"d", "en", [.chat], 0⟩

def soleRouter : Router := ⟨⟨[soleEntry]⟩, [], ⟨"", []⟩, "en"⟩

def replyingDriver : ScriptedDriver :=
  ⟨"d", "en", [.chat], [.ok fencedReply], [], [], [], 0, 0, 0, none, none, ⟨[], [], []⟩⟩

def afterOne : RagConfig := { enhanceMinHistory := 1 }

def oneMessage : List HistoryMessage := [⟨"1", "t", .user, "one", ⟨⟨2024, 1, 1⟩, 0, 0⟩⟩]

theorem enhance_wordings_fenced :
    ∃ (now : Local) (reply : ChatResponse) (v : World) (q : EnhancedQuery),
      afterOne.enhanceMinHistory ≤ oneMessage.length ∧
      soleRouter.enhancer = .ok soleEntry ∧
      Run.complete soleEntry none (request soleRouter afterOne "trip" oneMessage "en" now)
        (.ofDrivers [replyingDriver]) = (.ok reply, v) ∧
      reply.content = fencedReply ∧
      StringArray (Text.unfenced reply.content.toList) fencedTexts ∧
      enhance soleRouter afterOne none "trip" oneMessage "en" now (.ofDrivers [replyingDriver]) =
        (.ok q, v) ∧
      Wordings "trip" fencedTexts q.alternatives ∧
      q.alternatives = ["Kyoto trip", "spring"] ∧ q.text = "trip Kyoto trip spring" := by
  let now : Local := ⟨⟨2024, 5, 1⟩, 0, 0⟩
  let asked := request soleRouter afterOne "trip" oneMessage "en" now
  have enough : afterOne.enhanceMinHistory ≤ oneMessage.length := by decide
  have resolved : soleRouter.enhancer = .ok soleEntry := by decide +kernel
  have answered : Run.complete soleEntry none asked (.ofDrivers [replyingDriver]) =
      (.ok ((replyingDriver.record asked).response fencedReply),
        .ofDrivers [{ replyingDriver.record asked with chat := [] }]) := rfl
  have array : StringArray (Text.unfenced fencedReply.toList) fencedTexts :=
    textsOfReply?_eq_some_iff.mp (by decide +kernel)
  obtain ⟨q, done, wordings, -, text⟩ := (enhance_wordings enough resolved answered).2 _ array
  have listed : q.alternatives = ["Kyoto trip", "spring"] := by
    have answer : (enhance soleRouter afterOne none "trip" oneMessage "en" now
        (.ofDrivers [replyingDriver])).1.map (·.alternatives) = .ok ["Kyoto trip", "spring"] := by
      decide +kernel
    rw [done] at answer
    exact Except.ok.inj answer
  rw [listed] at text
  exact ⟨now, _, _, q, enough, resolved, answered, rfl, array, done, wordings, listed, text⟩

end Enhancement

end NoteAssistant
