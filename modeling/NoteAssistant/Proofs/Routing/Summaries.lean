import NoteAssistant.Proofs.Backend.Steps
import NoteAssistant.Proofs.Json.Grammar
import NoteAssistant.Proofs.Json.Records
import NoteAssistant.Proofs.Text.Fence

/-! # Summaries out of replies

A model is asked for a summary as a JSON object. The fields of such a reply make the summary, and a
reply that is something else should be the summary as it is. There is one exception
(`summarize_keeps`): an array of at most three fields is taken for the object that has them in
order, and what the model wrote is lost (`summarize_loses_listed`).
-/

namespace NoteAssistant

open Json (Denotes Gives Holds Once Reading Tree)

namespace SummaryParts

def fieldNames : List String := ["summary", "title", "tags"]

/-- The parts are those that a record holds, and empty where it holds none. -/
structure Held (members : List (String × Tree)) (p : SummaryParts) : Prop where
  summary : Holds members "summary" Tree.ofString "" p.summary
  title : Holds members "title" Tree.ofString "" p.title
  tags : Holds members "tags" Tree.ofStrings [] p.tags

/-- The expected form: an object with texts as summary and title and a list of texts as tags, as
    far as they are there, and none of them twice. -/
def Expected (s : List Char) (p : SummaryParts) : Prop :=
  ∃ members, Denotes s (.record members) ∧ (∀ name ∈ fieldNames, Once members name) ∧
    Held members p

/-- An array of the summary, the title and the tags, or of the first ones of them. -/
def Listed (s : List Char) (p : SummaryParts) : Prop :=
  ∃ items, Denotes s (.array items) ∧ items.length ≤ fieldNames.length ∧
    Held (fieldNames.zip items) p

/-- A reply as a summary. -/
def verbatim (reply : String) : SummaryParts := ⟨trimmed reply, "", []⟩

variable {s : List Char} {t : Tree} {reply : String} {p q : SummaryParts}

theorem strings_eq_some_iff {level : Nat} {t : Tree} {texts : List String} :
    Reading.list Reading.string (level + 1) t = some texts ↔ t = .ofStrings texts := by
  cases t with
  | array items =>
      rw [Reading.list, Json.mapM_string_eq_some_iff, Tree.ofStrings, Tree.array.injEq]
  | _ =>
      constructor
      · intro read
        cases read
      · intro same
        cases same

/-- The fields are read as the record holds them. -/
theorem held_iff {f : Reading.Fields} {members : List (String × Tree)}
    (gives : Gives fieldNames t members) (deep : f.level = 126)
    (found : ∀ name ∈ fieldNames, f.present.lookup name = members.lookup name) :
    (do
      let summary ← f.withDefault "summary" Reading.string ""
      let title ← f.withDefault "title" Reading.string ""
      let tags ← f.withDefault "tags" (Reading.list Reading.string) []
      some (SummaryParts.mk summary title tags)) = some p ↔ Held members p := by
  have text {name a : String} (known : name ∈ fieldNames) :
      f.withDefault name Reading.string "" = some a ↔ Holds members name Tree.ofString "" a :=
    Json.withDefault_iff (gives.once (by decide) known) (found name known)
      fun _ _ => Json.string_eq_some_iff
  have summary {a : String} := @text "summary" a (by decide)
  have title {a : String} := @text "title" a (by decide)
  have tags {a : List String} : f.withDefault "tags" (Reading.list Reading.string) [] = some a ↔
      Holds members "tags" Tree.ofStrings [] a :=
    Json.withDefault_iff (gives.once (by decide) (by decide)) (found "tags" (by decide))
      fun _ _ => by rw [deep, strings_eq_some_iff]
  simp only [Option.bind_eq_bind, Option.bind_eq_some_iff, Option.some.injEq, summary, title, tags]
  constructor
  · rintro ⟨summary, one, title, two, tags, three, rfl⟩
    exact ⟨one, two, three⟩
  · rintro ⟨one, two, three⟩
    exact ⟨_, one, _, two, _, three, rfl⟩

theorem reading_eq_some_iff :
    reading Json.maxDepth t = some p ↔ ∃ members, Gives fieldNames t members ∧ Held members p := by
  constructor
  · intro read
    obtain ⟨f, fields, read⟩ := Option.bind_eq_some_iff.mp read
    obtain ⟨members, gives, deep, found⟩ := Json.fields_eq_some fields
    exact ⟨members, gives, (held_iff gives deep found).mp read⟩
  · rintro ⟨members, gives, held⟩
    obtain ⟨f, fields, deep, found⟩ := Json.fields_of_gives gives
    rw [reading]
    exact Option.bind_eq_some_iff.mpr ⟨f, fields, (held_iff gives deep found).mpr held⟩

/-- Nothing but the expected form and the array of fields is taken for a summary in JSON. -/
theorem read_iff : reading.parse? (fencedJson reply) = some p ↔
    Expected (Text.unfenced reply.toList) p ∨ Listed (Text.unfenced reply.toList) p := by
  have denotes {t : Tree} : Json.parse? (fencedJson reply) = some t ↔
      Denotes (Text.unfenced reply.toList) t := by
    rw [Json.parse?_iff_denotes, fencedJson, String.toList_ofList]
  simp only [Reading.parse?, Option.bind_eq_some_iff, denotes, reading_eq_some_iff]
  constructor
  · rintro ⟨t, written, members, once | few, held⟩
    · exact .inl ⟨members, written, once, held⟩
    · exact .inr ⟨_, written, few, held⟩
  · rintro (⟨members, written, once, held⟩ | ⟨items, written, few, held⟩)
    · exact ⟨_, written, members, .object once, held⟩
    · exact ⟨_, written, _, .array few, held⟩

theorem ofReply_eq (read : Expected (Text.unfenced reply.toList) p ∨
    Listed (Text.unfenced reply.toList) p) : ofReply reply = p := by
  rw [ofReply, read_iff.mpr read, Option.getD_some]

theorem ofReply_verbatim (unexpected : ∀ q, ¬ Expected (Text.unfenced reply.toList) q)
    (unlisted : ∀ q, ¬ Listed (Text.unfenced reply.toList) q) :
    ofReply reply = verbatim reply := by
  have unread : reading.parse? (fencedJson reply) = none :=
    Option.eq_none_iff_forall_ne_some.mpr fun q read =>
      (read_iff.mp read).elim (unexpected q) (unlisted q)
  rw [ofReply, unread, Option.getD_none, verbatim]

theorem Listed.summary_shorter (listed : Listed s p) : p.summary.toList.length < s.length := by
  obtain ⟨items, written, -, summary, -, -⟩ := listed
  generalize p.summary = text at summary ⊢
  cases summary with
  | absent => exact written.longer
  | given mem =>
      cases items with
      | nil => cases mem
      | cons t items =>
          rcases List.mem_cons.mp mem with first | later
          · cases first
            exact written.text_shorter
          · have other : "summary" ∈ ["title", "tags"] := (List.of_mem_zip later).1
            cases (by decide : "summary" ∉ ["title", "tags"]) other

/-- What is read out of an array of fields is never the whole reply. -/
theorem Listed.lost (listed : Listed (Text.unfenced reply.toList) p) : p ≠ verbatim reply := by
  rintro rfl
  have shorter := listed.summary_shorter
  have fits := (Text.unfenced_inside reply.toList).length_le
  simp only [verbatim, trimmed, String.toList_ofList] at shorter
  omega

theorem not_expected_of_listed (listed : Listed s p) : ∀ q, ¬ Expected s q := by
  rintro q ⟨members, object, -⟩
  obtain ⟨items, array, -⟩ := listed
  cases object.unique array

end SummaryParts

open SummaryParts (Expected Listed)

theorem summarize_keeps {r : Router} {text lang : String} {now : Local} {w v : World}
    {reply : ChatResponse}
    (answered : r.workOn UsageKey.summary .summary text lang now w = (.ok reply, v)) :
    ∃ p : SummaryParts,
      r.summarize text lang now w =
        (.ok ⟨p.summary, p.title, p.tags, reply.model, reply.usage⟩, v) ∧
      (∀ q, Expected (Text.unfenced reply.content.toList) q → p = q) ∧
      (∀ q, Listed (Text.unfenced reply.content.toList) q →
        p = q ∧ q ≠ .verbatim reply.content) ∧
      ((∀ q, ¬ Expected (Text.unfenced reply.content.toList) q) →
        (∀ q, ¬ Listed (Text.unfenced reply.content.toList) q) → p = .verbatim reply.content) := by
  refine ⟨.ofReply reply.content, ?_, fun q expected => SummaryParts.ofReply_eq (.inl expected),
    fun q listed => ⟨SummaryParts.ofReply_eq (.inr listed), listed.lost⟩,
    SummaryParts.ofReply_verbatim⟩
  unfold Router.summarize
  rw [Run.bind_of_ok answered]
  rfl

/-- A driver that replies with a text. -/
def summarizer (reply : String) : ScriptedDriver :=
  ⟨"d", "en", [.chat], [.ok reply], [], [], [], 0, 0, 0, none, none, ⟨[], [], []⟩⟩

def summaryRouter : Router := ⟨⟨[⟨"d", "en", [.chat], 0⟩]⟩, [], ⟨"", []⟩, "en"⟩

theorem summaryRouter_workOn (now : Local) (reply : String) :
    ∃ (response : ChatResponse) (v : World), response.content = reply ∧
      summaryRouter.workOn UsageKey.summary .summary "text" "en" now
        (.ofDrivers [summarizer reply]) = (.ok response, v) := by
  have served : summaryRouter.chat UsageKey.summary = .ok ⟨"d", "en", [.chat], 0⟩ := by
    decide +kernel
  unfold Router.workOn
  rw [served, Run.bind_of_ok (Run.lift_eq_ok.mpr ⟨rfl, rfl⟩)]
  exact ⟨_, _, rfl, rfl⟩

/-- A reply in a code fence without title and tags. -/
def shortReply : String := "\x60\x60\x60json\n\x7b\"summary\":\"short\"\x7d\n\x60\x60\x60"

theorem shortReply_expected :
    Expected (Text.unfenced shortReply.toList) ⟨"short", "", []⟩ := by
  let value := '"' :: ("short".toList ++ ['"', '}'])
  let member := '"' :: ("summary".toList ++ '"' :: ':' :: value)
  have unfenced : Text.unfenced shortReply.toList = '{' :: member := by decide +kernel
  have name : Json.Quoted (some "summary") "summary".toList := Json.quoted_of_plain (by decide)
  have text : Json.Quoted (some "short") "short".toList := Json.quoted_of_plain (by decide)
  have none : Json.Spaces [] := List.forall_mem_nil _
  have first : Json.Begins (.member (some "summary", .ofString "short")) member ['}'] :=
    @Json.Begins.member _ _ [] _ [] _ _ none name none (.alone (.string text))
  refine ⟨[("summary", .ofString "short")], ?_, by decide, .given (by simp), .absent (by simp),
    .absent (by simp)⟩
  rw [unfenced]
  exact .alone (.object (.lastMember first))

theorem summarize_keeps_short :
    ∃ (now : Local) (v : World) (model : String) (usage : TokenUsage),
      Expected (Text.unfenced shortReply.toList) ⟨"short", "", []⟩ ∧
      summaryRouter.summarize "text" "en" now (.ofDrivers [summarizer shortReply]) =
        (.ok ⟨"short", "", [], model, usage⟩, v) := by
  let now : Local := ⟨⟨2024, 5, 1⟩, 0, 0⟩
  obtain ⟨response, v, content, answered⟩ := summaryRouter_workOn now shortReply
  obtain ⟨p, done, expected, -⟩ := summarize_keeps answered
  rw [content] at expected
  obtain rfl := expected _ shortReply_expected
  exact ⟨now, v, _, _, shortReply_expected, done⟩

/-- An empty array is no object, but the summary that is read out of it is empty. -/
theorem summarize_loses_listed :
    ∃ (now : Local) (v : World) (model : String) (usage : TokenUsage),
      (∀ q, ¬ Expected (Text.unfenced "[]".toList) q) ∧
      SummaryParts.verbatim "[]" = ⟨"[]", "", []⟩ ∧
      summaryRouter.summarize "text" "en" now (.ofDrivers [summarizer "[]"]) =
        (.ok ⟨"", "", [], model, usage⟩, v) := by
  let now : Local := ⟨⟨2024, 5, 1⟩, 0, 0⟩
  have listed : Listed (Text.unfenced "[]".toList) ⟨"", "", []⟩ := by
    have unfenced : Text.unfenced "[]".toList = ['[', ']'] := by decide +kernel
    rw [unfenced]
    have empty : Denotes ['[', ']'] (.array []) :=
      .alone (@Json.Begins.emptyArray [] [] (List.forall_mem_nil _))
    exact ⟨[], empty, Nat.zero_le _, .absent nofun, .absent nofun, .absent nofun⟩
  obtain ⟨response, v, content, answered⟩ := summaryRouter_workOn now "[]"
  refine ⟨now, v, response.model, response.usage, SummaryParts.not_expected_of_listed listed,
    by decide +kernel, ?_⟩
  unfold Router.summarize
  rw [Run.bind_of_ok answered, content, SummaryParts.ofReply_eq (.inr listed)]
  rfl

end NoteAssistant
