import NoteAssistant.Json.Records
import NoteAssistant.Proofs.Json.Restating

/-! # Records are read back

The records that are written as JSON are read back as they were, from what has been written and from
every text of a record that says the same (`records_faithful`).
-/

namespace NoteAssistant

open Json (Denotes Faithful fixes_verbatim fixes_within Reading Recovers Restates Shows Tree
  Verbatim Within)

namespace Json

theorem word_ofWord (level : Nat) (n : UInt32) :
    Reading.word level (.ofWord n) = some n := by
  have small : n.toNat ≤ UInt32.size - 1 := Nat.le_pred_of_lt n.toNat_lt
  have value := value?_ofNat (Nat.le_trans small (by decide : UInt32.size - 1 ≤ Numeral.limit))
  simp only [Reading.word, Reading.natural, Tree.ofWord, Tree.ofNat, value, if_pos small,
    Option.map_some]
  exact congrArg some (UInt32.ofNat_toNat)

theorem list_ofStrings (level : Nat) (texts : List String) :
    Reading.list Reading.string (level + 1) (.ofStrings texts) = some texts :=
  mapM_string_eq_some_iff.mpr rfl

namespace Shows

open Reading (Fields)

variable {names : List String} {name : String} {alike : String → Tree → Tree → Prop}
  {members : List (String × Tree)} {f : Fields}
variable (shows : Shows names alike members f) (known : name ∈ names)
  (fixes : Fixes alike name)
include shows known fixes

theorem text {text : String} (written : members.lookup name = some (.ofString text)) :
    f.required name Reading.string = some text :=
  shows.required_fixed known fixes written nofun rfl

theorem optionalText {text : Option String}
    (written : members.lookup name = some (.ofOption .ofString text)) :
    f.optional name Reading.string = some text :=
  shows.optional known fixes written fun _ => ⟨nofun, rfl⟩

theorem texts {texts : List String} (deep : f.level = 126)
    (written : members.lookup name = some (.ofStrings texts)) :
    f.required name (Reading.list Reading.string) = some texts := by
  refine shows.required_fixed known fixes written nofun ?_
  rw [deep]
  exact list_ofStrings 125 texts

theorem word {n : UInt32} (written : members.lookup name = some (.ofWord n)) :
    f.required name Reading.word = some n :=
  shows.required_fixed known fixes written nofun (word_ofWord f.level n)

end Shows

end Json

theorem ChatRole.reading_toTree (r : ChatRole) (level : Nat) :
    reading level r.toTree = some r := by
  cases r <;> rfl

theorem ToolStatus.reading_toTree (s : ToolStatus) (level : Nat) :
    reading level s.toTree = some s := by
  cases s <;> rfl

namespace TokenUsage

/-- A record that says the same as that of a usage. -/
def Alike : Tree → Tree → Prop := Restates ["input_tokens", "output_tokens"] Verbatim

theorem alike_self (u : TokenUsage) : Alike u.toTree u.toTree :=
  .refl fun _ _ => rfl

theorem reading_of_alike {u : TokenUsage} {t : Tree} (alike : Alike u.toTree t) (level : Nat) :
    reading (level + 1) t = some u := by
  obtain ⟨f, fields, -, shows⟩ := alike.fields level (.refl _) (by decide)
  have input : f.required "input_tokens" Reading.word = some u.input :=
    shows.word (by decide) fixes_verbatim rfl
  have output : f.required "output_tokens" Reading.word = some u.output :=
    shows.word (by decide) fixes_verbatim rfl
  simp [reading, fields, input, output]

theorem proper (u : TokenUsage) : u.toTree.Proper := .record (by simp)

theorem recovers : Recovers toTree reading Alike where
  proper := proper
  self := alike_self
  reads _ _ alike := reading_of_alike alike _

end TokenUsage

/-- A usage within a record is read from every record that says the same. -/
theorem Json.Shows.usage {names : List String} {members : List (String × Tree)}
    {f : Reading.Fields} {u : TokenUsage}
    (shows : Shows names (Within "usage" TokenUsage.Alike) members f) (known : "usage" ∈ names)
    (deep : f.level = 126) (written : members.lookup "usage" = some u.toTree) :
    f.required "usage" TokenUsage.reading = some u := by
  refine shows.required known written nofun fun t within => ?_
  rw [deep]
  cases within with
  | verbatim => exact TokenUsage.reading_of_alike u.alike_self 125
  | restated alike => exact TokenUsage.reading_of_alike alike 125

namespace UsageRecord

def Alike : Tree → Tree → Prop :=
  Restates ["subject", "model", "usage"] (Within "usage" TokenUsage.Alike)

theorem recovers : Recovers toTree reading Alike where
  proper r := .record (by simp [r.usage.proper])
  self r := .refl fun _ _ => .verbatim
  reads r t alike := by
    obtain ⟨f, fields, deep, shows⟩ := alike.fields 126 (.refl _) (by decide)
    have subject : f.required "subject" Reading.string = some r.subject :=
      shows.text (by decide) (fixes_within (by decide)) rfl
    have model : f.required "model" Reading.string = some r.model :=
      shows.text (by decide) (fixes_within (by decide)) rfl
    have usage : f.required "usage" TokenUsage.reading = some r.usage :=
      shows.usage (by decide) deep rfl
    simp [reading, Json.maxDepth, fields, subject, model, usage]

end UsageRecord

namespace ChatMessage

def Alike : Tree → Tree → Prop := Restates ["role", "content", "images"] Verbatim

theorem recovers : Recovers toTree reading Alike where
  proper m := by
    refine .record ?_
    split <;> simp [ChatRole.toTree]
  self m := .refl fun _ _ => rfl
  reads m t alike := by
    -- An empty list of images is not written, and then the name stands nowhere.
    have order : (([("role", m.role.toTree), ("content", .ofString m.content)]
        ++ if m.images = [] then [] else [("images", Tree.ofStrings m.images)]).map
          Prod.fst).Sublist ["role", "content", "images"] := by
      split <;> simp
    obtain ⟨f, fields, deep, shows⟩ := alike.fields 126 order (by decide)
    have role : f.required "role" ChatRole.reading = some m.role :=
      shows.required_fixed (by decide) fixes_verbatim rfl nofun (m.role.reading_toTree f.level)
    have content : f.required "content" Reading.string = some m.content :=
      shows.text (by decide) fixes_verbatim rfl
    have images : f.withDefault "images" (Reading.list Reading.string) [] = some m.images := by
      by_cases none : m.images = []
      · rw [none]
        refine shows.default_of_missing (by decide) ?_
        rw [if_pos none]
        rfl
      · refine shows.withDefault (t := .ofStrings m.images) (by decide) ?_ nofun fun u same => ?_
        · rw [if_neg none]
          rfl
        · rw [fixes_verbatim _ _ same, deep]
          exact Json.list_ofStrings 125 m.images
    simp [reading, Json.maxDepth, fields, role, content, images]

end ChatMessage

namespace ChatResponse

def Alike : Tree → Tree → Prop :=
  Restates ["id", "content", "reasoning", "model", "finish_reason", "usage"]
    (Within "usage" TokenUsage.Alike)

theorem recovers : Recovers toTree reading Alike where
  proper r := .record (by simp [r.usage.proper])
  self r := .refl fun _ _ => .verbatim
  reads r t alike := by
    obtain ⟨f, fields, deep, shows⟩ := alike.fields 126 (.refl _) (by decide)
    have id : f.required "id" Reading.string = some r.id :=
      shows.text (by decide) (fixes_within (by decide)) rfl
    have content : f.required "content" Reading.string = some r.content :=
      shows.text (by decide) (fixes_within (by decide)) rfl
    have reasoning : f.optional "reasoning" Reading.string = some r.reasoning :=
      shows.optionalText (by decide) (fixes_within (by decide)) rfl
    have model : f.required "model" Reading.string = some r.model :=
      shows.text (by decide) (fixes_within (by decide)) rfl
    have finish : f.optional "finish_reason" Reading.string = some r.finishReason :=
      shows.optionalText (by decide) (fixes_within (by decide)) rfl
    have usage : f.required "usage" TokenUsage.reading = some r.usage :=
      shows.usage (by decide) deep rfl
    simp [reading, Json.maxDepth, fields, id, content, reasoning, model, finish, usage]

end ChatResponse

namespace RerankDoc

def Alike : Tree → Tree → Prop := Restates ["id", "content"] Verbatim

theorem recovers : Recovers toTree reading Alike where
  proper d := .record (by simp)
  self d := .refl fun _ _ => rfl
  reads d t alike := by
    obtain ⟨f, fields, -, shows⟩ := alike.fields 126 (.refl _) (by decide)
    have id : f.required "id" Reading.string = some d.id :=
      shows.text (by decide) fixes_verbatim rfl
    have content : f.required "content" Reading.string = some d.content :=
      shows.text (by decide) fixes_verbatim rfl
    simp [reading, Json.maxDepth, fields, id, content]

end RerankDoc

namespace ReaderOutput

def Alike : Tree → Tree → Prop :=
  Restates ["title", "markdown", "usage"] (Within "usage" TokenUsage.Alike)

theorem recovers : Recovers toTree reading Alike where
  proper r := .record (by simp [r.usage.proper])
  self r := .refl fun _ _ => .verbatim
  reads r t alike := by
    obtain ⟨f, fields, deep, shows⟩ := alike.fields 126 (.refl _) (by decide)
    have title : f.required "title" Reading.string = some r.title :=
      shows.text (by decide) (fixes_within (by decide)) rfl
    have markdown : f.required "markdown" Reading.string = some r.markdown :=
      shows.text (by decide) (fixes_within (by decide)) rfl
    have usage : f.required "usage" TokenUsage.reading = some r.usage :=
      shows.usage (by decide) deep rfl
    simp [reading, Json.maxDepth, fields, title, markdown, usage]

end ReaderOutput

namespace VectorFilter

def Alike : Tree → Tree → Prop := Restates ["space_id", "user_id", "resources"] Verbatim

theorem recovers : Recovers toTree reading Alike where
  proper v := .record (by simp)
  self v := .refl fun _ _ => rfl
  reads v t alike := by
    obtain ⟨f, fields, deep, shows⟩ := alike.fields 126 (.refl _) (by decide)
    have space : f.required "space_id" Reading.string = some v.space :=
      shows.text (by decide) fixes_verbatim rfl
    have user : f.optional "user_id" Reading.string = some v.user :=
      shows.optionalText (by decide) fixes_verbatim rfl
    have resources : f.required "resources" (Reading.list Reading.string) = some v.resources :=
      shows.texts (by decide) fixes_verbatim deep rfl
    simp [reading, Json.maxDepth, fields, space, user, resources]

end VectorFilter

namespace ResourceFilter

def Alike : Tree → Tree → Prop := Restates ["resources"] Verbatim

theorem recovers : Recovers toTree reading Alike where
  proper r := .record (by simp)
  self r := .refl fun _ _ => rfl
  reads r t alike := by
    obtain ⟨f, fields, deep, shows⟩ := alike.fields 126 (.refl _) (by decide)
    have resources : f.required "resources" (Reading.list Reading.string) = some r.resources :=
      shows.texts (by decide) fixes_verbatim deep rfl
    simp [reading, Json.maxDepth, fields, resources]

end ResourceFilter

namespace ToolTip

def Alike : Tree → Tree → Prop := Restates ["message_id", "tool", "status", "detail"] Verbatim

theorem recovers : Recovers toTree reading Alike where
  proper t := .record (by simp [ToolStatus.toTree])
  self t := .refl fun _ _ => rfl
  reads tip t alike := by
    obtain ⟨f, fields, -, shows⟩ := alike.fields 126 (.refl _) (by decide)
    have message : f.required "message_id" Reading.string = some tip.message :=
      shows.text (by decide) fixes_verbatim rfl
    have tool : f.required "tool" Reading.string = some tip.tool :=
      shows.text (by decide) fixes_verbatim rfl
    have status : f.required "status" ToolStatus.reading = some tip.status :=
      shows.required_fixed (by decide) fixes_verbatim rfl nofun
        (tip.status.reading_toTree f.level)
    have detail : f.required "detail" Reading.string = some tip.detail :=
      shows.text (by decide) fixes_verbatim rfl
    simp [reading, Json.maxDepth, fields, message, tool, status, detail]

end ToolTip

namespace SpacePrompt

def Alike : Tree → Tree → Prop := Restates ["base_prompt", "chat_prompt"] Verbatim

theorem recovers : Recovers toTree reading Alike where
  proper p := .record (by simp)
  self p := .refl fun _ _ => rfl
  reads p t alike := by
    obtain ⟨f, fields, -, shows⟩ := alike.fields 126 (.refl _) (by decide)
    have base : f.withDefault "base_prompt" (Reading.nullable Reading.string) none = some p.base :=
      shows.nullableOrNone (by decide) fixes_verbatim rfl fun _ => ⟨nofun, rfl⟩
    have chat : f.withDefault "chat_prompt" (Reading.nullable Reading.string) none = some p.chat :=
      shows.nullableOrNone (by decide) fixes_verbatim rfl fun _ => ⟨nofun, rfl⟩
    simp [reading, Json.maxDepth, fields, base, chat]

end SpacePrompt

/-- A record is read back as it was, and also if its members stand in another order, others that are
    not known have been added, and those that are `null` have been left out. -/
theorem records_faithful :
    Faithful ChatMessage.toTree ChatMessage.reading ChatMessage.Alike ∧
      Faithful ChatResponse.toTree ChatResponse.reading ChatResponse.Alike ∧
      Faithful UsageRecord.toTree UsageRecord.reading UsageRecord.Alike ∧
      Faithful TokenUsage.toTree TokenUsage.reading TokenUsage.Alike ∧
      Faithful RerankDoc.toTree RerankDoc.reading RerankDoc.Alike ∧
      Faithful ReaderOutput.toTree ReaderOutput.reading ReaderOutput.Alike ∧
      Faithful VectorFilter.toTree VectorFilter.reading VectorFilter.Alike ∧
      Faithful ResourceFilter.toTree ResourceFilter.reading ResourceFilter.Alike ∧
      Faithful ToolTip.toTree ToolTip.reading ToolTip.Alike ∧
      Faithful SpacePrompt.toTree SpacePrompt.reading SpacePrompt.Alike :=
  ⟨ChatMessage.recovers.faithful, ChatResponse.recovers.faithful, UsageRecord.recovers.faithful,
    TokenUsage.recovers.faithful, RerankDoc.recovers.faithful, ReaderOutput.recovers.faithful,
    VectorFilter.recovers.faithful, ResourceFilter.recovers.faithful, ToolTip.recovers.faithful,
    SpacePrompt.recovers.faithful⟩

/-- The members of a response and of its usage from the last to the first, with one more in both,
    and without the reason for which the response ends. -/
theorem records_faithful_reversed :
    let r : ChatResponse := ⟨"r1", "\"\\\n\x00é😀", none, "m", none, ⟨4294967295, 7⟩⟩
    let usage : Tree := .record [("cached", .array [.null]), ("output_tokens", .ofNat 7),
      ("input_tokens", .ofNat 4294967295)]
    let t : Tree := .record [("note", .record []), ("usage", usage), ("model", .ofString "m"),
      ("reasoning", .null), ("content", .ofString r.content), ("id", .ofString "r1")]
    ChatResponse.Alike r.toTree t ∧ Denotes t.text.toList t ∧
      ChatResponse.reading.parse? t.text = some r := by
  intro r usage t
  have cached : ∀ m ∈ [("cached", Tree.array [.null])],
      m.1 ∉ ["input_tokens", "output_tokens"] := by decide
  have inner : TokenUsage.Alike r.usage.toTree usage :=
    .record (.kept rfl (.kept rfl .nil)) cached (List.reverse_perm [_, _, _])
  have note : ∀ m ∈ [("note", Tree.record [])],
      m.1 ∉ ["id", "content", "reasoning", "model", "finish_reason", "usage"] := by decide
  have alike : ChatResponse.Alike r.toTree t :=
    .record (.kept .verbatim (.kept .verbatim (.kept .verbatim (.kept .verbatim (.leftOut
      (.kept (.restated inner) .nil)))))) note (List.reverse_perm [_, _, _, _, _, _])
  have usageProper : usage.Proper := .record (by simp [Tree.Proper.array])
  have proper : t.Proper := .record (by simp [usageProper, Tree.Proper.record])
  obtain ⟨-, faithful, -⟩ := records_faithful
  exact ⟨alike, proper.denotes, (faithful r).2 t t.text alike proper.denotes⟩

end NoteAssistant
