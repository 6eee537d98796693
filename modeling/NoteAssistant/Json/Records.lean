import NoteAssistant.Capability
import NoteAssistant.Chat
import NoteAssistant.Event
import NoteAssistant.Json.Reading
import NoteAssistant.Knowledge
import NoteAssistant.Prompt.Assembly

/-! # Records as JSON

The JSON form of the records that the assistant stores and exchanges. Fields are
written in the order of their declaration, absent values as `null`; an empty
list of images is left out.
-/

namespace NoteAssistant

open Json (Tree Reading)

namespace Capability

def toTree (c : Capability) : Tree := .ofString c.name

def reading : Reading Capability := Reading.named ofName?

end Capability

namespace ChatRole

def toTree (r : ChatRole) : Tree := .ofString r.name

def reading : Reading ChatRole := Reading.named ofName?

end ChatRole

namespace ContentType

def toTree (t : ContentType) : Tree := .ofString t.name

def reading : Reading ContentType := Reading.named ofName?

end ContentType

namespace ToolStatus

def toTree (s : ToolStatus) : Tree := .ofString s.name

def reading : Reading ToolStatus := Reading.named ofName?

end ToolStatus

namespace PromptKind

def toTree (k : PromptKind) : Tree := .ofString k.name

def reading : Reading PromptKind := Reading.named ofName?

end PromptKind

namespace TokenUsage

def toTree (u : TokenUsage) : Tree :=
  .record [("input_tokens", .ofWord u.input), ("output_tokens", .ofWord u.output)]

def reading : Reading TokenUsage := fun level t => do
  let f ← Reading.fields ["input_tokens", "output_tokens"] level t
  some ⟨← f.required "input_tokens" Reading.word, ← f.required "output_tokens" Reading.word⟩

end TokenUsage

namespace UsageRecord

def toTree (r : UsageRecord) : Tree :=
  .record [("subject", .ofString r.subject), ("model", .ofString r.model),
    ("usage", r.usage.toTree)]

def reading : Reading UsageRecord := fun level t => do
  let f ← Reading.fields ["subject", "model", "usage"] level t
  some ⟨← f.required "subject" Reading.string, ← f.required "model" Reading.string,
    ← f.required "usage" TokenUsage.reading⟩

end UsageRecord

namespace ChatMessage

def toTree (m : ChatMessage) : Tree :=
  .record ([("role", m.role.toTree), ("content", .ofString m.content)]
    ++ if m.images = [] then [] else [("images", .ofStrings m.images)])

def reading : Reading ChatMessage := fun level t => do
  let f ← Reading.fields ["role", "content", "images"] level t
  some ⟨← f.required "role" ChatRole.reading, ← f.required "content" Reading.string,
    ← f.withDefault "images" (Reading.list Reading.string) []⟩

end ChatMessage

namespace ChatRequest

def toTree (r : ChatRequest) : Tree :=
  .record [("model", .ofOption .ofString r.model), ("system", .ofOption .ofString r.system),
    ("messages", .array (r.messages.map ChatMessage.toTree)),
    ("max_tokens", .ofOption .ofWord r.maxTokens),
    ("temperature", .ofOption .ofSingle r.temperature)]

def reading : Reading ChatRequest := fun level t => do
  let f ← Reading.fields ["model", "system", "messages", "max_tokens", "temperature"] level t
  some ⟨← f.optional "model" Reading.string, ← f.optional "system" Reading.string,
    ← f.required "messages" (Reading.list ChatMessage.reading),
    ← f.optional "max_tokens" Reading.word, ← f.optional "temperature" Reading.single⟩

end ChatRequest

namespace ChatResponse

def toTree (r : ChatResponse) : Tree :=
  .record [("id", .ofString r.id), ("content", .ofString r.content),
    ("reasoning", .ofOption .ofString r.reasoning), ("model", .ofString r.model),
    ("finish_reason", .ofOption .ofString r.finishReason), ("usage", r.usage.toTree)]

def reading : Reading ChatResponse := fun level t => do
  let f ← Reading.fields
    ["id", "content", "reasoning", "model", "finish_reason", "usage"] level t
  some ⟨← f.required "id" Reading.string, ← f.required "content" Reading.string,
    ← f.optional "reasoning" Reading.string, ← f.required "model" Reading.string,
    ← f.optional "finish_reason" Reading.string, ← f.required "usage" TokenUsage.reading⟩

end ChatResponse

namespace HistoryMessage

def toTree (m : HistoryMessage) : Tree :=
  .record [("id", .ofString m.id), ("session_id", .ofString m.session),
    ("role", m.role.toTree), ("content", .ofString m.content),
    ("created_at", .ofString m.createdAt.stamp)]

def reading : Reading HistoryMessage := fun level t => do
  let f ← Reading.fields ["id", "session_id", "role", "content", "created_at"] level t
  some ⟨← f.required "id" Reading.string, ← f.required "session_id" Reading.string,
    ← f.required "role" ChatRole.reading, ← f.required "content" Reading.string,
    ← (← f.required "created_at" Reading.string) |> Moment.parse?⟩

end HistoryMessage

namespace VectorMatch

def toTree (m : VectorMatch) : Tree :=
  .record [("knowledge_id", .ofString m.knowledge), ("score", .ofSingle m.score),
    ("space_id", .ofString m.space), ("user_id", .ofString m.user),
    ("original_length", .ofNat m.fullLength)]

def reading : Reading VectorMatch := fun level t => do
  let f ← Reading.fields
    ["knowledge_id", "score", "space_id", "user_id", "original_length"] level t
  some ⟨← f.required "knowledge_id" Reading.string, ← f.required "score" Reading.single,
    ← f.required "space_id" Reading.string, ← f.required "user_id" Reading.string,
    ← f.required "original_length" Reading.size⟩

end VectorMatch

namespace VectorFilter

def toTree (v : VectorFilter) : Tree :=
  .record [("space_id", .ofString v.space), ("user_id", .ofOption .ofString v.user),
    ("resources", .ofStrings v.resources)]

def reading : Reading VectorFilter := fun level t => do
  let f ← Reading.fields ["space_id", "user_id", "resources"] level t
  some ⟨← f.required "space_id" Reading.string, ← f.optional "user_id" Reading.string,
    ← f.required "resources" (Reading.list Reading.string)⟩

end VectorFilter

namespace ResourceFilter

def toTree (r : ResourceFilter) : Tree := .record [("resources", .ofStrings r.resources)]

def reading : Reading ResourceFilter := fun level t => do
  let f ← Reading.fields ["resources"] level t
  some ⟨← f.required "resources" (Reading.list Reading.string)⟩

end ResourceFilter

namespace RerankDoc

def toTree (d : RerankDoc) : Tree :=
  .record [("id", .ofString d.id), ("content", .ofString d.content)]

def reading : Reading RerankDoc := fun level t => do
  let f ← Reading.fields ["id", "content"] level t
  some ⟨← f.required "id" Reading.string, ← f.required "content" Reading.string⟩

end RerankDoc

namespace RerankedDoc

def toTree (d : RerankedDoc) : Tree :=
  .record [("id", .ofString d.id), ("score", .ofSingle d.score)]

def reading : Reading RerankedDoc := fun level t => do
  let f ← Reading.fields ["id", "score"] level t
  some ⟨← f.required "id" Reading.string, ← f.required "score" Reading.single⟩

end RerankedDoc

namespace ReaderOutput

def toTree (r : ReaderOutput) : Tree :=
  .record [("title", .ofString r.title), ("markdown", .ofString r.markdown),
    ("usage", r.usage.toTree)]

def reading : Reading ReaderOutput := fun level t => do
  let f ← Reading.fields ["title", "markdown", "usage"] level t
  some ⟨← f.required "title" Reading.string, ← f.required "markdown" Reading.string,
    ← f.required "usage" TokenUsage.reading⟩

end ReaderOutput

namespace ToolTip

def toTree (t : ToolTip) : Tree :=
  .record [("message_id", .ofString t.message), ("tool", .ofString t.tool),
    ("status", t.status.toTree), ("detail", .ofString t.detail)]

def reading : Reading ToolTip := fun level t => do
  let f ← Reading.fields ["message_id", "tool", "status", "detail"] level t
  some ⟨← f.required "message_id" Reading.string, ← f.required "tool" Reading.string,
    ← f.required "status" ToolStatus.reading, ← f.required "detail" Reading.string⟩

end ToolTip

namespace SpacePrompt

def toTree (p : SpacePrompt) : Tree :=
  .record [("base_prompt", .ofOption .ofString p.base),
    ("chat_prompt", .ofOption .ofString p.chat)]

def reading : Reading SpacePrompt := fun level t => do
  let f ← Reading.fields ["base_prompt", "chat_prompt"] level t
  some ⟨← f.withDefault "base_prompt" (Reading.nullable Reading.string) none,
    ← f.withDefault "chat_prompt" (Reading.nullable Reading.string) none⟩

end SpacePrompt

end NoteAssistant
