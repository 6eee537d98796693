import NoteAssistant.Json.Tree
import NoteAssistant.Chat
import NoteAssistant.Knowledge

/-! # Requests to a completion service

The JSON bodies of the requests. Settings that are absent are left out.
-/

namespace NoteAssistant.Wire.Request

open Json (Tree)

/-- The content of a message: a text, or parts if it carries images. -/
def content (m : ChatMessage) : Tree :=
  match m.images with
  | [] => .ofString m.content
  | images =>
    .array (.record [("type", .ofString "text"), ("text", .ofString m.content)] ::
      images.map fun url => .record [("type", .ofString "image_url"),
        ("image_url", .record [("url", .ofString url)])])

def message (m : ChatMessage) : Tree :=
  .record [("role", .ofString m.role.name), ("content", content m)]

/-- The messages of a request; an instruction that is not empty comes first. -/
def messages (r : ChatRequest) : List ChatMessage :=
  match r.system.filter (· ≠ "") with
  | some system => ⟨.system, system, []⟩ :: r.messages
  | none => r.messages

/-- The request for a reply, which may be streamed. -/
def completion (model : String) (r : ChatRequest) (streamed : Bool) : Tree :=
  .record <|
    [("model", .ofString model), ("messages", .array ((messages r).map message))]
      ++ (r.maxTokens.map fun n => ("max_tokens", Tree.ofWord n)).toList
      ++ (r.temperature.map fun x => ("temperature", Tree.ofSingle x)).toList
      ++ [("stream", .bool streamed)]
      ++ if streamed then [("stream_options", .record [("include_usage", .bool true)])] else []

def embeddings (model : String) (texts : List String) : Tree :=
  .record [("model", .ofString model), ("input", .ofStrings texts)]

def ranking (model query : String) (docs : List RerankDoc) : Tree :=
  .record [("model", .ofString model), ("query", .ofString query),
    ("documents", .ofStrings (docs.map (·.content))), ("top_n", .ofNat docs.length)]

end NoteAssistant.Wire.Request
