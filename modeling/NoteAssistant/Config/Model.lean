import NoteAssistant.Capability
import NoteAssistant.Duration
import NoteAssistant.Number.Single

/-! # The configuration

All settings of the assistant with the values they have when nothing is
configured.
-/

namespace NoteAssistant

structure SiteConfig where
  title : String := "mnemo"
  logLevel : String := "info"
  defaultLang : String := "en"
  deriving DecidableEq, Repr

/-- The protocol that a driver speaks. -/
inductive DriverKind where
  | openai
  deriving DecidableEq, Repr

namespace DriverKind

def name : DriverKind → String
  | openai => "openai"

def ofName? (s : String) : Option DriverKind := [openai].find? (·.name = s)

end DriverKind

structure DriverConfig where
  name : String := ""
  kind : DriverKind := .openai
  endpoint : String := ""
  apiKey : Option String := none
  lang : String := "en"
  chatModel : Option String := none
  embeddingModel : Option String := none
  rerankModel : Option String := none
  visionModel : Option String := none
  timeoutSecs : Nat := 300
  deriving DecidableEq, Repr

/-- The capabilities of a driver: one for each configured model; a chat model
    also enhances queries. -/
def DriverConfig.capabilities (d : DriverConfig) : List Capability :=
  (if d.chatModel.isSome then [.chat, .enhance] else [])
    ++ (if d.embeddingModel.isSome then [.embedding] else [])
    ++ (if d.rerankModel.isSome then [.rerank] else [])
    ++ (if d.visionModel.isSome then [.vision] else [])

structure RagConfig where
  baseThreshold : Single := ⟨0x3F000000⟩
  adaptiveMinMatches : Nat := 10
  adaptiveMargin : Single := ⟨0x3DCCCCCD⟩
  highScoreKeep : Nat := 3
  shortContentChars : Nat := 200
  lowScoreAcceptLimit : Nat := 15
  topK : Nat := 100
  enhanceMinHistory : Nat := 2
  historyWindow : Nat := 6
  assistantTruncateChars : Nat := 40
  enhanceTimeoutMs : Nat := 8000
  embedTimeoutMs : Nat := 10000
  rerankTimeoutMs : Nat := 8000
  deriving DecidableEq, Repr

namespace RagConfig

def enhanceTimeout (r : RagConfig) : Duration := .ofMillis r.enhanceTimeoutMs
def embedTimeout (r : RagConfig) : Duration := .ofMillis r.embedTimeoutMs
def rerankTimeout (r : RagConfig) : Duration := .ofMillis r.rerankTimeoutMs

end RagConfig

structure StreamConfig where
  flushIntervalMs : Nat := 500
  maskLookahead : Nat := 10
  maskMaxSpan : Nat := 128
  channelCapacity : Nat := 64
  streamTimeoutSecs : Nat := 300
  deriving DecidableEq, Repr

namespace StreamConfig

def flushInterval (s : StreamConfig) : Duration := .ofMillis s.flushIntervalMs
def streamTimeout (s : StreamConfig) : Duration := .ofSeconds s.streamTimeoutSecs

end StreamConfig

/-- What a language's configuration puts in place of the built-in texts. -/
structure PromptOverride where
  header : Option String := none
  append : Option String := none
  deriving DecidableEq, Repr

structure VaultConfig where
  key : Option String := none
  /-- The environment variable that holds the key if none is configured. -/
  keyEnv : String := "MNEMO_CONTENT_KEY"
  deriving DecidableEq, Repr

structure Config where
  site : SiteConfig := {}
  drivers : List DriverConfig := []
  /-- Drivers by usage key, in no particular order. -/
  usage : List (String × String) := []
  rag : RagConfig := {}
  stream : StreamConfig := {}
  /-- Prompt overrides by language tag, in no particular order. -/
  overrides : List (String × PromptOverride) := []
  vault : VaultConfig := {}
  deriving DecidableEq, Repr

end NoteAssistant
