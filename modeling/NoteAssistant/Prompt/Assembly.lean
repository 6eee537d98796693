import NoteAssistant.Config.Model
import NoteAssistant.Prompt.Passages
import NoteAssistant.Prompt.Substitution
import NoteAssistant.Prompt.Template
import NoteAssistant.Prompt.TimeTable

/-! # Assembling prompts

A prompt is stacked from layers: header, body as the space wants it, and the
output rules for conversational kinds. The slots of the whole text are then
filled in one pass.
-/

namespace NoteAssistant

/-- How a space changes the body of a prompt. -/
structure SpacePrompt where
  /-- Put in front of the body. -/
  base : Option String
  /-- Put in place of the leading paragraph, for kinds that accept it. -/
  chat : Option String
  deriving DecidableEq, Repr

/-- What is known about the request a prompt is for. -/
structure PromptVars where
  now : Local
  query : String
  history : String
  deriving DecidableEq, Repr

/-- The texts and names that a site's prompts are built from. -/
structure PromptAssembler where
  siteTitle : String
  /-- Overrides by language tag in lower case. -/
  overrides : List (String × PromptOverride)
  deriving DecidableEq, Repr

namespace PromptAssembler

/-- Of two overrides whose tags differ only in case and surrounding blanks, the
    later one counts. -/
def ofConfig (siteTitle : String) (overrides : List (String × PromptOverride)) :
    PromptAssembler :=
  ⟨siteTitle, (overrides.map fun (tag, o) => (nameKey tag, o)).reverse⟩

/-- The override of a tag, or else of its language. -/
def overrideFor (a : PromptAssembler) (tag : String) : Option PromptOverride :=
  (a.overrides.lookup (nameKey tag)).or (a.overrides.lookup (Lang.ofTag tag).tag)

/-- A text that is there and not blank. -/
def present (text : Option String) : Option String := text.filter fun s => !isBlankText s

/-- A body as a space wants it. -/
def customBody (kind : PromptKind) (body : String) : Option SpacePrompt → String
  | none => body
  | some space =>
    let base := match present space.base with
      | some text => trimmedEnd text ++ "\n\n"
      | none => ""
    base ++
      match present space.chat with
      | some chat =>
        if kind.acceptsChatPrompt then
          trimmedEnd chat ++
            match Text.cut? ['\n', '\n'] body.toList with
            | some (_, rest) => "\n\n" ++ String.ofList rest
            | none => ""
        else body
      | none => body

/-- The layers of a prompt, before its slots are filled. -/
def template (a : PromptAssembler) (kind : PromptKind) (tag : String)
    (space : Option SpacePrompt) : String :=
  let lang := Lang.ofTag tag
  let custom := a.overrideFor tag
  let header := (custom.bind (·.header)).getD (Template.header lang)
  let append := (custom.bind (·.append)).getD (Template.append lang)
  trimmedEnd header ++ "\n\n" ++ trimmedEnd (customBody kind (Template.body kind lang) space) ++
    if kind.isConversational then "\n\n" ++ trimmedEnd append else ""

/-- The value of every slot. The passage block and the time table are rendered
    only for a template in which their token stands. -/
def values (a : PromptAssembler) (template : String) (lang : Lang) (vars : PromptVars)
    (evidence : List EvidenceDoc) : List (String × String) :=
  let whenUsed (slot : Slot) (text : Unit → String) : String :=
    if Text.contains slot.token.toList template.toList then text () else ""
  [(Slot.timeRange.token, whenUsed .timeRange fun _ => TimeTable.render vars.now lang),
   (Slot.siteTitle.token, a.siteTitle),
   (Slot.symbol.token, Template.symbolNotice lang),
   (Slot.relevantPassage.token, whenUsed .relevantPassage fun _ => Passages.render evidence),
   (Slot.lang.token, lang.display),
   (Slot.query.token, vars.query),
   (Slot.history.token, vars.history)]

def build (a : PromptAssembler) (kind : PromptKind) (tag : String) (vars : PromptVars)
    (evidence : List EvidenceDoc) (space : Option SpacePrompt) : String :=
  let template := a.template kind tag space
  substitute template (a.values template (Lang.ofTag tag) vars evidence)

end PromptAssembler

end NoteAssistant
