import NoteAssistant.Command.Arguments
import NoteAssistant.Config.Loading
import NoteAssistant.Prompt.Assembly
import NoteAssistant.Routing.Router
import NoteAssistant.Vault.ContentKey
import NoteAssistant.Wire.Service

/-! # The command line

A run checks a configuration and shows which driver serves each usage key, or
shows a prompt as it would be sent.
-/

namespace NoteAssistant.Command

/-- What a run can see of the machine it is on. -/
structure Surroundings where
  /-- The text of a file, if it is there. -/
  file : String → Option String
  environment : List (String × String)
  /-- A key that is suggested where none is configured. -/
  freshKey : String
  now : Local

structure Outcome where
  code : Nat
  output : List String
  /-- Lines for the user that are no result. -/
  diagnostics : List String
  deriving DecidableEq, Repr

namespace Surroundings

def fromEnvironment? (s : Surroundings) (name : String) : Option String := s.environment.lookup name

def source? (s : Surroundings) (path : String) : Option Source := (s.file path).map (⟨path, ·⟩)

/-- The file with the user's own configuration. -/
def userFile? (s : Surroundings) : Option String :=
  let directory := match (s.fromEnvironment? "XDG_CONFIG_HOME").filter
      (Text.startsWith ['/'] ·.toList) with
    | some path => some path
    | none => (s.fromEnvironment? "HOME").map (· ++ "/.config")
  directory.map (· ++ "/mnemo/mnemo.toml")

/-- The file with the configuration of the current directory. -/
def localFile : String := "mnemo.toml"

/-- The files that are looked at: the named one, or else those in known places. -/
def files (s : Surroundings) : Option String → List String
  | some path => [path]
  | none => localFile :: s.userFile?.toList

/-- The configuration, from the named file or else from the known places. -/
def config (s : Surroundings) : Option String → Except (List Report) Config
  | some path => Config.ofFile (s.source? path) s.environment
  | none =>
    Config.ofLayers (s.source? localFile) (s.userFile?.bind s.source?) s.environment

end Surroundings

def version : String := "mnemo 0.1.0"

def hint : String := "mnemo: use --help for available commands"

/-- The lines of a text, each moved to the right. -/
def indented (text : String) : List String := (text.splitOn "\n").map ("    " ++ ·)

/-- The lines about problems of a configuration. Only the first one starts with the name
    of the program, whatever the texts in the reports hold. -/
def problemLines (reports : List Report) : List String :=
  let ending := if reports.length = 1 then "" else "s"
  s!"mnemo: {reports.length} configuration error{ending}" ::
    reports.flatMap fun r =>
      s!"  {r.problem.code}" :: indented r.problem.message ++
        (r.problem.help.map ("help: " ++ ·)).toList.flatMap indented ++
        (r.place.map fun p => s!"in {p.source} at byte {p.span.start}").toList.flatMap indented

/-- The router of a configuration, with the drivers and bindings that it lists. -/
def router (c : Config) (lookup : String → Option String) : Except Fault Router := do
  let services ← c.drivers.mapM fun d => Wire.Service.ofConfig d lookup
  Router.build (services.map (·.profile)) c.usage (.ofConfig c.site.title c.overrides)
    c.site.defaultLang

/-- A name and what is said about it. -/
def row (name text : String) : String :=
  "    " ++ name ++ String.ofList (List.replicate (20 - name.length) ' ') ++ " " ++ text

def checkLines (r : Router) (key : Option ContentKey) (freshKey : String) : List String :=
  let rule := "  " ++ String.ofList (List.replicate 50 '-')
  let keyLines := match key with
    | some _ => [row "content key" "configured"]
    | none => [row "content key" "not configured", row "" s!"[vault] key = \"{freshKey}\""]
  ["", "  mnemo check", rule] ++ (r.table.map fun (key, d) => row key (d.getD "unsupported"))
    ++ [rule, row "prompt language" r.lang] ++ keyLines ++ [""]

def check (s : Surroundings) (c : Config) : Except Fault (List String) := do
  let r ← router c s.fromEnvironment?
  let key ← ContentKey.ofConfig c.vault s.fromEnvironment?
  .ok (checkLines r key s.freshKey)

/-- A prompt with stand-ins for the query and the history, and no evidence. -/
def preview (s : Surroundings) (c : Config) (kind : PromptKind) (lang : Option String) :
    String :=
  (PromptAssembler.ofConfig c.site.title c.overrides).build kind (lang.getD c.site.defaultLang)
    ⟨s.now, "<query>", "<history>"⟩ [] none

/-- Does a task under a configuration that can be used. -/
def perform (s : Surroundings) (c : Config) : Task → Outcome
  | .hint => ⟨0, [hint], []⟩
  | .prompt kind lang => ⟨0, [preview s c kind lang], []⟩
  | .check =>
    match check s c with
    | .ok lines => ⟨0, lines, []⟩
    | .error e => ⟨1, [], ["mnemo: " ++ e.message]⟩

def run (s : Surroundings) (args : List String) : Outcome :=
  match Invocation.ofArguments? args with
  | none => ⟨2, [], ["error: see --help for how arguments are given"]⟩
  | some .version => ⟨0, [version], []⟩
  | some (.help topic) => ⟨0, topic.page.lines, []⟩
  | some (.run path task) =>
    match s.config path with
    | .error reports => ⟨1, [], problemLines reports⟩
    | .ok c => perform s c task

end NoteAssistant.Command
