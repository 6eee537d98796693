/-! # Help pages of the command line -/

namespace NoteAssistant.Command

inductive Topic where
  | program
  | check
  | prompt
  | help
  deriving DecidableEq, Repr

/-- A form of the command line and what it is for. -/
structure HelpEntry where
  form : String
  purpose : String
  deriving DecidableEq, Repr

structure HelpPage where
  about : String
  usage : String
  commands : List HelpEntry
  options : List HelpEntry
  deriving DecidableEq, Repr

namespace Topic

def ofCommand? : String → Option Topic
  | "check" => some check
  | "prompt" => some prompt
  | "help" => some help
  | _ => none

def about : Topic → String
  | program => "Personal knowledge-base assistant: configuration check and prompt preview"
  | check => "Validate configuration and show which driver serves each capability"
  | prompt => "Render a prompt template with empty evidence"
  | help => "Print this message or the help of the given subcommand(s)"

/-- The commands, as a page lists them. -/
def commands : List HelpEntry :=
  [⟨"check", check.about⟩, ⟨"prompt", prompt.about⟩, ⟨"help", help.about⟩]

/-- The options of a command, without the one for help. -/
def options : Topic → List HelpEntry
  | program => [config]
  | check => [config, ⟨"    --plain", "Disable colored output"⟩]
  | prompt =>
    [config, ⟨"    --kind <KIND>", "[default: rag]"⟩,
      ⟨"    --lang <LANG>", "Prompt language; the site default when omitted"⟩]
  | help => []
where
  config : HelpEntry :=
    ⟨"    --config <CONFIG>",
      "Read configuration from this file instead of the standard locations"⟩

def page (t : Topic) : HelpPage :=
  let help : HelpEntry := ⟨"-h, --help", "Print help"⟩
  match t with
  | program =>
    ⟨t.about, "mnemo [OPTIONS] [COMMAND]", commands,
      t.options ++ [help, ⟨"-V, --version", "Print version"⟩]⟩
  | check => ⟨t.about, "mnemo check [OPTIONS]", [], t.options ++ [help]⟩
  | prompt => ⟨t.about, "mnemo prompt [OPTIONS]", [], t.options ++ [help]⟩
  | .help => ⟨t.about, "mnemo help [COMMAND]", commands, []⟩

end Topic

namespace HelpPage

/-- A titled list in two columns, the second two blanks behind the longest form. -/
def columns (title : String) (entries : List HelpEntry) : List String :=
  let width := entries.foldl (fun w e => max w e.form.length) 0
  let line (e : HelpEntry) : String :=
    "  " ++ e.form ++ String.ofList (List.replicate (width - e.form.length + 2) ' ') ++ e.purpose
  if entries.isEmpty then [] else "" :: title :: entries.map line

def lines (p : HelpPage) : List String :=
  [p.about, "", "Usage: " ++ p.usage] ++ columns "Commands:" p.commands ++
    columns "Options:" p.options

end HelpPage

end NoteAssistant.Command
