import NoteAssistant.Command.Help
import NoteAssistant.Prompt.Kind
import NoteAssistant.Text.Search

/-! # Arguments of the command line

Options may stand before and after the name of a command; `--config` is known to
every command, the other options only to their own.
-/

namespace NoteAssistant.Command

inductive Task where
  | check
  /-- Shows a prompt, in the site's language if none is given. -/
  | prompt (kind : PromptKind) (lang : Option String)
  /-- Nothing was asked for. -/
  | hint
  deriving DecidableEq, Repr

inductive Invocation where
  | version
  | help (topic : Topic)
  /-- A task with the configuration file that was named for it. -/
  | run (config : Option String) (task : Task)
  deriving DecidableEq, Repr

/-- Where options stand. -/
inductive Level where
  | top
  | check
  | prompt
  deriving DecidableEq, Repr

/-- Options with a value. -/
inductive Setting where
  | config
  | kind
  | lang
  deriving DecidableEq, Repr

structure Options where
  config : Option String := none
  plain : Bool := false
  kind : Option PromptKind := none
  lang : Option String := none
  deriving DecidableEq, Repr

namespace Level

/-- The option with a value that a name stands for at a level. -/
def setting? : Level → String → Option Setting
  | _, "config" => some .config
  | prompt, "kind" => some .kind
  | prompt, "lang" => some .lang
  | _, _ => none

/-- The topic that help at a level is about. -/
def topic : Level → Topic
  | top => .program
  | check => .check
  | prompt => .prompt

/-- The level of the command with a name. -/
def ofCommand? : String → Option Level
  | "check" => some check
  | "prompt" => some prompt
  | _ => none

end Level

namespace Options

/-- Takes the value of an option, which may be given once and must fit. -/
def set? (o : Options) (s : Setting) (value : String) : Option Options :=
  match s with
  | .config =>
    if o.config.isNone && value ≠ "" then some { o with config := some value } else none
  | .kind =>
    if o.kind.isNone then (PromptKind.ofName? value).map ({ o with kind := some · }) else none
  | .lang => if o.lang.isNone then some { o with lang := some value } else none

end Options

inductive Argument where
  /-- The end of options. -/
  | separator
  /-- An option by its long name, maybe with a value. -/
  | long (name : String) (value : Option String)
  | short (letter : Char)
  | word (text : String)
  deriving DecidableEq, Repr

namespace Argument

def ofString (s : String) : Argument :=
  match s.toList with
  | ['-', '-'] => .separator
  | '-' :: '-' :: name =>
    match Text.cut? ['='] name with
    | some (name, value) => .long (String.ofList name) (some (String.ofList value))
    | none => .long (String.ofList name) none
  | '-' :: letter :: _ => .short letter
  | _ => .word s

end Argument

/-- The text of an argument that can be the value of the option in front of it. -/
def asValue? (s : String) : Option String :=
  match Argument.ofString s with
  | .word text => some text
  | _ => none

/-- A request for help by the names after the command for it. -/
def helpOn (names : List String) : Option Invocation :=
  match names with
  | [] => some (.help .program)
  | [name] => (Topic.ofCommand? name).map .help
  | _ => none

/-- The task of a level, with the configuration file named above it if it names
    none itself. -/
def finish (level : Level) (above : Option String) (o : Options) : Invocation :=
  .run (o.config.or above) <|
    match level with
    | .top => .hint
    | .check => .check
    | .prompt => .prompt (o.kind.getD .rag) o.lang

/-- Reads the arguments at a level; nothing if they are not as they should be. -/
def parse (level : Level) (above : Option String) (o : Options) :
    List String → Option Invocation
  | [] => some (finish level above o)
  | arg :: rest =>
    match Argument.ofString arg with
    | .separator => if rest.isEmpty then some (finish level above o) else none
    | .short letter =>
      if letter = 'h' then some (.help level.topic)
      else if letter = 'V' && level = .top then some .version
      else none
    | .word name =>
      if level ≠ .top then none
      else if name = "help" then helpOn rest
      else (Level.ofCommand? name).bind fun l => parse l o.config {} rest
    | .long "help" none => some (.help level.topic)
    | .long "version" none => if level = .top then some .version else none
    | .long "plain" none =>
      if level = .check && !o.plain then parse level above { o with plain := true } rest else none
    | .long name attached =>
      match level.setting? name with
      | none => none
      | some s =>
        match attached, rest with
        | some value, rest => (o.set? s value).bind fun o => parse level above o rest
        | none, next :: rest =>
          ((asValue? next).bind (o.set? s)).bind fun o => parse level above o rest
        | none, [] => none

/-- The request that the arguments of a run make. -/
def Invocation.ofArguments? (args : List String) : Option Invocation := parse .top none {} args

end NoteAssistant.Command
