import NoteAssistant.Config.Environment
import NoteAssistant.Config.Shape
import NoteAssistant.Config.Validation
import NoteAssistant.Toml.Document

/-! # Loading a configuration

Files are laid over one another and the environment over all of them. A loaded
configuration has passed validation.
-/

namespace NoteAssistant.Config

/-- The settings of files, the first one at the bottom, or a report for each text
    that is no TOML. -/
def fileSettings (texts : List String) : Except (List Report) Setting :=
  let parsed := texts.map Toml.parse?
  if parsed.all Option.isSome then
    .ok <| parsed.foldl (fun below es =>
      below.updatedBy (.table (Setting.ofTomlEntries (es.getD [])))) (.table [])
  else .error <| (parsed.filter Option.isNone).map fun _ => ⟨.unreadable, none⟩

/-- Loads settings from files, the first one at the bottom, and from the
    environment. Problems are looked up in `sources` in their order. -/
def load (texts : List String) (vars : List (String × String)) (sources : List Source) :
    Except (List Report) Config := do
  let settings ← fileSettings texts
  match Shape.config.reader [] (settings.updatedBy (Environment.settings vars)) with
  | .error misfit => .error [misfit.report sources]
  | .ok c =>
    match c.problems with
    | [] => .ok c
    | ps => .error (ps.map (Report.locate sources))

/-- Loads a configuration from one text, without the environment. -/
def ofText (text : String) : Except (List Report) Config :=
  load [text] [] [⟨"<inline>", text⟩]

/-- Loads a configuration from one file, if it is there, and the environment. -/
def ofFile (file : Option Source) (vars : List (String × String)) :
    Except (List Report) Config :=
  load (file.toList.map (·.text)) vars file.toList

/-- Loads a configuration from the file of the user, the file of the working
    directory over it, and the environment. Problems are looked for in the file
    of the working directory first. -/
def ofLayers (directory user : Option Source) (vars : List (String × String)) :
    Except (List Report) Config :=
  load ((user.toList ++ directory.toList).map (·.text)) vars
    (directory.toList ++ user.toList)

end NoteAssistant.Config
