import NoteAssistant.Number.Double

/-! # TOML values -/

namespace NoteAssistant.Toml

inductive Value where
  | string (s : String)
  | integer (n : Int)
  | float (x : Double)
  | boolean (b : Bool)
  /-- A date, a time or both, in its normal text form. -/
  | datetime (text : String)
  | array (items : List Value)
  /-- A table; its keys are distinct. -/
  | table (entries : List (String × Value))

end NoteAssistant.Toml
