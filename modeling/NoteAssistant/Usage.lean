/-! # Token usage -/

namespace NoteAssistant

/-- Tokens read and written by a model. -/
structure TokenUsage where
  input : UInt32
  output : UInt32
  deriving DecidableEq, Repr

namespace TokenUsage

def zero : TokenUsage := ⟨0, 0⟩

def total (u : TokenUsage) : UInt32 := u.input + u.output

instance : Add TokenUsage := ⟨fun u v => ⟨u.input + v.input, u.output + v.output⟩⟩

end TokenUsage

/-- What one job spent, and on which model. -/
structure UsageRecord where
  subject : String
  model : String
  usage : TokenUsage
  deriving DecidableEq, Repr

end NoteAssistant
